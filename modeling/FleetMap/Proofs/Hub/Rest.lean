import FleetMap.Proofs.Hub.FanOut
import FleetMap.Proofs.Hub.Rendering

set_option autoImplicit false

namespace FleetMap

open Act Hub

namespace World

/-- A method that is listed on a bus is one that its view is subscribed with, on the topic for it
and on the bus of the view. -/
def Tuned (w : World) : Prop :=
  ∀ bus topic g number, .gesture g number ∈ (w.bus bus).handlers topic →
    ∃ x, w.views[number]? = some x ∧ bus = x.bus ∧ g.topic? = some topic

def ListsActive (w : World) : Prop :=
  ∀ bus topic g number, .gesture g number ∈ (w.bus bus).handlers topic → w.isActive number = true

/-- The view is there and inactive. -/
def Rests (w : World) (number : Nat) : Prop := ∃ x, w.views[number]? = some x ∧ x.active = false

structure LeavesView (number : Nat) (w v : World) : Prop where
  view : v.views[number]? = w.views[number]?
  drawings : v.drawings number = w.drawings number

variable {u v w : World} {number : Nat}

theorem LeavesView.refl (number : Nat) (w : World) : w.LeavesView number w := ⟨rfl, rfl⟩

theorem LeavesView.trans (first : u.LeavesView number v) (second : v.LeavesView number w) :
    u.LeavesView number w :=
  ⟨second.view.trans first.view, second.drawings.trans first.drawings⟩

theorem LeavesView.rests (leaves : w.LeavesView number v) (rests : w.Rests number) :
    v.Rests number := by
  obtain ⟨x, found, inactive⟩ := rests
  exact ⟨x, leaves.view.trans found, inactive⟩

theorem Rests.isActive (rests : w.Rests number) : w.isActive number = false := by
  obtain ⟨x, found, inactive⟩ := rests
  unfold World.isActive
  rw [found, Option.any_some, inactive]

theorem Rests.lt_length (rests : w.Rests number) : number < w.views.length := by
  obtain ⟨x, found, _⟩ := rests
  exact (List.getElem?_eq_some_iff.mp found).1

/-- What is listed in its place only, and as often as its view is active, is listed for active views
only. -/
theorem Tuned.listsActive (tuned : w.Tuned) (inStep : w.InStep) : w.ListsActive := by
  intro bus topic g number member
  obtain ⟨x, found, rfl, place⟩ := tuned bus topic g number member
  have counts := inStep number x found
  have listed := List.count_pos_iff.mpr member
  unfold isActive
  rw [found, Option.any_some]
  cases active : x.active with
  | true => rfl
  | false =>
    simp only [InStepAt, active, Bool.false_eq_true, if_false] at counts
    obtain ⟨_, cycled, toggled⟩ := counts
    cases g with
    | cyclePattern =>
      obtain rfl := Option.some.inj place
      omega
    | toggleIsometric =>
      obtain rfl := Option.some.inj place
      omega
    | requestRender | activate | deactivate | render | receive => cases place

/-- Views keep their buses, and no methods are listed that were not listed before. -/
theorem Tuned.of_kept (tuned : w.Tuned)
    (views : ∀ (number : Nat) (x : View), w.views[number]? = some x →
      ∃ y : View, v.views[number]? = some y ∧ y.bus = x.bus)
    (handlers : ∀ bus topic g number, .gesture g number ∈ (v.bus bus).handlers topic →
      .gesture g number ∈ (w.bus bus).handlers topic) : v.Tuned := by
  intro bus topic g number member
  obtain ⟨x, found, rfl, place⟩ := tuned bus topic g number (handlers bus topic g number member)
  obtain ⟨y, found_now, same⟩ := views number x found
  exact ⟨y, found_now, same.symm, place⟩

theorem Tuned.of_modify (tuned : w.Tuned) {f : View → View} (bus : ∀ x, (f x).bus = x.bus)
    (views : v.views = w.views.modify number f)
    (handlers : ∀ bus topic g number, .gesture g number ∈ (v.bus bus).handlers topic →
      .gesture g number ∈ (w.bus bus).handlers topic) : v.Tuned := by
  refine tuned.of_kept ?_ handlers
  intro other x found
  rw [views, List.getElem?_modify, found]
  refine ⟨_, rfl, ?_⟩
  split
  · exact bus x
  · rfl

theorem Tuned.of_same (tuned : w.Tuned) (views : v.views = w.views)
    (buses : ∀ bus, v.bus bus = w.bus bus) : v.Tuned := by
  refine tuned.of_kept ?_ ?_
  · intro number x found
    exact ⟨x, views ▸ found, rfl⟩
  · intro bus topic g number member
    rwa [buses bus] at member

theorem Tuned.asked (tuned : w.Tuned) (number : Nat) : (w.asked number).Tuned := by
  refine tuned.of_modify ?_ (views_asked w number) ?_
  · exact fun _ => rfl
  · intro bus topic g other member
    rwa [bus_asked] at member

theorem Tuned.modifyView (tuned : w.Tuned) {f : View → View} (bus : ∀ x, (f x).bus = x.bus)
    (number : Nat) : (w.modifyView number f).Tuned :=
  tuned.of_modify bus rfl fun _ _ _ _ => id

theorem Tuned.attached (tuned : w.Tuned) {x : View} (found : w.views[number]? = some x) :
    (w.attached number x).Tuned := by
  have kept : ∀ (other : Nat) (y : View), w.views[other]? = some y →
      ∃ z : View, (w.attached number x).views[other]? = some z ∧ z.bus = y.bus := by
    intro other y found_other
    rw [views_attached, List.getElem?_modify, found_other]
    refine ⟨_, rfl, ?_⟩
    split
    · rfl
    · rfl
  have listed : ∀ bus topic g other,
      .gesture g other ∈ ((w.attached number x).bus bus).handlers topic →
      .gesture g other ∈ (w.bus bus).handlers topic ∨
        other = number ∧ bus = x.bus ∧ g.topic? = some topic := by
    intro bus topic g other member
    rw [bus_attached] at member
    split at member
    · rename_i same
      subst same
      rcases Bus.mem_subscribe member with ⟨rfl, itself⟩ | member
      · obtain ⟨rfl, rfl⟩ := Listener.gesture.inj itself
        exact .inr ⟨rfl, rfl, rfl⟩
      · rcases Bus.mem_subscribe member with ⟨rfl, itself⟩ | member
        · obtain ⟨rfl, rfl⟩ := Listener.gesture.inj itself
          exact .inr ⟨rfl, rfl, rfl⟩
        · exact .inl member
    · exact .inl member
  intro bus topic g other member
  rcases listed bus topic g other member with before | ⟨rfl, rfl, place⟩
  · obtain ⟨y, found_other, rfl, place⟩ := tuned bus topic g other before
    obtain ⟨z, found_now, same⟩ := kept other y found_other
    exact ⟨z, found_now, same.symm, place⟩
  · obtain ⟨z, found_now, same⟩ := kept other x found
    exact ⟨z, found_now, same.symm, place⟩

theorem Tuned.detached (tuned : w.Tuned) (x : View) : (w.detached number x).Tuned := by
  refine tuned.of_modify ?_ (views_detached w number x) ?_
  · exact fun _ => rfl
  · intro bus topic g other member
    rw [bus_detached] at member
    split at member
    · rename_i same
      rw [same]
      exact Bus.mem_unsubscribe (Bus.mem_unsubscribe member)
    · exact member

theorem Tuned.setBus (tuned : w.Tuned) {bus : String} {b : Bus}
    (handlers : ∀ topic g number, .gesture g number ∈ b.handlers topic →
      .gesture g number ∈ (w.bus bus).handlers topic) : (w.setBus bus b).Tuned := by
  refine tuned.of_kept (fun _ x found => ⟨x, found, rfl⟩) ?_
  intro other topic g number member
  rw [bus_setBus] at member
  split at member
  · rename_i same
    rw [same]
    exact handlers topic g number member
  · exact member

end World

/-- A change that leaves the wiring to activation and deactivation, and by which no method of a view
is subscribed otherwise. -/
def Change.LeavesHandlers (ids : List String) : Change → Prop
  | .subscribe _ _ l => ∀ g number, l ≠ .gesture g number
  | c => c.LeavesWiring ids

theorem Change.LeavesHandlers.leavesWiring {ids : List String} {c : Change}
    (leaves : c.LeavesHandlers ids) : c.LeavesWiring ids := by
  cases c with
  | subscribe bus topic l => exact fun number g _ => leaves g number
  | _ => exact leaves

theorem World.Tuned.apply {w : World} (tuned : w.Tuned) {ids : List String} {c : Change}
    (leaves : c.LeavesHandlers ids) : (c.apply w).Tuned := by
  cases c with
  | subscribe bus topic l =>
    refine tuned.setBus (b := (w.bus bus).subscribe topic l) ?_
    intro topic' g number member
    rcases Bus.mem_subscribe member with ⟨_, itself⟩ | before
    · exact absurd itself.symm (leaves g number)
    · exact before
  | unsubscribe bus topic l => exact tuned.setBus fun _ _ _ => Bus.mem_unsubscribe
  | openBus bus => exact tuned.setBus fun _ _ _ => id
  | makeView id bus settings hook =>
    refine tuned.of_kept ?_ fun _ _ _ _ member => member
    intro number x found
    refine ⟨x, ?_, rfl⟩
    change (w.views ++ [_])[number]? = some x
    rw [List.getElem?_append_left (List.getElem?_eq_some_iff.mp found).1]
    exact found
  | activate number =>
    rcases Change.apply_activate w number with same | ⟨x, found, _, attached⟩
    · rw [same]
      exact tuned
    · rw [attached]
      exact tuned.attached found
  | deactivate number =>
    rcases Change.apply_deactivate w number with same | ⟨x, _, _, detached⟩
    · rw [same]
      exact tuned
    · rw [detached]
      exact tuned.detached x
  | tell number ds =>
    rcases Change.apply_tell w number ds with same | ⟨_, told⟩
    · rw [same]
      exact tuned
    · rw [told]
      apply World.Tuned.asked
      apply tuned.modifyView
      exact fun _ => rfl
  | ask number => exact tuned.asked number
  | cycle number | toggle number =>
    apply World.Tuned.asked
    apply tuned.modifyView
    exact fun _ => rfl
  | restyle number settings | pose number stance =>
    refine tuned.of_modify ?_ rfl fun _ _ _ _ member => member
    exact fun _ => rfl
  | note | firing | register | remove | store | tellInbox | makePlayer | modifyPlayer | setLooping
  | beginFanOut | call | settle => exact tuned.of_same rfl fun _ => rfl

/-- A change that does nothing to one view but what happens when it is told of devices or
deactivated. -/
def Change.Passes (number : Nat) : Change → Prop
  | .activate n | .ask n | .cycle n | .toggle n | .restyle n _ | .pose n _ => n ≠ number
  | _ => True

namespace World

variable {w v : World} {number : Nat}

theorem LeavesView.of_same (views : v.views = w.views) (journal : v.journal = w.journal) :
    w.LeavesView number v :=
  ⟨by rw [views], by unfold World.drawings; rw [journal]⟩

theorem LeavesView.enter {e : Entry} (drawing : e.drawing? number = none) (w : World) :
    w.LeavesView number (w.enter e) := ⟨rfl, List.filterMap_cons_none drawing⟩

theorem LeavesView.modifyView {other : Nat} (different : other ≠ number) (f : View → View)
    (w : World) : w.LeavesView number (w.modifyView other f) :=
  ⟨List.getElem?_modify_ne _ _ different, rfl⟩

theorem LeavesView.asked {other : Nat} (different : other ≠ number) (w : World) :
    w.LeavesView number (w.asked other) where
  view := by rw [views_asked, List.getElem?_modify_ne _ _ different]
  drawings := w.drawings_asked_of_ne different.symm

/-- A view that rests neither listens nor can be deactivated. -/
theorem Rests.leavesView_apply {c : Change} (rests : w.Rests number) (passes : c.Passes number) :
    w.LeavesView number (c.apply w) := by
  cases c with
  | note n => exact .enter rfl w
  | firing name signal => exact .trans (.enter rfl w) (.of_same rfl rfl)
  | store ds => exact ⟨rfl, List.filterMap_cons_none rfl⟩
  | call | settle => exact .enter rfl w
  | makeView id bus settings hook =>
    exact ⟨List.getElem?_append_left rests.lt_length, rfl⟩
  | activate n =>
    rcases Change.apply_activate w n with same | ⟨x, _, _, attached⟩
    · rw [same]
      exact .refl number w
    · rw [attached]
      refine ⟨by rw [views_attached, List.getElem?_modify_ne _ _ passes], ?_⟩
      exact drawings_asked_of_ne _ passes.symm
  | deactivate n =>
    rcases Change.apply_deactivate w n with same | ⟨x, found, active, detached⟩
    · rw [same]
      exact .refl number w
    · have different : n ≠ number := by
        rintro rfl
        have inactive := rests.isActive
        simp [World.isActive, found, active] at inactive
      rw [detached]
      exact ⟨by rw [views_detached, List.getElem?_modify_ne _ _ different], rfl⟩
  | tell n ds =>
    rcases Change.apply_tell w n ds with same | ⟨active, told⟩
    · rw [same]
      exact .refl number w
    · have different : n ≠ number := by
        rintro rfl
        rw [rests.isActive] at active
        exact absurd active Bool.false_ne_true
      rw [told]
      exact .trans (.modifyView different _ w) (.asked different _)
  | ask n => exact .asked passes w
  | cycle n | toggle n => exact .trans (.modifyView passes _ w) (.asked passes _)
  | restyle n settings | pose n stance =>
    exact .trans (.modifyView passes _ w) (.enter rfl _)
  | openBus | register | remove | subscribe | unsubscribe | tellInbox | makePlayer | modifyPlayer
  | setLooping | beginFanOut => exact .of_same rfl rfl

end World

/-- Views are wired, their methods are listed in their own places only, the scripts are the given
ones and views have the given names only. -/
def World.InOrder (scripts : List (String × Script)) (ids : List String) (w : World) : Prop :=
  (wiring scripts ids).holds w ∧ w.Tuned

/-- The view is there, and none but the given names can stand for it. -/
def World.KnownAs (names : List String) (number : Nat) (w : World) : Prop :=
  number < w.views.length ∧ ∀ id, lookupField id w.viewNames = some number → id ∈ names

def tuning (scripts : List (String × Script)) (ids : List String) : Law where
  holds := World.InOrder scripts ids
  moves _ _ := True
  breaks := True
  refl _ := trivial
  trans _ _ := trivial

def naming (names : List String) (number : Nat) : Law where
  holds := World.KnownAs names number
  moves _ _ := True
  breaks := True
  refl _ := trivial
  trans _ _ := trivial

def repose (scripts : List (String × Script)) (ids names : List String) (number : Nat) : Law where
  holds w := w.InOrder scripts ids ∧ w.KnownAs names number ∧ w.Rests number
  moves w v := w.LeavesView number v
  breaks := True
  refl w := .refl number w
  trans := World.LeavesView.trans

structure Change.SparesView (ids : List String) (number : Nat) (c : Change) : Prop where
  leaves : c.LeavesHandlers ids
  passes : c.Passes number

theorem World.length_views_le (w : World) (c : Change) :
    w.views.length ≤ (c.apply w).views.length := by
  cases c with
  | activate number =>
    rcases Change.apply_activate w number with same | ⟨x, _, _, attached⟩
    · simp [same]
    · simp [attached, views_attached]
  | deactivate number =>
    rcases Change.apply_deactivate w number with same | ⟨x, _, _, detached⟩
    · simp [same]
    · simp [detached, views_detached]
  | tell number ds =>
    rcases Change.apply_tell w number ds with same | ⟨_, told⟩
    · simp [same]
    · simp [told, World.modifyView]
  | makeView | ask | cycle | toggle | restyle | pose =>
    simp [Change.apply, World.modifyView, World.enter]
  | _ => exact Nat.le_refl _

namespace Law

variable {scripts : List (String × Script)} {ids names : List String} {number : Nat}

theorem tuning_change {w : World} {c : Change} (leaves : c.LeavesHandlers ids)
    (holds : (tuning scripts ids).holds w) :
    (tuning scripts ids).holds (c.apply w) ∧ (tuning scripts ids).moves w (c.apply w) :=
  ⟨⟨(wiring_change leaves.leavesWiring holds.1).1, holds.2.apply leaves⟩, trivial⟩

theorem listsActive_of_tuning {w : World} (holds : (tuning scripts ids).holds w) :
    w.ListsActive := holds.2.listsActive holds.1.1.inStep

theorem fansOut_leavesHandlers : FansOut (Change.LeavesHandlers ids) :=
  ⟨fun _ => trivial, trivial, fun _ _ _ _ => trivial, fun _ _ _ => trivial⟩

theorem tuning_permits : (tuning scripts ids).Permits (Change.LeavesHandlers ids) :=
  .of_change tuning_change fansOut_leavesHandlers

theorem routine_leavesHandlers : Routine (Change.LeavesHandlers ids) := by
  apply routine_of_allowed
  intro c routine
  have leaves : c.LeavesWiring ids := leavesWiring_of_routine routine
  cases c with
  | subscribe => exact routine.elim
  | _ => exact leaves

theorem naming_change {w : World} (c : Change) (holds : (naming names number).holds w) :
    (naming names number).holds (c.apply w) ∧ (naming names number).moves w (c.apply w) := by
  obtain ⟨there, named⟩ := holds
  refine ⟨⟨Nat.lt_of_lt_of_le there (w.length_views_le c), ?_⟩, trivial⟩
  by_cases makes : ∃ id bus settings hook, c = .makeView id bus settings hook
  · obtain ⟨id, bus, settings, hook, rfl⟩ := makes
    intro other stands
    change lookupField other (putField id w.views.length w.viewNames) = some number at stands
    by_cases same : other = id
    · rw [same, lookupField_putField_self] at stands
      exact absurd there (Option.some.inj stands ▸ Nat.lt_irrefl _)
    · rw [lookupField_putField_of_ne same] at stands
      exact named other stands
  · have same_names := (Change.apply_names w c).2 fun id bus settings hook made =>
      makes ⟨id, bus, settings, hook, made⟩
    rw [same_names]
    exact named

theorem naming_permits : (naming names number).Permits Change.IsOrdinary :=
  .of_always naming_change

theorem naming_binds : (naming names number).Binds Change.IsOrdinary :=
  fun _ _ _ _ _ => ⟨fun c _ => c.within_ordinary, fun _ => trivial⟩

theorem repose_change {w : World} {c : Change} (spares : c.SparesView ids number)
    (holds : (repose scripts ids names number).holds w) :
    (repose scripts ids names number).holds (c.apply w) ∧
      (repose scripts ids names number).moves w (c.apply w) := by
  obtain ⟨order, known, rests⟩ := holds
  have leaves := rests.leavesView_apply spares.passes
  exact ⟨⟨(tuning_change spares.leaves order).1, (naming_change c known).1, leaves.rests rests⟩,
    leaves⟩

theorem fansOut_sparesView : FansOut (Change.SparesView ids number) := by
  constructor
  all_goals
    intros
    exact ⟨trivial, trivial⟩

theorem repose_permits :
    (repose scripts ids names number).Permits (Change.SparesView ids number) :=
  .of_change repose_change fansOut_sparesView

theorem aside_sparesView : Aside (Change.SparesView ids number) := by
  constructor
  all_goals
    intros
    exact ⟨trivial, trivial⟩

theorem handles_sparesView {other : Nat} (different : other ≠ number) :
    Handles (Change.SparesView ids number) other :=
  ⟨⟨trivial, different⟩, ⟨trivial, trivial⟩, ⟨trivial, different⟩, ⟨trivial, different⟩,
    ⟨trivial, different⟩⟩

end Law

def Mention.isGesture : Mention → Bool
  | .gesture _ _ => true
  | _ => false

/-- A command that leaves the wiring to activation and deactivation, and subscribes no method of a
view. -/
def Command.leavesHandlers (scripts : List (String × Script)) (ids : List String) : Command → Bool
  | .subscribe _ _ who => !who.isGesture
  | c => c.leavesWiring scripts ids

/-- What a view at rest can be made to do without changing. -/
def Gesture.isIdle : Gesture → Bool
  | .deactivate | .render | .receive => true
  | _ => false

/-- A command that calls no method of a view of the given names, and replaces nothing of it. -/
def Command.sparesViews (names : List String) : Command → Bool
  | .gesture g id => g.isIdle || !decide (id ∈ names)
  | .setSettings id _ | .setStance id _ => !decide (id ∈ names)
  | _ => true

/-- A session in which views are wired by being activated and deactivated only. -/
def Hub.leavesHandlers (scripts : List (String × Script)) (steps : List Command) : Bool :=
  (allCommands scripts steps).all fun c => c.leavesHandlers scripts (viewIds scripts steps)

theorem Mention.not_gesture_of_standsFor {who : Mention} (no_gesture : who.isGesture = false)
    {w : World} {l : Listener} (stands : who.StandsFor w l) (g : Gesture) (number : Nat) :
    l ≠ .gesture g number := by
  cases who with
  | inert =>
    rw [Mention.standsFor_inert stands]
    exact nofun
  | gesture h id => exact nomatch no_gesture
  | named name =>
    rcases Mention.standsFor_named stands with rfl | ⟨_, _, n, rfl⟩
    · exact nofun
    · exact nofun

/-- Commands that neither emit nor are about a single view make only changes that pass it. -/
theorem Command.within_passing {L : Law} {A : Change → Prop} {scripts : List (String × Script)}
    {ids : List String} (number : Nat) (wired : ∀ w, L.holds w → (wiring scripts ids).holds w)
    (allows : ∀ c : Change, c.LeavesHandlers ids → c.Passes number → A c) {c : Command}
    (leaves : c.leavesHandlers scripts ids) (named : ∀ id, c.viewId? = some id → id ∈ ids)
    (elsewhere : c.handlesViews = false) : c.Within L A := by
  cases c with
  | register who | remove who =>
    intro w l holds stands
    have no_view : who.mayBeView scripts ids = false := by
      simpa [Command.leavesHandlers, Command.leavesWiring] using leaves
    exact allows _ (Mention.not_view_of_standsFor no_view (wired w holds) stands) trivial
  | subscribe bus topic who =>
    intro w l holds stands
    have no_gesture : who.isGesture = false := by
      simpa [Command.leavesHandlers] using leaves
    exact allows _ (Mention.not_gesture_of_standsFor no_gesture stands) trivial
  | unsubscribe bus topic who =>
    intro w l holds stands
    have no_wire : who.isWire = false := by
      simpa [Command.leavesHandlers, Command.leavesWiring] using leaves
    exact allows _ (Mention.not_wire_of_standsFor no_wire stands) trivial
  | view id bus settings hook => exact fun _ => allows _ (named id rfl) trivial
  | update | updateDevice | clear | step | playLoop =>
    exact ⟨fun _ _ => ⟨allows _ trivial trivial, fun _ => allows _ trivial trivial⟩,
      fun _ _ _ => allows _ trivial trivial, fun _ => allows _ trivial trivial⟩
  | notify items =>
    cases items with
    | none => exact fun _ _ _ => allows _ trivial trivial
    | some items => exact fun _ _ _ => allows _ trivial trivial
  | tell | load => exact fun _ _ _ => allows _ trivial trivial
  | player => exact fun _ _ => allows _ trivial trivial
  | play | reset =>
    exact ⟨fun _ _ _ => allows _ trivial trivial, fun _ => allows _ trivial trivial⟩
  | pause => exact fun _ => allows _ trivial trivial
  | devices | isRegistered | listenerCount => trivial
  | emit | gesture | setSettings | setStance => cases elsewhere

theorem Command.within_tuning {scripts : List (String × Script)} {ids : List String} {c : Command}
    (leaves : c.leavesHandlers scripts ids) (named : ∀ id, c.viewId? = some id → id ∈ ids) :
    c.Within (tuning scripts ids) (Change.LeavesHandlers ids) := by
  cases elsewhere : c.handlesViews with
  | false =>
    exact Command.within_passing 0 (fun w (holds : (tuning scripts ids).holds w) => holds.1)
      (fun _ leaves _ => leaves) leaves named elsewhere
  | true =>
    cases c with
    | emit | gesture => trivial
    | setSettings | setStance => exact fun _ _ => trivial
    | _ => exact nomatch elsewhere

section Session

variable {scripts : List (String × Script)} {steps : List Command}
  (leaves : leavesHandlers scripts steps)

include leaves

theorem leavesHandlers_of_mem {c : Command} (member : c ∈ allCommands scripts steps) :
    c.leavesHandlers scripts (viewIds scripts steps) ∧
      ∀ id, c.viewId? = some id → id ∈ viewIds scripts steps :=
  ⟨List.all_eq_true.mp leaves c member, fun _ made => List.mem_filterMap.mpr ⟨c, member, made⟩⟩

theorem within_of_leavesHandlers {c : Command} (member : c ∈ allCommands scripts steps) :
    c.Within (tuning scripts (viewIds scripts steps))
      (Change.LeavesHandlers (viewIds scripts steps)) :=
  Command.within_tuning (leavesHandlers_of_mem leaves member).1
    (leavesHandlers_of_mem leaves member).2

theorem tuning_binds :
    (tuning scripts (viewIds scripts steps)).Binds
      (Change.LeavesHandlers (viewIds scripts steps)) := by
  intro w name script holds found
  obtain ⟨⟨_, rfl, _⟩, _⟩ := holds
  refine ⟨?_, fun _ => trivial⟩
  intro c member
  apply within_of_leavesHandlers leaves
  apply List.mem_append_right
  exact List.mem_flatMap.mpr ⟨(name, script), mem_of_lookupField found, member⟩

end Session

namespace Law

variable {scripts : List (String × Script)} {ids names : List String} {number : Nat}

/-- A view at rest is listed on no topic when an emission begins. -/
theorem repose_emit {fire : Fire}
    (fired : ∀ name signal,
      (repose scripts ids names number).Agree (fire name signal) (fire name signal))
    (bus topic : String) :
    (repose scripts ids names number).Agree (emit fire bus topic) (emit fire bus topic) := by
  apply agree_bind (repose_permits.make (aside_sparesView.openBus bus))
  intro _
  apply agree_get_bind
  intro w holds
  apply agree_fanOut_of_listed repose_change fansOut_sparesView
  · intro ds same
    cases same
  · intro who listed
    apply agree_trigger repose_permits fired aside_sparesView
    -- a method that is listed now is one of an active view, which the view at rest is not
    rintro g other rfl
    apply handles_sparesView
    rintro rfl
    have active := listsActive_of_tuning holds.1 bus topic g other listed
    rw [holds.2.2.isActive] at active
    exact absurd active Bool.false_ne_true

theorem repose_command {fire : Fire}
    (fired : ∀ name signal,
      (repose scripts ids names number).Agree (fire name signal) (fire name signal))
    {c : Command} (leaves : c.leavesHandlers scripts ids)
    (named : ∀ id, c.viewId? = some id → id ∈ ids) (spares : c.sparesViews names) :
    (repose scripts ids names number).Agree (command fire c) (command fire c) := by
  have elsewhere {id : String} (unnamed : id ∉ names) (w : World) (other : Nat)
      (holds : (repose scripts ids names number).holds w)
      (stands : lookupField id w.viewNames = some other) : other ≠ number := by
    rintro rfl
    exact unnamed (holds.2.1.2 id stands)
  apply agree_command_of repose_permits aside_sparesView fired c
  · exact Command.within_passing number
      (fun w (holds : (repose scripts ids names number).holds w) => holds.1.1)
      (fun _ leaves passes => ⟨leaves, passes⟩) leaves named
  · intro handles
    cases c with
    | emit bus topic => exact agree_map _ (repose_emit fired bus topic)
    | gesture g id =>
      by_cases unnamed : id ∈ names
      · have idle : g.isIdle = true := by
          simpa [Command.sparesViews, unnamed] using spares
        cases g with
        | deactivate =>
          exact agree_bind (agree_viewNamed id) fun n =>
            agree_bind (agree_deactivate repose_permits ⟨trivial, trivial⟩) fun _ => agree_pure _
        | render =>
          exact agree_bind (agree_viewNamed id) fun n =>
            agree_map _ (agree_render repose_permits aside_sparesView n)
        | receive =>
          exact agree_bind (agree_viewNamed id) fun n =>
            agree_bind (agree_fail _) fun _ => agree_pure _
        | cyclePattern | toggleIsometric | requestRender | activate => exact nomatch idle
      · exact agree_gesture repose_permits aside_sparesView fired g fun w other holds stands =>
          handles_sparesView (elsewhere unnamed w other holds stands)
    | setSettings id settings =>
      have unnamed : id ∉ names := by simpa [Command.sparesViews] using spares
      exact agree_setSettings repose_permits settings fun w other _ holds stands =>
        ⟨trivial, elsewhere unnamed w other holds stands⟩
    | setStance id stance =>
      have unnamed : id ∉ names := by simpa [Command.sparesViews] using spares
      exact agree_setStance repose_permits stance fun w other _ holds stands =>
        ⟨trivial, elsewhere unnamed w other holds stands⟩
    | _ => exact nomatch handles

theorem tuning_fireAt {steps : List Command} (leaves : leavesHandlers scripts steps) (depth : Nat)
    (name : String) (signal : Signal) :
    (tuning scripts (viewIds scripts steps)).Agree (fireAt depth name signal)
      (fireAt depth name signal) :=
  agree_fireAt tuning_permits routine_leavesHandlers (tuning_binds leaves) depth name signal

theorem naming_fireAt (depth : Nat) (name : String) (signal : Signal) :
    (naming names number).Agree (fireAt depth name signal) (fireAt depth name signal) :=
  agree_fireAt naming_permits routine_ordinary naming_binds depth name signal

/-- Scripts that call no method of the view leave it at rest, to whatever depth they are fired. -/
theorem repose_fireAt {steps : List Command} (leaves : leavesHandlers scripts steps)
    (spares : ∀ s ∈ scripts, ∀ c ∈ s.2.acts, c.sparesViews names) (depth : Nat) (name : String)
    (signal : Signal) :
    (repose scripts (viewIds scripts steps) names number).Agree (fireAt depth name signal)
      (fireAt depth name signal) := by
  apply agree_fireAt_of_acts
  · exact fun name signal w holds => repose_change ⟨trivial, trivial⟩ holds
  · intro w name script holds found fire fired c member
    obtain rfl : w.scripts = scripts := holds.1.1.2.1
    have listed := mem_of_lookupField found
    have known : c ∈ allCommands w.scripts steps :=
      List.mem_append_right _ (List.mem_flatMap.mpr ⟨_, listed, member⟩)
    obtain ⟨leaves_c, named⟩ := leavesHandlers_of_mem leaves known
    exact repose_command fired leaves_c named (spares _ listed c member)
  · exact fun _ _ _ _ _ _ => trivial

end Law

namespace World

/-- What fan-outs that begin in a world do not do to a view: a notice that comes while the view
rests is dropped, whenever the notification began, and an emission that begins while the view rests
calls none of its methods. -/
structure IsUnreached (fire : Fire) (number : Nat) (w : World) : Prop where
  notices : ∀ given, ∃ calls,
    (noticeRound fire w given).Describes w.registry.observers w ((notify fire given).run w) calls ∧
      ∀ c ∈ calls, c.who = .view number → c.start.Rests number →
        (noticeRound fire w given).result c = .ok () c.start
  signals : w.Rests number → ∀ bus topic, ∃ calls,
    (triggerRound fire w topic).Describes ((w.bus bus).handlers topic) (w.setBus bus (w.bus bus))
        ((emit fire bus topic).run w) calls ∧
      ∀ c ∈ calls, ∀ g, c.who ≠ .gesture g number

/-- Whatever a fan-out calls while the view rests leaves the view as it is, with all that happens in
the course of the call. There is one exception: an emission that began while the view was active
calls a method of it. -/
structure IsLeftAlone (fire : Fire) (number : Nat) (w : World) : Prop where
  notices : ∀ given, ∃ calls,
    (noticeRound fire w given).Describes w.registry.observers w ((notify fire given).run w) calls ∧
      ∀ c ∈ calls, c.start.Rests number →
        c.start.LeavesView number (leaves ((noticeRound fire w given).result c))
  signals : ∀ bus topic, ∃ calls,
    (triggerRound fire w topic).Describes ((w.bus bus).handlers topic) (w.setBus bus (w.bus bus))
        ((emit fire bus topic).run w) calls ∧
      ∀ c ∈ calls, c.start.Rests number →
        c.start.LeavesView number (leaves ((triggerRound fire w topic).result c)) ∨
          w.isActive number = true ∧ ∃ g, c.who = .gesture g number

theorem isUnreached (fire : Fire) (number : Nat) {w : World} (listed : w.ListsActive) :
    w.IsUnreached fire number := by
  constructor
  · intro given
    obtain ⟨calls, describes⟩ := notify_describes fire w given
    refine ⟨calls, describes, ?_⟩
    intro c _ who rests
    change (deliver fire (given.getD w.registry.devices) c.who).run c.start = _
    rw [who]
    change (tellView fire number _).run c.start = _
    rw [run_tellView, rests.isActive]
    rfl
  · intro rests bus topic
    obtain ⟨calls, describes⟩ := emit_describes fire w bus topic
    refine ⟨calls, describes, ?_⟩
    intro c member g who
    have active := listed bus topic g number (who ▸ describes.listed member)
    rw [rests.isActive] at active
    exact nomatch active

variable {scripts : List (String × Script)} {steps : List Command} {names : List String}
  {number : Nat}

/-- A fan-out finds the hub in order whenever it calls someone. -/
theorem InOrder.starts {w : World} {r : Round} {listeners : List Listener}
    {ends : EStateM.Result Stop World Nat} {calls : List Call}
    (order : w.InOrder scripts (viewIds scripts steps)) (known : w.KnownAs names number)
    (describes : r.Describes listeners w ends calls)
    (ordered : ∀ who, (tuning scripts (viewIds scripts steps)).Agree (r.call who) (r.call who))
    (named : ∀ who, (naming names number).Agree (r.call who) (r.call who)) :
    ∀ c ∈ calls, c.start.InOrder scripts (viewIds scripts steps) ∧
      c.start.KnownAs names number := by
  have orders := describes.starts_hold Law.tuning_change Law.fansOut_leavesHandlers
    (fun _ _ _ => trivial) ordered order
  have knows := describes.starts_hold (A := fun _ => True) (fun _ => Law.naming_change _)
    ⟨fun _ => trivial, trivial, fun _ _ _ _ => trivial, fun _ _ _ => trivial⟩
    (fun _ _ _ => trivial) named known
  exact fun c member => ⟨orders c member, knows c member⟩

section Calls

variable (leaves : leavesHandlers scripts steps)
  (spares : ∀ s ∈ scripts, ∀ c ∈ s.2.acts, c.sparesViews names) {depth : Nat} {w : World}
  (order : w.InOrder scripts (viewIds scripts steps)) (known : w.KnownAs names number)
  {calls : List Call} {c : Call}

include leaves spares order known

theorem notice_leavesView {given : Option (List Device)}
    (describes : (noticeRound (fireAt depth) w given).Describes w.registry.observers w
      ((notify (fireAt depth) given).run w) calls)
    (member : c ∈ calls) (rests : c.start.Rests number) :
    c.start.LeavesView number (Act.leaves ((noticeRound (fireAt depth) w given).result c)) := by
  have before := order.starts known describes
    (Law.agree_deliver Law.tuning_permits (Law.tuning_fireAt leaves depth)
      Law.routine_leavesHandlers.toAside _ fun _ => trivial)
    (Law.agree_deliver Law.naming_permits (Law.naming_fireAt depth) routine_ordinary.toAside _
      fun _ => trivial)
    c member
  have ends := Law.agree_deliver Law.repose_permits (Law.repose_fireAt leaves spares depth)
    Law.aside_sparesView (given.getD w.registry.devices) (fun _ => ⟨trivial, trivial⟩) c.who c.start
    ⟨before.1, before.2, rests⟩
  exact ends.2.ended.2

theorem signal_leavesView {bus topic : String}
    (describes : (triggerRound (fireAt depth) w topic).Describes ((w.bus bus).handlers topic)
      (w.setBus bus (w.bus bus)) ((emit (fireAt depth) bus topic).run w) calls)
    (member : c ∈ calls) (rests : c.start.Rests number) (other : ∀ g, c.who ≠ .gesture g number) :
    c.start.LeavesView number (Act.leaves ((triggerRound (fireAt depth) w topic).result c)) := by
  have opened : (w.setBus bus (w.bus bus)).InOrder scripts (viewIds scripts steps) ∧
      (w.setBus bus (w.bus bus)).KnownAs names number :=
    ⟨(Law.tuning_change (c := .openBus bus) trivial order).1,
      (Law.naming_change (.openBus bus) known).1⟩
  have before := opened.1.starts opened.2 describes
    (fun who => Law.agree_trigger Law.tuning_permits (Law.tuning_fireAt leaves depth)
      Law.routine_leavesHandlers.toAside fun _ n _ => Law.routine_leavesHandlers.handles n)
    (fun who => Law.agree_trigger Law.naming_permits (Law.naming_fireAt depth)
      routine_ordinary.toAside fun _ n _ => routine_ordinary.handles n)
    c member
  have others : ∀ g n, c.who = .gesture g n →
      Handles (Change.SparesView (viewIds scripts steps) number) n := by
    intro g n who
    apply Law.handles_sparesView
    rintro rfl
    exact other g who
  have ends := Law.agree_trigger Law.repose_permits (Law.repose_fireAt leaves spares depth)
    Law.aside_sparesView others c.start ⟨before.1, before.2, rests⟩
  exact ends.2.ended.2

theorem isLeftAlone : w.IsLeftAlone (fireAt depth) number := by
  constructor
  · intro given
    obtain ⟨calls, describes⟩ := notify_describes (fireAt depth) w given
    exact ⟨calls, describes, fun c => notice_leavesView leaves spares order known describes⟩
  · intro bus topic
    obtain ⟨calls, describes⟩ := emit_describes (fireAt depth) w bus topic
    refine ⟨calls, describes, ?_⟩
    intro c member rests
    by_cases itself : ∃ g, c.who = .gesture g number
    · obtain ⟨g, who⟩ := itself
      have listed := Law.listsActive_of_tuning order bus topic g number
      exact .inr ⟨listed (who ▸ describes.listed member), g, who⟩
    · exact .inl (signal_leavesView leaves spares order known describes member rests
        fun g who => itself ⟨g, who⟩)

end Calls

end World

/-- The commands of a session find the hub in order when they are carried out, those of its scripts
among them. -/
theorem inOrder_start {initial : Payload} {scripts : List (String × Script)} {w : World}
    (starts : start initial scripts = .ok w) (ids : List String) : w.InOrder scripts ids := by
  refine ⟨wiring_start starts ids, ?_⟩
  obtain ⟨ds, rfl⟩ := start_eq starts
  exact fun _ _ _ _ member => nomatch member

/-- In a session in which views are wired by being activated and deactivated only, let a view be
inactive. A notice that comes to it is dropped, also if the notification began before, and an
emission that begins then does not call it: this holds wherever the hub is in order, and the hub is
in order between steps and whenever a command is carried out, also by scripts. For the latter, let
every command of a script go another way where it is not: whatever that way is, it is never taken.
If, from then on, no method of the view is called directly, then nothing that fan-outs call while
the view rests changes any part of it or hands its hook a scene, to whatever depth scripts call each
other, and between steps the view stays as it is altogether; but an emission that was under way when
the view was deactivated may still call a method of it. -/
theorem view_at_rest_is_left_alone {initial : Payload} {scripts : List (String × Script)}
    {steps : List Command} {w : World} (starts : start initial scripts = .ok w)
    (leaves : leavesHandlers scripts steps) :
    (∀ earlier, earlier <+: steps →
      (carryOutAll w earlier).InOrder scripts (viewIds scripts steps)) ∧
    (∀ [DecidablePred (World.InOrder scripts (viewIds scripts steps))] otherwise,
      carryOutAllBy (fireAtWhere (World.InOrder scripts (viewIds scripts steps)) otherwise) w
          steps =
        carryOutAll w steps) ∧
    (∀ fire number (v : World), v.InOrder scripts (viewIds scripts steps) →
      v.IsUnreached fire number) ∧
    (∀ names number, (∀ s ∈ scripts, ∀ c ∈ s.2.acts, c.sparesViews names) →
      ∀ depth (v : World), v.InOrder scripts (viewIds scripts steps) → v.KnownAs names number →
        v.IsLeftAlone (fireAt depth) number) ∧
    ∀ earlier later names number, earlier ++ later <+: steps →
      (∀ c ∈ allCommands scripts later, c.sparesViews names) →
        let v := carryOutAll w earlier
        v.Rests number → v.KnownAs names number → v.LeavesView number (carryOutAll v later) := by
  have within : ∀ c ∈ steps, c.Within (tuning scripts (viewIds scripts steps))
      (Change.LeavesHandlers (viewIds scripts steps)) :=
    fun c member => within_of_leavesHandlers leaves (List.mem_append_left _ member)
  have order := inOrder_start starts (viewIds scripts steps)
  have between : ∀ earlier, earlier <+: steps →
      (carryOutAll w earlier).InOrder scripts (viewIds scripts steps) := by
    intro earlier before
    exact (Law.carryOutAll_admits Law.tuning_permits Law.routine_leavesHandlers
      (tuning_binds leaves) (fun c member => within c (before.subset member)) order).1
  refine ⟨between, ?_, ?_, ?_, ?_⟩
  · intro _ otherwise
    exact Law.carryOutAllBy_fireAtWhere (P := World.InOrder scripts (viewIds scripts steps))
      Law.tuning_permits Law.routine_leavesHandlers (tuning_binds leaves) (fun _ holds => holds)
      otherwise within order
  · intro fire number v order
    exact World.isUnreached fire number (Law.listsActive_of_tuning order)
  · intro names number spares depth v order known
    exact World.isLeftAlone leaves spares order known
  · intro earlier later names number before spares v rests known
    have order := between earlier ((List.prefix_append earlier later).trans before)
    have spared : ∀ s ∈ scripts, ∀ c ∈ s.2.acts, c.sparesViews names := fun s listed c member =>
      spares c (List.mem_append_right _ (List.mem_flatMap.mpr ⟨s, listed, member⟩))
    have agree : ∀ c ∈ later, ∀ depth, (repose scripts (viewIds scripts steps) names number).Agree
        (command (fireAt depth) c) (command (fireAt depth) c) := by
      intro c member depth
      have listed : c ∈ allCommands scripts steps :=
        List.mem_append_left _ (before.subset (List.mem_append_right _ member))
      obtain ⟨leaves_c, named⟩ := leavesHandlers_of_mem leaves listed
      exact Law.repose_command (Law.repose_fireAt leaves spared depth) leaves_c named
        (spares c (List.mem_append_left _ member))
    exact (Law.carryOutAll_admits_of_agree agree ⟨order, known, rests⟩).2

def leaver : List (String × Script) :=
  [("leave", ⟨false, 1, [.gesture .deactivate "a"], .returns, none⟩)]

def leftOnNotice : List Command :=
  [.register (.named "leave"), .view "a" "main" none none, .gesture .activate "a",
    .update (.entries [.device ⟨"van", true, none, none, none⟩])]

def afterwards : List Command :=
  [.emit "main" Bus.cycleTopic, .notify none, .emit "main" Bus.toggleTopic, .clear]

/-- The view is deactivated while it is about to be told, and it is told of nothing from then on. -/
theorem view_left_on_notice_stays_as_it_is :
    let w := { World.empty with scripts := leaver }
    let v := carryOutAll w leftOnNotice
    start (.entries []) leaver = .ok w ∧ leavesHandlers leaver (leftOnNotice ++ afterwards) = true ∧
      v.Rests 0 ∧ v.KnownAs ["a"] 0 ∧ (∀ c ∈ allCommands leaver afterwards, c.sparesViews ["a"]) ∧
      v.LeavesView 0 (carryOutAll v afterwards) ∧
      (carryOutAll v afterwards).views.map (fun x => (x.devices.length, x.revision)) =
        [(0, 1)] := by
  intro w v
  have starts : start (.entries []) leaver = .ok w := rfl
  have leaves : leavesHandlers leaver (leftOnNotice ++ afterwards) = true := by decide
  have rests : v.Rests 0 := by
    have inactive : v.views[0]?.map (·.active) = some false := by decide
    obtain ⟨x, found, inactive⟩ := Option.map_eq_some_iff.mp inactive
    exact ⟨x, found, inactive⟩
  have known : v.KnownAs ["a"] 0 := by
    have names : v.viewNames = [("a", 0)] := by decide
    refine ⟨rests.lt_length, ?_⟩
    rw [names]
    intro id stands
    have listed := mem_of_lookupField stands
    simp only [List.mem_singleton, Prod.mk.injEq] at listed ⊢
    exact listed.1
  have spares : ∀ c ∈ allCommands leaver afterwards, c.sparesViews ["a"] := by
    have all : (allCommands leaver afterwards).all (·.sparesViews ["a"]) = true := by decide
    exact List.all_eq_true.mp all
  have stays := (view_at_rest_is_left_alone starts leaves).2.2.2.2 leftOnNotice afterwards ["a"] 0
    (List.prefix_refl _) spares rests known
  exact ⟨starts, leaves, rests, known, spares, stays, by decide⟩

def leaving : List Command :=
  [.subscribe "main" Bus.cycleTopic (.named "leave"), .view "a" "main" none none,
    .gesture .activate "a"]

/-- The handler is called first and leaves the view inactive and otherwise as it was. The emission
goes on with the method of the view, which moves to its next pattern at rest. -/
theorem emission_under_way_reaches_view_at_rest :
    let w := { World.empty with scripts := leaver }
    let v := carryOutAll w leaving
    let emission := Command.emit "main" Bus.cycleTopic
    let stances := fun u : World =>
      u.views.map fun x => (x.active, x.stance.patternIndex, x.revision)
    start (.entries []) leaver = .ok w ∧ leavesHandlers leaver (leaving ++ [emission]) = true ∧
      stances v = [(true, 0, 1)] ∧
      stances ((fireAt (scriptDepth v.scripts) "leave" .trigger).after v) = [(false, 0, 1)] ∧
      stances ((carryOut emission).after v) = [(false, 1, 2)] ∧
      ((carryOut emission).after v).journal.reverse =
        v.journal.reverse ++
          [.called 0 (.script "leave") .trigger, .fired "leave" .trigger,
            .settled 0 (.script "leave") true, .called 0 (.gesture .cyclePattern 0) .trigger,
            .settled 0 (.gesture .cyclePattern 0) true] := by
  intro w v emission stances
  exact ⟨rfl, by decide, by decide, by decide, by decide, by decide⟩

end FleetMap
