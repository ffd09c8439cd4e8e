import FleetMap.Proofs.Hub.Depth
import FleetMap.Proofs.Hub.Wiring
import FleetMap.Proofs.Projection

/-!
Views and the scenes that their hooks were handed. Whatever changes what a view shows draws it at
once, in the same change, before any script is called. So between steps what was last drawn of a
view is what it shows, and its revision counts all drawings. Drawing fails only where the number of
the pattern is too long to be written, and a view gets there by itself only after as many drawings.
Only replacing the settings or the stance of a view draws nothing; the journal tells of it.
-/

set_option autoImplicit false

namespace FleetMap

open Act Hub

/-- What became of drawing a view: a scene, or none if it could not be drawn. -/
def Entry.drawing? (number : Nat) : Entry → Option (Option Scene)
  | .drawn view scene => if view = number then some (some scene) else none
  | .undrawn view => if view = number then some none else none
  | _ => none

/-- The view whose settings or stance an entry tells were replaced. -/
def Entry.replacement? : Entry → Option Nat
  | .replaced view => some view
  | _ => none

theorem map_some_filterMap_id {α : Type} {l : List (Option α)} (complete : none ∉ l) :
    (l.filterMap id).map some = l := by
  induction l with
  | nil => rfl
  | cons a rest ih =>
    cases a with
    | none => exact absurd List.mem_cons_self complete
    | some a =>
      have others := ih fun failed => complete (List.mem_cons_of_mem _ failed)
      exact congrArg (some a :: ·) others

theorem View.drawing?_drawing (v : View) (number other : Nat) :
    (v.drawing number).drawing? other = if number = other then some v.scene else none := by
  unfold View.drawing
  cases v.scene with
  | none => rfl
  | some scene => rfl

theorem View.replacement?_drawing (v : View) (number : Nat) :
    (v.drawing number).replacement? = none := by
  unfold View.drawing
  cases v.scene with
  | none => rfl
  | some scene => rfl

namespace World

/-- What became of all drawings of a view, the newest first. -/
def drawings (w : World) (number : Nat) : List (Option Scene) :=
  w.journal.filterMap (Entry.drawing? number)

/-- All scenes that the hook of a view was handed, the newest first. -/
def scenes (w : World) (number : Nat) : List Scene := (w.drawings number).filterMap id

/-- Views whose settings or stance were replaced. -/
def replacements (w : World) : List Nat := w.journal.filterMap Entry.replacement?

theorem replacements_asked (w : World) (number : Nat) :
    (w.asked number).replacements = w.replacements := by
  unfold replacements
  rw [filterMap_asked fun _ => rfl]
  unfold pending
  split
  · split
    · rw [Option.bind_some, View.replacement?_drawing]
      rfl
    · rfl
  · rfl

theorem drawings_asked_self {w : World} {number : Nat} {v : View}
    (found : w.views[number]? = some v) (hooked : v.hook.isSome) :
    (w.asked number).drawings number = v.scene :: w.drawings number := by
  unfold drawings
  rw [filterMap_asked fun _ => rfl, pending, found]
  simp only [hooked, if_true, Option.bind_some, View.drawing?_drawing]
  rfl

theorem drawings_asked_of_ne (w : World) {number other : Nat} (different : other ≠ number) :
    (w.asked number).drawings other = w.drawings other := by
  unfold drawings
  rw [filterMap_asked fun _ => rfl]
  unfold pending
  split
  · split
    · rw [Option.bind_some, View.drawing?_drawing, if_neg different.symm]
      rfl
    · rfl
  · rfl

/-- What was last drawn of a view is what it shows. Its pattern index has not got ahead of its
revision, so a drawing failed only if by then an index was possible whose pattern has too long a
number. -/
structure CurrentAt (w : World) (number : Nat) (v : View) : Prop where
  newest : ∀ shown ∈ (w.drawings number).head?, shown = v.scene
  behind : v.stance.patternIndex ≤ v.revision
  long : none ∈ w.drawings number →
    ∃ index, index ≤ v.revision ∧ 10 ^ digitLimit ≤ index % v.settings.patternCount

/-- The revision of a view with a hook counts its drawings, of which the newest is current unless
the settings or the stance of the view were replaced. -/
structure RenderedAt (w : World) (number : Nat) (v : View) : Prop where
  counted : v.revision = (w.drawings number).length
  current : number ∉ w.replacements → w.CurrentAt number v

/-- This holds of every view with a hook, and for views that are yet to be made nothing was
drawn. -/
structure Rendered (w : World) : Prop where
  views : ∀ number v, w.views[number]? = some v → v.hook.isSome → w.RenderedAt number v
  undrawn : ∀ number, w.views.length ≤ number → w.drawings number = []

variable {w v : World}

theorem CurrentAt.of_same {number : Nat} {x y : View} (current : w.CurrentAt number x)
    (drawings : v.drawings number = w.drawings number) (revision : y.revision = x.revision)
    (settings : y.settings = x.settings) (stance : y.stance = x.stance)
    (devices : y.devices = x.devices) : v.CurrentAt number y := by
  have scene : y.scene = x.scene := by rw [View.scene, settings, stance, devices, View.scene]
  refine ⟨?_, by rw [stance, revision]; exact current.behind, ?_⟩
  · rw [drawings, scene]
    exact current.newest
  · rw [drawings, revision, settings]
    exact current.long

/-- Drawing a view that took at most one step to another pattern. -/
theorem CurrentAt.draw {number : Nat} {x y : View} (current : w.CurrentAt number x)
    (drawings : v.drawings number = y.scene :: w.drawings number)
    (revision : y.revision = x.revision + 1) (settings : y.settings = x.settings)
    (index : y.stance.patternIndex ≤ x.stance.patternIndex + 1) : v.CurrentAt number y := by
  have behind : y.stance.patternIndex ≤ y.revision := by
    have := current.behind
    omega
  refine ⟨?_, behind, ?_⟩
  · intro shown newest
    rw [drawings] at newest
    exact (Option.some.inj newest).symm
  · intro failed
    rw [drawings] at failed
    rcases List.mem_cons.mp failed with now | before
    · exact ⟨y.stance.patternIndex, behind, project_eq_none.mp now.symm⟩
    · obtain ⟨i, reached, too_long⟩ := current.long before
      rw [settings]
      exact ⟨i, by omega, too_long⟩

/-- One view may change as long as what it shows does not, or if the journal tells that its settings
or its stance were replaced. -/
theorem Rendered.of_modify (rendered : w.Rendered) {changed : Nat} {f : View → View}
    (hook : ∀ x, (f x).hook = x.hook) (revision : ∀ x, (f x).revision = x.revision)
    (kept : changed ∈ v.replacements ∨ ∀ x, (f x).settings = x.settings ∧
      (f x).stance = x.stance ∧ (f x).devices = x.devices)
    (views : v.views = w.views.modify changed f)
    (drawings : ∀ number, v.drawings number = w.drawings number)
    (replacements : w.replacements ⊆ v.replacements) : v.Rendered := by
  constructor
  · intro number x found hooked
    rw [views, List.getElem?_modify] at found
    obtain ⟨y, found_before, rfl⟩ := Option.map_eq_some_iff.mp found
    by_cases same : changed = number
    · rw [if_pos same] at hooked ⊢
      rw [hook] at hooked
      obtain ⟨counted, current⟩ := rendered.views number y found_before hooked
      refine ⟨by rw [revision, drawings, counted], ?_⟩
      intro unreplaced
      rcases kept with told | kept
      · rw [same] at told
        exact absurd told unreplaced
      · obtain ⟨settings, stance, devices⟩ := kept y
        exact (current fun replaced => unreplaced (replacements replaced)).of_same
          (drawings number) (revision y) settings stance devices
    · rw [if_neg same] at hooked ⊢
      obtain ⟨counted, current⟩ := rendered.views number y found_before hooked
      refine ⟨by rw [drawings, counted], ?_⟩
      intro unreplaced
      exact (current fun replaced => unreplaced (replacements replaced)).of_same
        (drawings number) rfl rfl rfl rfl
  · intro number bound
    rw [drawings]
    apply rendered.undrawn
    rw [views, List.length_modify] at bound
    exact bound

theorem Rendered.of_same (rendered : w.Rendered) (views : v.views = w.views)
    (drawings : ∀ number, v.drawings number = w.drawings number)
    (replacements : v.replacements = w.replacements) : v.Rendered := by
  constructor
  · intro number x found hooked
    rw [views] at found
    obtain ⟨counted, current⟩ := rendered.views number x found hooked
    refine ⟨by rw [drawings, counted], ?_⟩
    rw [replacements]
    exact fun unreplaced => (current unreplaced).of_same (drawings number) rfl rfl rfl rfl
  · intro number bound
    rw [drawings]
    rw [views] at bound
    exact rendered.undrawn number bound

theorem Rendered.enter (rendered : w.Rendered) {e : Entry} (drawing : ∀ n, e.drawing? n = none)
    (replacement : e.replacement? = none) : (w.enter e).Rendered := by
  apply rendered.of_same
  · rfl
  · exact fun number => List.filterMap_cons_none (drawing number)
  · exact List.filterMap_cons_none replacement

/-- A view may change in any way that is followed by drawing it, as long as it takes no more than
one step to another pattern. -/
theorem Rendered.asked (rendered : w.Rendered) {changed : Nat} {f : View → View}
    (hook : ∀ x, (f x).hook = x.hook) (revision : ∀ x, (f x).revision = x.revision)
    (settings : ∀ x, (f x).settings = x.settings)
    (index : ∀ x, (f x).stance.patternIndex ≤ x.stance.patternIndex + 1)
    (views : v.views = w.views.modify changed f) (journal : v.journal = w.journal) :
    (v.asked changed).Rendered := by
  have drawings : ∀ number, v.drawings number = w.drawings number := by
    intro number
    unfold World.drawings
    rw [journal]
  have replacements : (v.asked changed).replacements = w.replacements := by
    rw [replacements_asked]
    unfold World.replacements
    rw [journal]
  constructor
  · intro number x found hooked
    by_cases same : number = changed
    · subst same
      rw [views_asked, views, List.getElem?_modify_eq, List.getElem?_modify_eq] at found
      obtain ⟨z, found_changed, rfl⟩ := Option.map_eq_some_iff.mp found
      obtain ⟨y, found_before, rfl⟩ := Option.map_eq_some_iff.mp found_changed
      have before := rendered.views number y found_before (by rw [← hook]; exact hooked)
      have found_now : v.views[number]? = some (f y) := by
        rw [views, List.getElem?_modify_eq, found_before]
        rfl
      have drawn : (v.asked number).drawings number = (f y).scene :: w.drawings number := by
        rw [drawings_asked_self found_now hooked, drawings]
      constructor
      · rw [drawn, List.length_cons, ← before.counted, ← revision y]
      · rw [replacements]
        intro unreplaced
        exact (before.current unreplaced).draw drawn (congrArg (· + 1) (revision y)) (settings y)
          (index y)
    · rw [views_asked, views, List.getElem?_modify_ne _ _ (Ne.symm same),
        List.getElem?_modify_ne _ _ (Ne.symm same)] at found
      obtain ⟨counted, current⟩ := rendered.views number x found hooked
      have elsewhere : (v.asked changed).drawings number = w.drawings number := by
        rw [drawings_asked_of_ne v same, drawings]
      constructor
      · rw [elsewhere, counted]
      · rw [replacements]
        exact fun unreplaced => (current unreplaced).of_same elsewhere rfl rfl rfl rfl
  · intro number bound
    rw [views_asked, views, List.length_modify, List.length_modify] at bound
    have unseen : v.views[number]? = none := by
      rw [views, List.getElem?_eq_none (by rwa [List.length_modify])]
    have elsewhere : (v.asked changed).drawings number = w.drawings number := by
      by_cases same : number = changed
      · subst same
        have pending : v.pending number = none := by rw [World.pending, unseen]
        unfold World.drawings
        rw [filterMap_asked fun _ => rfl, pending, journal]
        rfl
      · rw [drawings_asked_of_ne v same, drawings]
    rw [elsewhere]
    exact rendered.undrawn number bound

/-- A view that is replaced in the settings or the stance is told of in the journal. -/
theorem Rendered.replace (rendered : w.Rendered) {f : View → View} (number : Nat)
    (hook : ∀ x, (f x).hook = x.hook) (revision : ∀ x, (f x).revision = x.revision) :
    ((w.modifyView number f).enter (.replaced number)).Rendered := by
  apply rendered.of_modify hook revision
  · exact .inl List.mem_cons_self
  · rfl
  · exact fun _ => rfl
  · exact List.subset_cons_self number w.replacements

theorem Rendered.makeView (rendered : w.Rendered) (id bus : String) (settings : Settings)
    (hook : Option String) : ((Change.makeView id bus settings hook).apply w).Rendered := by
  constructor
  · intro number x found hooked
    change (w.views ++ [View.fresh bus settings hook])[number]? = some x at found
    by_cases old : number < w.views.length
    · rw [List.getElem?_append_left old] at found
      obtain ⟨counted, current⟩ := rendered.views number x found hooked
      exact ⟨counted, fun unreplaced => (current unreplaced).of_same rfl rfl rfl rfl rfl⟩
    · rw [List.getElem?_append_right (by omega)] at found
      obtain rfl := List.mem_singleton.mp (List.mem_of_getElem? found)
      have undrawn : ((Change.makeView id bus settings hook).apply w).drawings number = [] :=
        rendered.undrawn number (by omega)
      refine ⟨by rw [undrawn]; rfl, fun _ => ⟨?_, Nat.le_refl 0, ?_⟩⟩
      · intro shown newest
        rw [undrawn] at newest
        exact nomatch newest
      · intro failed
        rw [undrawn] at failed
        exact nomatch failed
  · intro number bound
    change (w.views ++ [View.fresh bus settings hook]).length ≤ number at bound
    rw [List.length_append] at bound
    exact rendered.undrawn number (by omega)

theorem Rendered.apply (rendered : w.Rendered) (c : Change) : (c.apply w).Rendered := by
  cases c with
  | makeView id bus settings hook => exact rendered.makeView id bus settings hook
  | activate number =>
    rcases Change.apply_activate w number with same | ⟨x, _, _, attached⟩
    · rw [same]
      exact rendered
    · rw [attached]
      apply rendered.asked (f := fun y => ({ y with active := true } : View).tell
        w.registry.devices)
      · exact fun _ => rfl
      · exact fun _ => rfl
      · exact fun _ => rfl
      · exact fun _ => Nat.le_succ _
      · simp only [modifyView, setBus, Registry.devices_register, List.modify_modify_eq]
        rfl
      · rfl
  | deactivate number =>
    rcases Change.apply_deactivate w number with same | ⟨x, _, _, detached⟩
    · rw [same]
      exact rendered
    · rw [detached]
      apply rendered.of_modify (f := fun y => { y with active := false })
      · exact fun _ => rfl
      · exact fun _ => rfl
      · exact .inr fun _ => ⟨rfl, rfl, rfl⟩
      · exact views_detached w number x
      · exact fun _ => rfl
      · exact List.Subset.refl _
  | tell number ds =>
    rcases Change.apply_tell w number ds with same | ⟨_, told⟩
    · rw [same]
      exact rendered
    · rw [told]
      exact rendered.asked (f := (·.tell ds)) (fun _ => rfl) (fun _ => rfl) (fun _ => rfl)
        (fun _ => Nat.le_succ _) rfl rfl
  | ask number =>
    exact rendered.asked (f := id) (fun _ => rfl) (fun _ => rfl) (fun _ => rfl)
      (fun _ => Nat.le_succ _) (List.modify_id _ _).symm rfl
  | cycle number =>
    exact rendered.asked (f := View.cycled) (fun _ => rfl) (fun _ => rfl) (fun _ => rfl)
      (fun _ => Nat.mod_le _ _) rfl rfl
  | toggle number =>
    exact rendered.asked (f := View.toggled) (fun _ => rfl) (fun _ => rfl) (fun _ => rfl)
      (fun _ => Nat.le_succ _) rfl rfl
  | restyle number settings =>
    exact rendered.replace (f := fun y => { y with settings := settings }) number (fun _ => rfl)
      fun _ => rfl
  | pose number stance =>
    exact rendered.replace (f := fun y => { y with stance := stance }) number (fun _ => rfl)
      fun _ => rfl
  | note | call | settle => exact rendered.enter (fun _ => rfl) rfl
  | firing name signal =>
    have fired := rendered.enter (e := .fired name signal) (fun _ => rfl) rfl
    exact fired.of_same rfl (fun _ => rfl) rfl
  | store ds =>
    have stored := rendered.enter (e := .stored ds) (fun _ => rfl) rfl
    exact stored.of_same rfl (fun _ => rfl) rfl
  | openBus | register | remove | subscribe | unsubscribe | tellInbox | makePlayer | modifyPlayer
  | setLooping | beginFanOut => exact rendered.of_same rfl (fun _ => rfl) rfl

end World

/-- Every view with a hook was drawn as often as a rendering was asked for, last as it is now. -/
def rendering : Law where
  holds := World.Rendered
  moves _ _ := True
  breaks := True
  refl _ := trivial
  trans _ _ := trivial

namespace Law

theorem rendering_change {w : World} (c : Change) (rendered : rendering.holds w) :
    rendering.holds (c.apply w) ∧ rendering.moves w (c.apply w) :=
  ⟨World.Rendered.apply rendered c, trivial⟩

theorem rendering_permits : rendering.Permits Change.IsOrdinary :=
  .of_always rendering_change

theorem rendering_binds : rendering.Binds Change.IsOrdinary :=
  fun _ _ _ _ _ => ⟨fun c _ => c.within_ordinary, fun _ => trivial⟩

end Law

theorem rendered_start {initial : Payload} {scripts : List (String × Script)} {w : World}
    (starts : start initial scripts = .ok w) : w.Rendered := by
  obtain ⟨ds, rfl⟩ := start_eq starts
  constructor
  · exact fun _ _ found => nomatch found
  · exact fun _ _ => rfl

/-- When a view with a hook is drawn, nothing comes between the drawing and the call of the hook,
which is handed the very scene that the journal tells of. -/
theorem run_requestRender_drawn (perform : List Command → Act Unit) {w : World} {number : Nat}
    {v : View} {hook : String} {script : Script} {scene : Scene}
    (found : w.views[number]? = some v) (hooked : v.hook = some hook)
    (known : lookupField hook w.scripts = some script) (drawn : v.scene = some scene) :
    ∃ u entries, u.journal = .fired hook (.scene scene) :: .drawn number scene :: entries ∧
      (requestRender (callScript perform) number).run w = (do
        if w.firingsOf hook < script.times then perform script.acts
        finish script.ending).run u := by
  have asked := w.onlyViews_asked number
  -- The view as it is once the rendering is counted.
  obtain ⟨x, counted, hooked_now, shows⟩ : ∃ x,
      (w.views.modify number fun v => { v with revision := v.revision + 1 })[number]? = some x ∧
        x.hook = some hook ∧ x.scene = some scene := by
    rw [List.getElem?_modify_eq, found]
    exact ⟨_, rfl, hooked, drawn⟩
  have calls : (callHook (callScript perform) number).run (w.asked number) =
      (callScript perform hook (.scene scene)).run (w.asked number) := by
    simp only [callHook, EStateM.run_bind, run_view?, World.views_asked, counted, hooked_now, shows]
  obtain ⟨entries, entered⟩ : ∃ entries,
      (w.asked number).journal = .drawn number scene :: entries := by
    simp only [World.asked, World.modifyView, counted, hooked_now, Option.isSome_some, if_true,
      World.drawn, View.drawing, shows]
    exact ⟨_, rfl⟩
  have firings : (w.asked number).firingsOf hook = w.firingsOf hook := by
    rw [World.firingsOf, asked.firings, World.firingsOf]
  refine ⟨(Change.firing hook (.scene scene)).apply (w.asked number), entries,
    congrArg (Entry.fired hook (.scene scene) :: ·) entered, ?_⟩
  rw [requestRender_eq, EStateM.run_bind, run_make]
  change (callHook (callScript perform) number).run (w.asked number) = _
  have heard_whole : heard script (.scene scene) = .scene scene := ite_self _
  rw [calls, run_callScript_some perform (asked.scripts ▸ known), firings, heard_whole]

/-- In every session, whatever its scripts do, the revision of a view with a hook counts its
drawings, after each step. Unless the settings or the stance of the view were replaced by then, the
last of them is what the view shows; and unless by then so many were asked for that the number of a
pattern may be too long to be written, each of them was a scene that the hook was handed. -/
theorem hooks_hold_the_current_scene {initial : Payload} {scripts : List (String × Script)}
    {steps : List Command} {w : World} (starts : start initial scripts = .ok w) :
    ∀ earlier, earlier <+: steps → ∀ number v,
      (carryOutAll w earlier).views[number]? = some v → v.hook.isSome →
        v.revision = ((carryOutAll w earlier).drawings number).length ∧
          (number ∉ (carryOutAll w earlier).replacements →
            (∀ shown ∈ ((carryOutAll w earlier).drawings number).head?,
              shown = project v.settings v.stance v.devices) ∧
            ((∀ index, index ≤ v.revision →
                index % v.settings.patternCount < 10 ^ digitLimit) →
              v.revision = ((carryOutAll w earlier).scenes number).length ∧
                ∀ scene ∈ ((carryOutAll w earlier).scenes number).head?,
                  project v.settings v.stance v.devices = some scene)) := by
  intro earlier _ number v found hooked
  have rendered : (carryOutAll w earlier).Rendered := by
    have kept := Law.carryOutAll_admits Law.rendering_permits routine_ordinary Law.rendering_binds
      (fun c (_ : c ∈ earlier) => c.within_ordinary) (rendered_start starts)
    exact kept.1
  obtain ⟨counted, current⟩ := rendered.views number v found hooked
  refine ⟨counted, ?_⟩
  intro unreplaced
  obtain ⟨newest, _, long⟩ := current unreplaced
  refine ⟨newest, ?_⟩
  intro short
  have all_drawn : ((carryOutAll w earlier).scenes number).map some =
      (carryOutAll w earlier).drawings number := by
    apply map_some_filterMap_id
    intro failed
    obtain ⟨index, reached, too_long⟩ := long failed
    exact absurd (short index reached) (Nat.not_lt.mpr too_long)
  constructor
  · rw [counted, ← all_drawn, List.length_map]
  · intro scene last
    apply (newest (some scene) _).symm
    rw [← all_drawn, List.head?_map, last]
    rfl

/-- A hook that turns its own view about while it is handed a scene, and then fails. -/
def restlessHook : List (String × Script) :=
  [("turn", ⟨false, 3, [.gesture .toggleIsometric "a", .gesture .deactivate "a",
    .gesture .activate "a", .clear], .raises "boom", none⟩)]

def restlessView : List Command :=
  [.view "a" "main" none (some "turn"), .gesture .activate "a",
    .update (.entries [.device ⟨"van", true, some ⟨1, 2, 3⟩, some ⟨90, 0, 0⟩, none⟩]),
    .emit "main" Bus.cycleTopic]

theorem restless_hook_holds_the_current_scene :
    let w := { World.empty with scripts := restlessHook }
    let ended := carryOutAll w restlessView
    start (.entries []) restlessHook = .ok w ∧
      ∃ v, ended.views[0]? = some v ∧ v.hook.isSome = true ∧ 0 ∉ ended.replacements ∧
        v.revision = (ended.scenes 0).length ∧ (ended.scenes 0).length = 6 ∧
        (∀ scene ∈ (ended.scenes 0).head?,
          project v.settings v.stance v.devices = some scene) ∧
        (v.stance.isometric, v.stance.patternIndex, v.devices.length) = (true, 1, 1) := by
  intro w ended
  have starts : start (.entries []) restlessHook = .ok w := rfl
  have shown : ended.views.map (fun v => (v.hook.isSome, v.stance.isometric, v.stance.patternIndex,
      v.devices.length, v.settings.patternCount)) = [(true, true, 1, 1, 3)] := by decide +kernel
  obtain ⟨v, views, shows⟩ := List.map_eq_singleton_iff.mp shown
  simp only [Prod.mk.injEq] at shows
  obtain ⟨hooked, isometric, pattern, devices, patterns⟩ := shows
  have found : ended.views[0]? = some v := by rw [views]; rfl
  have unreplaced : 0 ∉ ended.replacements := by decide +kernel
  obtain ⟨_, current⟩ := hooks_hold_the_current_scene starts restlessView (List.prefix_refl _) 0 v
    found hooked
  have short : ∀ index, index ≤ v.revision →
      index % v.settings.patternCount < 10 ^ digitLimit := by
    intro index _
    rw [patterns]
    have few : index % 3 < 3 := Nat.mod_lt _ (by decide)
    exact Nat.lt_of_lt_of_le few (Nat.le_trans (by decide) (Nat.le_self_pow (by decide) 10))
  obtain ⟨counted, newest⟩ := (current unreplaced).2 short
  refine ⟨starts, v, found, hooked, unreplaced, counted, by decide +kernel, newest, ?_⟩
  rw [isometric, pattern, devices]

end FleetMap
