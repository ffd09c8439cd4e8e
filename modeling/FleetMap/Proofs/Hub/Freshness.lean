import FleetMap.Proofs.Hub.FanOut
import FleetMap.Proofs.Hub.Wiring
import FleetMap.Proofs.SameSprites

set_option autoImplicit false

namespace FleetMap

open Act Hub

/-- A cell holds what it was given last, or something that is the same. -/
theorem holds_keepIfSame (held given : List Device) :
    sameList Device.same (keepIfSame (sameList Device.same) held given) given = true := by
  unfold keepIfSame
  split
  next same => exact same
  next => exact sameList_self Device.same_self given

/-- A view holds what it was told last, or something that is the same. -/
theorem View.holds_tell (v : View) (ds : List Device) :
    sameList Device.same (v.tell ds).devices ds = true := holds_keepIfSame v.devices ds

namespace World

/-- An active view with another collection than the registry. -/
def Stale (w : World) (number : Nat) : Prop :=
  ∃ v : View, w.views[number]? = some v ∧ v.active = true ∧
    sameList Device.same v.devices w.registry.devices = false

/-- Every active view holds the stored collection. -/
def Fresh (w : World) : Prop :=
  ∀ v ∈ w.views, v.active = true → sameList Device.same v.devices w.registry.devices = true

variable {w v : World}

theorem fresh_iff : w.Fresh ↔ ∀ number, ¬ w.Stale number := by
  constructor
  · rintro fresh number ⟨x, found, active, differs⟩
    rw [fresh x (List.mem_of_getElem? found) active] at differs
    exact nomatch differs
  · intro none_stale x member active
    obtain ⟨number, found⟩ := List.mem_iff_getElem?.mp member
    by_cases same : sameList Device.same x.devices w.registry.devices = true
    · exact same
    · exact absurd ⟨x, found, active, Bool.eq_false_iff.mpr same⟩ (none_stale number)

/-- A view that is stale after one view was changed was stale before, if it is another one or was
changed into one that is inactive, up to date or as it was. -/
theorem Stale.of_modify {number changed : Nat} {f : View → View} (stale : v.Stale number)
    (devices : v.registry.devices = w.registry.devices)
    (views : v.views = w.views.modify changed f)
    (kept : changed = number → ∀ x, (f x).active = true →
      sameList Device.same (f x).devices w.registry.devices = true ∨
        x.active = true ∧ (f x).devices = x.devices) : w.Stale number := by
  obtain ⟨x, found, active, differs⟩ := stale
  rw [devices] at differs
  rw [views, List.getElem?_modify] at found
  obtain ⟨y, found_before, rfl⟩ := Option.map_eq_some_iff.mp found
  by_cases same : changed = number
  · rw [if_pos same] at active differs
    rcases kept same y active with current | ⟨was_active, same_devices⟩
    · rw [current] at differs
      exact nomatch differs
    · rw [same_devices] at differs
      exact ⟨y, found_before, was_active, differs⟩
  · rw [if_neg same] at active differs
    exact ⟨y, found_before, active, differs⟩

theorem Stale.of_same {number : Nat} (stale : v.Stale number)
    (devices : v.registry.devices = w.registry.devices) (views : v.views = w.views) :
    w.Stale number := by
  obtain ⟨x, found, active, differs⟩ := stale
  rw [views] at found
  rw [devices] at differs
  exact ⟨x, found, active, differs⟩

end World

/-- A change after which what was stored is still stored, and by which views are told of nothing
else. -/
def Change.Delivers (ids : List String) (ds : List Device) : Change → Prop
  | .store _ => False
  | .tell _ told => told = ds
  | c => c.LeavesWiring ids

namespace World

variable {w : World}

theorem devices_apply {ids : List String} {ds : List Device} {c : Change}
    (delivers : c.Delivers ids ds) : (c.apply w).registry.devices = w.registry.devices := by
  apply Change.apply_devices
  rintro stored rfl
  exact delivers

/-- No change makes a view stale, unless something is stored or the view is told of something
else. -/
theorem Stale.of_apply {c : Change} (unstored : ∀ ds, c ≠ .store ds)
    {number : Nat} (tells : ∀ ds, c = .tell number ds → ds = w.registry.devices)
    (stale : (c.apply w).Stale number) : w.Stale number := by
  have devices := Change.apply_devices w unstored
  cases c with
  | store ds => exact absurd rfl (unstored ds)
  | makeView id bus settings hook =>
    obtain ⟨x, found, active, differs⟩ := stale
    change (w.views ++ [View.fresh bus settings hook])[number]? = some x at found
    by_cases old : number < w.views.length
    · rw [List.getElem?_append_left old] at found
      exact ⟨x, found, active, differs⟩
    · rw [List.getElem?_append_right (by omega)] at found
      have fresh : x = View.fresh bus settings hook := by
        have member := List.mem_of_getElem? found
        exact List.mem_singleton.mp member
      rw [fresh] at active
      exact nomatch active
  | activate changed =>
    rcases Change.apply_activate w changed with same | ⟨x, _, _, attached⟩
    · rw [same] at stale
      exact stale
    · rw [attached] at stale devices
      apply stale.of_modify devices (views_attached w changed x)
      intro _ y _
      exact .inl (View.holds_tell _ _)
  | deactivate changed =>
    rcases Change.apply_deactivate w changed with same | ⟨x, _, _, detached⟩
    · rw [same] at stale
      exact stale
    · rw [detached] at stale devices
      apply stale.of_modify devices (views_detached w changed x)
      intro _ y active
      exact nomatch active
  | tell changed told =>
    rcases Change.apply_tell w changed told with same | ⟨_, heard⟩
    · rw [same] at stale
      exact stale
    · rw [heard] at stale devices
      have views := views_asked (w.modifyView changed (·.tell told)) changed
      rw [modifyView, List.modify_modify_eq] at views
      apply stale.of_modify devices views
      rintro rfl y _
      obtain rfl := tells told rfl
      exact .inl (View.holds_tell y _)
  | ask changed =>
    exact stale.of_modify devices (views_asked w changed) fun _ y active => .inr ⟨active, rfl⟩
  | cycle changed =>
    have views := views_asked (w.modifyView changed View.cycled) changed
    rw [modifyView, List.modify_modify_eq] at views
    exact stale.of_modify devices views fun _ y active => .inr ⟨active, rfl⟩
  | toggle changed =>
    have views := views_asked (w.modifyView changed View.toggled) changed
    rw [modifyView, List.modify_modify_eq] at views
    exact stale.of_modify devices views fun _ y active => .inr ⟨active, rfl⟩
  | restyle changed settings =>
    exact stale.of_modify devices rfl fun _ y active => .inr ⟨active, rfl⟩
  | pose changed stance =>
    exact stale.of_modify devices rfl fun _ y active => .inr ⟨active, rfl⟩
  | _ => exact stale.of_same devices rfl

/-- A view that was just told of what is stored is not stale, and an inactive one never is. -/
theorem not_stale_tell (w : World) (number : Nat) :
    ¬ ((Change.tell number w.registry.devices).apply w).Stale number := by
  rintro ⟨x, found, active, differs⟩
  by_cases listens : w.isActive number = true
  · have told : (Change.tell number w.registry.devices).apply w =
        (w.modifyView number (·.tell w.registry.devices)).asked number := if_pos listens
    rw [told, views_asked, modifyView, List.modify_modify_eq, List.getElem?_modify_eq] at found
    obtain ⟨y, _, rfl⟩ := Option.map_eq_some_iff.mp found
    rw [told, registry_asked] at differs
    change sameList Device.same (y.tell w.registry.devices).devices w.registry.devices = false
      at differs
    rw [View.holds_tell] at differs
    contradiction
  · have untold : (Change.tell number w.registry.devices).apply w = w := if_neg listens
    rw [untold] at found
    apply listens
    unfold isActive
    rw [found]
    exact active

end World

/-- The collection `ds` is stored, and nothing that was up to date with it becomes stale. -/
def delivery (scripts : List (String × Script)) (ids : List String) (ds : List Device) : Law where
  holds w := (wiring scripts ids).holds w ∧ w.registry.devices = ds
  moves w v := ∀ number, v.Stale number → w.Stale number
  breaks := False
  refl _ _ := id
  trans first second number stale := first number (second number stale)

namespace Law

variable {scripts : List (String × Script)} {ids : List String} {ds : List Device}

theorem leavesWiring_of_delivers {c : Change} (delivers : c.Delivers ids ds) :
    c.LeavesWiring ids := by
  cases c with
  | store | tell => trivial
  | _ => exact delivers

theorem delivery_change {w : World} {c : Change} (delivers : c.Delivers ids ds)
    (holds : (delivery scripts ids ds).holds w) :
    (delivery scripts ids ds).holds (c.apply w) ∧
      (delivery scripts ids ds).moves w (c.apply w) := by
  obtain ⟨wired, rfl⟩ := holds
  refine ⟨⟨(wiring_change (leavesWiring_of_delivers delivers) wired).1,
    World.devices_apply delivers⟩, ?_⟩
  intro number stale
  apply stale.of_apply
  · rintro stored rfl
    exact delivers
  · rintro told rfl
    exact delivers

theorem delivery_permits : (delivery scripts ids ds).Permits (Change.Delivers ids ds) :=
  .of_change delivery_change
    ⟨fun _ => trivial, trivial, fun _ _ _ _ => trivial, fun _ _ _ => trivial⟩

theorem delivers_of_routine {c : Change} (routine : c.IsRoutine) : c.Delivers ids ds := by
  have leaves : c.LeavesWiring ids := leavesWiring_of_routine routine
  cases c with
  | store | tell => exact routine.elim
  | _ => exact leaves

theorem routine_delivers : Routine (Change.Delivers ids ds) :=
  routine_of_allowed fun _ => delivers_of_routine

theorem steering_delivers : Steering (Change.Delivers ids ds) := by
  constructor
  all_goals
    intros
    trivial

section Fired

variable {fire : Fire}
  (fired : ∀ name signal, (delivery scripts ids ds).Agree (fire name signal) (fire name signal))

include fired

/-- A view that was called with the stored collection is not stale, whatever its hook did. -/
theorem deliver_freshens {w : World} (holds : (delivery scripts ids ds).holds w) (who : Listener) :
    (delivery scripts ids ds).Admits w ((deliver fire ds who).run w) ∧
      ∀ number, who = .view number → ¬ ((deliver fire ds who).after w).Stale number := by
  have delivered :=
    agree_deliver delivery_permits fired routine_delivers.toAside ds (fun _ => rfl) who
  refine ⟨(delivered w holds).2, ?_⟩
  rintro number rfl
  obtain rfl : w.registry.devices = ds := holds.2
  have run := run_tellView fire number w.registry.devices w
  have not_stale := w.not_stale_tell number
  unfold Act.after
  change ¬ (leaves ((tellView fire number w.registry.devices).run w)).Stale number
  rw [run]
  split
  · -- the view is told first, and whatever its hook does makes nothing stale again
    have told := delivery_change (c := .tell number w.registry.devices) rfl holds
    have hooked := (agree_callHook fired number _ told.1).2.after
    exact fun stale => not_stale (hooked.2 number stale)
  · rename_i inactive
    have untold : (Change.tell number w.registry.devices).apply w = w := if_neg inactive
    rw [untold] at not_stale
    exact not_stale

/-- Views that are called one after another with the stored collection are not stale in the end. -/
theorem serve_freshens (number : Nat) {complaint : Complaint} {listeners : List Listener}
    (known : ∀ who ∈ listeners, ∃ note, complaint who = .ok note) {w : World}
    (holds : (delivery scripts ids ds).holds w) :
    let served := serve number (.notice ds) (deliver fire ds) complaint listeners
    (delivery scripts ids ds).Admits w (served.run w) ∧
      ∀ n, .view n ∈ listeners → ¬ (served.after w).Stale n := by
  let r : Round := ⟨number, .notice ds, deliver fire ds, complaint⟩
  have records : (delivery scripts ids ds).Records r :=
    ⟨fun n w => delivery_change (show (Change.note n).Delivers ids ds from trivial),
      fun who cleanly w =>
        delivery_change (show (Change.settle _ _ _).Delivers ids ds from trivial)⟩
  have reaches : ∀ who ∈ listeners, ∀ w, (delivery scripts ids ds).holds w →
      (delivery scripts ids ds).Admits w (r.result (r.firstCall w who)) ∧
        ∀ n, who = .view n → ¬ (leaves (r.result (r.firstCall w who))).Stale n := by
    intro who _ w holds
    have called := delivery_change
      (show (Change.call number who (.notice ds)).Delivers ids ds from trivial) holds
    obtain ⟨ends, reached⟩ := deliver_freshens fired called.1 who
    exact ⟨ends.trans called.2, reached⟩
  obtain ⟨admits, reached⟩ := serve_reaches (fun who w => ∀ n, who = .view n → ¬ w.Stale n)
    records (fun moves reached n same stale => reached n same (moves n stale)) reaches holds id
    known
  exact ⟨admits, fun n member => reached _ member n rfl⟩

end Fired

end Law

/-- Between steps all views are wired and fresh, and no step breaks off. -/
def freshness (scripts : List (String × Script)) (ids : List String) : Law where
  holds w := (wiring scripts ids).holds w ∧ w.Fresh
  moves _ _ := True
  breaks := False
  refl _ := trivial
  trans _ _ := trivial

namespace Law

variable {α : Type} {scripts : List (String × Script)} {ids : List String}

theorem Admits.freshness {ds : List Device} {w : World} {ends : EStateM.Result Stop World α}
    (admits : (delivery scripts ids ds).Admits w ends)
    (none_stale : ∀ number, ¬ (leaves ends).Stale number) :
    (freshness scripts ids).Admits w ends := by
  have fresh := World.fresh_iff.mpr none_stale
  cases ends with
  | ok a v => exact ⟨⟨admits.1.1, fresh⟩, trivial⟩
  | error stop v => exact ⟨⟨admits.1.1, fresh⟩, trivial, admits.2.2⟩

/-- An act that makes no view stale, whatever is stored, keeps all views fresh. -/
theorem agree_freshness {x y : Act α} (agree : ∀ ds, (delivery scripts ids ds).Agree x y) :
    (freshness scripts ids).Agree x y := by
  rintro w ⟨wired, fresh⟩
  obtain ⟨same, admits⟩ := agree w.registry.devices w ⟨wired, rfl⟩
  refine ⟨same, admits.freshness ?_⟩
  intro number stale
  exact World.fresh_iff.mp fresh number (admits.after.2 number stale)

theorem freshness_permits :
    (freshness scripts ids).Permits fun c => ∀ ds, c.Delivers ids ds := by
  have change : ∀ {w : World} {c : Change}, (∀ ds, c.Delivers ids ds) →
      (freshness scripts ids).holds w → (freshness scripts ids).holds (c.apply w) ∧
        (freshness scripts ids).moves w (c.apply w) := by
    rintro w c delivers ⟨wired, fresh⟩
    obtain ⟨holds, moves⟩ := delivery_change (delivers w.registry.devices) ⟨wired, rfl⟩
    refine ⟨⟨holds.1, World.fresh_iff.mpr ?_⟩, trivial⟩
    intro number stale
    exact World.fresh_iff.mp fresh number (moves number stale)
  exact .of_change change ⟨fun _ _ => trivial, fun _ => trivial, fun _ _ _ _ _ => trivial,
    fun _ _ _ _ => trivial⟩

theorem routine_freshness : Routine fun c => ∀ ds, c.Delivers ids ds :=
  routine_of_allowed fun _ routine _ => delivers_of_routine routine

theorem steering_freshness : Steering fun c => ∀ ds, c.Delivers ids ds := by
  constructor
  all_goals
    intros
    trivial

/-- Publishing leaves no view stale: all that are active when the collection is stored are called
with it, since they are wired. -/
theorem publish_freshens {fire : Fire} (known : named scripts)
    (fired : ∀ ds name signal,
      (delivery scripts ids ds).Agree (fire name signal) (fire name signal))
    (ds : List Device) : (freshness scripts ids).Agree (publish fire ds) (publish fire ds) := by
  rintro w ⟨wired, _⟩
  let begun := Change.beginFanOut.apply ((Change.store ds).apply w)
  have holds : (delivery scripts ids ds).holds begun := by
    have stored := wiring_change (show (Change.store ds).LeavesWiring ids from trivial) wired
    exact ⟨(wiring_change (show Change.beginFanOut.LeavesWiring ids from trivial) stored.1).1, rfl⟩
  have named_now : named ((Change.store ds).apply w).scripts := wired.2.1.symm ▸ known
  obtain ⟨admits, reached⟩ := serve_freshens (fired ds) w.fanOuts
    (fun who (_ : who ∈ w.registry.observers) => observerComplaint_of_named named_now who) holds
  refine ⟨rfl, admits.freshness ?_⟩
  intro number stale
  have stale_begun : begun.Stale number := admits.after.2 number stale
  obtain ⟨v, found, active, _⟩ := stale_begun
  have listed : w.registry.observers.count (.view number) = 1 := by
    have in_step := holds.1.1.inStep number v found
    simp only [World.InStepAt, active, if_true] at in_step
    exact in_step.1
  exact reached number (List.count_pos_iff.mp (by omega)) stale

end Law

/-- A command that hands views a collection of its own instead of the stored one. -/
def Command.handsOver : Command → Bool
  | .tell _ _ | .notify (some _) => true
  | _ => false

namespace Hub

/-- A session in which views are told of nothing but what is stored. -/
def tellsStored (scripts : List (String × Script)) (steps : List Command) : Bool :=
  (allCommands scripts steps).all fun c => !c.handsOver

def quiet (scripts : List (String × Script)) : Bool :=
  scripts.all (·.2.acts.all (!·.publishes)) && unbreaking scripts && named scripts

end Hub

section Session

variable {scripts : List (String × Script)} {steps : List Command}

theorem within_of_tellsStored (leaves : leavesWiring scripts steps)
    (stored : tellsStored scripts steps) {c : Command} (member : c ∈ allCommands scripts steps)
    (unpublished : c.publishes = false) (ds : List Device) :
    c.Within (delivery scripts (viewIds scripts steps) ds)
      (Change.Delivers (viewIds scripts steps) ds) := by
  have within := within_of_leavesWiring leaves member
  have told : c.handsOver = false := by
    simpa using List.all_eq_true.mp stored c member
  cases c with
  | update | updateDevice | clear | step | playLoop => exact nomatch unpublished
  | notify items =>
    cases items with
    | none => exact fun w number holds => holds.2
    | some items => exact nomatch told
  | tell => exact nomatch told
  | register | remove | subscribe | unsubscribe =>
    exact fun w l holds stands => within w l holds.1 stands
  | view => exact within
  | player | setSettings | setStance => exact fun _ _ => trivial
  | load => exact fun _ _ _ => trivial
  | play | reset => exact Law.steering_delivers
  | pause => exact fun _ => trivial
  | devices | isRegistered | emit | listenerCount | gesture => trivial

theorem delivery_binds (leaves : leavesWiring scripts steps) (stored : tellsStored scripts steps)
    (silent : quiet scripts) (ds : List Device) :
    (delivery scripts (viewIds scripts steps) ds).Binds
      (Change.Delivers (viewIds scripts steps) ds) := by
  intro w name script holds found
  obtain ⟨⟨_, rfl, _⟩, _⟩ := holds
  have listed := mem_of_lookupField found
  unfold quiet at silent
  rw [Bool.and_eq_true, Bool.and_eq_true] at silent
  obtain ⟨⟨unpublished, unbroken⟩, _⟩ := silent
  have acts := List.all_eq_true.mp (List.all_eq_true.mp unpublished (name, script) listed)
  refine ⟨?_, fun breaks => absurd breaks (unbreaking_of_lookup unbroken found)⟩
  intro c member
  apply within_of_tellsStored leaves stored _ (by simpa using acts c member)
  apply List.mem_append_right
  exact List.mem_flatMap.mpr ⟨(name, script), listed, member⟩

/-- Every step of such a session keeps the views fresh: it publishes, or makes no view stale. -/
theorem agree_step (leaves : leavesWiring scripts steps) (stored : tellsStored scripts steps)
    (silent : quiet scripts) {c : Command} (member : c ∈ steps) (depth : Nat) :
    (freshness scripts (viewIds scripts steps)).Agree (command (fireAt depth) c)
      (command (fireAt depth) c) := by
  have fired := fun ds => Law.agree_fireAt Law.delivery_permits Law.routine_delivers
    (delivery_binds leaves stored silent ds) depth
  cases publishes : c.publishes with
  | true =>
    exact Law.agree_publication Law.freshness_permits Law.routine_freshness.toAside
      Law.steering_freshness
      (fun ds _ => Law.publish_freshens (Bool.and_eq_true_iff.mp silent).2 fired ds) publishes
  | false =>
    apply Law.agree_freshness
    intro ds
    have within := within_of_tellsStored leaves stored (List.mem_append_left _ member) publishes
    exact Law.agree_command Law.delivery_permits Law.routine_delivers (fired ds) c (within ds)

end Session

/-- In a session in which views are wired by activation and deactivation only and are told of
nothing but what is stored, and whose scripts neither publish nor break off and have names, every
active view holds the stored collection after each step. So active views with the same settings show
the same sprites. -/
theorem views_converge {initial : Payload} {scripts : List (String × Script)}
    {steps : List Command} {w : World} (starts : start initial scripts = .ok w)
    (leaves : leavesWiring scripts steps) (stored : tellsStored scripts steps)
    (silent : quiet scripts) :
    ∀ earlier, earlier <+: steps →
      (carryOutAll w earlier).Fresh ∧
        ∀ a ∈ (carryOutAll w earlier).views, ∀ b ∈ (carryOutAll w earlier).views,
          a.active = true → b.active = true → a.settings = b.settings →
            sameList Sprite.same a.sprites b.sprites = true := by
  have holds : (freshness scripts (viewIds scripts steps)).holds w := by
    refine ⟨wiring_start starts _, ?_⟩
    obtain ⟨ds, rfl⟩ := start_eq starts
    exact fun v member => nomatch member
  intro earlier before
  have fresh : (carryOutAll w earlier).Fresh := by
    have kept := Law.carryOutAll_admits_of_agree (fun c member depth =>
      agree_step leaves stored silent (before.subset member) depth) holds
    exact kept.1.2
  refine ⟨fresh, ?_⟩
  intro a member_a b member_b active_a active_b same_settings
  have same : sameList Device.same a.devices b.devices = true := by
    apply sameList_of_third _ (fresh a member_a active_a) (fresh b member_b active_b)
    exact Device.same_of_third
  unfold View.sprites
  rw [← same_settings]
  exact Projection.same_sprites a.settings same 0

/-- An observer that lets one view take the place of another while a collection is on its way to
that one, and then fails. -/
def relay : List (String × Script) :=
  [("relay", ⟨true, 1, [.gesture .deactivate "a", .gesture .activate "b"], .raises "boom", none⟩)]

def relayedViews : List Command :=
  [.view "a" "main" none none, .view "b" "main" none none, .register (.named "relay"),
    .gesture .activate "a",
    .update (.entries [.device ⟨"van", true, some ⟨1, 2, 3⟩, some ⟨90, 0, 0⟩, none⟩]),
    .gesture .activate "a"]

theorem relayed_views_converge :
    let w := { World.empty with scripts := relay }
    let before := carryOutAll w (relayedViews.take 5)
    start (.entries []) relay = .ok w ∧ leavesWiring relay relayedViews = true ∧
      tellsStored relay relayedViews = true ∧ quiet relay = true ∧
      before.Fresh ∧ (carryOutAll w relayedViews).Fresh ∧
      before.views.map (fun v => (v.active, v.sprites.length)) = [(false, 0), (true, 1)] ∧
      (carryOutAll w relayedViews).views.map (fun v => (v.active, v.sprites.length)) =
        [(true, 1), (true, 1)] := by
  intro w before
  have starts : start (.entries []) relay = .ok w := rfl
  have leaves : leavesWiring relay relayedViews = true := by decide
  have stored : tellsStored relay relayedViews = true := by decide
  have silent : quiet relay = true := by decide
  have converge := views_converge starts leaves stored silent
  exact ⟨starts, leaves, stored, silent, (converge _ (List.take_prefix 5 relayedViews)).1,
    (converge _ (List.prefix_refl _)).1, by decide, by decide⟩

def choking : List (String × Script) :=
  [("choke", ⟨false, 0, [], .raisesMute (.failed .deepValue), none⟩)]

def chokedViews : List Command :=
  [.register (.named "choke"), .view "a" "main" none none, .gesture .activate "a",
    .update (.entries [.device ⟨"van", true, some ⟨1, 2, 3⟩, some ⟨90, 0, 0⟩, none⟩])]

/-- An observer that raises an ordinary error without text comes before a view: the collection is
stored, but the view, which is active, is not told of it. -/
theorem error_without_text_leaves_a_view_stale :
    let w := { World.empty with scripts := choking }
    start (.entries []) choking = .ok w ∧ leavesWiring choking chokedViews = true ∧
      tellsStored choking chokedViews = true ∧
      (choking.all fun s => s.2.acts.all (!·.publishes)) = true ∧
      (carryOutAll w chokedViews).registry.devices.map (·.name) = ["van"] ∧
      (carryOutAll w chokedViews).views.map (fun v => (v.active, v.devices.map (·.name))) =
        [(true, [])] ∧
      ¬ (carryOutAll w chokedViews).Fresh := by
  intro w
  have shown : (carryOutAll w chokedViews).views.map (fun v => (v.active, v.devices.length)) =
      [(true, 0)] := by decide
  have stored : (carryOutAll w chokedViews).registry.devices.length = 1 := by decide
  refine ⟨rfl, by decide, by decide, by decide, by decide, by decide, ?_⟩
  intro fresh
  obtain ⟨v, member, same⟩ :=
    List.mem_map.mp (shown.symm ▸ List.mem_singleton_self _ : (true, 0) ∈ _)
  obtain ⟨active, empty⟩ := Prod.mk.inj same
  have held := fresh v member active
  rw [List.length_eq_zero_iff.mp empty] at held
  cases devices : (carryOutAll w chokedViews).registry.devices with
  | nil => simp [devices] at stored
  | cons d rest =>
    rw [devices] at held
    exact nomatch held

end FleetMap
