import FleetMap.Proofs.Hub.Obedience

set_option autoImplicit false

namespace FleetMap

open Act Hub

namespace Bus

variable (b : Bus) {topic other : String}

theorem handlers_unsubscribe_of_ne (different : other ≠ topic) (l : Listener) :
    (b.unsubscribe topic l).handlers other = b.handlers other := by
  unfold unsubscribe
  split
  · simp [handlers, lookupField_filter_of_ne different]
  · simp [handlers, lookupField_putField_of_ne different]

theorem count_subscribe_of_ne {l x : Listener} (different : x ≠ l) :
    ((b.subscribe topic l).handlers other).count x = (b.handlers other).count x := by
  by_cases same : other = topic
  · subst same
    rw [handlers_subscribe_self]
    split
    · rfl
    · rw [List.count_append, List.count_singleton]
      simp [different.symm]
  · rw [handlers_subscribe_of_ne b same]

theorem count_subscribe_self {l : Listener} (absent : (b.handlers topic).count l = 0) :
    ((b.subscribe topic l).handlers topic).count l = 1 := by
  rw [handlers_subscribe_self, if_neg (List.count_eq_zero.mp absent), List.count_append, absent]
  simp

theorem count_unsubscribe_of_ne {l x : Listener} (different : x ≠ l) :
    ((b.unsubscribe topic l).handlers other).count x = (b.handlers other).count x := by
  by_cases same : other = topic
  · subst same
    rw [handlers_unsubscribe_self, List.count_erase_of_ne different]
  · rw [handlers_unsubscribe_of_ne b same]

theorem count_unsubscribe_self {l : Listener} (single : (b.handlers topic).count l = 1) :
    ((b.unsubscribe topic l).handlers topic).count l = 0 := by
  rw [handlers_unsubscribe_self, List.count_erase_self, single]

/-- A subscription lists its own listener on its own topic and nobody else. -/
theorem mem_subscribe {b : Bus} {topic other : String} {l x : Listener}
    (member : x ∈ (b.subscribe topic l).handlers other) :
    other = topic ∧ x = l ∨ x ∈ b.handlers other := by
  by_cases same : other = topic
  · subst same
    rw [handlers_subscribe_self] at member
    split at member
    · exact .inr member
    · rcases List.mem_append.mp member with before | now
      · exact .inr before
      · exact .inl ⟨rfl, List.mem_singleton.mp now⟩
  · rw [handlers_subscribe_of_ne b same] at member
    exact .inr member

theorem mem_unsubscribe {b : Bus} {topic other : String} {l x : Listener}
    (member : x ∈ (b.unsubscribe topic l).handlers other) : x ∈ b.handlers other := by
  by_cases same : other = topic
  · subst same
    rw [handlers_unsubscribe_self] at member
    exact List.mem_of_mem_erase member
  · rwa [handlers_unsubscribe_of_ne b same] at member

end Bus

namespace Registry

variable (r : Registry) {l x : Listener}

theorem count_register_of_ne (different : x ≠ l) :
    (r.register l).observers.count x = r.observers.count x := by
  unfold register
  split
  · rfl
  · rw [List.count_append, List.count_singleton]
    simp [different.symm]

theorem mem_register (member : x ∈ (r.register l).observers) : x ∈ r.observers ∨ x = l := by
  unfold register at member
  split at member
  · exact .inl member
  · exact (List.mem_append.mp member).imp_right List.mem_singleton.mp

theorem mem_remove (member : x ∈ (r.remove l).observers) : x ∈ r.observers :=
  List.mem_of_mem_eraseP member

theorem mem_register_of_mem {r : Registry} (member : x ∈ r.observers) :
    x ∈ (r.register l).observers := by
  unfold register
  split
  · exact member
  · exact List.mem_append_left _ member

/-- Whether a listener is the one looked for; a gesture never is. -/
theorem identical_eq (o l : Listener) :
    o.identical l = (o == l && l.identical l) := by
  cases o with
  | gesture g number => cases l <;> simp [Listener.identical]
  | _ => cases l <;> simp [Listener.identical]

theorem observers_remove : (r.remove l).observers =
    if l.identical l then r.observers.erase l else r.observers := by
  have found : (fun o : Listener => o.identical l) = fun o => o == l && l.identical l :=
    funext fun o => identical_eq o l
  unfold remove
  rw [found]
  cases l.identical l with
  | true =>
    rw [List.erase_eq_eraseP']
    simp
  | false => simp [List.eraseP_of_forall_not]

theorem count_remove_of_ne (different : x ≠ l) :
    (r.remove l).observers.count x = r.observers.count x := by
  rw [observers_remove]
  split
  · rw [List.count_erase_of_ne different]
  · rfl

theorem mem_remove_of_ne {r : Registry} (different : x ≠ l) (member : x ∈ r.observers) :
    x ∈ (r.remove l).observers := by
  rw [← List.count_pos_iff, count_remove_of_ne r different, List.count_pos_iff]
  exact member

theorem mem_register_self (itself : l.identical l = true) : l ∈ (r.register l).observers := by
  obtain ⟨o, member, same⟩ := List.any_eq_true.mp (r.isRegistered_register itself)
  rw [identical_eq, Bool.and_eq_true, beq_iff_eq] at same
  obtain ⟨rfl, _⟩ := same
  exact member

theorem count_register_self (itself : l.identical l = true)
    (absent : r.observers.count l = 0) : (r.register l).observers.count l = 1 := by
  have unregistered : r.isRegistered l = false := by
    simp only [isRegistered, List.any_eq_false]
    intro o member identical
    rw [identical_eq, itself, Bool.and_true, beq_iff_eq] at identical
    rw [identical] at member
    exact List.count_eq_zero.mp absent member
  simp [register, unregistered, List.count_append, absent]

theorem count_remove_self (itself : l.identical l = true)
    (single : r.observers.count l = 1) : (r.remove l).observers.count l = 0 := by
  rw [observers_remove, if_pos itself, List.count_erase_self, single]

end Registry

def Gesture.topic? : Gesture → Option String
  | .cyclePattern => some Bus.cycleTopic
  | .toggleIsometric => some Bus.toggleTopic
  | _ => none

namespace World

/-- An active view is listed once in each of its three places, and an inactive one nowhere. -/
def InStepAt (w : World) (number : Nat) (v : View) : Prop :=
  let times := if v.active then 1 else 0
  w.registry.observers.count (.view number) = times ∧
    ((w.bus v.bus).handlers Bus.cycleTopic).count (.gesture .cyclePattern number) = times ∧
    ((w.bus v.bus).handlers Bus.toggleTopic).count (.gesture .toggleIsometric number) = times

/-- Every view is in step with the registry and its bus. -/
def InStep (w : World) : Prop := ∀ number v, w.views[number]? = some v → w.InStepAt number v

instance (w : World) (number : Nat) (v : View) : Decidable (w.InStepAt number v) := by
  unfold InStepAt
  infer_instance

instance : DecidablePred InStep := fun w =>
  decidable_of_iff (∀ i : Fin w.views.length, w.InStepAt i w.views[i]) <| by
    constructor
    · intro each number v found
      obtain ⟨bound, rfl⟩ := List.getElem?_eq_some_iff.mp found
      exact each ⟨number, bound⟩
    · intro each i
      exact each i _ (List.getElem?_eq_getElem i.isLt)

structure Wired (w : World) : Prop where
  inStep : w.InStep
  unobserved : ∀ number, w.views.length ≤ number →
    w.registry.observers.count (.view number) = 0
  unhandled : ∀ number g bus topic, w.views.length ≤ number → g.topic?.isSome →
    ((w.bus bus).handlers topic).count (.gesture g number) = 0

variable {w v : World}

/-- Two worlds in which the same is listed as often, and in which views have the same bus and are
active alike, are both wired or both not. -/
theorem Wired.of_counts (wired : w.Wired)
    (views : v.views.map (fun x => (x.bus, x.active)) = w.views.map fun x => (x.bus, x.active))
    (observers : ∀ number, v.registry.observers.count (.view number) =
      w.registry.observers.count (.view number))
    (handlers : ∀ number g bus topic, g.topic?.isSome →
      ((v.bus bus).handlers topic).count (.gesture g number) =
        ((w.bus bus).handlers topic).count (.gesture g number)) : v.Wired := by
  have length_eq : v.views.length = w.views.length := by
    simpa using congrArg List.length views
  constructor
  · intro number x found
    have listed : (w.views[number]?).map (fun x => (x.bus, x.active)) = some (x.bus, x.active) := by
      rw [← List.getElem?_map, ← views, List.getElem?_map, found]
      rfl
    obtain ⟨y, found_before, same⟩ := Option.map_eq_some_iff.mp listed
    obtain ⟨same_bus, same_active⟩ := Prod.mk.inj same
    have before := wired.inStep number y found_before
    unfold InStepAt at before ⊢
    rw [same_bus, same_active] at before
    rw [observers, handlers _ _ _ _ rfl, handlers _ _ _ _ rfl]
    exact before
  · intro number bound
    rw [observers]
    exact wired.unobserved number (by omega)
  · intro number g bus topic bound wire
    rw [handlers number g bus topic wire]
    exact wired.unhandled number g bus topic (by omega) wire

theorem Wired.of_same (wired : w.Wired)
    (views : v.views.map (fun x => (x.bus, x.active)) = w.views.map fun x => (x.bus, x.active))
    (registry : v.registry.observers = w.registry.observers)
    (buses : ∀ bus, v.bus bus = w.bus bus) : v.Wired := by
  apply wired.of_counts views
  · intro number
    rw [registry]
  · intro number g bus topic _
    rw [buses]

theorem map_modify_of_same {f : View → View} (bus : ∀ x, (f x).bus = x.bus)
    (active : ∀ x, (f x).active = x.active) (views : List View) (number : Nat) :
    (views.modify number f).map (fun x => (x.bus, x.active)) =
      views.map fun x => (x.bus, x.active) := by
  apply List.ext_getElem?
  intro i
  rw [List.getElem?_map, List.getElem?_map, List.getElem?_modify]
  cases views[i]? with
  | none => rfl
  | some x =>
    by_cases same : number = i
    · simp [same, bus, active]
    · simp [same]

/-- Views may change in any way that keeps their bus and whether they are active. -/
theorem Wired.modifyView (wired : w.Wired) {f : View → View} (bus : ∀ x, (f x).bus = x.bus)
    (active : ∀ x, (f x).active = x.active) (number : Nat) : (w.modifyView number f).Wired :=
  wired.of_same (map_modify_of_same bus active w.views number) rfl fun _ => rfl

theorem Wired.asked (wired : w.Wired) (number : Nat) : (w.asked number).Wired := by
  apply wired.of_same
  · rw [views_asked]
    apply map_modify_of_same
    · exact fun _ => rfl
    · exact fun _ => rfl
  · rw [registry_asked]
  · exact w.bus_asked number

theorem Wired.subscribe (wired : w.Wired) (bus topic : String) {l : Listener}
    (other : ∀ number g, g.topic?.isSome → l ≠ .gesture g number) :
    (w.setBus bus ((w.bus bus).subscribe topic l)).Wired := by
  apply wired.of_counts
  · rfl
  · intro number
    rfl
  · intro number g b t wire
    rw [bus_setBus]
    split
    · rename_i same
      rw [Bus.count_subscribe_of_ne _ (other number g wire).symm, same]
    · rfl

theorem Wired.unsubscribe (wired : w.Wired) (bus topic : String) {l : Listener}
    (other : ∀ number g, g.topic?.isSome → l ≠ .gesture g number) :
    (w.setBus bus ((w.bus bus).unsubscribe topic l)).Wired := by
  apply wired.of_counts
  · rfl
  · intro number
    rfl
  · intro number g b t wire
    rw [bus_setBus]
    split
    · rename_i same
      rw [Bus.count_unsubscribe_of_ne _ (other number g wire).symm, same]
    · rfl

theorem Wired.openBus (wired : w.Wired) (bus : String) : (w.setBus bus (w.bus bus)).Wired := by
  apply wired.of_counts
  · rfl
  · intro number
    rfl
  · intro number g b t _
    rw [bus_setBus]
    split
    · rename_i same
      rw [same]
    · rfl

/-- A new view starts inactive, under a number for which nothing is listed. -/
theorem Wired.makeView (wired : w.Wired) (id bus : String) (settings : Settings)
    (hook : Option String) : ((Change.makeView id bus settings hook).apply w).Wired := by
  have length_eq : ((Change.makeView id bus settings hook).apply w).views.length =
      w.views.length + 1 := List.length_append
  constructor
  · intro number x found
    by_cases old : number < w.views.length
    · have found_before : w.views[number]? = some x := by
        rw [← found]
        exact (List.getElem?_append_left old).symm
      exact wired.inStep number x found_before
    · have bound := (List.getElem?_eq_some_iff.mp found).1
      have newest : number = w.views.length := by omega
      subst newest
      have fresh : View.fresh bus settings hook = x := by
        have := List.getElem?_concat_length (l := w.views) (a := View.fresh bus settings hook)
        exact Option.some.inj (this.symm.trans found)
      subst fresh
      exact ⟨wired.unobserved _ (Nat.le_refl _), wired.unhandled _ _ _ _ (Nat.le_refl _) rfl,
        wired.unhandled _ _ _ _ (Nat.le_refl _) rfl⟩
  · intro number bound
    exact wired.unobserved number (by omega)
  · intro number g bus topic bound wire
    exact wired.unhandled number g bus topic (by omega) wire

/-- A change that lists only one view anew keeps the wiring if it gets the places of that view
right. -/
theorem Wired.of_changed (wired : w.Wired) {changed : Nat} (bound : changed < w.views.length)
    (length_eq : v.views.length = w.views.length)
    (views : ∀ number, number ≠ changed → v.views[number]? = w.views[number]?)
    (observers : ∀ number, number ≠ changed → v.registry.observers.count (.view number) =
      w.registry.observers.count (.view number))
    (handlers : ∀ number g bus topic, number ≠ changed →
      ((v.bus bus).handlers topic).count (.gesture g number) =
        ((w.bus bus).handlers topic).count (.gesture g number))
    (right : ∀ x, v.views[changed]? = some x → v.InStepAt changed x) : v.Wired := by
  constructor
  · intro number x found
    by_cases same : number = changed
    · subst same
      exact right x found
    · rw [views number same] at found
      have before := wired.inStep number x found
      unfold InStepAt at before ⊢
      rw [observers number same, handlers number _ _ _ same, handlers number _ _ _ same]
      exact before
  · intro number past
    rw [observers number (by omega)]
    exact wired.unobserved number (by omega)
  · intro number g bus topic past wire
    rw [handlers number g bus topic (by omega)]
    exact wired.unhandled number g bus topic (by omega) wire

theorem Wired.attached (wired : w.Wired) {number : Nat} {x : View}
    (found : w.views[number]? = some x) (inactive : x.active = false) :
    (w.attached number x).Wired := by
  have before := wired.inStep number x found
  simp only [InStepAt, inactive, Bool.false_eq_true, if_false] at before
  obtain ⟨unobserved, uncycled, untoggled⟩ := before
  apply wired.of_changed (List.getElem?_eq_some_iff.mp found).1
  · rw [views_attached, List.length_modify]
  · intro other different
    rw [views_attached, List.getElem?_modify_ne _ _ different.symm]
  · intro other different
    rw [registry_attached, Registry.count_register_of_ne]
    simpa using different
  · intro other g bus topic different
    rw [bus_attached]
    split
    · rename_i same
      rw [Bus.count_subscribe_of_ne, Bus.count_subscribe_of_ne, same]
      · simp [different]
      · simp [different]
    · rfl
  · intro y found_after
    rw [views_attached, List.getElem?_modify_eq, found] at found_after
    obtain rfl := Option.some.inj found_after
    have bus_eq := bus_attached w number x x.bus
    rw [if_pos rfl] at bus_eq
    refine ⟨?_, ?_, ?_⟩
    · rw [registry_attached]
      exact Registry.count_register_self _ (by simp [Listener.identical]) unobserved
    · change ((World.bus _ x.bus).handlers _).count _ = 1
      rw [bus_eq, Bus.count_subscribe_of_ne _ (by simp)]
      exact Bus.count_subscribe_self _ uncycled
    · change ((World.bus _ x.bus).handlers _).count _ = 1
      rw [bus_eq]
      apply Bus.count_subscribe_self
      rw [Bus.count_subscribe_of_ne _ (by simp)]
      exact untoggled

theorem Wired.detached (wired : w.Wired) {number : Nat} {x : View}
    (found : w.views[number]? = some x) (active : x.active = true) :
    (w.detached number x).Wired := by
  have before := wired.inStep number x found
  simp only [InStepAt, active, if_true] at before
  obtain ⟨observed, cycled, toggled⟩ := before
  apply wired.of_changed (List.getElem?_eq_some_iff.mp found).1
  · rw [views_detached, List.length_modify]
  · intro other different
    rw [views_detached, List.getElem?_modify_ne _ _ different.symm]
  · intro other different
    rw [registry_detached, Registry.count_remove_of_ne]
    simpa using different
  · intro other g bus topic different
    rw [bus_detached]
    split
    · rename_i same
      rw [Bus.count_unsubscribe_of_ne, Bus.count_unsubscribe_of_ne, same]
      · simp [different]
      · simp [different]
    · rfl
  · intro y found_after
    rw [views_detached, List.getElem?_modify_eq, found] at found_after
    obtain rfl := Option.some.inj found_after
    have bus_eq := bus_detached w number x x.bus
    rw [if_pos rfl] at bus_eq
    refine ⟨?_, ?_, ?_⟩
    · rw [registry_detached]
      exact Registry.count_remove_self _ (by simp [Listener.identical]) observed
    · change ((World.bus _ x.bus).handlers _).count _ = 0
      rw [bus_eq]
      apply Bus.count_unsubscribe_self
      rw [Bus.count_unsubscribe_of_ne _ (by simp)]
      exact cycled
    · change ((World.bus _ x.bus).handlers _).count _ = 0
      rw [bus_eq, Bus.count_unsubscribe_of_ne _ (by simp)]
      exact Bus.count_unsubscribe_self _ toggled

end World

/-- A change that lists or delists no view, unless by activating or deactivating it, and makes
views under the given names only. -/
def Change.LeavesWiring (ids : List String) : Change → Prop
  | .register l | .remove l => ∀ number, l ≠ .view number
  | .subscribe _ _ l | .unsubscribe _ _ l =>
    ∀ number g, g.topic?.isSome → l ≠ .gesture g number
  | .makeView id _ _ _ => id ∈ ids
  | _ => True

theorem World.Wired.apply {w : World} (wired : w.Wired) {ids : List String} {c : Change}
    (leaves : c.LeavesWiring ids) : (c.apply w).Wired := by
  cases c with
  | register l =>
    apply wired.of_counts
    · rfl
    · intro number
      exact Registry.count_register_of_ne _ (leaves number).symm
    · exact fun _ _ _ _ _ => rfl
  | remove l =>
    apply wired.of_counts
    · rfl
    · intro number
      exact Registry.count_remove_of_ne _ (leaves number).symm
    · exact fun _ _ _ _ _ => rfl
  | subscribe bus topic l => exact wired.subscribe bus topic leaves
  | unsubscribe bus topic l => exact wired.unsubscribe bus topic leaves
  | openBus bus => exact wired.openBus bus
  | makeView id bus settings hook => exact wired.makeView id bus settings hook
  | activate number =>
    rcases Change.apply_activate w number with same | ⟨v, found, inactive, attached⟩
    · rw [same]
      exact wired
    · rw [attached]
      exact wired.attached found inactive
  | deactivate number =>
    rcases Change.apply_deactivate w number with same | ⟨v, found, active, detached⟩
    · rw [same]
      exact wired
    · rw [detached]
      exact wired.detached found active
  | tell number ds =>
    rcases Change.apply_tell w number ds with same | ⟨_, told⟩
    · rw [same]
      exact wired
    · rw [told]
      apply World.Wired.asked
      apply wired.modifyView
      · exact fun _ => rfl
      · exact fun _ => rfl
  | ask number => exact wired.asked number
  | cycle number | toggle number =>
    apply World.Wired.asked
    apply wired.modifyView
    · exact fun _ => rfl
    · exact fun _ => rfl
  | restyle number settings | pose number stance =>
    apply wired.of_same
    · apply World.map_modify_of_same
      · exact fun _ => rfl
      · exact fun _ => rfl
    · rfl
    · exact fun _ => rfl
  | note | firing | store | tellInbox | makePlayer | modifyPlayer | setLooping | beginFanOut | call
  | settle => exact wired.of_same rfl rfl fun _ => rfl

/-- A mention that may stand for a view: one with the name of a view and of no script. -/
def Mention.mayBeView (scripts : List (String × Script)) (ids : List String) : Mention → Bool
  | .named name => (lookupField name scripts).isNone && decide (name ∈ ids)
  | _ => false

def Mention.isWire : Mention → Bool
  | .gesture g _ => g.topic?.isSome
  | _ => false

def Command.viewId? : Command → Option String
  | .view id _ _ _ => some id
  | _ => none

/-- A command that registers, removes, subscribes or unsubscribes no view by hand. -/
def Command.leavesWiring (scripts : List (String × Script)) (ids : List String) : Command → Bool
  | .register who | .remove who => !who.mayBeView scripts ids
  | .subscribe _ _ who | .unsubscribe _ _ who => !who.isWire
  | _ => true

namespace Hub

def allCommands (scripts : List (String × Script)) (steps : List Command) : List Command :=
  steps ++ scripts.flatMap fun s => s.2.acts

def viewIds (scripts : List (String × Script)) (steps : List Command) : List String :=
  (allCommands scripts steps).filterMap Command.viewId?

/-- A session in which views are listed and delisted by being activated and deactivated only. -/
def leavesWiring (scripts : List (String × Script)) (steps : List Command) : Bool :=
  (allCommands scripts steps).all fun c => c.leavesWiring scripts (viewIds scripts steps)

end Hub

/-- Views are wired, the scripts are the given ones and views have none but the given names. -/
def wiring (scripts : List (String × Script)) (ids : List String) : Law where
  holds w := w.Wired ∧ w.scripts = scripts ∧
    ∀ id, (lookupField id w.viewNames).isSome → id ∈ ids
  moves _ _ := True
  breaks := True
  refl _ := trivial
  trans _ _ := trivial

namespace Law

variable {scripts : List (String × Script)} {ids : List String}

theorem wiring_change {w : World} {c : Change} (leaves : c.LeavesWiring ids)
    (holds : (wiring scripts ids).holds w) :
    (wiring scripts ids).holds (c.apply w) ∧ (wiring scripts ids).moves w (c.apply w) := by
  obtain ⟨wired, same_scripts, named⟩ := holds
  have kept := Change.apply_names w c
  refine ⟨⟨wired.apply leaves, kept.1.trans same_scripts, ?_⟩, trivial⟩
  by_cases makes : ∃ id bus settings hook, c = .makeView id bus settings hook
  · obtain ⟨id, bus, settings, hook, rfl⟩ := makes
    intro other known
    by_cases same : other = id
    · rw [same]
      exact leaves
    · apply named
      rw [← lookupField_putField_of_ne same w.views.length w.viewNames]
      exact known
  · have same_names := kept.2 fun id bus settings hook made =>
      makes ⟨id, bus, settings, hook, made⟩
    rw [same_names]
    exact named

theorem wiring_permits : (wiring scripts ids).Permits (Change.LeavesWiring ids) :=
  .of_change wiring_change
    ⟨fun _ => trivial, trivial, fun _ _ _ _ => trivial, fun _ _ _ => trivial⟩

theorem leavesWiring_of_routine {c : Change} (routine : c.IsRoutine) : c.LeavesWiring ids := by
  cases c with
  | register | remove | subscribe | unsubscribe | makeView => exact routine.elim
  | _ => trivial

theorem routine_leavesWiring : Routine (Change.LeavesWiring ids) :=
  routine_of_allowed fun _ => leavesWiring_of_routine

end Law

theorem Mention.standsFor_inert {w : World} {l : Listener} (stands : Mention.inert.StandsFor w l) :
    l = .inert := by
  obtain ⟨v, run⟩ := stands
  exact (EStateM.Result.ok.inj run).1.symm

theorem Mention.standsFor_gesture {g : Gesture} {id : String} {w : World} {l : Listener}
    (stands : (Mention.gesture g id).StandsFor w l) : ∃ number, l = .gesture g number := by
  obtain ⟨v, run⟩ := stands
  obtain ⟨number, u, _, rest⟩ := run_bind_ok run
  exact ⟨number, (EStateM.Result.ok.inj rest).1.symm⟩

/-- A name goes to the script of that name, and only without one to a view. -/
theorem Mention.standsFor_named {name : String} {w : World} {l : Listener}
    (stands : (Mention.named name).StandsFor w l) :
    l = .script name ∨ lookupField name w.scripts = none ∧
      (lookupField name w.viewNames).isSome ∧ ∃ number, l = .view number := by
  obtain ⟨v, run⟩ := stands
  simp only [resolve, EStateM.run_bind, EStateM.run_get] at run
  cases scripted : lookupField name w.scripts with
  | some script =>
    rw [scripted] at run
    exact .inl (EStateM.Result.ok.inj run).1.symm
  | none =>
    rw [scripted] at run
    obtain ⟨number, u, found, rest⟩ := run_bind_ok run
    refine .inr ⟨rfl, ?_, number, (EStateM.Result.ok.inj rest).1.symm⟩
    rw [(run_viewNamed_ok found).1]
    rfl

theorem Mention.not_view_of_standsFor {who : Mention} {scripts : List (String × Script)}
    {ids : List String} (no_view : who.mayBeView scripts ids = false) {w : World} {l : Listener}
    (holds : (wiring scripts ids).holds w) (stands : who.StandsFor w l) (number : Nat) :
    l ≠ .view number := by
  cases who with
  | inert =>
    rw [Mention.standsFor_inert stands]
    exact nofun
  | gesture g id =>
    obtain ⟨n, rfl⟩ := Mention.standsFor_gesture stands
    exact nofun
  | named name =>
    rcases Mention.standsFor_named stands with rfl | ⟨unscripted, known, _⟩
    · exact nofun
    · obtain ⟨_, rfl, named⟩ := holds
      simp [Mention.mayBeView, unscripted, named name known] at no_view

theorem Mention.not_wire_of_standsFor {who : Mention} (no_wire : who.isWire = false) {w : World}
    {l : Listener} (stands : who.StandsFor w l) (number : Nat) (g : Gesture)
    (wire : g.topic?.isSome) : l ≠ .gesture g number := by
  cases who with
  | inert =>
    rw [Mention.standsFor_inert stands]
    exact nofun
  | gesture h id =>
    obtain ⟨n, rfl⟩ := Mention.standsFor_gesture stands
    intro same
    obtain ⟨rfl, _⟩ := Listener.gesture.inj same
    simp only [Mention.isWire, wire] at no_wire
    exact nomatch no_wire
  | named name =>
    rcases Mention.standsFor_named stands with rfl | ⟨_, _, n, rfl⟩
    · exact nofun
    · exact nofun

theorem Command.within_wiring {scripts : List (String × Script)} {ids : List String} {c : Command}
    (leaves : c.leavesWiring scripts ids) (named : ∀ id, c.viewId? = some id → id ∈ ids) :
    c.Within (wiring scripts ids) (Change.LeavesWiring ids) := by
  have contents : ∀ change : Change, change.SetsContents → change.LeavesWiring ids := by
    intro change sets
    cases change with
    | register | remove | subscribe | unsubscribe | makeView => exact sets.elim
    | _ => trivial
  cases c with
  | register who | remove who =>
    intro w l holds stands
    have no_view : who.mayBeView scripts ids = false := by
      simpa [Command.leavesWiring] using leaves
    exact Mention.not_view_of_standsFor no_view holds stands
  | subscribe bus topic who | unsubscribe bus topic who =>
    intro w l holds stands
    have no_wire : who.isWire = false := by
      simpa [Command.leavesWiring] using leaves
    exact Mention.not_wire_of_standsFor no_wire stands
  | view id bus settings hook => exact fun _ => named id rfl
  | _ => exact Command.within_of_contents contents rfl

/-- A session starts with a collection and scripts, and with nothing else. -/
theorem start_eq {initial : Payload} {scripts : List (String × Script)} {w : World}
    (starts : start initial scripts = .ok w) :
    ∃ ds, w = { World.empty with registry := ⟨ds, []⟩, scripts := scripts } := by
  unfold start at starts
  split at starts
  · exact ⟨[], (Except.ok.inj starts).symm⟩
  · split at starts
    · exact nomatch starts
    · exact ⟨_, (Except.ok.inj starts).symm⟩

theorem wiring_start {initial : Payload} {scripts : List (String × Script)} {w : World}
    (starts : start initial scripts = .ok w) (ids : List String) :
    (wiring scripts ids).holds w := by
  obtain ⟨ds, rfl⟩ := start_eq starts
  refine ⟨?_, rfl, fun _ known => nomatch known⟩
  constructor
  · exact fun _ _ found => nomatch found
  · exact fun _ _ => rfl
  · exact fun _ _ _ _ _ _ => rfl

/-- In a session that leaves the wiring to activation and deactivation, all its commands do. -/
theorem within_of_leavesWiring {scripts : List (String × Script)} {steps : List Command}
    (leaves : leavesWiring scripts steps) {c : Command} (member : c ∈ allCommands scripts steps) :
    c.Within (wiring scripts (viewIds scripts steps))
      (Change.LeavesWiring (viewIds scripts steps)) := by
  apply Command.within_wiring (List.all_eq_true.mp leaves c member)
  intro id made
  exact List.mem_filterMap.mpr ⟨c, member, made⟩

theorem wiring_binds {scripts : List (String × Script)} {steps : List Command}
    (leaves : leavesWiring scripts steps) :
    (wiring scripts (viewIds scripts steps)).Binds
      (Change.LeavesWiring (viewIds scripts steps)) := by
  intro w name script holds found
  obtain ⟨_, rfl, _⟩ := holds
  refine ⟨?_, fun _ => trivial⟩
  intro c member
  apply within_of_leavesWiring leaves
  apply List.mem_append_right
  exact List.mem_flatMap.mpr ⟨(name, script), mem_of_lookupField found, member⟩

/-- In a session in which views are wired by activation and deactivation only, every view is active
exactly if it is listed in each of its three places, once: between any two steps, and whenever a
script is called. For the latter, let every call of a script, however deeply nested, go another way
where the views are not in step: whatever that way is, it is never taken. -/
theorem views_stay_in_step {initial : Payload} {scripts : List (String × Script)}
    {steps : List Command} {w : World} (starts : start initial scripts = .ok w)
    (leaves : leavesWiring scripts steps) :
    (∀ earlier, earlier <+: steps → (carryOutAll w earlier).InStep) ∧
      ∀ otherwise, carryOutAllBy (fireWhere World.InStep otherwise) w steps =
        carryOutAll w steps := by
  have holds := wiring_start starts (viewIds scripts steps)
  have within : ∀ c ∈ steps, c.Within (wiring scripts (viewIds scripts steps))
      (Change.LeavesWiring (viewIds scripts steps)) :=
    fun c member => within_of_leavesWiring leaves (List.mem_append_left _ member)
  constructor
  · intro earlier before
    have kept := Law.carryOutAll_admits Law.wiring_permits Law.routine_leavesWiring
      (wiring_binds leaves) (fun c member => within c (before.subset member)) holds
    exact kept.1.1.inStep
  · intro otherwise
    exact Law.carryOutAllBy_fireWhere Law.wiring_permits Law.routine_leavesWiring
      (wiring_binds leaves) (fun _ holds => holds.1.inStep) otherwise within holds

/-- A hook that deactivates one view and activates another before it fails. -/
def swappingHook : List (String × Script) :=
  [("swap", ⟨false, 2, [.gesture .deactivate "a", .gesture .activate "b"], .raises "boom", none⟩)]

def swappedViews : List Command :=
  [.view "a" "main" none (some "swap"), .view "b" "main" none (some "swap"),
    .gesture .activate "a", .notify none]

theorem swapped_views_stay_in_step :
    let w := { World.empty with scripts := swappingHook }
    start (.entries []) swappingHook = .ok w ∧ leavesWiring swappingHook swappedViews = true ∧
      (carryOutAll w swappedViews).InStep ∧
      (carryOutAll w swappedViews).views.map (·.active) = [false, true] := by
  intro w
  have starts : start (.entries []) swappingHook = .ok w := rfl
  have leaves : leavesWiring swappingHook swappedViews = true := by decide
  have stay := views_stay_in_step starts leaves
  exact ⟨starts, leaves, stay.1 swappedViews (List.prefix_refl _), by decide⟩

end FleetMap
