import FleetMap.Proofs.Hub.Freshness
import FleetMap.Proofs.Hub.Listening

set_option autoImplicit false

namespace FleetMap

open Act Hub

namespace World

/-- The collection that a listener holds: that of an active view, or that of a table. -/
def holding? (w : World) : Listener → Option (List Device)
  | .view number => (w.views[number]?.filter (·.active)).map (·.devices)
  | .inbox number => w.inboxes[number]?
  | _ => none

/-- The listener is registered and holds what is stored. -/
def Informs (w : World) (l : Listener) : Prop :=
  l ∈ w.registry.observers ∧
    ∃ held, w.holding? l = some held ∧ sameList Device.same held w.registry.devices = true

/-- What the listener holds, if anything, is what is stored. -/
def IsCurrent (w : World) (l : Listener) : Prop :=
  ∀ held, w.holding? l = some held → sameList Device.same held w.registry.devices = true

/-- What is listed on the buses are gestures of views that signals are meant for. -/
def OnlyWires (w : World) : Prop :=
  ∀ bus topic, ∀ l ∈ (w.bus bus).handlers topic, ∃ g number, l = .gesture g number ∧ g.topic?.isSome

/-- Nothing is stored and nobody comes or goes; who holds a collection keeps it or takes over the
stored one. -/
structure Steady (w v : World) : Prop where
  devices : v.registry.devices = w.registry.devices
  observers : v.registry.observers = w.registry.observers
  buses : ∀ bus, v.bus bus = w.bus bus
  holding : ∀ l, v.holding? l = w.holding? l ∨ (w.holding? l).isSome ∧
    ∃ held, v.holding? l = some held ∧ sameList Device.same held w.registry.devices = true

/-- Who is registered and holds what is stored still does, and no listener of another sort comes on
a bus. -/
structure Advances (w v : World) : Prop where
  wires : w.OnlyWires → v.OnlyWires
  informs : ∀ l, w.Informs l → v.Informs l

variable {u v w : World}

theorem Steady.refl (w : World) : w.Steady w := ⟨rfl, rfl, fun _ => rfl, fun _ => .inl rfl⟩

theorem Steady.trans (first : u.Steady v) (second : v.Steady w) : u.Steady w where
  devices := second.devices.trans first.devices
  observers := second.observers.trans first.observers
  buses := fun bus => (second.buses bus).trans (first.buses bus)
  holding := by
    intro l
    rcases second.holding l with same | ⟨held, now, holds, current⟩
    · rw [same]
      exact first.holding l
    · rw [first.devices] at current
      refine .inr ⟨?_, now, holds, current⟩
      rcases first.holding l with same | ⟨held, _⟩
      · rwa [same] at held
      · exact held

theorem Advances.refl (w : World) : w.Advances w := ⟨id, fun _ => id⟩

theorem Advances.trans (first : u.Advances v) (second : v.Advances w) : u.Advances w :=
  ⟨fun wires => second.wires (first.wires wires),
    fun l informed => second.informs l (first.informs l informed)⟩

theorem Steady.advances (steady : w.Steady v) : w.Advances v where
  wires := by
    intro wires bus topic
    rw [steady.buses bus]
    exact wires bus topic
  informs := by
    rintro l ⟨registered, held, holds, current⟩
    refine ⟨steady.observers ▸ registered, ?_⟩
    rw [steady.devices]
    rcases steady.holding l with same | ⟨_, told⟩
    · rw [same]
      exact ⟨held, holds, current⟩
    · exact told

theorem Steady.isCurrent (steady : w.Steady v) {l : Listener} (current : w.IsCurrent l) :
    v.IsCurrent l := by
  intro held now
  rw [steady.devices]
  rcases steady.holding l with same | ⟨_, told, holds, current_told⟩
  · exact current held (same ▸ now)
  · obtain rfl := Option.some.inj (holds.symm.trans now)
    exact current_told

theorem Steady.isSome (steady : w.Steady v) {l : Listener} (holds : (w.holding? l).isSome) :
    (v.holding? l).isSome := by
  rcases steady.holding l with same | ⟨_, told, holds_told, _⟩
  · rwa [same]
  · rw [holds_told]
    rfl

theorem isCurrent_view {number : Nat} (fresh : ¬ w.Stale number) : w.IsCurrent (.view number) := by
  intro held holds
  obtain ⟨x, found, rfl⟩ := Option.map_eq_some_iff.mp holds
  obtain ⟨found, active⟩ := Option.filter_eq_some_iff.mp found
  by_cases same : sameList Device.same x.devices w.registry.devices = true
  · exact same
  · exact absurd ⟨x, found, active, Bool.eq_false_iff.mpr same⟩ fresh

theorem Steady.of_same (registry : v.registry = w.registry) (buses : v.buses = w.buses)
    (views : v.views = w.views) (inboxes : v.inboxes = w.inboxes) : w.Steady v := by
  refine ⟨by rw [registry], by rw [registry], ?_, ?_⟩
  · intro bus
    unfold World.bus
    rw [buses]
  · intro l
    unfold holding?
    rw [views, inboxes]
    exact .inl rfl

/-- One view may change if it stays as active as it is, and keeps its devices or takes over the
stored ones. -/
theorem Steady.of_modify {number : Nat} {f : View → View} (registry : v.registry = w.registry)
    (buses : ∀ bus, v.bus bus = w.bus bus) (inboxes : v.inboxes = w.inboxes)
    (views : v.views = w.views.modify number f) (active : ∀ x, (f x).active = x.active)
    (told : ∀ x, (f x).devices = x.devices ∨
      sameList Device.same (f x).devices w.registry.devices = true) : w.Steady v := by
  refine ⟨by rw [registry], by rw [registry], buses, ?_⟩
  intro l
  cases l with
  | view n =>
    change (v.views[n]?.filter (·.active)).map (·.devices) =
      (w.views[n]?.filter (·.active)).map (·.devices) ∨ _
    by_cases same : number = n
    · subst same
      unfold holding?
      rw [views, List.getElem?_modify_eq]
      cases found : w.views[number]? with
      | none => exact .inl rfl
      | some x =>
        cases lives : x.active with
        | false => simp [Option.filter_some, active, lives]
        | true =>
          rcases told x with kept | current
          · simp [Option.filter_some, active, lives, kept]
          · refine .inr ⟨?_, (f x).devices, ?_, current⟩
            · simp [found, lives]
            · simp [found, active, lives]
    · rw [views, List.getElem?_modify_ne _ _ same]
      exact .inl rfl
  | inbox n => exact .inl (congrArg (·[n]?) inboxes)
  | script | gesture | inert => exact .inl rfl

@[simp] theorem inboxes_asked (w : World) (number : Nat) :
    (w.asked number).inboxes = w.inboxes := by
  obtain ⟨journal, same⟩ := w.asked_eq number
  rw [same]
  rfl

end World

/-- A change by which nothing is stored, nobody comes or goes, and only `ds` is told. -/
def Change.Steadies (ds : List Device) : Change → Prop
  | .note _ | .openBus _ | .ask _ | .cycle _ | .toggle _ | .modifyPlayer _ _ | .beginFanOut
  | .call _ _ _ | .settle _ _ _ => True
  | .tell _ told | .tellInbox _ told => told = ds
  | _ => False

namespace World

variable {w : World} {ds : List Device}

theorem steady_apply {c : Change} (steadies : c.Steadies w.registry.devices) :
    w.Steady (c.apply w) := by
  cases c with
  | openBus bus =>
    refine ⟨rfl, rfl, ?_, fun _ => .inl rfl⟩
    intro other
    change (w.setBus bus (w.bus bus)).bus other = _
    rw [bus_setBus]
    split
    next same => rw [same]
    next => rfl
  | ask number =>
    exact .of_modify (registry_asked w number) (bus_asked w number) (inboxes_asked w number)
      (views_asked w number) (fun _ => rfl) fun _ => .inl rfl
  | cycle number | toggle number =>
    refine .of_modify (registry_asked _ number) (bus_asked _ number) (inboxes_asked _ number)
      ((views_asked _ number).trans (List.modify_modify_eq ..)) (fun _ => rfl) fun _ => .inl rfl
  | tell number told =>
    obtain rfl : told = w.registry.devices := steadies
    rcases Change.apply_tell w number w.registry.devices with same | ⟨_, heard⟩
    · rw [same]
      exact .refl w
    · rw [heard]
      exact .of_modify (registry_asked _ number) (bus_asked _ number) (inboxes_asked _ number)
        ((views_asked _ number).trans (List.modify_modify_eq ..)) (fun _ => rfl)
        fun x => .inr (View.holds_tell x _)
  | tellInbox number told =>
    obtain rfl : told = w.registry.devices := steadies
    refine ⟨rfl, rfl, fun _ => rfl, ?_⟩
    intro l
    cases l with
    | inbox n =>
      change (w.inboxes.modify number _)[n]? = w.inboxes[n]? ∨ _
      by_cases same : number = n
      · subst same
        cases found : w.inboxes[number]? with
        | none => simp [List.getElem?_modify_eq, found]
        | some held =>
          refine .inr ⟨by simp [holding?, found], _, ?_, holds_keepIfSame held w.registry.devices⟩
          change (w.inboxes.modify number _)[number]? = _
          rw [List.getElem?_modify_eq, found]
          rfl
      · exact .inl (List.getElem?_modify_ne _ _ same)
    | view | script | gesture | inert => exact .inl rfl
  | note | modifyPlayer | beginFanOut | call | settle => exact .of_same rfl rfl rfl rfl
  | _ => exact steadies.elim

end World

def steadiness (ds : List Device) : Law where
  holds w := w.registry.devices = ds
  moves := World.Steady
  breaks := False
  refl := World.Steady.refl
  trans := World.Steady.trans

namespace Law

variable {ds : List Device}

theorem steady_change {w : World} {c : Change} (steadies : c.Steadies ds)
    (holds : (steadiness ds).holds w) :
    (steadiness ds).holds (c.apply w) ∧ (steadiness ds).moves w (c.apply w) := by
  obtain rfl : w.registry.devices = ds := holds
  have steady := World.steady_apply steadies
  exact ⟨steady.devices, steady⟩

theorem steady_make {c : Change} (steadies : c.Steadies ds) :
    (steadiness ds).Agree (make c) (make c) :=
  fun _ holds => ⟨rfl, steady_change steadies holds⟩

theorem steady_callHook (number : Nat) :
    (steadiness ds).Agree (callHook noScripts number) (callHook noScripts number) :=
  agree_callHook (fun _ _ => agree_fail _) number

theorem steady_records (r : Round) : (steadiness ds).Records r :=
  ⟨fun n _ => steady_change (show (Change.note n).Steadies ds from trivial),
    fun _ _ _ => steady_change (show (Change.settle _ _ _).Steadies ds from trivial)⟩

theorem steady_tellView (number : Nat) :
    (steadiness ds).Agree (tellView noScripts number ds) (tellView noScripts number ds) := by
  intro w holds
  rw [run_tellView]
  split
  · have told : (Change.tell number ds).Steadies ds := rfl
    exact agree_bind (steady_make told) (fun _ => steady_callHook number) w holds
  · exact agree_pure () w holds

theorem steady_deliver (who : Listener) {w : World} (holds : (steadiness ds).holds w) :
    (steadiness ds).Admits w ((deliver noScripts ds who).run w) ∧
      ((deliver noScripts ds who).after w).IsCurrent who := by
  obtain rfl : w.registry.devices = ds := holds
  cases who with
  | view number =>
    refine ⟨(steady_tellView number w rfl).2, ?_⟩
    have fresh := World.isCurrent_view (w.not_stale_tell number)
    change (leaves ((tellView noScripts number w.registry.devices).run w)).IsCurrent _
    rw [run_tellView]
    split
    · have told := steady_change (c := .tell number w.registry.devices) rfl rfl
      exact (steady_callHook number _ told.1).2.after.2.isCurrent fresh
    · rename_i inactive
      have untold : (Change.tell number w.registry.devices).apply w = w := if_neg inactive
      rw [untold] at fresh
      exact fresh
  | inbox number =>
    have told : (Change.tellInbox number w.registry.devices).Steadies w.registry.devices := rfl
    refine ⟨(steady_make told w rfl).2, ?_⟩
    intro held now
    change (w.inboxes.modify number _)[number]? = some held at now
    rw [List.getElem?_modify_eq] at now
    obtain ⟨before, _, rfl⟩ := Option.map_eq_some_iff.mp now
    exact holds_keepIfSame before w.registry.devices
  | script name => exact ⟨(agree_fail _ w rfl).2, nofun⟩
  | gesture g number => exact ⟨(agree_fail _ w rfl).2, nofun⟩
  | inert => exact ⟨(agree_fail _ w rfl).2, nofun⟩

/-- A signal that reaches a gesture that is meant for it stores nothing. -/
theorem steady_trigger {g : Gesture} (wire : g.topic?.isSome) (number : Nat) :
    (steadiness ds).Agree (trigger noScripts (.gesture g number))
      (trigger noScripts (.gesture g number)) := by
  cases g with
  | cyclePattern =>
    change Agree _ (cyclePattern noScripts number) (cyclePattern noScripts number)
    rw [cyclePattern_eq]
    exact agree_bind (steady_make trivial) fun _ => steady_callHook number
  | toggleIsometric =>
    change Agree _ (toggleIsometric noScripts number) (toggleIsometric noScripts number)
    rw [toggleIsometric_eq]
    exact agree_bind (steady_make trivial) fun _ => steady_callHook number
  | requestRender | activate | deactivate | render | receive => exact nomatch wire

end Law

section Acts

variable {w : World}

/-- An emission stores nothing and tells nobody of devices. -/
theorem advances_emit (wires : w.OnlyWires) (bus topic : String) :
    w.Advances ((emit noScripts bus topic).after w) := by
  let opened := (Change.openBus bus).apply w
  let r : Round := ⟨w.fanOuts, .trigger, trigger noScripts, handlerComplaint topic⟩
  have steady_opened : w.Steady opened :=
    World.steady_apply (show (Change.openBus bus).Steadies _ from trivial)
  have steady_begun : w.Steady (Change.beginFanOut.apply opened) :=
    steady_opened.trans (World.steady_apply trivial)
  have reaches : ∀ who ∈ (opened.bus bus).handlers topic, ∀ u,
      (steadiness w.registry.devices).holds u →
        (steadiness w.registry.devices).Admits u (r.result (r.firstCall u who)) ∧ True := by
    intro who listed u holds
    obtain ⟨g, number, rfl, wire⟩ := steady_opened.advances.wires wires bus topic who listed
    have called := Law.steady_change
      (show (Change.call r.number (.gesture g number) .trigger).Steadies _ from trivial) holds
    exact ⟨(Law.steady_trigger wire number _ called.1).2.trans called.2, trivial⟩
  have served := (Law.serve_reaches (fun _ _ => True) (Law.steady_records r) (fun _ => id)
    reaches steady_begun.devices id fun _ _ => ⟨_, rfl⟩).1.after
  exact (steady_begun.trans served.2).advances

theorem publish_informs {ds : List Device} {count : Nat} {v : World}
    (run : (publish noScripts ds).run w = .ok count v) :
    (∀ bus, v.bus bus = w.bus bus) ∧
      ∀ l ∈ w.registry.observers, (w.holding? l).isSome → v.Informs l := by
  let stored := (Change.store ds).apply w
  let begun := Change.beginFanOut.apply stored
  let r : Round := ⟨w.fanOuts, .notice ds, deliver noScripts ds, observerComplaint stored⟩
  have reaches : ∀ who ∈ w.registry.observers, ∀ u, (steadiness ds).holds u →
      (steadiness ds).Admits u (r.result (r.firstCall u who)) ∧
        (leaves (r.result (r.firstCall u who))).IsCurrent who := by
    intro who _ u holds
    have called := Law.steady_change
      (show (Change.call r.number who (.notice ds)).Steadies ds from trivial) holds
    obtain ⟨ends, current⟩ := Law.steady_deliver who called.1
    exact ⟨ends.trans called.2, current⟩
  have begun_holds : (steadiness ds).holds begun := rfl
  obtain ⟨_, steady, current⟩ := Law.serve_reaches_of_ok (fun who w => w.IsCurrent who)
    (Law.steady_records r) (fun steady => steady.isCurrent) reaches begun_holds run
  refine ⟨steady.buses, ?_⟩
  intro l registered holds
  obtain ⟨held, now⟩ := Option.isSome_iff_exists.mp (steady.isSome (l := l) holds)
  exact ⟨steady.observers ▸ registered, held, now, current l registered held now⟩

theorem advances_of_publish {ds : List Device} {count : Nat} {v : World}
    (run : (publish noScripts ds).run w = .ok count v) : w.Advances v := by
  obtain ⟨buses, informs⟩ := publish_informs run
  constructor
  · intro wires bus topic
    rw [buses bus]
    exact wires bus topic
  · rintro l ⟨registered, held, holds, _⟩
    exact informs l registered (by simp [holds])

theorem advances_of_journal {v : World} (journal : ∃ j, v = { w with journal := j }) :
    w.Advances v := by
  obtain ⟨j, rfl⟩ := journal
  exact World.Steady.advances (.of_same rfl rfl rfl rfl)

theorem advances_update {payload : Payload} {count : Nat} {v : World}
    (run : (update noScripts payload).run w = .ok count v) : w.Advances v := by
  cases parsed : payload.parsed with
  | error kind =>
    rw [run_update_error noScripts w parsed] at run
    exact nomatch run
  | ok ds =>
    obtain ⟨notes, received⟩ := run_receive w parsed
    simp only [update, EStateM.run_bind, received] at run
    exact (advances_of_journal ⟨_, World.foldl_noted id notes w⟩).trans (advances_of_publish run)

theorem run_discard_ok {α : Type} {x : Act α} {v : World}
    (run : (discard x).run w = .ok () v) : ∃ a, x.run w = .ok a v := by
  rw [run_discard] at run
  split at run
  · rename_i a u same
    obtain ⟨_, rfl⟩ := EStateM.Result.ok.inj run
    exact ⟨a, same⟩
  · exact nomatch run

theorem advances_clear {v : World} (run : (clear noScripts).run w = .ok () v) : w.Advances v := by
  obtain ⟨_, published⟩ := run_discard_ok run
  exact advances_of_publish published

theorem advances_updateDevice {name : String} {changes : List (String × Value)} {b : Bool}
    {v : World} (run : (updateDevice noScripts name changes).run w = .ok b v) : w.Advances v := by
  unfold updateDevice at run
  split at run
  · exact nomatch run
  · simp only [EStateM.run_bind, EStateM.run_get] at run
    split at run
    · obtain ⟨_, rfl⟩ := EStateM.Result.ok.inj run
      exact advances_of_journal ⟨_, rfl⟩
    · obtain ⟨_, rfl⟩ := EStateM.Result.ok.inj run
      exact advances_of_journal ⟨_, rfl⟩
    · obtain ⟨_, u, discarded, run⟩ := run_bind_ok run
      obtain ⟨_, rfl⟩ := EStateM.Result.ok.inj run
      obtain ⟨_, published⟩ := run_discard_ok discarded
      exact advances_of_publish published

theorem advances_modifyPlayer (number : Nat) (f : Player → Player) :
    w.Advances (w.modifyPlayer number f) :=
  World.Steady.advances (.of_same rfl rfl rfl rfl)

theorem advances_stepPlayer {number : Nat} {b : Bool} {v : World}
    (run : (stepPlayer noScripts number).run w = .ok b v) : w.Advances v := by
  simp only [stepPlayer, EStateM.run_bind, run_player?] at run
  split at run
  · split at run
    · obtain ⟨_, u, discarded, run⟩ := run_bind_ok run
      obtain ⟨_, rfl⟩ := EStateM.Result.ok.inj run
      obtain ⟨_, updated⟩ := run_discard_ok discarded
      exact (advances_update updated).trans (advances_modifyPlayer number _)
    · obtain ⟨_, rfl⟩ := EStateM.Result.ok.inj run
      exact .refl w
  · obtain ⟨_, rfl⟩ := EStateM.Result.ok.inj run
    exact .refl w

end Acts

section Places

variable {w v : World}

/-- A view that changed is the only one whose devices may be others. -/
theorem informs_of_modify {number : Nat} {f : View → View}
    (views : v.views = w.views.modify number f) (inboxes : v.inboxes = w.inboxes)
    (devices : v.registry.devices = w.registry.devices)
    (observers : ∀ l ∈ w.registry.observers, l ≠ .view number → l ∈ v.registry.observers)
    {l : Listener} (other : l ≠ .view number) (informed : w.Informs l) : v.Informs l := by
  obtain ⟨registered, held, holds, current⟩ := informed
  refine ⟨observers l registered other, held, ?_, devices ▸ current⟩
  rw [← holds]
  cases l with
  | view n =>
    have different : number ≠ n := fun same => other (by rw [same])
    change (v.views[n]?.filter (·.active)).map View.devices = _
    rw [views, List.getElem?_modify_ne _ _ different]
    rfl
  | inbox n => exact congrArg (·[n]?) inboxes
  | script | gesture | inert => rfl

variable {number : Nat} {x : View}

/-- A view that is activated is informed, and everyone who was informed still is. -/
theorem informs_attached (found : w.views[number]? = some x) (inactive : x.active = false) :
    (w.attached number x).Informs (.view number) ∧
      ∀ l, w.Informs l → (w.attached number x).Informs l := by
  have views := w.views_attached number x
  have devices : (w.attached number x).registry.devices = w.registry.devices := by
    rw [World.registry_attached, Registry.devices_register]
  constructor
  · refine ⟨?_, (({ x with active := true } : View).tell w.registry.devices).devices, ?_, ?_⟩
    · rw [World.registry_attached]
      exact Registry.mem_register_self _ (by simp [Listener.identical])
    · change ((w.attached number x).views[number]?.filter (·.active)).map View.devices = _
      rw [views, List.getElem?_modify_eq, found]
      rfl
    · rw [devices]
      exact View.holds_tell _ _
  · intro l informed
    refine informs_of_modify views (by simp [World.attached, World.modifyView, World.setBus])
      devices ?_ ?_ informed
    · intro l registered _
      rw [World.registry_attached]
      exact Registry.mem_register_of_mem registered
    · rintro rfl
      obtain ⟨_, held, holds, _⟩ := informed
      change (w.views[number]?.filter (·.active)).map View.devices = some held at holds
      simp [found, inactive] at holds

theorem onlyWires_attached (wires : w.OnlyWires) : (w.attached number x).OnlyWires := by
  intro bus topic l member
  rw [World.bus_attached] at member
  split at member
  · rcases Bus.mem_subscribe member with ⟨_, rfl⟩ | member
    · exact ⟨_, _, rfl, rfl⟩
    · rcases Bus.mem_subscribe member with ⟨_, rfl⟩ | member
      · exact ⟨_, _, rfl, rfl⟩
      · exact wires _ topic l member
  · exact wires bus topic l member

/-- Only the view that is deactivated is no longer informed. -/
theorem informs_detached {l : Listener} (other : l ≠ .view number) (informed : w.Informs l) :
    (w.detached number x).Informs l := by
  refine informs_of_modify (w.views_detached number x) rfl rfl ?_ other informed
  intro l registered different
  rw [World.registry_detached]
  exact Registry.mem_remove_of_ne different registered

theorem onlyWires_detached (wires : w.OnlyWires) : (w.detached number x).OnlyWires := by
  intro bus topic l member
  rw [World.bus_detached] at member
  split at member
  · exact wires _ topic l (Bus.mem_unsubscribe (Bus.mem_unsubscribe member))
  · exact wires bus topic l member

end Places

end FleetMap
