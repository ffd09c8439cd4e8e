import FleetMap.Proofs.Hub.Joining

set_option autoImplicit false

namespace FleetMap

open Act Hub

/-- A call that enters somebody in a list of the hub or takes him out. -/
inductive Enrollment where
  | handler (bus topic : String) (call : Roster.Call Listener)
  | observer (call : Roster.Call Listener)

namespace Enrollment

def onBus (bus : String) : Enrollment → Option (String × Roster.Call Listener)
  | .handler on topic call => if on = bus then some (topic, call) else none
  | .observer _ => none

def onRegistry : Enrollment → Option (Roster.Call Listener)
  | .observer call => some call
  | .handler _ _ _ => none

def IsOfView : Enrollment → Prop
  | .handler _ topic call => ∃ g number, call.who = .gesture g number ∧ g.topic? = some topic
  | .observer call => ∃ number, call.who = .view number

end Enrollment

structure World.Enrolls (w : World) (made : List Enrollment) (v : World) : Prop where
  buses : ∀ bus, v.bus bus = (w.bus bus).after (made.filterMap (·.onBus bus))
  observers : v.registry.observers =
    (w.registry.after (made.filterMap (·.onRegistry))).observers

section Worlds

variable {u v w : World} {made later : List Enrollment}

theorem Registry.observers_register (r : Registry) (l : Listener) :
    (r.register l).observers =
      if r.isRegistered l then r.observers else r.observers ++ [l] := by
  unfold Registry.register
  split
  · rfl
  · rfl

theorem Registry.observers_obey {r s : Registry} (same : r.observers = s.observers)
    (c : Roster.Call Listener) : (r.obey c).observers = (s.obey c).observers := by
  cases c with
  | join l => rw [Registry.obey, Registry.obey, Registry.observers_register,
      Registry.observers_register, Registry.isRegistered, Registry.isRegistered, same]
  | leave l => rw [Registry.obey, Registry.obey, Registry.observers_remove,
      Registry.observers_remove, same]

theorem Registry.observers_after_of_same {r s : Registry} (same : r.observers = s.observers)
    (calls : List (Roster.Call Listener)) :
    (r.after calls).observers = (s.after calls).observers := by
  induction calls generalizing r s with
  | nil => exact same
  | cons c rest ih => exact ih (Registry.observers_obey same c)

theorem World.Enrolls.of_same (buses : ∀ bus, v.bus bus = w.bus bus)
    (observers : v.registry.observers = w.registry.observers) : w.Enrolls [] v :=
  ⟨buses, observers⟩

theorem World.Enrolls.trans (first : u.Enrolls made v) (second : v.Enrolls later w) :
    u.Enrolls (made ++ later) w := by
  constructor
  · intro bus
    rw [second.buses, first.buses, List.filterMap_append, Bus.after, Bus.after, Bus.after,
      List.foldl_append]
  · rw [second.observers, Registry.observers_after_of_same first.observers,
      List.filterMap_append, Registry.after, Registry.after, Registry.after, List.foldl_append]

end Worlds

def Change.enrollments (w : World) : Change → List Enrollment
  | .register l => [.observer (.join l)]
  | .remove l => [.observer (.leave l)]
  | .subscribe bus topic l => [.handler bus topic (.join l)]
  | .unsubscribe bus topic l => [.handler bus topic (.leave l)]
  | .activate number =>
    match w.views[number]? with
    | some v =>
      if v.active then []
      else
        [.observer (.join (.view number)),
          .handler v.bus Bus.cycleTopic (.join (.gesture .cyclePattern number)),
          .handler v.bus Bus.toggleTopic (.join (.gesture .toggleIsometric number))]
    | none => []
  | .deactivate number =>
    match w.views[number]? with
    | some v =>
      if v.active then
        [.handler v.bus Bus.toggleTopic (.leave (.gesture .toggleIsometric number)),
          .handler v.bus Bus.cycleTopic (.leave (.gesture .cyclePattern number)),
          .observer (.leave (.view number))]
      else []
    | none => []
  | _ => []

section Changes

variable {w : World}

theorem World.enrolls_setBus (bus topic : String) (call : Roster.Call Listener) :
    w.Enrolls [.handler bus topic call] (w.setBus bus ((w.bus bus).obey (topic, call))) := by
  constructor
  · intro other
    rw [World.bus_setBus]
    by_cases same : bus = other
    · subst same
      simp [Enrollment.onBus, Bus.after]
    · simp [Enrollment.onBus, Bus.after, same, Ne.symm same]
  · rfl

theorem World.enrolls_attached (w : World) (number : Nat) (v : View) :
    w.Enrolls
      [.observer (.join (.view number)),
        .handler v.bus Bus.cycleTopic (.join (.gesture .cyclePattern number)),
        .handler v.bus Bus.toggleTopic (.join (.gesture .toggleIsometric number))]
      (w.attached number v) := by
  constructor
  · intro bus
    rw [World.bus_attached]
    by_cases same : v.bus = bus
    · subst same
      simp [Enrollment.onBus, Bus.after, Bus.obey]
    · simp [Enrollment.onBus, Bus.after, same, Ne.symm same]
  · rw [World.registry_attached]
    rfl

theorem World.enrolls_detached (w : World) (number : Nat) (v : View) :
    w.Enrolls
      [.handler v.bus Bus.toggleTopic (.leave (.gesture .toggleIsometric number)),
        .handler v.bus Bus.cycleTopic (.leave (.gesture .cyclePattern number)),
        .observer (.leave (.view number))]
      (w.detached number v) := by
  constructor
  · intro bus
    rw [World.bus_detached]
    by_cases same : v.bus = bus
    · subst same
      simp [Enrollment.onBus, Bus.after, Bus.obey]
    · simp [Enrollment.onBus, Bus.after, same, Ne.symm same]
  · rw [World.registry_detached]
    rfl

/-- Every change makes its calls and touches the lists in no other way. -/
theorem Change.enrolls_apply (c : Change) : w.Enrolls (c.enrollments w) (c.apply w) := by
  have opened : ∀ bus other, (w.setBus bus (w.bus bus)).bus other = w.bus other := by
    intro bus other
    rw [World.bus_setBus]
    split
    · rename_i same
      rw [same]
    · rfl
  cases c with
  | openBus bus => exact .of_same (opened bus) rfl
  | subscribe bus topic l => exact World.enrolls_setBus bus topic (.join l)
  | unsubscribe bus topic l => exact World.enrolls_setBus bus topic (.leave l)
  | register l | remove l => exact ⟨fun _ => rfl, rfl⟩
  | activate number =>
    cases found : w.views[number]? with
    | none =>
      simp only [Change.apply, Change.enrollments, found]
      exact .of_same (fun _ => rfl) rfl
    | some v =>
      cases active : v.active with
      | true =>
        simp only [Change.apply, Change.enrollments, found, active, if_true]
        exact .of_same (fun _ => rfl) rfl
      | false =>
        simp only [Change.apply, Change.enrollments, found, active, Bool.false_eq_true, if_false]
        exact w.enrolls_attached number v
  | deactivate number =>
    cases found : w.views[number]? with
    | none =>
      simp only [Change.apply, Change.enrollments, found]
      exact .of_same (fun _ => rfl) rfl
    | some v =>
      cases active : v.active with
      | true =>
        simp only [Change.apply, Change.enrollments, found, active, if_true]
        exact w.enrolls_detached number v
      | false =>
        simp only [Change.apply, Change.enrollments, found, active, Bool.false_eq_true, if_false]
        exact .of_same (fun _ => rfl) rfl
  | tell number ds =>
    rcases Change.apply_tell w number ds with same | ⟨_, told⟩
    · rw [same]
      exact .of_same (fun _ => rfl) rfl
    · rw [told]
      exact .of_same (fun _ => by simp) (by simp)
  | ask number => exact .of_same (fun _ => by simp [Change.apply]) (by simp [Change.apply])
  | cycle number | toggle number =>
    exact .of_same (fun _ => by simp [Change.apply]) (by simp [Change.apply])
  | _ => exact .of_same (fun _ => rfl) rfl

end Changes

/-- Who a mention stands for depends on the scripts and on the names of views alone. -/
theorem Mention.StandsFor.of_same {who : Mention} {v w : World} {l : Listener}
    (stands : who.StandsFor w l) (scripts : v.scripts = w.scripts)
    (viewNames : v.viewNames = w.viewNames) : who.StandsFor v l := by
  have named : ∀ id number, (∃ u, (viewNamed id).run w = .ok number u) →
      (viewNamed id).run v = .ok number v := by
    rintro id number ⟨u, run⟩
    simp only [viewNamed, EStateM.run_bind, EStateM.run_get, viewNames,
      (run_viewNamed_ok run).1]
    rfl
  obtain ⟨u, run⟩ := stands
  cases who with
  | inert =>
    obtain ⟨rfl, _⟩ := EStateM.Result.ok.inj run
    exact ⟨v, rfl⟩
  | gesture g id =>
    obtain ⟨number, _, found, rest⟩ := run_bind_ok run
    obtain ⟨rfl, _⟩ := EStateM.Result.ok.inj rest
    refine ⟨v, ?_⟩
    simp only [resolve, EStateM.run_bind, named id number ⟨_, found⟩]
    rfl
  | named name =>
    simp only [resolve, EStateM.run_bind, EStateM.run_get] at run
    cases scripted : lookupField name w.scripts with
    | some script =>
      rw [scripted] at run
      obtain ⟨rfl, _⟩ := EStateM.Result.ok.inj run
      refine ⟨v, ?_⟩
      simp only [resolve, EStateM.run_bind, EStateM.run_get, scripts, scripted]
      rfl
    | none =>
      rw [scripted] at run
      obtain ⟨number, _, found, rest⟩ := run_bind_ok run
      obtain ⟨rfl, _⟩ := EStateM.Result.ok.inj rest
      refine ⟨v, ?_⟩
      simp only [resolve, EStateM.run_bind, EStateM.run_get, scripts, scripted,
        Option.isSome_none, Bool.false_eq_true, if_false, named name number ⟨_, found⟩]
      rfl

/-- Commands that are calls to join or to leave, made for the one who is mentioned. -/
def Command.enrollment? : Command → Option (Mention × (Listener → Enrollment))
  | .register who => some (who, fun l => .observer (.join l))
  | .remove who => some (who, fun l => .observer (.leave l))
  | .subscribe bus topic who => some (who, fun l => .handler bus topic (.join l))
  | .unsubscribe bus topic who => some (who, fun l => .handler bus topic (.leave l))
  | _ => none

def Command.asks : Command → Bool
  | .devices | .isRegistered _ | .listenerCount _ _ => true
  | _ => false

/-- A call that a command makes by itself, for somebody who can be mentioned with the given
scripts. -/
def Command.Enrolls (scripts : List (String × Script)) (c : Command) (e : Enrollment) : Prop :=
  ∃ who call w l, c.enrollment? = some (who, call) ∧ w.scripts = scripts ∧ who.StandsFor w l ∧
    e = call l

/-- A call that can come up without having been asked for: a view makes it, or a command of a
script. -/
def Enrollment.IsFromWithin (scripts : List (String × Script)) (e : Enrollment) : Prop :=
  e.IsOfView ∨ ∃ s ∈ scripts, ∃ c ∈ s.2.acts, c.Enrolls scripts e

/-- The calls that are made when a command is carried out: its own, and while it is under way those
that come from within. -/
structure Command.Makes (c : Command) (w : World) (made : List Enrollment) : Prop where
  own : ∀ who call, c.enrollment? = some (who, call) →
    (∀ l, who.StandsFor w l → made = [call l]) ∧ ((∀ l, ¬ who.StandsFor w l) → made = [])
  asked : c.asks = true → made = []
  within : c.enrollment? = none → ∀ e ∈ made, e.IsFromWithin w.scripts

namespace Hub

/-- The calls that are made in the course of a session. -/
inductive Calls : World → List Command → List Enrollment → Prop where
  | none (w : World) : Calls w [] []
  | step {w : World} {c : Command} {rest : List Command} {made later : List Enrollment} :
    c.Makes w made → Calls ((carryOut c).after w) rest later → Calls w (c :: rest) (made ++ later)

end Hub

def enrolling (allowed : Enrollment → Prop) : Law where
  holds _ := True
  moves w v := ∃ made, (∀ e ∈ made, allowed e) ∧ w.Enrolls made v
  breaks := True
  refl _ := ⟨[], nofun, .of_same (fun _ => rfl) rfl⟩
  trans := by
    rintro u v w ⟨made, allowed_made, first⟩ ⟨later, allowed_later, second⟩
    exact ⟨made ++ later, List.forall_mem_append.mpr ⟨allowed_made, allowed_later⟩,
      first.trans second⟩

def Change.EnrollsOnly (allowed : Enrollment → Prop) (c : Change) : Prop :=
  ∀ w, ∀ e ∈ c.enrollments w, allowed e

namespace Law

variable {allowed : Enrollment → Prop}

theorem fansOut_enrolls : FansOut (Change.EnrollsOnly allowed) :=
  ⟨fun _ _ => nofun, fun _ => nofun, fun _ _ _ _ _ => nofun, fun _ _ _ _ => nofun⟩

theorem enrolling_change {c : Change} {w : World} (only : c.EnrollsOnly allowed) :
    (enrolling allowed).holds (c.apply w) ∧ (enrolling allowed).moves w (c.apply w) :=
  ⟨trivial, _, only w, c.enrolls_apply⟩

/-- A fan-out makes no calls but those of the listeners that it calls. -/
theorem emit_enrolls {fire : Fire} {w : World} {bus topic : String}
    (each : ∀ who ∈ (w.bus bus).handlers topic, ∀ u : World, ∃ made, (∀ e ∈ made, allowed e) ∧
      u.Enrolls made ((trigger fire who).after u)) :
    ∃ made, (∀ e ∈ made, allowed e) ∧ w.Enrolls made ((emit fire bus topic).after w) := by
  have agree : ∀ who ∈ (w.bus bus).handlers topic,
      (enrolling allowed).Agree (trigger fire who) (trigger fire who) :=
    fun who member => agree_of_moves (fun _ => trivial) trivial (each who member)
  have opens : (Change.openBus bus).EnrollsOnly allowed := fun _ => nofun
  have emits : (enrolling allowed).Agree
      (fanOut ((w.bus bus).handlers topic) .trigger (trigger fire)
        (handlerComplaint topic)) _ :=
    agree_fanOut_of_listed (fun only _ => enrolling_change only) fansOut_enrolls nofun agree
  have run : (emit fire bus topic).after w =
      (fanOut ((w.bus bus).handlers topic) .trigger (trigger fire)
        (handlerComplaint topic)).after ((Change.openBus bus).apply w) := by
    simp only [emit, Act.after, EStateM.run_bind, run_openBus, EStateM.run_get, World.bus_setBus,
      if_true]
    rfl
  rw [run]
  exact (enrolling allowed).trans (enrolling_change opens).2 (emits _ trivial).2.after.2

end Law

section Sessions

variable {scripts : List (String × Script)}

/-- The law of everything that can come up in a session without having been asked for. -/
def unasked (scripts : List (String × Script)) : Law :=
  (enrolling (Enrollment.IsFromWithin scripts)).also fun w => w.scripts = scripts

namespace Law

theorem unasked_permits :
    (unasked scripts).Permits (Change.EnrollsOnly (Enrollment.IsFromWithin scripts)) := by
  apply Permits.of_change
  · intro w c only holds
    have made := enrolling_change (w := w) only
    exact ⟨⟨trivial, (Change.apply_names w c).1.trans holds.2⟩, made.2⟩
  · exact fansOut_enrolls

theorem routine_enrolls :
    Routine (Change.EnrollsOnly (Enrollment.IsFromWithin scripts)) := by
  have ofView : ∀ {e : Enrollment}, e.IsOfView → e.IsFromWithin scripts := .inl
  constructor
  · exact ⟨fun _ _ => nofun, fun _ _ _ => nofun, fun _ _ => nofun, fun _ _ _ => nofun⟩
  · intro number
    refine ⟨?_, ?_, fun _ => nofun, fun _ => nofun, fun _ => nofun⟩
    · intro w e member
      simp only [Change.enrollments] at member
      split at member
      · split at member
        · exact nomatch member
        · simp only [List.mem_cons, List.not_mem_nil, or_false] at member
          rcases member with rfl | rfl | rfl
          · exact ofView ⟨number, rfl⟩
          · exact ofView ⟨_, number, rfl, rfl⟩
          · exact ofView ⟨_, number, rfl, rfl⟩
      · exact nomatch member
    · intro w e member
      simp only [Change.enrollments] at member
      split at member
      · split at member
        · simp only [List.mem_cons, List.not_mem_nil, or_false] at member
          rcases member with rfl | rfl | rfl
          · exact ofView ⟨_, number, rfl, rfl⟩
          · exact ofView ⟨_, number, rfl, rfl⟩
          · exact ofView ⟨number, rfl⟩
        · exact nomatch member
      · exact nomatch member

/-- A command makes no other calls than its own and those from within. -/
theorem within_unasked {c : Command}
    (own : ∀ e, c.Enrolls scripts e → e.IsFromWithin scripts) :
    c.Within (unasked scripts) (Change.EnrollsOnly (Enrollment.IsFromWithin scripts)) := by
  have contents : ∀ change : Change, change.SetsContents →
      change.EnrollsOnly (Enrollment.IsFromWithin scripts) := by
    intro change sets
    cases change with
    | register | remove | subscribe | unsubscribe | activate | deactivate => exact sets.elim
    | _ =>
      intro w e member
      cases member
  cases c with
  | register who | remove who =>
    intro w l holds stands u e member
    obtain rfl := List.mem_singleton.mp member
    exact own _ ⟨who, _, w, l, rfl, holds.2, stands, rfl⟩
  | subscribe bus topic who | unsubscribe bus topic who =>
    intro w l holds stands u e member
    obtain rfl := List.mem_singleton.mp member
    exact own _ ⟨who, _, w, l, rfl, holds.2, stands, rfl⟩
  | view => exact fun _ _ => nofun
  | _ => exact Command.within_of_contents contents rfl

theorem unasked_binds :
    (unasked scripts).Binds (Change.EnrollsOnly (Enrollment.IsFromWithin scripts)) := by
  intro w name script holds found
  obtain ⟨_, rfl⟩ := holds
  refine ⟨?_, fun _ => trivial⟩
  intro c member
  exact within_unasked fun e own =>
    .inr ⟨(name, script), mem_of_lookupField found, c, member, own⟩

end Law

theorem after_mention (l : Listener) (w : World) :
    (do mention l; return Answer.nothing : Act Answer).after w = w := by
  simp only [Act.after, mention, EStateM.run_bind, EStateM.run_get]
  cases w.shown l with
  | ok name => rfl
  | error f => rfl

/-- A change that is made to the one who is mentioned is made to nobody else, and not at all if
nobody is meant. -/
theorem enrolls_mentioned {who : Mention} (change : Listener → Change)
    {call : Listener → Enrollment} (calls : ∀ l u, (change l).enrollments u = [call l])
    {next : Listener → Act Answer} (stays : ∀ l u, (next l).after u = u)
    {w u : World} (opened : w.Enrolls [] u) (scripts : u.scripts = w.scripts)
    (viewNames : u.viewNames = w.viewNames) :
    ∃ made, w.Enrolls made (Act.after (do let l ← resolve who; make (change l); next l) u) ∧
      (∀ l, who.StandsFor w l → made = [call l]) ∧
        ((∀ l, ¬ who.StandsFor w l) → made = []) := by
  have stands_iff : ∀ l, who.StandsFor w l ↔ who.StandsFor u l := fun l =>
    ⟨fun stands => stands.of_same scripts viewNames,
      fun stands => stands.of_same scripts.symm viewNames.symm⟩
  simp only [stands_iff, Act.after, EStateM.run_bind]
  rcases resolve_cases who u with ⟨l, run⟩ | ⟨f, run⟩
  · rw [run]
    refine ⟨[call l], ?_, ?_, ?_⟩
    · have changed := (change l).enrolls_apply (w := u)
      rw [calls] at changed
      change w.Enrolls [call l] ((next l).after ((change l).apply u))
      rw [stays]
      exact opened.trans changed
    · rintro other ⟨v, stands⟩
      rw [run] at stands
      rw [(EStateM.Result.ok.inj stands).1]
    · exact fun nobody => absurd ⟨u, run⟩ (nobody l)
  · rw [run]
    refine ⟨[], opened, ?_, fun _ => rfl⟩
    rintro other ⟨v, stands⟩
    rw [run] at stands
    exact nomatch stands

/-- What a command that joins or leaves does, for the one who is meant or for nobody. -/
theorem Command.enrolls_own {c : Command} {who : Mention} {call : Listener → Enrollment}
    (enrolls : c.enrollment? = some (who, call)) (w : World) :
    ∃ made, w.Enrolls made ((carryOut c).after w) ∧
      (∀ l, who.StandsFor w l → made = [call l]) ∧
        ((∀ l, ¬ who.StandsFor w l) → made = []) := by
  have opened : ∀ bus, w.Enrolls [] ((Change.openBus bus).apply w) :=
    fun bus => Change.enrolls_apply (.openBus bus)
  cases c with
  | register who =>
    obtain ⟨rfl, rfl⟩ := Prod.mk.inj (Option.some.inj enrolls)
    exact enrolls_mentioned .register (fun _ _ => rfl) after_mention (.of_same (fun _ => rfl) rfl)
      rfl rfl
  | remove who =>
    obtain ⟨rfl, rfl⟩ := Prod.mk.inj (Option.some.inj enrolls)
    exact enrolls_mentioned .remove (fun _ _ => rfl) after_mention (.of_same (fun _ => rfl) rfl)
      rfl rfl
  | subscribe bus topic who =>
    obtain ⟨rfl, rfl⟩ := Prod.mk.inj (Option.some.inj enrolls)
    exact enrolls_mentioned (.subscribe bus topic) (fun _ _ => rfl) (fun _ _ => rfl) (opened bus)
      rfl rfl
  | unsubscribe bus topic who =>
    obtain ⟨rfl, rfl⟩ := Prod.mk.inj (Option.some.inj enrolls)
    exact enrolls_mentioned (.unsubscribe bus topic) (fun _ _ => rfl) (fun _ _ => rfl) (opened bus)
      rfl rfl
  | _ => exact nomatch enrolls

theorem Command.enrolls_asked {c : Command} (asks : c.asks = true) (w : World) :
    w.Enrolls [] ((carryOut c).after w) := by
  cases c with
  | devices => exact .of_same (fun _ => rfl) rfl
  | isRegistered who =>
    simp only [Act.after, run_carryOut, command, EStateM.run_bind]
    rcases resolve_cases who w with ⟨l, run⟩ | ⟨f, run⟩
    · rw [run]
      exact .of_same (fun _ => rfl) rfl
    · rw [run]
      exact .of_same (fun _ => rfl) rfl
  | listenerCount bus topic => exact Change.enrolls_apply (.openBus bus)
  | _ => cases asks

theorem carryOut_makes (c : Command) (w : World) :
    ∃ made, c.Makes w made ∧ w.Enrolls made ((carryOut c).after w) := by
  cases enrolls : c.enrollment? with
  | some both =>
    obtain ⟨who, call⟩ := both
    obtain ⟨made, changed, own⟩ := c.enrolls_own enrolls w
    refine ⟨made, ⟨?_, ?_, ?_⟩, changed⟩
    · intro who' call' same
      obtain ⟨rfl, rfl⟩ := Prod.mk.inj (Option.some.inj (enrolls.symm.trans same))
      exact own
    · intro asks
      cases c with
      | devices | isRegistered | listenerCount => exact nomatch enrolls
      | _ => exact nomatch asks
    · exact fun none => nomatch enrolls.symm.trans none
  | none =>
    have own : ∀ who call, c.enrollment? ≠ some (who, call) := by
      rw [enrolls]
      exact fun _ _ => nofun
    by_cases asks : c.asks = true
    · exact ⟨[], ⟨fun who call same => absurd same (own who call), fun _ => rfl, fun _ _ => nofun⟩,
        c.enrolls_asked asks w⟩
    · have nothing : ∀ e, c.Enrolls w.scripts e → e.IsFromWithin w.scripts :=
        fun e ⟨who, call, _, _, same, _⟩ => absurd same (own who call)
      have holds : (unasked w.scripts).holds w := ⟨trivial, rfl⟩
      obtain ⟨made, from_within, changed⟩ :=
        (Law.carryOut_admits Law.unasked_permits Law.routine_enrolls Law.unasked_binds
          (Law.within_unasked nothing) holds).after.2
      exact ⟨made, ⟨fun who call same => absurd same (own who call),
        fun asked => absurd asked asks, fun _ => from_within⟩, changed⟩

theorem carryOutAll_makes (steps : List Command) (w : World) :
    ∃ made, Calls w steps made ∧ w.Enrolls made (carryOutAll w steps) := by
  induction steps generalizing w with
  | nil => exact ⟨[], .none w, .of_same (fun _ => rfl) rfl⟩
  | cons c rest ih =>
    obtain ⟨made, makes, changed⟩ := carryOut_makes c w
    obtain ⟨later, calls, others⟩ := ih ((carryOut c).after w)
    exact ⟨made ++ later, .step makes calls, changed.trans others⟩

end Sessions

/-- Who listens is told by the calls. On a bus, a handler is listed on a topic exactly if the last
call about it on this topic is to join, once, and in the order in which handlers joined since they
were last absent; a topic is there exactly if somebody is listed on it, so none is left where
everybody leaves again. The registry does the same with the things that are mentioned, of which a
gesture is another one each time. In every session there are calls, step by step those that its
steps make, from which all lists can be told; the calls that come up while something else is under
way are those of scripts and views. A signal is sent out without any call but those of its handlers.
-/
theorem listener_lists_follow_the_calls {initial : Payload} {scripts : List (String × Script)}
    {w : World} (starts : start initial scripts = .ok w) (steps : List Command) :
    (∀ calls topic,
      let b := Bus.empty.after calls
      (∀ l, Roster.IsRoster (Bus.callsOn topic calls) l ↔ l = b.handlers topic) ∧
        (topic ∈ b.topics ↔ b.handlers topic ≠ []) ∧ b.topics.Nodup ∧
          (Bus.AreBalanced calls → b.topics = [])) ∧
      (∀ calls, ∃ things, Roster.IsRoster (Registry.things calls) things ∧
        (Registry.empty.after calls).observers = things.map (·.1)) ∧
      (∃ made, Calls w steps made ∧
        let v := carryOutAll w steps
        (∀ bus topic,
          let calls := made.filterMap (·.onBus bus)
          (∀ l, Roster.IsRoster (Bus.callsOn topic calls) l ↔ l = (v.bus bus).handlers topic) ∧
            (topic ∈ (v.bus bus).topics ↔ (v.bus bus).handlers topic ≠ [])) ∧
        ∃ things, Roster.IsRoster (Registry.things (made.filterMap (·.onRegistry))) things ∧
          v.registry.observers = things.map (·.1)) ∧
      ∀ (fire : Fire) (u : World) (bus topic : String) (allowed : Enrollment → Prop),
        (∀ who ∈ (u.bus bus).handlers topic, ∀ u : World, ∃ made, (∀ e ∈ made, allowed e) ∧
          u.Enrolls made ((trigger fire who).after u)) →
        ∃ made, (∀ e ∈ made, allowed e) ∧ u.Enrolls made ((emit fire bus topic).after u) := by
  have on_bus : ∀ calls topic,
      (∀ l, Roster.IsRoster (Bus.callsOn topic calls) l ↔
          l = (Bus.empty.after calls).handlers topic) ∧
        (topic ∈ (Bus.empty.after calls).topics ↔
          (Bus.empty.after calls).handlers topic ≠ []) := by
    intro calls topic
    refine ⟨fun l => ?_, (Bus.isTidy_empty.after calls).mem_topics_iff⟩
    rw [Roster.isRoster_iff, Bus.handlers_after]
    rfl
  have on_registry : ∀ calls, ∃ things, Roster.IsRoster (Registry.things calls) things ∧
      (Registry.empty.after calls).observers = things.map (·.1) :=
    fun calls => ⟨_, Roster.isRoster_iff.mpr rfl, Registry.observers_after calls⟩
  refine ⟨?_, on_registry, ?_, fun fire u bus topic allowed => Law.emit_enrolls⟩
  · intro calls topic
    obtain ⟨roster, inhabited⟩ := on_bus calls topic
    exact ⟨roster, inhabited, (Bus.isTidy_empty.after calls).distinct, Bus.topics_of_balanced⟩
  · obtain ⟨made, calls, changed⟩ := carryOutAll_makes steps w
    have alone : (∀ bus, w.bus bus = .empty) ∧ w.registry.observers = [] := by
      obtain ⟨ds, rfl⟩ := start_eq starts
      exact ⟨fun _ => rfl, rfl⟩
    refine ⟨made, calls, ?_, ?_⟩
    · intro bus topic
      rw [changed.buses, alone.1]
      exact on_bus _ topic
    · have observers := Registry.observers_after_of_same (s := .empty) alone.2
        (made.filterMap (·.onRegistry))
      rw [changed.observers, observers]
      exact on_registry _

/-- A handler that leaves and joins again, and a gesture that is registered twice and cannot be
removed. -/
def rejoiningSteps : List Command :=
  [.view "v" "main" none none, .subscribe "main" "t" (.named "a"),
    .subscribe "main" "t" (.gesture .requestRender "v"), .subscribe "main" "t" (.named "a"),
    .unsubscribe "main" "t" (.named "a"), .emit "main" "t", .subscribe "main" "t" (.named "a"),
    .register (.gesture .receive "v"), .register (.named "a"), .register (.named "a"),
    .register (.gesture .receive "v"), .remove (.gesture .receive "v"),
    .subscribe "main" "u" (.named "a"), .unsubscribe "main" "u" (.named "a")]

theorem rejoining_handler_is_listed_last :
    let w := { World.empty with scripts := [("a", ⟨false, 0, [], .returns, none⟩)] }
    let v := carryOutAll w rejoiningSteps
    start (.entries []) w.scripts = .ok w ∧
      (∃ made, Calls w rejoiningSteps made ∧
        Roster.IsRoster (Bus.callsOn "t" (made.filterMap (·.onBus "main")))
          [.gesture .requestRender 0, .script "a"] ∧
        ∃ things, Roster.IsRoster (Registry.things (made.filterMap (·.onRegistry))) things ∧
          things.map (·.1) = [.gesture .receive 0, .script "a", .gesture .receive 0]) ∧
      "t" ∈ (v.bus "main").topics ∧ "u" ∉ (v.bus "main").topics := by
  intro w v
  have starts : start (.entries []) w.scripts = .ok w := rfl
  obtain ⟨made, calls, on_bus, things, roster, observers⟩ :=
    (listener_lists_follow_the_calls starts rejoiningSteps).2.2.1
  obtain ⟨handlers, inhabited⟩ := on_bus "main" "t"
  refine ⟨starts, ⟨made, calls, (handlers _).mpr (by decide), things, roster, ?_⟩, ?_, ?_⟩
  · rw [← observers]
    decide
  · exact inhabited.mpr (by decide)
  · rw [(on_bus "main" "u").2]
    decide

end FleetMap
