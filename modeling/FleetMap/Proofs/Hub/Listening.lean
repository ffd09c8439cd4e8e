import FleetMap.Proofs.Hub.FanOut

set_option autoImplicit false

namespace FleetMap

open Act Hub

def Payload.isLegible (p : Payload) : Bool :=
  match p.parsed with
  | .ok _ => true
  | .error _ => false

theorem Payload.isLegible_eq_true {p : Payload} :
    p.isLegible = true ↔ ∃ ds, p.parsed = .ok ds := by
  unfold isLegible
  cases p.parsed with
  | ok ds => simp
  | error kind => simp

theorem Payload.isLegible_eq_false {p : Payload} :
    p.isLegible = false ↔ ∃ kind, p.parsed = .error kind := by
  unfold isLegible
  cases p.parsed with
  | ok ds => simp
  | error kind => simp

/-- The collection that an entry tells was stored. -/
def Entry.publication? : Entry → Option (List Device)
  | .stored ds => some ds
  | _ => none

/-- All collections that were stored, the newest first. -/
def World.publications (w : World) : List (List Device) := w.journal.filterMap Entry.publication?

/-- From one world to the other nothing was published, and the player came to a halt at most. -/
structure World.AtMostPauses (number : Nat) (w v : World) : Prop where
  devices : v.registry.devices = w.registry.devices
  publications : v.publications = w.publications
  looping : v.looping = w.looping
  player : v.players[number]? = w.players[number]? ∨
    v.players[number]? = w.players[number]?.map Player.paused

namespace World.AtMostPauses

variable {number : Nat} {u v w : World}

theorem refl (w : World) : w.AtMostPauses number w := ⟨rfl, rfl, rfl, .inl rfl⟩

theorem trans (first : u.AtMostPauses number v) (second : v.AtMostPauses number w) :
    u.AtMostPauses number w := by
  refine ⟨second.devices.trans first.devices, second.publications.trans first.publications,
    second.looping.trans first.looping, ?_⟩
  rcases first.player with same | paused
  · rw [← same]
    exact second.player
  · right
    rcases second.player with same | paused_again
    · rw [same, paused]
    · rw [paused_again, paused, Option.map_map]
      rfl

end World.AtMostPauses

/-- A change that neither publishes nor steers a player, but for pausing it. -/
def Change.LeavesPlayback : Change → Prop
  | .store _ | .makePlayer _ | .setLooping _ => False
  | .modifyPlayer _ f => f = Player.paused
  | _ => True

/-- A command that neither publishes nor steers a player, but for pausing it. -/
def Command.leavesPlayback : Command → Bool
  | .player _ | .load _ _ | .play | .reset => false
  | c => !c.publishes

namespace Hub

/-- Scripts that neither publish nor steer a player, but for pausing it, that do not break off and
that have names. -/
def attentive (scripts : List (String × Script)) : Bool :=
  scripts.all (·.2.acts.all (·.leavesPlayback)) && unbreaking scripts && named scripts

end Hub

/-- Scripts are the given ones and the player in use stays in use; nothing is published, and nothing
breaks off. -/
def listening (scripts : List (String × Script)) (number : Nat) : Law where
  holds w := w.scripts = scripts ∧ w.players.length = number + 1
  moves := World.AtMostPauses number
  breaks := False
  refl := World.AtMostPauses.refl
  trans := World.AtMostPauses.trans

namespace Law

variable {scripts : List (String × Script)} {number : Nat}

theorem listening_change {w : World} {c : Change} (leaves : c.LeavesPlayback)
    (holds : (listening scripts number).holds w) :
    (listening scripts number).holds (c.apply w) ∧
      (listening scripts number).moves w (c.apply w) := by
  obtain ⟨same_scripts, count⟩ := holds
  have only : c.OfView → w.OnlyViews (c.apply w) := Change.onlyViews_apply w
  cases c with
  | activate | deactivate | tell | ask | cycle | toggle =>
    obtain ⟨devices, _, players, scripts, _, looping, journal⟩ := only trivial
    exact ⟨⟨scripts.trans same_scripts, by rw [players, count]⟩,
      devices, journal (fun _ => rfl) (fun _ _ => rfl) fun _ => rfl, looping,
      .inl (by rw [players])⟩
  | modifyPlayer m f =>
    obtain rfl : f = Player.paused := leaves
    refine ⟨⟨same_scripts, (List.length_modify _ _ _).trans count⟩, rfl, rfl, rfl, ?_⟩
    change (w.players.modify m Player.paused)[number]? = _ ∨ _
    by_cases same : m = number
    · subst same
      exact .inr (List.getElem?_modify_eq _ _ _)
    · exact .inl (List.getElem?_modify_ne _ _ same)
  | register l =>
    exact ⟨⟨same_scripts, count⟩, Registry.devices_register _ l, rfl, rfl, .inl rfl⟩
  | store | makePlayer | setLooping => exact leaves.elim
  | _ => exact ⟨⟨same_scripts, count⟩, rfl, rfl, rfl, .inl rfl⟩

theorem listening_permits : (listening scripts number).Permits Change.LeavesPlayback :=
  .of_change listening_change
    ⟨fun _ => trivial, trivial, fun _ _ _ _ => trivial, fun _ _ _ => trivial⟩

theorem routine_leavesPlayback : Routine Change.LeavesPlayback := by
  apply routine_of_allowed
  intro c routine
  cases c with
  | store | makePlayer | setLooping | modifyPlayer => exact routine.elim
  | _ => trivial

end Law

theorem Command.within_listening {scripts : List (String × Script)} {number : Nat} {c : Command}
    (leaves : c.leavesPlayback) :
    c.Within (listening scripts number) Change.LeavesPlayback := by
  cases c with
  | update | updateDevice | clear | step | playLoop | player | load | play | reset =>
    exact nomatch leaves
  | notify items =>
    cases items with
    | none => exact fun _ _ _ => trivial
    | some items => exact fun _ _ _ => trivial
  | tell => exact fun _ _ _ => trivial
  | setSettings | setStance => exact fun _ _ => trivial
  | register | remove | subscribe | unsubscribe => exact fun _ _ _ _ => trivial
  | view => exact fun _ => trivial
  | pause => exact fun _ => rfl
  | devices | isRegistered | emit | listenerCount | gesture => trivial

namespace Law

variable {scripts : List (String × Script)} {number : Nat}

theorem listening_binds (attends : attentive scripts) :
    (listening scripts number).Binds Change.LeavesPlayback := by
  intro w name script holds found
  obtain ⟨rfl, _⟩ := holds
  unfold attentive at attends
  rw [Bool.and_eq_true, Bool.and_eq_true] at attends
  obtain ⟨⟨attend, unbroken⟩, _⟩ := attends
  have acts := List.all_eq_true.mp (List.all_eq_true.mp attend _ (mem_of_lookupField found))
  exact ⟨fun c member => Command.within_listening (acts c member),
    fun breaks => absurd breaks (unbreaking_of_lookup unbroken found)⟩

end Law

/-- Scripts that are fired in this way leave the playback of a player alone, and what they fail with
can be noted. -/
structure Fire.Attends (fire : Fire) (scripts : List (String × Script)) (number : Nat) : Prop where
  known : named scripts = true
  agree : ∀ name signal, (listening scripts number).Agree (fire name signal) (fire name signal)

theorem fireAt_attends {scripts : List (String × Script)} (attends : attentive scripts)
    (number depth : Nat) : (fireAt depth).Attends scripts number :=
  ⟨(Bool.and_eq_true_iff.mp attends).2, Law.agree_fireAt Law.listening_permits
    Law.routine_leavesPlayback (Law.listening_binds attends) depth⟩

section Receive

variable {payload : Payload} {ds : List Device} {kind : Kind} (fire : Fire) (w : World)

/-- Items that are no devices are noted, one after another. -/
theorem run_receive (legible : payload.parsed = .ok ds) :
    ∃ notes : List Note, (receive payload).run w =
      .ok ds (notes.foldl (fun w n => w.enter (.noted n)) w) := by
  have noted : ∀ (notes : List Note) (w : World),
      (notes.forM fun n => enter (.noted n)).run w =
        .ok () (notes.foldl (fun w n => w.enter (.noted n)) w) := by
    intro notes
    induction notes with
    | nil => exact fun _ => rfl
    | cons n rest ih => exact fun w => ih (w.enter (.noted n))
  unfold Payload.parsed at legible
  unfold receive
  cases read : payload.items .raw with
  | error kind =>
    rw [read] at legible
    exact nomatch legible
  | ok items =>
    rw [read] at legible
    obtain rfl := Except.ok.inj legible
    refine ⟨(Reception.ofItems items).notes, ?_⟩
    simp only [EStateM.run_bind, noted, EStateM.run_pure]

theorem run_update_of_receive {u : World} (received : (receive payload).run w = .ok ds u) :
    (update fire payload).run w = (notify fire none).run ((Change.store ds).apply u) := by
  simp only [update, EStateM.run_bind, received]
  rfl

/-- What is no payload is refused before anything is done. -/
theorem run_update_error (refused : payload.parsed = .error kind) :
    (update fire payload).run w = .error (.failed (.notIterable kind)) w := by
  unfold Payload.parsed at refused
  cases read : payload.items .raw with
  | error found =>
    rw [read] at refused
    obtain rfl := Except.error.inj refused
    simp only [update, receive, read, EStateM.run_bind, run_fail]
  | ok items =>
    rw [read] at refused
    exact nomatch refused

end Receive

namespace Fire.Attends

open Law

variable {fire : Fire} {scripts : List (String × Script)} {number : Nat}

/-- A payload is stored and delivered to the end, and meanwhile nothing else is published. -/
theorem run_update (attends : fire.Attends scripts number)
    {payload : Payload} {ds : List Device} (legible : payload.parsed = .ok ds) {w : World}
    (holds : (listening scripts number).holds w) :
    ∃ count v, (update fire payload).run w = .ok count v ∧
      (listening scripts number).holds v ∧
      ((Change.store ds).apply w).AtMostPauses number v := by
  obtain ⟨notes, received⟩ := run_receive w legible
  have admits := (agree_receive listening_permits routine_leavesPlayback.toAside payload w holds).2
  rw [received] at admits
  obtain ⟨holds_received, noted⟩ := admits
  have stored : ((Change.store ds).apply w).AtMostPauses number ((Change.store ds).apply
      (notes.foldl (fun w n => w.enter (.noted n)) w)) :=
    ⟨rfl, congrArg (ds :: ·) noted.publications, noted.looping, noted.player⟩
  generalize notes.foldl (fun w n => w.enter (.noted n)) w = u at *
  have run : (update fire payload).run w = (notify fire none).run ((Change.store ds).apply u) :=
    run_update_of_receive fire w received
  have holds_stored : (listening scripts number).holds ((Change.store ds).apply u) :=
    holds_received
  obtain ⟨count, v, ends, holds_v, delivered⟩ := notify_returns listening_permits attends.agree id
    holds_stored routine_leavesPlayback.toAside none (fun _ => trivial)
    (holds_stored.1 ▸ attends.known)
  exact ⟨count, v, run.trans ends, holds_v, stored.trans delivered⟩

end Fire.Attends

end FleetMap
