import FleetMap.Proofs.Hub.Obedience

/-!
Laws about players, and ways of carrying out the commands of scripts. A law about players says what
holds of each player and how it may differ from what it was, whatever else happens. All commands
obey it that steer players lawfully; only steps have to be looked at one by one, because what a step
does to its player comes after all that listeners do.
-/

set_option autoImplicit false

namespace FleetMap

open Act Hub

def Command.steps : Command → Bool
  | .step | .playLoop => true
  | _ => false

/-- What a command does to the player in use. What a step does depends on where the player stood
when it began and is left out. -/
def Command.Steers : Command → (Player → Player) → Prop
  | .load recording name, f =>
    ∃ frames, recording.items Payload.ofValue = .ok frames ∧ f = fun p => p.loaded frames name
  | .play, f => f = Player.started
  | .pause, f => f = Player.paused
  | .reset, f => f = Player.rewound
  | _, _ => False

/-- A change that neither steers a player nor marks the playback loop. -/
def Change.IsUnsteered : Change → Prop
  | .modifyPlayer _ _ | .setLooping _ => False
  | _ => True

namespace Law

variable {L : Law} {A : Change → Prop} (permits : L.Permits A)
  (free : ∀ c : Change, c.IsUnsteered → A c) {fire : Fire}
  (fired : ∀ name signal, L.Agree (fire name signal) (fire name signal))

include free in
theorem routine_of_free : Routine A := by
  apply routine_of_allowed
  intro c routine
  apply free
  cases c with
  | modifyPlayer | setLooping => exact routine.elim
  | _ => trivial

include permits free fired

theorem agree_publish_of_free (ds : List Device) :
    L.Agree (publish fire ds) (publish fire ds) :=
  agree_publish permits fired (routine_of_free free).toAside (free _ trivial)
    fun _ => free _ trivial

theorem agree_update_of_free (payload : Payload) :
    L.Agree (update fire payload) (update fire payload) :=
  agree_update permits (routine_of_free free).toAside
    fun ds _ => agree_publish_of_free permits free fired ds

/-- Every command but a step obeys a law that allows what it does to the player in use, and
forbids nothing else. -/
theorem agree_command_of_free {c : Command}
    (allowed : ∀ f, c.Steers f → ∀ number, A (.modifyPlayer number f))
    (no_step : c.steps = false) : L.Agree (command fire c) (command fire c) := by
  have routine := routine_of_free free
  have published := agree_publish_of_free permits free fired
  cases c with
  | step | playLoop => exact nomatch no_step
  | update payload => exact agree_map _ (agree_update_of_free permits free fired payload)
  | updateDevice name changes =>
    exact agree_map _ (agree_updateDevice permits routine.toAside fun _ ds _ _ => published ds)
  | clear => exact agree_bind (agree_clear (published [])) fun _ => agree_pure _
  | load recording name =>
    exact agree_bind (agree_playerInUse _) fun number =>
      agree_bind (agree_load permits routine.toAside
        fun frames read => allowed _ ⟨frames, read, rfl⟩ number) fun _ => agree_pure _
  | play | pause | reset =>
    exact agree_bind (agree_playerInUse _) fun number =>
      agree_bind (agree_modifyPlayer permits (allowed _ rfl number)) fun _ => agree_pure _
  | notify items =>
    cases items with
    | none => exact agree_command permits routine fired _ fun _ _ _ => free _ trivial
    | some items => exact agree_command permits routine fired _ fun _ _ _ => free _ trivial
  | register | remove | subscribe | unsubscribe =>
    exact agree_command permits routine fired _ fun _ _ _ _ => free _ trivial
  | tell => exact agree_command permits routine fired _ fun _ _ _ => free _ trivial
  | player | setSettings | setStance =>
    exact agree_command permits routine fired _ fun _ _ => free _ trivial
  | view => exact agree_command permits routine fired _ fun _ => free _ trivial
  | devices | isRegistered | emit | listenerCount | gesture =>
    exact agree_command permits routine fired _ trivial

end Law

structure PlayerLaw where
  /-- What holds of each player. -/
  holds : Player → Prop
  /-- How a player may differ from what it was. -/
  moves : Player → Player → Prop
  fresh : ∀ frames, holds (.ofFrames frames)
  refl : ∀ p, moves p p
  trans : ∀ {p q r}, moves p q → moves q r → moves p r

namespace PlayerLaw

variable (R : PlayerLaw)

def law : Law where
  holds w := ∀ p ∈ w.players, R.holds p
  moves w v := ∀ (number : Nat) (p : Player), w.players[number]? = some p →
    ∃ q, v.players[number]? = some q ∧ R.moves p q
  breaks := True
  refl _ _ p found := ⟨p, found, R.refl p⟩
  trans first second number p found := by
    obtain ⟨q, found_q, moved⟩ := first number p found
    obtain ⟨r, found_r, moved_on⟩ := second number q found_q
    exact ⟨r, found_r, R.trans moved moved_on⟩

def Allows (f : Player → Player) : Prop := ∀ p, R.holds p → R.holds (f p) ∧ R.moves p (f p)

def Bears : Change → Prop
  | .modifyPlayer _ f => R.Allows f
  | _ => True

variable {R} {w v : World}

theorem law_of_same (holds : R.law.holds w) (players : v.players = w.players) :
    R.law.holds v ∧ R.law.moves w v := by
  refine ⟨by simpa only [law, players] using holds, ?_⟩
  intro number p found
  exact ⟨p, by rw [players, found], R.refl p⟩

theorem law_modifyPlayer (holds : R.law.holds w) (number : Nat) (f : Player → Player)
    (allowed : ∀ p, w.players[number]? = some p → R.holds (f p) ∧ R.moves p (f p)) :
    R.law.holds (w.modifyPlayer number f) ∧ R.law.moves w (w.modifyPlayer number f) := by
  have moved : ∀ (n : Nat) (p : Player), w.players[n]? = some p →
      ∃ q, (w.modifyPlayer number f).players[n]? = some q ∧ R.holds q ∧ R.moves p q := by
    intro n p found
    change ∃ q, (w.players.modify number f)[n]? = some q ∧ _
    rw [List.getElem?_modify, found]
    by_cases same : number = n
    · subst same
      exact ⟨f p, by simp, allowed p found⟩
    · exact ⟨p, by simp [same], holds p (List.mem_of_getElem? found), R.refl p⟩
  constructor
  · intro q member
    obtain ⟨n, found⟩ := List.mem_iff_getElem?.mp member
    have before : n < w.players.length := by
      have bound := (List.getElem?_eq_some_iff.mp found).1
      rwa [World.modifyPlayer, List.length_modify] at bound
    obtain ⟨q', found', holds_q, _⟩ := moved n _ (List.getElem?_eq_getElem before)
    obtain rfl := Option.some.inj (found.symm.trans found')
    exact holds_q
  · intro n p found
    obtain ⟨q, found_q, _, moved_q⟩ := moved n p found
    exact ⟨q, found_q, moved_q⟩

theorem law_makePlayer (holds : R.law.holds w) (frames : List Payload) :
    R.law.holds ((Change.makePlayer frames).apply w) ∧
      R.law.moves w ((Change.makePlayer frames).apply w) := by
  constructor
  · intro p member
    rcases List.mem_append.mp member with before | made
    · exact holds p before
    · rw [List.mem_singleton.mp made]
      exact R.fresh frames
  · intro number p found
    refine ⟨p, ?_, R.refl p⟩
    change (w.players ++ [_])[number]? = some p
    rw [List.getElem?_append_left (List.getElem?_eq_some_iff.mp found).1]
    exact found

theorem law_change {c : Change} (bears : R.Bears c) (holds : R.law.holds w) :
    R.law.holds (c.apply w) ∧ R.law.moves w (c.apply w) := by
  have only : c.OfView → w.OnlyViews (c.apply w) := Change.onlyViews_apply w
  cases c with
  | modifyPlayer number f =>
    exact law_modifyPlayer holds number f
      fun p found => bears p (holds p (List.mem_of_getElem? found))
  | makePlayer frames => exact law_makePlayer holds frames
  | activate | deactivate | tell | ask | cycle | toggle =>
    exact law_of_same holds (only trivial).players
  | _ => exact law_of_same holds rfl

theorem permits : R.law.Permits R.Bears :=
  .of_change law_change
    ⟨fun _ => trivial, trivial, fun _ _ _ _ => trivial, fun _ _ _ => trivial⟩

theorem bears_of_unsteered {c : Change} (unsteered : c.IsUnsteered) : R.Bears c := by
  cases c with
  | modifyPlayer => exact unsteered.elim
  | _ => trivial

section Fired

variable {fire : Fire} (fired : ∀ name signal, R.law.Agree (fire name signal) (fire name signal))

include fired

theorem agree_command {c : Command} (allowed : ∀ f, c.Steers f → R.Allows f)
    (no_step : c.steps = false) : R.law.Agree (command fire c) (command fire c) :=
  Law.agree_command_of_free permits (fun _ => bears_of_unsteered) fired
    (fun f steered _ => allowed f steered) no_step

theorem agree_update (payload : Payload) :
    R.law.Agree (update fire payload) (update fire payload) :=
  Law.agree_update_of_free permits (fun _ => bears_of_unsteered) fired payload

omit fired in
/-- A step, or a loop of steps, obeys a law that every single step obeys. -/
theorem agree_steps {c : Command} (steps : c.steps) (pauses : R.Allows Player.paused)
    (stepped : ∀ number, R.law.Agree (stepPlayer fire number) (stepPlayer fire number)) :
    R.law.Agree (command fire c) (command fire c) := by
  have aside : Aside R.Bears := (Law.routine_of_free fun _ => bears_of_unsteered).toAside
  cases c with
  | step =>
    exact Law.agree_bind (Law.agree_playerInUse _) fun number =>
      Law.agree_map _ (stepped number)
  | playLoop =>
    exact Law.agree_bind (Law.agree_playerInUse _) fun number =>
      Law.agree_bind (Law.agree_playLoop permits aside (fun _ => trivial) pauses
        (stepped number)) fun _ => Law.agree_pure _
  | _ => exact nomatch steps

end Fired

end PlayerLaw

namespace Hub

/-- Carries out commands in a given way, in turn until one fails; the answers are dropped. -/
def commandsBy (perform : Command → Act Answer) : List Command → Act Unit
  | [] => return
  | c :: rest => do
    discard (perform c)
    commandsBy perform rest

/-- Like `fireAt`, with the commands of scripts carried out in a given way. -/
def fireBy (perform : Fire → Command → Act Answer) : Nat → Fire
  | 0 => callScript fun _ => pure ()
  | depth + 1 => callScript (commandsBy (perform (fireBy perform depth)))

/-- Like `carryOutAll`, with all commands carried out in a given way. -/
def carryOutAllVia (perform : Fire → Command → Act Answer) (w : World) (steps : List Command) :
    World :=
  steps.foldl (fun w c => (perform (fireBy perform (scriptDepth w.scripts)) c).after w) w

theorem commandsBy_command (fire : Fire) (acts : List Command) :
    commandsBy (command fire) acts = commands fire acts := by
  induction acts with
  | nil => rfl
  | cons c rest ih => rw [commandsBy, commands, ih]

theorem fireBy_command (depth : Nat) : fireBy command depth = fireAt depth := by
  induction depth with
  | zero => rfl
  | succ depth ih =>
    rw [fireBy, fireAt, ih]
    exact congrArg callScript (funext (commandsBy_command (fireAt depth)))

end Hub

namespace Law

variable {L : Law} {perform other : Command → Act Answer}

theorem agree_commandsBy {acts : List Command} (each : ∀ c ∈ acts, L.Agree (perform c) (other c)) :
    L.Agree (commandsBy perform acts) (commandsBy other acts) := by
  induction acts with
  | nil => exact agree_pure ()
  | cons c rest ih =>
    obtain ⟨first, later⟩ := List.forall_mem_cons.mp each
    exact agree_bind (agree_discard first) fun _ => ih later

section Listed

variable {scripts : List (String × Script)} {P : Command → Prop}
  (listed : ∀ s ∈ scripts, ∀ c ∈ s.2.acts, P c)

theorem agree_command_of_kept {fire other : Fire}
    (fired : ∀ name signal, (keptScripts scripts).Agree (fire name signal) (other name signal))
    (c : Command) : (keptScripts scripts).Agree (command fire c) (command other c) :=
  agree_command keptScripts_permits routine_ordinary fired c (Command.within_ordinary c)

theorem agree_uncalled (name : String) (signal : Signal) :
    (keptScripts scripts).Agree (callScript (fun _ => pure ()) name signal)
      (callScript (fun _ => pure ()) name signal) :=
  agree_callScript_of_acts (fun _ _ _ holds => ⟨holds, trivial⟩) (fun _ _ _ _ _ _ => trivial)
    (fun _ _ _ _ _ => agree_pure ()) name signal

include listed

/-- Ways of carrying out commands that agree on all commands of scripts. -/
theorem agree_callScript_of_listed
    (each : ∀ c, P c → (keptScripts scripts).Agree (perform c) (other c)) (name : String)
    (signal : Signal) : (keptScripts scripts).Agree (callScript (commandsBy perform) name signal)
      (callScript (commandsBy other) name signal) := by
  apply agree_callScript_of_acts (fun _ _ _ holds => ⟨holds, trivial⟩) fun _ _ _ _ _ _ => trivial
  intro w name script kept found
  have member : (name, script) ∈ scripts := kept ▸ mem_of_lookupField found
  exact agree_commandsBy fun c acted => each c (listed _ member c acted)

theorem agree_fireBy_of_listed {perform : Fire → Command → Act Answer}
    (same : ∀ fire c, P c → perform fire c = command fire c) (depth : Nat) (name : String)
    (signal : Signal) :
    (keptScripts scripts).Agree (fireAt depth name signal) (fireBy perform depth name signal) := by
  rw [← fireBy_command]
  induction depth generalizing name signal with
  | zero => exact agree_uncalled name signal
  | succ depth ih =>
    apply agree_callScript_of_listed listed
    intro c given
    rw [same _ c given]
    exact agree_command_of_kept ih c

/-- A session in which all commands are carried out as they are. -/
theorem carryOutAllVia_of_listed {perform : Fire → Command → Act Answer}
    (same : ∀ fire c, P c → perform fire c = command fire c) {steps : List Command}
    (given : ∀ c ∈ steps, P c) {w : World} (kept : w.scripts = scripts) :
    carryOutAllVia perform w steps = carryOutAll w steps := by
  induction steps generalizing w with
  | nil => rfl
  | cons c rest ih =>
    obtain ⟨first, later⟩ := List.forall_mem_cons.mp given
    have agree := agree_command_of_kept
      (agree_fireBy_of_listed listed same (scriptDepth w.scripts)) c w kept
    have step : (perform (fireBy perform (scriptDepth w.scripts)) c).after w =
        (carryOut c).after w := by
      unfold Act.after
      rw [same _ c first, agree.1, run_carryOut]
    have kept_on : ((carryOut c).after w).scripts = scripts := agree.2.after.1
    rw [carryOutAll_cons, ← ih later kept_on, ← step]
    rfl

end Listed

end Law

namespace PlayerLaw

variable {R : PlayerLaw}

/-- A law about players bears that scripts are called and cancel. -/
theorem agree_callScript {perform : List Command → Act Unit}
    (acts : ∀ listed, R.law.Agree (perform listed) (perform listed)) (name : String)
    (signal : Signal) : R.law.Agree (callScript perform name signal)
      (callScript perform name signal) :=
  Law.agree_callScript_of_acts (fun _ _ _ holds => law_of_same holds rfl)
    (fun _ _ _ _ _ _ => trivial) (fun _ _ script _ _ => acts script.acts) name signal

/-- Where every command of a script is carried out lawfully, if the scripts that it calls are, all
scripts are lawful. -/
theorem agree_fireBy {perform : Fire → Command → Act Answer}
    (each : ∀ fire : Fire, (∀ name signal, R.law.Agree (fire name signal) (fire name signal)) →
      ∀ c, R.law.Agree (perform fire c) (perform fire c))
    (depth : Nat) (name : String) (signal : Signal) :
    R.law.Agree (fireBy perform depth name signal) (fireBy perform depth name signal) := by
  induction depth generalizing name signal with
  | zero => exact agree_callScript (fun _ => Law.agree_pure ()) name signal
  | succ depth ih =>
    exact agree_callScript (fun _ => Law.agree_commandsBy fun c _ => each _ ih c) name signal

end PlayerLaw

end FleetMap
