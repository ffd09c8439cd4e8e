import FleetMap.Proofs.Hub.Playback
import FleetMap.Proofs.Hub.Players
import FleetMap.Proofs.Hub.Wiring

set_option autoImplicit false

namespace FleetMap

open Act Hub

def Player.InBounds (p : Player) : Prop := p.index ≤ p.frames.length

def bounded : PlayerLaw where
  holds := Player.InBounds
  moves _ _ := True
  fresh _ := Nat.zero_le _
  refl _ := trivial
  trans _ _ := trivial

/-- Players stay within their recordings, and no recording is replaced. -/
def keeping : PlayerLaw where
  holds := Player.InBounds
  moves p q := q.frames = p.frames
  fresh _ := Nat.zero_le _
  refl _ := rfl
  trans first second := second.trans first

def waiting : PlayerLaw where
  holds _ := True
  moves p q := p.index = 0 → q.index = 0
  fresh _ := trivial
  refl _ := id
  trans first second := second ∘ first

namespace Player

theorem inBounds_started {p : Player} (inside : p.InBounds) : p.started.InBounds := by
  unfold started
  split
  · exact Nat.zero_le _
  · exact inside

theorem index_started {p : Player} (first : p.index = 0) : p.started.index = 0 := by
  unfold started
  split
  · rfl
  · exact first

end Player

/-- What commands do to the player in use keeps it within its recording. -/
theorem Command.Steers.bounded {c : Command} {f : Player → Player} (steers : c.Steers f) :
    FleetMap.bounded.Allows f := by
  intro p inside
  refine ⟨?_, trivial⟩
  cases c with
  | load recording name =>
    obtain ⟨frames, _, rfl⟩ := steers
    exact Nat.zero_le _
  | play =>
    obtain rfl := steers
    exact Player.inBounds_started inside
  | pause =>
    obtain rfl := steers
    exact inside
  | reset =>
    obtain rfl := steers
    exact Nat.zero_le _
  | _ => exact steers.elim

theorem Command.Steers.waiting {c : Command} {f : Player → Player} (steers : c.Steers f) :
    FleetMap.waiting.Allows f := by
  intro p _
  refine ⟨trivial, ?_⟩
  intro first
  cases c with
  | load recording name =>
    obtain ⟨frames, _, rfl⟩ := steers
    rfl
  | play =>
    obtain rfl := steers
    exact Player.index_started first
  | pause =>
    obtain rfl := steers
    exact first
  | reset =>
    obtain rfl := steers
    rfl
  | _ => exact steers.elim

def Command.loads : Command → Bool
  | .load _ _ => true
  | _ => false

/-- A command that does not load leaves the player in use its recording. -/
theorem Command.Steers.keeping {c : Command} {f : Player → Player} (steers : c.Steers f)
    (loadless : c.loads = false) : FleetMap.keeping.Allows f := by
  intro p inside
  refine ⟨(Command.Steers.bounded steers p inside).1, ?_⟩
  cases c with
  | load => exact nomatch loadless
  | play =>
    obtain rfl := steers
    exact p.frames_started
  | pause | reset =>
    obtain rfl := steers
    rfl
  | _ => exact steers.elim

section Steps

variable {fire : Fire} {number : Nat} {w : World} {p : Player} {frame : Payload}

/-- A step hands over the frame at which the player stands, and moves the player on from there. -/
theorem run_stepPlayer_next (found : w.players[number]? = some p)
    (next : p.frames[p.index]? = some frame) :
    (stepPlayer fire number).run w =
      match (update fire frame).run w with
      | .ok _ v => .ok true (v.modifyPlayer number fun q => { q with index := p.index + 1 })
      | .error stop v => .error stop v := by
  simp only [stepPlayer, EStateM.run_bind, run_player?, found, next, run_discard]
  cases (update fire frame).run w with
  | ok count v => rfl
  | error stop v => rfl

theorem run_stepPlayer_without
    (ended : (w.players[number]?.bind fun p => p.frames[p.index]?) = none) :
    (stepPlayer fire number).run w = .ok false w := by
  simp only [stepPlayer, EStateM.run_bind, run_player?]
  cases found : w.players[number]? with
  | none => rfl
  | some p =>
    rw [found, Option.bind_some] at ended
    simp only [ended]
    rfl

end Steps

/-- Where no recording is replaced meanwhile, a step moves the player on within its recording. -/
theorem keeping_stepPlayer {fire : Fire}
    (fired : ∀ name signal, keeping.law.Agree (fire name signal) (fire name signal))
    (number : Nat) : keeping.law.Agree (stepPlayer fire number) (stepPlayer fire number) := by
  intro w holds
  refine ⟨rfl, ?_⟩
  cases at_frame : w.players[number]?.bind fun p => p.frames[p.index]? with
  | none =>
    rw [run_stepPlayer_without at_frame]
    exact ⟨holds, keeping.law.refl w⟩
  | some frame =>
    obtain ⟨p, found, next⟩ := Option.bind_eq_some_iff.mp at_frame
    have inside := (List.getElem?_eq_some_iff.mp next).1
    rw [run_stepPlayer_next found next]
    have updated := (PlayerLaw.agree_update fired frame w holds).2
    cases run : (update fire frame).run w with
    | error stop v =>
      rw [run] at updated
      exact updated.error
    | ok count v =>
      rw [run] at updated
      obtain ⟨holds_v, moves_v⟩ := updated
      obtain ⟨q, found_q, kept⟩ := moves_v number p found
      have within : ∀ r, v.players[number]? = some r →
          keeping.holds { r with index := p.index + 1 } ∧
            keeping.moves r { r with index := p.index + 1 } := by
        intro r found_r
        obtain rfl := Option.some.inj (found_q.symm.trans found_r)
        refine ⟨?_, rfl⟩
        change p.index + 1 ≤ q.frames.length
        rw [kept]
        exact inside
      have advanced := PlayerLaw.law_modifyPlayer holds_v number _ within
      exact ⟨advanced.1, keeping.law.trans moves_v advanced.2⟩

namespace Hub

def loadless (otherwise : Command → Act Answer) (fire : Fire) (c : Command) : Act Answer :=
  if c.loads then otherwise c else command fire c

/-- Like `fireAt`, except that what scripts load while a step is under way goes another way. -/
def fireBetween (otherwise : Command → Act Answer) : Nat → Fire
  | 0 => callScript fun _ => pure ()
  | depth + 1 => callScript (commandsBy fun c =>
      command (if c.steps then fireBy (loadless otherwise) depth else fireBetween otherwise depth)
        c)

/-- Carries out a command of a session; if it steps a player, loads go another way meanwhile. -/
def commandBetween (otherwise : Command → Act Answer) (depth : Nat) (c : Command) : Act Answer :=
  command (if c.steps then fireBy (loadless otherwise) depth else fireBetween otherwise depth) c

def carryOutAllBetween (otherwise : Command → Act Answer) (w : World) (steps : List Command) :
    World :=
  steps.foldl (fun w c => (commandBetween otherwise (scriptDepth w.scripts) c).after w) w

def stepless (otherwise : Command → Act Answer) (fire : Fire) (c : Command) : Act Answer :=
  if c.steps then otherwise c else command fire c

end Hub

namespace World

/-- No recording is loaded while a step is under way: if loads did something else then, whatever
that is, nothing would change. -/
def LoadsBetweenSteps (w : World) (steps : List Command) : Prop :=
  ∀ otherwise, carryOutAllBetween otherwise w steps = carryOutAll w steps

/-- No player is stepped, not by scripts either: if steps did something else, whatever that is,
nothing would change. -/
def TakesNoStep (w : World) (steps : List Command) : Prop :=
  ∀ otherwise, carryOutAllVia (stepless otherwise) w steps = carryOutAll w steps

/-- From one world to the other all players that stood at their first frames stayed there. -/
def KeepsWaiting (w v : World) : Prop :=
  ∀ (number : Nat) (p : Player), w.players[number]? = some p →
    ∃ q, v.players[number]? = some q ∧ (p.index = 0 → q.index = 0)

end World

section Listed

variable {scripts : List (String × Script)}

theorem World.takesNoStep_of_listed {w : World} {steps : List Command}
    (listed : ∀ s ∈ w.scripts, ∀ c ∈ s.2.acts, c.steps = false)
    (given : ∀ c ∈ steps, c.steps = false) : w.TakesNoStep steps := by
  intro otherwise
  have same : ∀ fire c, c.steps = false → stepless otherwise fire c = command fire c := by
    intro fire c no_step
    rw [stepless, no_step]
    rfl
  exact Law.carryOutAllVia_of_listed listed same given rfl

variable (listed : ∀ s ∈ scripts, ∀ c ∈ s.2.acts, c.loads = false)
  (otherwise : Command → Act Answer)

include listed

theorem agree_commandBetween (depth : Nat) {fire : Fire}
    (fired : ∀ name signal, (keptScripts scripts).Agree (fireAt depth name signal)
      (fire name signal)) (c : Command) :
    (keptScripts scripts).Agree (command (fireAt depth) c)
      (command (if c.steps then fireBy (loadless otherwise) depth else fire) c) := by
  have same : ∀ fire c, c.loads = false → loadless otherwise fire c = command fire c := by
    intro fire c loads
    rw [loadless, loads]
    rfl
  cases c.steps with
  | true => exact Law.agree_command_of_kept (Law.agree_fireBy_of_listed listed same depth) c
  | false => exact Law.agree_command_of_kept fired c

theorem agree_fireBetween (depth : Nat) (name : String) (signal : Signal) :
    (keptScripts scripts).Agree (fireAt depth name signal)
      (fireBetween otherwise depth name signal) := by
  induction depth generalizing name signal with
  | zero => exact Law.agree_uncalled name signal
  | succ depth ih =>
    rw [← fireBy_command]
    apply Law.agree_callScript_of_listed listed
    intro c _
    rw [fireBy_command]
    exact agree_commandBetween listed otherwise depth ih c

omit otherwise in
/-- Where no script loads a recording, none is loaded while a step is under way. -/
theorem World.loadsBetweenSteps_of_listed {w : World} (kept : w.scripts = scripts)
    (steps : List Command) : w.LoadsBetweenSteps steps := by
  intro otherwise
  induction steps generalizing w with
  | nil => rfl
  | cons c rest ih =>
    have agree := agree_commandBetween listed otherwise (scriptDepth w.scripts)
      (agree_fireBetween listed otherwise _) c w kept
    have step : (commandBetween otherwise (scriptDepth w.scripts) c).after w =
        (carryOut c).after w := by
      unfold Act.after
      rw [commandBetween, agree.1, run_carryOut]
    have kept_on : ((carryOut c).after w).scripts = scripts := agree.2.after.1
    rw [carryOutAll_cons, ← ih kept_on, ← step]
    rfl

end Listed

/-- Whatever keeps players within their recordings and leaves them these keeps them there. -/
theorem bounded_of_keeping {α : Type} {x : Act α} (agree : keeping.law.Agree x x) :
    bounded.law.Agree x x := by
  intro w holds
  obtain ⟨_, ends⟩ := agree w holds
  refine ⟨rfl, ends.mono id ?_ id⟩
  intro moves number p found
  obtain ⟨q, found_q, _⟩ := moves number p found
  exact ⟨q, found_q, trivial⟩

theorem keeping_loadless {fire : Fire}
    (fired : ∀ name signal, keeping.law.Agree (fire name signal) (fire name signal))
    (c : Command) :
    keeping.law.Agree (loadless (fun _ => pure .nothing) fire c)
      (loadless (fun _ => pure .nothing) fire c) := by
  unfold loadless
  split
  · exact Law.agree_pure _
  · rename_i loads
    have loadless : c.loads = false := Bool.eq_false_iff.mpr loads
    cases steps : c.steps with
    | true =>
      exact PlayerLaw.agree_steps steps (fun p inside => ⟨inside, rfl⟩) (keeping_stepPlayer fired)
    | false => exact PlayerLaw.agree_command fired (fun f steers => steers.keeping loadless) steps

theorem bounded_command {during outside : Fire}
    (fired : ∀ name signal, keeping.law.Agree (during name signal) (during name signal))
    (fired_outside : ∀ name signal, bounded.law.Agree (outside name signal) (outside name signal))
    (c : Command) :
    bounded.law.Agree (command (if c.steps then during else outside) c)
      (command (if c.steps then during else outside) c) := by
  cases steps : c.steps with
  | true =>
    apply bounded_of_keeping
    exact PlayerLaw.agree_steps steps (fun p inside => ⟨inside, rfl⟩) (keeping_stepPlayer fired)
  | false =>
    exact PlayerLaw.agree_command fired_outside (fun f steers => steers.bounded) steps

theorem bounded_fireBetween (depth : Nat) (name : String) (signal : Signal) :
    bounded.law.Agree (fireBetween (fun _ => pure .nothing) depth name signal)
      (fireBetween (fun _ => pure .nothing) depth name signal) := by
  induction depth generalizing name signal with
  | zero => exact PlayerLaw.agree_callScript (fun _ => Law.agree_pure ()) name signal
  | succ depth ih =>
    have during := PlayerLaw.agree_fireBy (fun _ fired => keeping_loadless fired) depth
    exact PlayerLaw.agree_callScript
      (fun _ => Law.agree_commandsBy fun c _ => bounded_command during ih c) name signal

/-- A session that loads nothing while a step is under way keeps all players within their
recordings. -/
theorem inBounds_carryOutAll {w : World} {steps : List Command}
    (loads : w.LoadsBetweenSteps steps) (holds : bounded.law.holds w) :
    bounded.law.holds (carryOutAll w steps) := by
  -- nothing takes the place of a load that would come while a step is under way: there is none
  rw [← loads fun _ => pure .nothing]
  clear loads
  induction steps generalizing w with
  | nil => exact holds
  | cons c rest ih =>
    have during := PlayerLaw.agree_fireBy (fun _ fired => keeping_loadless fired)
      (scriptDepth w.scripts)
    have first := bounded_command during (bounded_fireBetween (scriptDepth w.scripts)) c w holds
    exact ih first.2.after.1

/-- The law of waiting players says nothing but that they wait. -/
theorem waiting_agree_iff {α : Type} {x : Act α} :
    waiting.law.Agree x x ↔ ∀ w : World, w.KeepsWaiting (x.after w) := by
  constructor
  · exact fun agree w => (agree w fun _ _ => trivial).2.after.2
  · exact Law.agree_of_moves (L := waiting.law) (fun _ _ _ => trivial) trivial

section Stepless

variable {instead : Command → Act Answer}
  (waits : ∀ c (w : World), w.KeepsWaiting ((instead c).after w))

include waits

theorem waiting_stepless {fire : Fire}
    (fired : ∀ name signal, waiting.law.Agree (fire name signal) (fire name signal))
    (c : Command) : waiting.law.Agree (stepless instead fire c) (stepless instead fire c) := by
  unfold stepless
  split
  · exact waiting_agree_iff.mpr (waits c)
  · rename_i steps
    exact PlayerLaw.agree_command fired (fun f steers => steers.waiting)
      (Bool.eq_false_iff.mpr steps)

theorem waiting_fireBy (depth : Nat) (name : String) (signal : Signal) :
    waiting.law.Agree (fireBy (stepless instead) depth name signal)
      (fireBy (stepless instead) depth name signal) :=
  PlayerLaw.agree_fireBy (fun _ fired => waiting_stepless waits fired) depth name signal

theorem keepsWaiting_carryOutAllVia (w : World) (steps : List Command) :
    w.KeepsWaiting (carryOutAllVia (stepless instead) w steps) := by
  induction steps generalizing w with
  | nil => exact waiting.law.refl w
  | cons c rest ih =>
    have first := waiting_agree_iff.mp
      (waiting_stepless waits (waiting_fireBy waits (scriptDepth w.scripts)) c) w
    exact waiting.law.trans first (ih _)

end Stepless

/-- Where no step is taken players wait at their first frames. -/
theorem keepsWaiting_carryOutAll {w : World} {steps : List Command}
    (stepless : w.TakesNoStep steps) : w.KeepsWaiting (carryOutAll w steps) := by
  have waits : ∀ (c : Command) (v : World),
      v.KeepsWaiting (((fun _ => pure .nothing : Command → Act Answer) c).after v) :=
    fun _ v => waiting.law.refl v
  rw [← stepless fun _ => pure .nothing]
  exact keepsWaiting_carryOutAllVia waits w steps

/-- Whatever else is done, no playback loop is under way afterwards unless one was before. -/
def idling : Law where
  holds _ := True
  moves w v := w.looping = false → v.looping = false
  breaks := True
  refl _ := id
  trans first second := second ∘ first

namespace Law

theorem idling_change {w : World} {c : Change} (unmarked : ∀ looping, c ≠ .setLooping looping)
    (_ : idling.holds w) : idling.holds (c.apply w) ∧ idling.moves w (c.apply w) := by
  have only : c.OfView → w.OnlyViews (c.apply w) := Change.onlyViews_apply w
  refine ⟨trivial, ?_⟩
  intro idle
  cases c with
  | setLooping looping => exact absurd rfl (unmarked looping)
  | activate | deactivate | tell | ask | cycle | toggle => exact (only trivial).looping.trans idle
  | _ => exact idle

theorem idling_permits : idling.Permits fun c => ∀ looping, c ≠ .setLooping looping :=
  .of_change idling_change ⟨fun _ => nofun, nofun, fun _ _ _ _ => nofun, fun _ _ _ => nofun⟩

theorem idling_playLoop (fire : Fire) (number : Nat) :
    idling.Agree (playLoop fire number) (playLoop fire number) := by
  intro w _
  refine ⟨rfl, ?_⟩
  simp only [playLoop, EStateM.run_bind, EStateM.run_get]
  split
  · exact ⟨trivial, id, fun _ => trivial⟩
  · rw [run_whileLooping]
    split
    · exact ⟨trivial, fun _ => rfl⟩
    · exact ⟨trivial, fun _ => rfl, fun _ => trivial⟩

theorem idling_command {fire : Fire}
    (fired : ∀ name signal, idling.Agree (fire name signal) (fire name signal)) (c : Command) :
    idling.Agree (command fire c) (command fire c) := by
  have free : ∀ c : Change, c.IsUnsteered → ∀ looping, c ≠ .setLooping looping := by
    rintro _ unsteered looping rfl
    exact unsteered
  have published := agree_publish_of_free idling_permits free fired
  cases steps : c.steps with
  | false => exact agree_command_of_free idling_permits free fired (fun _ _ _ => nofun) steps
  | true =>
    cases c with
    | step =>
      apply agree_bind (agree_playerInUse _)
      intro number
      exact agree_map _ (agree_stepPlayer idling_permits (routine_of_free free).toAside
        (fun _ => nofun) fun _ _ _ ds _ _ _ _ => published ds)
    | playLoop =>
      exact agree_bind (agree_playerInUse _) fun number =>
        agree_bind (idling_playLoop fire number) fun _ => agree_pure _
    | _ => exact nomatch steps

end Law

/-- Between the steps of a session no playback loop is under way. -/
theorem idle_carryOutAll {w : World} (idle : w.looping = false) (steps : List Command) :
    (carryOutAll w steps).looping = false := by
  have fired : ∀ depth name signal,
      idling.Agree (fireAt depth name signal) (fireAt depth name signal) :=
    Law.agree_fireAt_of_acts (fun _ _ _ => Law.idling_change nofun)
      (fun _ _ _ _ _ _ fired c _ => Law.idling_command fired c) fun _ _ _ _ _ _ => trivial
  exact (Law.carryOutAll_admits_of_agree
    (fun c _ depth => Law.idling_command (fired depth) c) trivial).2 idle

section Published

variable {fire : Fire} (books : fire.KeepsBooks) {number : Nat} {w : World} {p : Player}
  {frame : Payload} {ds : List Device}

/-- From one world to the other something was published, and these devices came first. -/
def World.PublishesFirst (ds : List Device) (w v : World) : Prop :=
  ∃ more, v.publications = more ++ ds :: w.publications

theorem World.PublishesFirst.leadsTo {u v : World} (first : w.PublishesFirst ds u)
    (leads : u.LeadsTo v) : w.PublishesFirst ds v := by
  obtain ⟨more, published⟩ := first
  obtain ⟨added, journal, _⟩ := leads
  refine ⟨added.filterMap Entry.publication? ++ more, ?_⟩
  rw [World.publications, journal, List.filterMap_append, List.append_assoc, ← published]
  rfl

theorem World.publications_noted (notes : List Note) (w : World) :
    (notes.foldl (fun w n => w.enter (.noted n)) w).publications = w.publications := by
  induction notes generalizing w with
  | nil => rfl
  | cons n rest ih => exact ih (w.enter (.noted n))

include books

theorem update_publishesFirst (legible : frame.parsed = .ok ds) :
    w.PublishesFirst ds ((update fire frame).after w) := by
  obtain ⟨notes, received⟩ := run_receive w legible
  let u := notes.foldl (fun w n => w.enter (.noted n)) w
  let stored := (Change.store ds).apply u
  have run : (update fire frame).run w = (notify fire none).run stored :=
    run_update_of_receive fire w received
  have first : w.PublishesFirst ds stored :=
    ⟨[], congrArg (ds :: ·) (World.publications_noted notes w)⟩
  have leads : stored.LeadsTo ((notify fire none).after stored) :=
    fanOut_leadsTo (Law.deliver_keepsBooks books _) stored
  unfold Act.after
  rw [run]
  exact first.leadsTo leads

/-- A step publishes the frame at which the player stands before listeners can do anything. -/
theorem stepPlayer_publishesFirst (found : w.players[number]? = some p)
    (next : p.frames[p.index]? = some frame) (legible : frame.parsed = .ok ds) :
    w.PublishesFirst ds ((stepPlayer fire number).after w) := by
  have first : w.PublishesFirst ds ((update fire frame).after w) :=
    update_publishesFirst books legible
  unfold Act.after at first ⊢
  rw [run_stepPlayer_next found next]
  cases run : (update fire frame).run w with
  | ok count v =>
    rw [run] at first
    exact first.leadsTo (leadsTo_of_same rfl rfl)
  | error stop v =>
    rw [run] at first
    exact first

theorem playFrames_publishesFirst (found : w.players[number]? = some p)
    (playing : p.playing = true) (next : p.frames[p.index]? = some frame)
    (legible : frame.parsed = .ok ds) (fuel : Nat) :
    w.PublishesFirst ds ((playFrames fire number (fuel + 1)).after w) := by
  have fired : ∀ name signal, bookkeeping.Agree (fire name signal) (fire name signal) :=
    fun name signal => Law.bookkeeping_agree rfl (books name signal)
  have stepped : bookkeeping.Agree (stepPlayer fire number) (stepPlayer fire number) :=
    Law.agree_stepPlayer Law.bookkeeping_permits routine_ordinary.toAside (fun _ => trivial)
      fun _ _ _ ds _ _ _ _ => Law.agree_publish Law.bookkeeping_permits fired
        routine_ordinary.toAside trivial fun _ => trivial
  have others : ∀ v : World, v.LeadsTo ((playFrames fire number fuel).after v) :=
    Law.leadsTo_of_bookkeeping
      (Law.agree_playFrames Law.bookkeeping_permits routine_ordinary.toAside trivial stepped fuel)
  have first : w.PublishesFirst ds ((stepPlayer fire number).after w) :=
    stepPlayer_publishesFirst books found next legible
  unfold Act.after at first others ⊢
  simp only [playFrames, EStateM.run_bind, run_player?, found, Option.any_some, playing, if_true,
    run_attempt]
  cases run : (stepPlayer fire number).run w with
  | ok some_left v =>
    rw [run] at first
    cases some_left with
    | true => exact first.leadsTo (others v)
    | false => exact first.leadsTo ((leadsTo_enter rfl v).trans (leadsTo_of_same rfl rfl))
  | error stop v =>
    rw [run] at first
    cases stop with
    | failed f => exact first.leadsTo ((leadsTo_enter rfl v).trans (leadsTo_of_same rfl rfl))
    | mute asking => exact first
    | cancelled => exact first

theorem playLoop_publishesFirst (idle : w.looping = false)
    (found : w.players[number]? = some p) (playing : p.playing = true)
    (next : p.frames[p.index]? = some frame) (legible : frame.parsed = .ok ds) :
    w.PublishesFirst ds ((playLoop fire number).after w) := by
  let told := ((Change.setLooping true).apply w).note .info .player "Playback loop started"
  have found_marked : ((Change.setLooping true).apply w).players[number]? = some p := found
  have first : told.PublishesFirst ds ((playFrames fire number (loopBound w)).after told) :=
    playFrames_publishesFirst (w := told) books found playing next legible _
  have ended : w.PublishesFirst ds ((Change.setLooping false).apply
      ((playFrames fire number (loopBound w)).after told)) :=
    first.leadsTo (leadsTo_of_same rfl rfl)
  unfold Act.after at ended ⊢
  have run_told : (playFrames fire number (loopBound w)).run
      (((Change.setLooping true).apply w).note .info .player "Playback loop started") =
        (playFrames fire number (loopBound w)).run told := rfl
  simp only [playLoop, EStateM.run_bind, EStateM.run_get, idle, Bool.false_eq_true, if_false,
    run_whileLooping, run_player?, found_marked, Option.any_some, playing, if_true, run_note,
    run_told]
  cases run : (playFrames fire number (loopBound w)).run told with
  | ok a v =>
    rw [run] at ended
    exact ended
  | error stop v =>
    rw [run] at ended
    exact ended

end Published

/-- Commands that rewind the player in use, and what they make of it. -/
inductive Command.Rewinds : Command → (Player → Player) → Prop where
  | load {recording : Recording} {name : Option String} {frames : List Payload} :
    recording.items Payload.ofValue = .ok frames →
      Rewinds (.load recording name) fun p => p.loaded frames name
  | reset : Rewinds .reset Player.rewound

namespace Command.Rewinds

variable {c : Command} {f : Player → Player} (rewinds : c.Rewinds f)

include rewinds

theorem index (p : Player) : (f p).index = 0 := by
  cases rewinds with
  | load | reset => rfl

/-- Whoever gives such a command, it succeeds if there is a player. -/
theorem run (fire : Fire) {w : World} {number : Nat} (count : w.players.length = number + 1) :
    ∃ r, (command fire c).run w = .ok .nothing r ∧
      r.players = w.players.modify number f ∧ r.looping = w.looping := by
  cases rewinds with
  | load read =>
    obtain ⟨n, run⟩ := run_load count fire _ read
    exact ⟨_, run, rfl, rfl⟩
  | reset =>
    simp only [command, EStateM.run_bind, run_playerInUse count, run_modifyPlayer]
    exact ⟨_, rfl, rfl, rfl⟩

end Command.Rewinds

/-- The player stands at its first frame. Where a step or a loop goes on from here, it is this frame
that is published next. -/
def World.StartsOver (w : World) (number : Nat) : Prop :=
  ∃ p, w.players[number]? = some p ∧ p.index = 0 ∧
    ∀ frame ds, p.frames.head? = some frame → frame.parsed = .ok ds →
      w.PublishesFirst ds ((carryOut .step).after w) ∧
        (p.playing = true → w.PublishesFirst ds ((carryOut .playLoop).after w))

section InUse

variable {w : World} {number : Nat} (count : w.players.length = number + 1)

include count

theorem after_step : (carryOut .step).after w =
    (stepPlayer (fireAt (scriptDepth w.scripts)) number).after w := by
  unfold Act.after
  rw [run_step_inUse count]
  exact after_map w _ _

theorem after_playLoop : (carryOut .playLoop).after w =
    (playLoop (fireAt (scriptDepth w.scripts)) number).after w := by
  unfold Act.after
  rw [run_loop_inUse count]
  exact after_map w (fun _ => Answer.nothing) _

theorem startsOver_of_index {p : Player} (found : w.players[number]? = some p)
    (first : p.index = 0) (idle : w.looping = false) : w.StartsOver number := by
  have books := Law.fireAt_keepsBooks (scriptDepth w.scripts)
  refine ⟨p, found, first, ?_⟩
  intro frame ds head legible
  have next : p.frames[p.index]? = some frame := by
    rw [first, ← List.head?_eq_getElem?, head]
  rw [after_step count, after_playLoop count]
  exact ⟨stepPlayer_publishesFirst books found next legible,
    fun playing => playLoop_publishesFirst books idle found playing next legible⟩

end InUse

/-- What rewinding does between steps is kept. Players stay within their recordings as long as none
is loaded while a step is under way. A command that rewinds the player in use does so, and the
player stands at the first frame of what is loaded then until a step is taken, whatever else is
done, also by scripts; then this frame is the first that is published, by a single step or by a
loop. Scripts can rewind as well, whatever is under way, and to whatever depth they call each other:
if what is done in place of steps leaves players at their first frames there, so does all the rest,
and a player that is found there between the steps of a session starts over. Only a step moves on:
it first publishes the frame at which the player stood when it began and, if that succeeds, leaves
the player behind this frame, whatever was done to it meanwhile. -/
theorem rewinding_between_steps_is_kept {initial : Payload} {scripts : List (String × Script)}
    {w : World} (starts : start initial scripts = .ok w) :
    (∀ v : World, (v = w ∨ ∀ p ∈ v.players, p.InBounds) → ∀ steps, v.LoadsBetweenSteps steps →
      ∀ p ∈ (carryOutAll v steps).players, p.InBounds) ∧
    (∀ earlier number c f, Command.Rewinds c f →
      let v := carryOutAll w earlier
      v.players.length = number + 1 →
      ∃ r, (carryOut c).run v = .ok .nothing r ∧ r.players = v.players.modify number f ∧
        ∀ later, r.TakesNoStep later → (carryOutAll r later).players.length = number + 1 →
          (carryOutAll r later).StartsOver number) ∧
    (∀ fire number c f (v : World), Command.Rewinds c f → v.players.length = number + 1 →
      ∃ r, (command fire c).run v = .ok .nothing r ∧ r.players = v.players.modify number f) ∧
    (∀ instead : Command → Act Answer,
      (∀ c (v : World), v.KeepsWaiting ((instead c).after v)) → ∀ depth (v : World),
        (∀ name signal, v.KeepsWaiting ((fireBy (stepless instead) depth name signal).after v)) ∧
        ∀ c, v.KeepsWaiting ((stepless instead (fireBy (stepless instead) depth) c).after v)) ∧
    (∀ earlier number p,
      let v := carryOutAll w earlier
      v.players.length = number + 1 → v.players[number]? = some p → p.index = 0 →
        v.StartsOver number) ∧
    ∀ depth number (v : World) p frame, v.players[number]? = some p →
      p.frames[p.index]? = some frame →
      (∀ ds, frame.parsed = .ok ds →
        v.PublishesFirst ds ((stepPlayer (fireAt depth) number).after v)) ∧
      (stepPlayer (fireAt depth) number).run v =
        match (update (fireAt depth) frame).run v with
        | .ok _ u => .ok true (u.modifyPlayer number fun q => { q with index := p.index + 1 })
        | .error stop u => .error stop u := by
  obtain ⟨none_yet, idle⟩ : w.players = [] ∧ w.looping = false := by
    obtain ⟨ds, rfl⟩ := start_eq starts
    exact ⟨rfl, rfl⟩
  refine ⟨?_, ?_, ?_, ?_, ?_, ?_⟩
  · intro v begins steps loads
    apply inBounds_carryOutAll loads
    rcases begins with rfl | inside
    · intro p member
      rw [none_yet] at member
      exact nomatch member
    · exact inside
  · intro earlier number c f rewinds v count
    have idle_v : v.looping = false := idle_carryOutAll idle earlier
    obtain ⟨r, run, players, looping⟩ := rewinds.run (fireAt (scriptDepth v.scripts)) count
    refine ⟨r, run, players, ?_⟩
    intro later no_step count_later
    obtain ⟨p, found⟩ := exists_inUse count
    have rewound : r.players[number]? = some (f p) := by
      rw [players, List.getElem?_modify_eq, found]
      rfl
    obtain ⟨q, found_q, waits⟩ := keepsWaiting_carryOutAll no_step number _ rewound
    exact startsOver_of_index count_later found_q (waits (rewinds.index p))
      (idle_carryOutAll (looping.trans idle_v) later)
  · intro fire number c f v rewinds count
    obtain ⟨r, run, players, _⟩ := rewinds.run fire count
    exact ⟨r, run, players⟩
  · intro instead waits depth v
    have fired := waiting_fireBy waits depth
    exact ⟨fun name signal => waiting_agree_iff.mp (fired name signal) v,
      fun c => waiting_agree_iff.mp (waiting_stepless waits fired c) v⟩
  · intro earlier number p v count found first
    exact startsOver_of_index count found first (idle_carryOutAll idle earlier)
  · intro depth number v p frame found next
    exact ⟨fun ds => stepPlayer_publishesFirst (Law.fireAt_keepsBooks depth) found next,
      run_stepPlayer_next found next⟩

def rewinder : List (String × Script) := [("rewind", ⟨false, 1, [.reset, .play], .returns, none⟩)]

def harborFrames : List Payload :=
  [.entries [.device ⟨"van", true, none, none, none⟩], .entries [],
    .entries [.device ⟨"buoy", true, none, none, none⟩]]

def playedAlong : List Command :=
  [.player (.entries harborFrames), .subscribe "main" "rewind" (.named "rewind"), .step, .step]

/-- The recording is loaded anew, and a handler rewinds it once more. -/
theorem rewound_player_starts_over :
    let w := { World.empty with scripts := rewinder }
    let v := carryOutAll w playedAlong
    let r := (carryOut (.load (.entries harborFrames) (some "again"))).after v
    let later := [Command.emit "main" "rewind"]
    let u := carryOutAll r later
    start (.entries []) rewinder = .ok w ∧ w.LoadsBetweenSteps playedAlong ∧
      (∀ p ∈ v.players, p.InBounds) ∧ r.TakesNoStep later ∧ u.StartsOver 0 ∧
      v.players.map (·.index) = [2] ∧
      u.players.map (fun p => (p.index, p.playing, p.name)) = [(0, true, some "again")] ∧
      ((carryOut .playLoop).after u).publications.map (·.map (·.name)) =
        [["buoy"], [], ["van"], [], ["van"]] := by
  intro w v r later u
  have starts : start (.entries []) rewinder = .ok w := rfl
  have loads : w.LoadsBetweenSteps playedAlong := by
    have listed : ∀ s ∈ rewinder, ∀ c ∈ s.2.acts, c.loads = false := by
      simp [rewinder, Command.loads]
    exact World.loadsBetweenSteps_of_listed listed rfl playedAlong
  have kept : r.scripts = rewinder := rfl
  have no_step : r.TakesNoStep later := by
    apply World.takesNoStep_of_listed
    · rw [kept]
      simp [rewinder, Command.steps]
    · simp [later, Command.steps]
  obtain ⟨inside, rewound, _⟩ := rewinding_between_steps_is_kept starts
  have rewinds : Command.Rewinds (.load (.entries harborFrames) (some "again"))
      fun p => p.loaded harborFrames (some "again") := .load rfl
  have count : v.players.length = 1 := by decide
  have count_later : u.players.length = 1 := by decide
  obtain ⟨r', run, _, starts_over⟩ := rewound playedAlong 0 _ _ rewinds count
  have same : r' = r := by
    change r' = leaves _
    rw [run]
    rfl
  rw [same] at starts_over
  exact ⟨starts, loads, inside w (.inl rfl) playedAlong loads, no_step,
    starts_over later no_step count_later, by decide, by decide, by decide⟩

def swapper : List (String × Script) :=
  [("swap", ⟨false, 1, [.load (.entries [.entries []]) none], .returns, none⟩)]

/-- The observer rewinds the player while the first frame is published. The second frame comes next
all the same, by a step as in a loop. Where a shorter recording is loaded while the second frame is
published, the player is beyond its end then, and the new frame is passed over. -/
theorem rewinding_during_a_step_is_lost :
    let names := fun w : World => w.publications.map (·.map (·.name))
    let standing := fun w : World => w.players.map fun p => (p.index, p.frames.length)
    let watched := carryOutAll { World.empty with scripts := rewinder }
      [.player (.entries harborFrames), .register (.named "rewind")]
    let stepped := (carryOut .step).after watched
    let looped := carryOutAll watched [.play, .playLoop]
    let swapped := carryOutAll { World.empty with scripts := swapper }
      [.player (.entries harborFrames), .step, .register (.named "swap"), .step]
    watched.firingsOf "rewind" = 0 ∧ stepped.firingsOf "rewind" = 1 ∧
      names stepped = [["van"]] ∧ standing stepped = [(1, 3)] ∧
      names ((carryOut .step).after stepped) = [[], ["van"]] ∧
      names looped = [["buoy"], [], ["van"]] ∧
      standing swapped = [(2, 1)] ∧ names ((carryOut .step).after swapped) = names swapped := by
  intro names standing watched stepped looped swapped
  exact ⟨by decide, by decide, by decide, by decide, by decide, by decide, by decide, by decide⟩

end FleetMap
