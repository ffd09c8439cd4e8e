import FleetMap.Proofs.Hub.Listening
import Mathlib.Data.List.Infix

set_option autoImplicit false

namespace FleetMap

open Act Hub

/-- From one world to the other only players, the mark on the loop and notes changed. -/
def World.Aside (w v : World) : Prop :=
  ∃ (players : List Player) (looping : Bool) (notes : List Note),
    v = { w with
      players := players
      looping := looping
      journal := notes.map Entry.noted ++ w.journal }

/-- From one world to the other the given payloads were handed to the registry in this order, and
whatever else was done was done aside. -/
inductive Hands (fire : Fire) : List Payload → World → World → Prop where
  | aside {w v : World} : w.Aside v → Hands fire [] w v
  | update {payload : Payload} {count : Nat} {w v : World} :
    (update fire payload).run w = .ok count v → Hands fire [payload] w v
  | trans {earlier later : List Payload} {u v w : World} :
    Hands fire earlier u v → Hands fire later v w → Hands fire (earlier ++ later) u w

/-- Payloads were handed to the registry and nothing was published but their devices. -/
structure Publishes (fire : Fire) (payloads : List Payload) (w v : World) : Prop where
  handed : Hands fire payloads w v
  published : v.publications.map Except.ok =
    (payloads.map Payload.parsed).reverse ++ w.publications.map Except.ok
  held : Except.ok v.registry.devices =
    (payloads.map Payload.parsed).getLast?.getD (.ok w.registry.devices)

namespace Publishes

variable {fire : Fire} {earlier later : List Payload} {u v w : World}

theorem aside (aside : w.Aside v) : Publishes fire [] w v := by
  refine ⟨.aside aside, ?_, ?_⟩
  · obtain ⟨_, _, notes, rfl⟩ := aside
    have noted : (notes.map Entry.noted).filterMap Entry.publication? = [] := by
      rw [List.filterMap_map]
      exact List.filterMap_eq_nil_iff.mpr fun _ _ => rfl
    simp only [World.publications, List.filterMap_append, noted, List.map_nil, List.reverse_nil,
      List.nil_append]
  · obtain ⟨_, _, notes, rfl⟩ := aside
    rfl

theorem trans (first : Publishes fire earlier u v) (second : Publishes fire later v w) :
    Publishes fire (earlier ++ later) u w where
  handed := first.handed.trans second.handed
  published := by
    rw [second.published, first.published, List.map_append, List.reverse_append,
      List.append_assoc]
  held := by
    rw [second.held, first.held, List.map_append, List.getLast?_append, Option.getD_or]

/-- What else is done aside leaves it at the same publications. -/
theorem then_aside {payloads : List Payload} (publishes : Publishes fire payloads u v)
    (aside : v.Aside w) : Publishes fire payloads u w := by
  have both := publishes.trans (Publishes.aside aside)
  rwa [List.append_nil] at both

theorem of_aside {payloads : List Payload} (aside : u.Aside v)
    (publishes : Publishes fire payloads v w) : Publishes fire payloads u w :=
  (Publishes.aside aside).trans publishes

end Publishes

theorem World.aside_modifyPlayer (w : World) (number : Nat) (f : Player → Player) :
    w.Aside (w.modifyPlayer number f) :=
  ⟨_, w.looping, [], rfl⟩

theorem World.aside_looping (w : World) (looping : Bool) : w.Aside { w with looping := looping } :=
  ⟨w.players, looping, [], rfl⟩

/-- The player in use holds a recording and stands at a frame of it, and the scripts are the given
ones. -/
structure Stands (scripts : List (String × Script)) (number : Nat) (frames : List Payload)
    (name : Option String) (w : World) (k : Nat) (playing : Bool) : Prop where
  holds : (listening scripts number).holds w
  player : w.players[number]? = some ⟨frames, k, playing, name⟩

/-- The note with which a loop ends that cannot go on at a frame; none if it can. -/
def closing? (frames : List Payload) (k : Nat) : Option Note :=
  match frames[k]?.map Payload.parsed with
  | none => some ⟨.info, .player, "Recording finished"⟩
  | some (.ok _) => none
  | some (.error kind) =>
    some ⟨.error, .player, "Error in playback loop: " ++ (Failure.notIterable kind).message⟩

theorem closing?_eq_none {frames : List Payload} {k : Nat} :
    closing? frames k = none ↔ ∃ frame ds, frames[k]? = some frame ∧ frame.parsed = .ok ds := by
  unfold closing?
  constructor
  · intro goes_on
    cases next : frames[k]? with
    | none =>
      rw [next] at goes_on
      exact nomatch goes_on
    | some frame =>
      rw [next, Option.map_some] at goes_on
      cases legible : frame.parsed with
      | ok ds => exact ⟨frame, ds, rfl, legible⟩
      | error kind =>
        rw [legible] at goes_on
        exact nomatch goes_on
  · rintro ⟨frame, ds, next, legible⟩
    rw [next, Option.map_some, legible]

theorem closing?_eq_some {frames : List Payload} {k : Nat} {n : Note}
    (closes : closing? frames k = some n) :
    (frames[k]? = none ∧ n = ⟨.info, .player, "Recording finished"⟩) ∨
      ∃ frame kind, frames[k]? = some frame ∧ frame.parsed = .error kind ∧
        n = ⟨.error, .player,
          "Error in playback loop: " ++ (Failure.notIterable kind).message⟩ := by
  unfold closing? at closes
  cases next : frames[k]? with
  | none =>
    rw [next] at closes
    exact .inl ⟨rfl, (Option.some.inj closes).symm⟩
  | some frame =>
    rw [next, Option.map_some] at closes
    cases read : frame.parsed with
    | ok ds =>
      rw [read] at closes
      exact nomatch closes
    | error kind =>
      rw [read] at closes
      exact .inr ⟨frame, kind, rfl, read, (Option.some.inj closes).symm⟩

/-- The player can go on at the frames before the first that cannot be walked through, and it
cannot go on there. -/
theorem closing?_takeWhile (frames : List Payload) :
    (∀ k, k < (frames.takeWhile Payload.isLegible).length → closing? frames k = none) ∧
      (closing? frames (frames.takeWhile Payload.isLegible).length).isSome := by
  induction frames with
  | nil => exact ⟨nofun, rfl⟩
  | cons frame rest ih =>
    have shifted : ∀ k, closing? (frame :: rest) (k + 1) = closing? rest k := fun _ => rfl
    cases legible : frame.isLegible with
    | true =>
      rw [List.takeWhile_cons_of_pos legible, List.length_cons, shifted]
      refine ⟨?_, ih.2⟩
      intro k before
      cases k with
      | zero =>
        obtain ⟨ds, read⟩ := Payload.isLegible_eq_true.mp legible
        exact closing?_eq_none.mpr ⟨frame, ds, rfl, read⟩
      | succ k => exact ih.1 k (Nat.lt_of_succ_lt_succ before)
    | false =>
      rw [List.takeWhile_cons_of_neg (by simp [legible])]
      refine ⟨nofun, ?_⟩
      obtain ⟨kind, read⟩ := Payload.isLegible_eq_false.mp legible
      change (closing? (frame :: rest) 0).isSome
      unfold closing?
      rw [List.getElem?_cons_zero, Option.map_some, read]
      rfl

/-- The player stands at frame `k` in `w` and at frame `l` in `v`; meanwhile the frames in between
were published, all of which can be walked through. -/
structure PlaysTo (fire : Fire) (scripts : List (String × Script)) (number : Nat)
    (frames : List Payload) (name : Option String) (w : World) (k : Nat) (v : World) (l : Nat)
    (playing : Bool) : Prop where
  forth : k ≤ l
  legible : ∀ m, k ≤ m → (closing? frames m).isSome → l ≤ m
  stands : Stands scripts number frames name v l playing
  published : Publishes fire (frames.extract k l) w v
  looping : v.looping = w.looping

section Steps

variable {scripts : List (String × Script)} {number : Nat} {frames : List Payload}
  {name : Option String} {w : World} {k : Nat} {playing : Bool}

theorem Stands.of_same (stands : Stands scripts number frames name w k playing) {v : World}
    (same_scripts : v.scripts = w.scripts) (players : v.players = w.players) :
    Stands scripts number frames name v k playing := by
  obtain ⟨⟨scripts_given, count⟩, player⟩ := stands
  exact ⟨⟨same_scripts.trans scripts_given, by rw [players, count]⟩, by rw [players, player]⟩

theorem Stands.modifyPlayer (stands : Stands scripts number frames name w k playing)
    {f : Player → Player} {l : Nat} {playing' : Bool}
    (moves : f ⟨frames, k, playing, name⟩ = ⟨frames, l, playing', name⟩) :
    Stands scripts number frames name (w.modifyPlayer number f) l playing' := by
  obtain ⟨⟨same_scripts, count⟩, player⟩ := stands
  refine ⟨⟨same_scripts, (List.length_modify _ _ _).trans count⟩, ?_⟩
  change (w.players.modify number f)[number]? = _
  rw [List.getElem?_modify_eq, player, ← moves]
  rfl

variable {fire : Fire}

theorem PlaysTo.stay (stands : Stands scripts number frames name w k playing) :
    PlaysTo fire scripts number frames name w k w k playing := by
  refine ⟨Nat.le_refl k, fun _ before _ => before, stands, ?_, rfl⟩
  rw [List.extract_eq_take_drop, Nat.sub_self, List.take_zero]
  exact .aside ⟨w.players, w.looping, [], rfl⟩

theorem PlaysTo.trans {u v : World} {l m : Nat} {playing' : Bool}
    (first : PlaysTo fire scripts number frames name u k v l playing)
    (second : PlaysTo fire scripts number frames name v l w m playing') :
    PlaysTo fire scripts number frames name u k w m playing' := by
  refine ⟨Nat.le_trans first.forth second.forth, ?_, second.stands, ?_,
    second.looping.trans first.looping⟩
  · intro n from_k closes
    exact second.legible n (first.legible n from_k closes) closes
  · have apart : m - k = (l - k) + (m - l) := by
      have := first.forth
      have := second.forth
      omega
    have both : frames.extract k m = frames.extract k l ++ frames.extract l m := by
      simp only [List.extract_eq_take_drop]
      rw [apart, List.take_add, List.drop_drop, Nat.add_sub_of_le first.forth]
    rw [both]
    exact first.published.trans second.published

variable (fire)

theorem run_stepPlayer_end (stands : Stands scripts number frames name w k playing)
    (ended : frames[k]? = none) : (stepPlayer fire number).run w = .ok false w := by
  simp only [stepPlayer, EStateM.run_bind, run_player?, stands.player, ended]
  rfl

theorem run_stepPlayer_error (stands : Stands scripts number frames name w k playing)
    {frame : Payload} (next : frames[k]? = some frame) {kind : Kind}
    (refused : frame.parsed = .error kind) :
    (stepPlayer fire number).run w = .error (.failed (.notIterable kind)) w := by
  simp only [stepPlayer, EStateM.run_bind, run_player?, stands.player, next, run_discard,
    run_update_error fire w refused]

/-- The player takes one step, and whatever listeners do to it meanwhile it is halted at most. -/
theorem run_stepPlayer_ok {fire : Fire} (attends : fire.Attends scripts number)
    (stands : Stands scripts number frames name w k playing) (goes_on : closing? frames k = none) :
    ∃ v playing', (stepPlayer fire number).run w = .ok true v ∧
      (playing' = playing ∨ playing' = false) ∧
      PlaysTo fire scripts number frames name w k v (k + 1) playing' := by
  obtain ⟨frame, ds, next, legible⟩ := closing?_eq_none.mp goes_on
  obtain ⟨inside, at_k⟩ := List.getElem?_eq_some_iff.mp next
  obtain ⟨count, u, updated, holds, pauses⟩ := attends.run_update legible stands.holds
  obtain ⟨playing', at_most, stands_after⟩ : ∃ playing', (playing' = playing ∨ playing' = false) ∧
      Stands scripts number frames name u k playing' := by
    rcases pauses.player with same | paused
    · exact ⟨playing, .inl rfl, holds, same.trans stands.player⟩
    · exact ⟨false, .inr rfl, holds, paused.trans (congrArg _ stands.player)⟩
  refine ⟨u.modifyPlayer number fun q => { q with index := k + 1 }, playing', ?_, at_most, ?_⟩
  · simp only [stepPlayer, EStateM.run_bind, run_player?, stands.player, next, run_discard, updated,
      run_modifyPlayer, EStateM.run_pure]
  refine ⟨Nat.le_succ k, ?_, stands_after.modifyPlayer rfl, ?_, pauses.looping⟩
  · intro m from_k closes
    have beyond : k ≠ m := by
      rintro rfl
      rw [goes_on] at closes
      exact nomatch closes
    omega
  · have frame_only : frames.extract k (k + 1) = [frame] := by
      rw [List.extract_eq_take_drop, List.drop_eq_getElem_cons inside, at_k,
        Nat.add_sub_cancel_left]
      rfl
    rw [frame_only]
    apply Publishes.then_aside _ (u.aside_modifyPlayer number _)
    refine ⟨.update updated, ?_, ?_⟩
    · rw [pauses.publications, List.map_singleton, legible]
      rfl
    · rw [pauses.devices, List.map_singleton, legible]
      rfl

/-- A loop that finds the player at a halt ends; one that cannot go on notes why and stops it. -/
def Halts (number : Nat) (frames : List Payload) (k : Nat) (playing : Bool) (w v : World) : Prop :=
  if playing then
    ∃ n, closing? frames k = some n ∧ v = (w.enter (.noted n)).modifyPlayer number Player.paused
  else v = w

theorem Halts.looping {v x : World} {l : Nat} (halts : Halts number frames l playing x v) :
    Halts number frames l playing { x with looping := false } { v with looping := false } := by
  cases playing with
  | false =>
    obtain rfl : v = x := halts
    rfl
  | true =>
    obtain ⟨n, closes, rfl⟩ := halts
    exact ⟨n, closes, rfl⟩

theorem run_playFrames_closing (stands : Stands scripts number frames name w k true) {n : Note}
    (closes : closing? frames k = some n) (fuel : Nat) :
    (playFrames fire number (fuel + 1)).run w =
      .ok () ((w.enter (.noted n)).modifyPlayer number Player.paused) := by
  simp only [playFrames, EStateM.run_bind, run_player?, stands.player, Option.any_some, if_true,
    run_attempt]
  rcases closing?_eq_some closes with ⟨ended, rfl⟩ | ⟨frame, kind, next, refused, rfl⟩
  · rw [run_stepPlayer_end fire stands ended]
    rfl
  · rw [run_stepPlayer_error fire stands next refused]
    rfl

theorem run_playFrames_halted (stands : Stands scripts number frames name w k false)
    (fuel : Nat) : (playFrames fire number fuel).run w = .ok () w := by
  cases fuel with
  | zero => rfl
  | succ fuel =>
    simp only [playFrames, EStateM.run_bind, run_player?, stands.player, Option.any_some,
      Bool.false_eq_true, if_false]
    rfl

variable {fire}

/-- The loop hands over frames until it has to end. The rounds it is given are enough for that, as
each of them but the last one takes it to the next frame. -/
theorem run_playFrames (attends : fire.Attends scripts number) {fuel : Nat}
    (stands : Stands scripts number frames name w k playing)
    (enough : frames.length - k < fuel) :
    ∃ v x l playing', (playFrames fire number fuel).run w = .ok () v ∧
      (playing = true → closing? frames k = none → k < l) ∧
      PlaysTo fire scripts number frames name w k x l playing' ∧
      Halts number frames l playing' x v := by
  -- every round that is not the last one hands over a frame, so the fuel outlasts the frames left
  induction fuel generalizing w k playing with
  | zero => exact absurd enough (Nat.not_lt_zero _)
  | succ fuel ih =>
    cases playing with
    | false =>
      exact ⟨w, w, k, false, run_playFrames_halted fire stands _, nofun, .stay stands, rfl⟩
    | true =>
      cases closes : closing? frames k with
      | some n =>
        exact ⟨_, w, k, true, run_playFrames_closing fire stands closes fuel, nofun,
          .stay stands, n, closes, rfl⟩
      | none =>
        obtain ⟨frame, _, next, _⟩ := closing?_eq_none.mp closes
        obtain ⟨inside, _⟩ := List.getElem?_eq_some_iff.mp next
        obtain ⟨u, playing', stepped, _, first⟩ := run_stepPlayer_ok attends stands closes
        obtain ⟨v, x, l, playing'', run, _, others, halts⟩ := ih first.stands (by omega)
        have run_first : (playFrames fire number (fuel + 1)).run w =
            (playFrames fire number fuel).run u := by
          simp only [playFrames, EStateM.run_bind, run_player?, stands.player, Option.any_some,
            if_true, run_attempt, stepped]
        have further := others.forth
        exact ⟨v, x, l, playing'', run_first.trans run, fun _ _ => further, first.trans others,
          halts⟩

theorem PlaysTo.then_aside {v x : World} {l : Nat} {playing playing' : Bool}
    (plays : PlaysTo fire scripts number frames name w k v l playing) (aside : v.Aside x)
    (stands : Stands scripts number frames name x l playing') (looping : x.looping = v.looping) :
    PlaysTo fire scripts number frames name w k x l playing' :=
  ⟨plays.forth, plays.legible, stands, plays.published.then_aside aside,
    looping.trans plays.looping⟩

theorem PlaysTo.halts {v x : World} {l : Nat}
    (plays : PlaysTo fire scripts number frames name w k x l playing)
    (halts : Halts number frames l playing x v) :
    PlaysTo fire scripts number frames name w k v l false := by
  cases playing with
  | false =>
    obtain rfl : v = x := halts
    exact plays
  | true =>
    obtain ⟨n, _, rfl⟩ := halts
    have noted : Stands scripts number frames name (x.enter (.noted n)) l true :=
      plays.stands.of_same rfl rfl
    apply plays.then_aside _ (noted.modifyPlayer rfl) rfl
    exact ⟨_, x.looping, [n], rfl⟩

theorem length_le_longestRecording {p : Player} (found : w.players[number]? = some p) :
    p.frames.length ≤ w.longestRecording := by
  have above : ∀ (l : List Nat) (start : Nat), start ≤ l.foldl max start ∧
      ∀ n ∈ l, n ≤ l.foldl max start := by
    intro l
    induction l with
    | nil => exact fun start => ⟨Nat.le_refl start, nofun⟩
    | cons m rest ih =>
      intro start
      obtain ⟨grows, others⟩ := ih (max start m)
      refine ⟨by simp only [List.foldl_cons]; omega, ?_⟩
      intro n member
      rcases List.mem_cons.mp member with rfl | later
      · simp only [List.foldl_cons]
        omega
      · exact others n later
  apply (above _ 0).2
  apply List.mem_append_left
  exact List.mem_map_of_mem (List.mem_of_getElem? found)

theorem enough_rounds {p : Player} (found : w.players[number]? = some p) :
    p.frames.length - p.index < loopBound w := by
  have longest := length_le_longestRecording found
  have rounds : 1 * (w.longestRecording + 2) ≤ (w.actsLeft + 1) * (w.longestRecording + 2) :=
    Nat.mul_le_mul_right _ (Nat.le_add_left 1 _)
  unfold loopBound
  omega

/-- Every loop comes to its end. -/
theorem run_playLoop (attends : fire.Attends scripts number)
    (stands : Stands scripts number frames name w k playing) (idle : w.looping = false) :
    ∃ v x l playing', (playLoop fire number).run w = .ok () v ∧
      (playing = true → closing? frames k = none → k < l) ∧
      PlaysTo fire scripts number frames name w k x l playing' ∧
      Halts number frames l playing' x v := by
  have found : ((Change.setLooping true).apply w).players[number]? = _ := stands.player
  cases playing with
  | false =>
    have aside : w.Aside { w with looping := false } := w.aside_looping false
    refine ⟨{ w with looping := false }, { w with looping := false }, k, false, ?_,
      fun playing => absurd playing Bool.false_ne_true,
      (PlaysTo.stay stands).then_aside aside (stands.of_same rfl rfl) idle.symm, rfl⟩
    simp only [playLoop, EStateM.run_bind, EStateM.run_get, idle, Bool.false_eq_true, if_false,
      run_whileLooping, run_player?, found, Option.any_some]
    rfl
  | true =>
    let told := ((Change.setLooping true).apply w).note .info .player "Playback loop started"
    have stands_told : Stands scripts number frames name told k true := stands.of_same rfl rfl
    have aside : w.Aside told := ⟨w.players, true, [_], rfl⟩
    obtain ⟨v, x, l, playing', run, moves, plays, halts⟩ :=
      run_playFrames attends stands_told (enough_rounds stands.player)
    refine ⟨{ v with looping := false }, { x with looping := false }, l, playing', ?_, moves, ?_,
      halts.looping⟩
    · have run_told : (playFrames fire number (loopBound w)).run
          (((Change.setLooping true).apply w).note .info .player "Playback loop started") = _ := run
      simp only [playLoop, EStateM.run_bind, EStateM.run_get, idle, Bool.false_eq_true, if_false,
        run_whileLooping, run_player?, found, Option.any_some, if_true, run_note, run_told]
      rfl
    · exact ⟨plays.forth, plays.legible, plays.stands.of_same rfl rfl,
        (plays.published.of_aside aside).then_aside (x.aside_looping false), idle.symm⟩

end Steps

inductive Turn where
  | step
  | loop
  deriving DecidableEq

def Turn.commands : Turn → List Command
  | .step => [.step]
  | .loop => [.play, .playLoop]

section Turns

variable {scripts : List (String × Script)} {number : Nat} {frames : List Payload}
  {name : Option String} {w : World} {k : Nat} {playing : Bool}

section InUse

variable (count : w.players.length = number + 1)

include count

theorem exists_inUse : ∃ p, w.players[number]? = some p :=
  ⟨_, List.getElem?_eq_getElem (by omega)⟩

theorem run_playerInUse (request : String) : (playerInUse request).run w = .ok number w := by
  simp only [playerInUse, EStateM.run_bind, EStateM.run_get, count]
  rfl

theorem run_step_inUse : (carryOut .step).run w =
    (Answer.flag <$> stepPlayer (fireAt (scriptDepth w.scripts)) number).run w := by
  rw [run_carryOut]
  simp only [command, EStateM.run_bind, run_playerInUse count]

theorem run_loop_inUse : (carryOut .playLoop).run w =
    (do playLoop (fireAt (scriptDepth w.scripts)) number; return Answer.nothing).run w := by
  rw [run_carryOut]
  simp only [command, EStateM.run_bind, run_playerInUse count]

/-- A recording is loaded into the player in use, which is noted. -/
theorem run_load (fire : Fire) {recording : Recording} (name : Option String)
    (read : recording.items Payload.ofValue = .ok frames) :
    ∃ n, (command fire (.load recording name)).run w = .ok .nothing
      ((w.modifyPlayer number fun p => p.loaded frames name).enter (.noted n)) := by
  simp only [command, load, EStateM.run_bind, run_playerInUse count, read, run_modifyPlayer,
    run_note]
  exact ⟨_, rfl⟩

end InUse

theorem run_step (stands : Stands scripts number frames name w k playing) :
    (carryOut .step).run w =
      (Answer.flag <$> stepPlayer (fireAt (scriptDepth scripts)) number).run w := by
  obtain ⟨⟨rfl, count⟩, _⟩ := stands
  exact run_step_inUse count

theorem run_play (stands : Stands scripts number frames name w k playing) :
    (carryOut .play).run w = .ok .nothing (w.modifyPlayer number Player.started) := by
  obtain ⟨⟨rfl, count⟩, _⟩ := stands
  rw [run_carryOut]
  simp only [command, EStateM.run_bind, run_playerInUse count, run_modifyPlayer]
  rfl

theorem run_loop (stands : Stands scripts number frames name w k playing) :
    (carryOut .playLoop).run w =
      (do playLoop (fireAt (scriptDepth scripts)) number; return Answer.nothing).run w := by
  obtain ⟨⟨rfl, count⟩, _⟩ := stands
  exact run_loop_inUse count

/-- A player that is not at its end plays on from where it stands. -/
theorem Stands.started (stands : Stands scripts number frames name w k playing)
    (inside : k < frames.length) :
    Stands scripts number frames name (w.modifyPlayer number Player.started) k true := by
  apply stands.modifyPlayer
  have unfinished : ¬ frames.length ≤ k := Nat.not_le.mpr inside
  have some_frames : frames ≠ [] := List.ne_nil_of_length_pos (Nat.zero_lt_of_lt inside)
  simp [Player.started, Player.finished, unfinished, some_frames]

theorem run_carryOut_playLoop (attends : attentive scripts)
    (stands : Stands scripts number frames name w k playing) (idle : w.looping = false) :
    ∃ v x l playing', (carryOut .playLoop).run w = .ok .nothing v ∧
      (playing = true → closing? frames k = none → k < l) ∧
      PlaysTo (fireAt (scriptDepth scripts)) scripts number frames name w k x l playing' ∧
      Halts number frames l playing' x v := by
  obtain ⟨v, x, l, playing', run, moves, plays, halts⟩ :=
    run_playLoop (fireAt_attends attends number _) stands idle
  refine ⟨v, x, l, playing', ?_, moves, plays, halts⟩
  rw [run_loop stands]
  simp only [EStateM.run_bind, run]
  rfl

theorem after_play (stands : Stands scripts number frames name w k playing) :
    (carryOut .play).after w = w.modifyPlayer number Player.started := by
  unfold after
  rw [run_play stands]
  rfl

theorem run_play_loop (attends : attentive scripts)
    (stands : Stands scripts number frames name w k false) (idle : w.looping = false)
    (inside : k < frames.length) :
    ∃ v x l playing', (carryOut .playLoop).run ((carryOut .play).after w) = .ok .nothing v ∧
      (closing? frames k = none → k < l) ∧
      PlaysTo (fireAt (scriptDepth scripts)) scripts number frames name w k x l playing' ∧
      Halts number frames l playing' x v := by
  obtain ⟨v, x, l, playing', run, moves, plays, halts⟩ :=
    run_carryOut_playLoop attends (stands.started inside) idle
  rw [after_play stands]
  exact ⟨v, x, l, playing', run, moves rfl, ⟨plays.forth, plays.legible, plays.stands,
    plays.published.of_aside (w.aside_modifyPlayer number _), plays.looping⟩, halts⟩

theorem run_step_ok (attends : attentive scripts)
    (stands : Stands scripts number frames name w k false) (goes_on : closing? frames k = none) :
    ∃ v, (carryOut .step).run w = .ok (.flag true) v ∧
      PlaysTo (fireAt (scriptDepth scripts)) scripts number frames name w k v (k + 1) false := by
  obtain ⟨v, playing', run, at_most, plays⟩ :=
    run_stepPlayer_ok (fireAt_attends attends number _) stands goes_on
  obtain rfl : playing' = false := by simpa using at_most
  exact ⟨v, by rw [run_step stands, run_map, run], plays⟩

theorem run_step_end (stands : Stands scripts number frames name w k playing)
    (ended : frames[k]? = none) : (carryOut .step).run w = .ok (.flag false) w := by
  rw [run_step stands, run_map, run_stepPlayer_end _ stands ended]

theorem run_step_error (stands : Stands scripts number frames name w k playing)
    {frame : Payload} (next : frames[k]? = some frame) {kind : Kind}
    (refused : frame.parsed = .error kind) :
    (carryOut .step).run w = .error (.failed (.notIterable kind)) w := by
  rw [run_step stands, run_map, run_stepPlayer_error _ stands next refused]

/-- Each turn plays on from where the player stands, by a frame at least if it can. -/
theorem Turn.plays (attends : attentive scripts) (turn : Turn)
    (stands : Stands scripts number frames name w k false) (idle : w.looping = false)
    (inside : k < frames.length) :
    ∃ l, (closing? frames k = none → k < l) ∧
      PlaysTo (fireAt (scriptDepth scripts)) scripts number frames name w k
        (carryOutAll w turn.commands) l false := by
  cases turn with
  | step =>
    change ∃ l, _ ∧ PlaysTo _ _ _ _ _ w k ((carryOut .step).after w) l false
    unfold after
    cases closes : closing? frames k with
    | none =>
      obtain ⟨v, run, plays⟩ := run_step_ok attends stands closes
      rw [run]
      exact ⟨k + 1, fun _ => Nat.lt_succ_self k, plays⟩
    | some n =>
      refine ⟨k, nofun, ?_⟩
      rcases closing?_eq_some closes with ⟨ended, _⟩ | ⟨frame, kind, next, refused, _⟩
      · rw [run_step_end stands ended]
        exact .stay stands
      · rw [run_step_error stands next refused]
        exact .stay stands
  | loop =>
    obtain ⟨v, x, l, playing', run, moves, plays, halts⟩ := run_play_loop attends stands idle inside
    refine ⟨l, moves, ?_⟩
    change PlaysTo _ _ _ _ _ w k ((carryOut .playLoop).after ((carryOut .play).after w)) l false
    unfold after at run ⊢
    rw [run]
    exact plays.halts halts

end Turns

/-- Whether there is a player with this number and with frames left to play. -/
def World.hasFramesLeft (w : World) (number : Nat) : Bool :=
  w.players[number]?.any fun p => !p.finished

section Session

variable {scripts : List (String × Script)} {number : Nat} {frames : List Payload}
  {name : Option String} {w : World}

/-- Turns that are taken while frames are left play on from the first frame. -/
theorem turns_play (attends : attentive scripts)
    (stands : Stands scripts number frames name w 0 false) (idle : w.looping = false)
    (turns : List Turn)
    (unfinished : ∀ earlier, earlier <+: turns → earlier ≠ turns →
      (carryOutAll w (earlier.flatMap Turn.commands)).hasFramesLeft number) :
    ∃ k, PlaysTo (fireAt (scriptDepth scripts)) scripts number frames name w 0
        (carryOutAll w (turns.flatMap Turn.commands)) k false ∧
      ∀ m, (∀ i < m, closing? frames i = none) → min turns.length m ≤ k := by
  induction turns using List.reverseRecOn with
  | nil => exact ⟨0, .stay stands, fun m _ => Nat.min_le_left 0 m⟩
  | append_singleton earlier turn ih =>
    have before : earlier <+: earlier ++ [turn] := List.prefix_append earlier [turn]
    have shorter : ∀ least, least <+: earlier → least ≠ earlier ++ [turn] := by
      rintro least is_least rfl
      have := is_least.length_le
      rw [List.length_append, List.length_singleton] at this
      omega
    obtain ⟨k, plays, moved⟩ := ih fun least is_least _ =>
      unfinished least (is_least.trans before) (shorter least is_least)
    have some_left := unfinished earlier before (by simp)
    have inside : k < frames.length := by
      rw [World.hasFramesLeft, plays.stands.player] at some_left
      simpa [Player.finished] using some_left
    obtain ⟨l, moves, further⟩ := turn.plays attends plays.stands (plays.looping.trans idle) inside
    have both : carryOutAll w ((earlier ++ [turn]).flatMap Turn.commands) =
        carryOutAll (carryOutAll w (earlier.flatMap Turn.commands)) turn.commands := by
      simp [carryOutAll]
    refine ⟨l, by rw [both]; exact plays.trans further, ?_⟩
    intro m goes_on
    have := moved m goes_on
    have := further.forth
    rw [List.length_append, List.length_singleton]
    by_cases beyond : m ≤ k
    · omega
    · have := moves (goes_on k (by omega))
      omega

/-- Loading a recording rewinds the player and publishes nothing. -/
theorem after_load (count : w.players.length = number + 1) {recording : Recording}
    (read : recording.items Payload.ofValue = .ok frames) :
    w.Aside ((carryOut (.load recording name)).after w) ∧
      Stands w.scripts number frames name ((carryOut (.load recording name)).after w) 0 false ∧
      ((carryOut (.load recording name)).after w).looping = w.looping := by
  obtain ⟨p, found⟩ := exists_inUse count
  obtain ⟨n, run⟩ := run_load count (fireAt (scriptDepth w.scripts)) name read
  unfold after
  rw [run_carryOut, run]
  refine ⟨⟨_, w.looping, [n], rfl⟩, ⟨⟨rfl, (List.length_modify _ _ _).trans count⟩, ?_⟩, rfl⟩
  change (w.players.modify number fun p => p.loaded frames name)[number]? = _
  rw [List.getElem?_modify_eq, found]
  rfl

end Session

/-- After a recording is loaded, and as long as frames are left, steps and loops in any order hand
over its frames up to the first that cannot be walked through: each once and in order, wherever
listeners pause the player, and at least one with each turn. Nothing else is published, and between
turns the player is at a halt. A step answers whether there was a frame; it fails at one that is no
payload and then changes nothing. A loop ends where it finds the player paused, or with a note where
it cannot go on; and every loop comes to its end, in whatever state the player is. -/
theorem playback_publishes_every_frame_once {w : World} {number : Nat} {recording : Recording}
    {frames : List Payload} {name : Option String} (player : w.players.length = number + 1)
    (idle : w.looping = false) (attends : attentive w.scripts)
    (read : recording.items Payload.ofValue = .ok frames) :
    let fire := fireAt (scriptDepth w.scripts)
    let legible := frames.takeWhile Payload.isLegible
    let loaded := (carryOut (.load recording name)).after w
    (∀ turns : List Turn,
      (∀ earlier, earlier <+: turns → earlier ≠ turns →
        (carryOutAll loaded (earlier.flatMap Turn.commands)).hasFramesLeft number) →
      let v := carryOutAll loaded (turns.flatMap Turn.commands)
      ∃ k, min turns.length legible.length ≤ k ∧ k ≤ legible.length ∧
        v.players[number]? = some ⟨frames, k, false, name⟩ ∧
        Publishes fire (frames.take k) loaded v ∧
        (k < legible.length → ∃ u, (carryOut .step).run v = .ok (.flag true) u ∧
          PlaysTo fire w.scripts number frames name v k u (k + 1) false) ∧
        (k = frames.length → (carryOut .step).run v = .ok (.flag false) v) ∧
        (∀ frame kind, frames[k]? = some frame → frame.parsed = .error kind →
          (carryOut .step).run v = .error (.failed (.notIterable kind)) v) ∧
        (k < frames.length → ∃ u x l playing,
          (carryOut .playLoop).run ((carryOut .play).after v) = .ok .nothing u ∧
            PlaysTo fire w.scripts number frames name v k x l playing ∧
            Halts number frames l playing x u)) ∧
    ∀ v, v.scripts = w.scripts → v.players.length = number + 1 → v.looping = false →
      ∃ u p, (carryOut .playLoop).run v = .ok .nothing u ∧ u.players[number]? = some p ∧
        p.playing = false := by
  intro fire legible loaded
  obtain ⟨goes_on, closes⟩ := closing?_takeWhile frames
  obtain ⟨_, stands, looping⟩ : w.Aside loaded ∧
      Stands w.scripts number frames name loaded 0 false ∧ loaded.looping = w.looping :=
    after_load player read
  constructor
  · intro turns unfinished v
    obtain ⟨k, plays, moved⟩ := turns_play attends stands (looping.trans idle) turns unfinished
    have stands_v := plays.stands
    refine ⟨k, moved _ goes_on, plays.legible _ (Nat.zero_le _) closes, stands_v.player, ?_, ?_, ?_,
      ?_, ?_⟩
    · exact plays.published
    · exact fun before => run_step_ok attends stands_v (goes_on k before)
    · intro ended
      apply run_step_end stands_v
      rw [ended]
      exact List.getElem?_eq_none (Nat.le_refl _)
    · exact fun frame kind next refused => run_step_error stands_v next refused
    · intro inside
      obtain ⟨u, x, l, playing, run, _, further, halts⟩ :=
        run_play_loop attends stands_v (plays.looping.trans (looping.trans idle)) inside
      exact ⟨u, x, l, playing, run, further, halts⟩
  · intro v same_scripts count idle_v
    obtain ⟨p, found⟩ := exists_inUse count
    have stands_v : Stands w.scripts number p.frames p.name v p.index p.playing :=
      ⟨⟨same_scripts, count⟩, found⟩
    obtain ⟨u, x, l, playing, run, _, plays, halts⟩ :=
      run_carryOut_playLoop attends stands_v idle_v
    exact ⟨u, _, run, (plays.halts halts).stands.player, rfl⟩

/-- An observer that empties what it is handed, pauses the player, makes room for another observer
and fails. -/
def haltingObserver : List (String × Script) :=
  [("halt", ⟨true, 2, [.pause, .register (.named "watch"), .remove (.named "watch")],
      .raises "boom", none⟩),
    ("watch", ⟨false, 0, [], .returns, none⟩)]

def brokenRecording : List Payload :=
  [.entries [.device ⟨"van", true, some ⟨1, 2, 3⟩, some ⟨90, 0, 0⟩, none⟩, .raw .null], .entries [],
    .other .null]

theorem halted_playback_publishes_every_frame :
    let w := carryOutAll { World.empty with scripts := haltingObserver }
      [.player (.entries []), .register (.named "halt")]
    let loaded := (carryOut (.load (.entries brokenRecording) none)).after w
    let turns := [Turn.loop, .loop, .loop]
    let v := carryOutAll loaded (turns.flatMap Turn.commands)
    w.players.length = 1 ∧ w.looping = false ∧ attentive w.scripts = true ∧
      (∀ earlier, earlier <+: turns → earlier ≠ turns →
        (carryOutAll loaded (earlier.flatMap Turn.commands)).hasFramesLeft 0) ∧
      Publishes (fireAt (scriptDepth haltingObserver)) (brokenRecording.take 2) loaded v ∧
      v.publications.map (·.map (·.name)) = [[], ["van"]] ∧
      v.journal.head? = some (.noted ⟨.error, .player,
        "Error in playback loop: 'NoneType' object is not iterable"⟩) := by
  intro w loaded turns v
  have player : w.players.length = 1 := by decide
  have idle : w.looping = false := by decide
  have attends : attentive w.scripts = true := by decide
  have unfinished : ∀ earlier, earlier <+: turns → earlier ≠ turns →
      (carryOutAll loaded (earlier.flatMap Turn.commands)).hasFramesLeft 0 := by
    have each : ∀ earlier ∈ turns.inits, earlier ≠ turns →
        (carryOutAll loaded (earlier.flatMap Turn.commands)).hasFramesLeft 0 := by decide
    exact fun earlier before => each earlier ((List.mem_inits earlier turns).mpr before)
  have plays := @playback_publishes_every_frame_once w 0 (.entries brokenRecording) brokenRecording
    none player idle attends rfl
  obtain ⟨k, enough, at_most, _, published, _⟩ := plays.1 turns unfinished
  have all : k = 2 := Nat.le_antisymm at_most enough
  rw [all] at published
  exact ⟨player, idle, attends, unfinished, published, by decide, by decide⟩

/-- An observer that raises an ordinary error, but one without text, ends the step after its frame
was published and before the player moved on: once the observer is gone, the frame is published
again. -/
theorem error_without_text_repeats_a_frame :
    let scripts : List (String × Script) :=
      [("choke", ⟨false, 0, [], .raisesMute (.failed .deepValue), none⟩)]
    let frames := [.entries [.device ⟨"van", true, none, none, none⟩], .entries []]
    let choked := carryOutAll { World.empty with scripts := scripts }
      [.player (.entries frames), .register (.named "choke"), .step]
    let w := carryOutAll choked [.remove (.named "choke"), .step]
    choked.publications.map (·.map (·.name)) = [["van"]] ∧
      choked.players = [⟨frames, 0, false, none⟩] ∧
      w.publications.map (·.map (·.name)) = [["van"], ["van"]] ∧
      w.players = [⟨frames, 1, false, none⟩] := by
  intro scripts frames choked w
  exact ⟨by decide, rfl, by decide, rfl⟩

end FleetMap
