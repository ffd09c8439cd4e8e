import FleetMap.Proofs.Hub.Change

/-!
Laws of the hub. A law says what holds of every world that a script can meet, how a world may differ
from an earlier one, and whether acts may stop in a way that can break off fan-outs. An operation
obeys a law if the changes it makes by itself do and every script it fires does. Two ways of firing
scripts that agree wherever the law holds cannot be told apart by a law-abiding operation: it fires
scripts nowhere else.
-/

set_option autoImplicit false

namespace FleetMap

theorem Stop.breaks_of_text {stop asking : Stop} (wordless : stop.text = .error asking) :
    stop.breaks = true := by
  cases stop with
  | failed f => exact nomatch wordless
  | mute _ | cancelled => rfl

/-- An error that cannot be noted has no text, or the listener has no name. -/
theorem Complaint.breaks_of_word {complaint : Complaint} {who : Listener} {stop asking : Stop}
    (wordless : complaint.word who stop = .error asking) (broken : asking.breaks = true) :
    stop.breaks = true := by
  unfold word at wordless
  cases named : complaint who with
  | error f =>
    rw [named] at wordless
    obtain rfl := Except.error.inj wordless
    exact nomatch broken
  | ok note =>
    rw [named] at wordless
    cases stop with
    | failed f => exact nomatch wordless
    | mute _ | cancelled => rfl

theorem Complaint.word_failed {complaint : Complaint} {who : Listener} {note : String → Note}
    (named : complaint who = .ok note) (f : Failure) :
    complaint.word who (.failed f) = .ok (note f.message) := by
  unfold word
  rw [named]
  rfl

namespace Act

/-- Like an act, except that it returns where that one breaks off. -/
def unbreaking (x : Act Unit) : Act Unit := fun w =>
  match x.run w with
  | .ok _ v => .ok () v
  | .error stop v => if stop.breaks then .ok () v else .error stop v

theorem run_unbreaking (x : Act Unit) (w : World) :
    (unbreaking x).run w =
      match x.run w with
      | .ok _ v => .ok () v
      | .error stop v => if stop.breaks then .ok () v else .error stop v := rfl

theorem run_unbreaking_cases (x : Act Unit) (w : World) :
    (∃ v, (unbreaking x).run w = .ok () v) ∨
      ∃ f v, (unbreaking x).run w = .error (.failed f) v := by
  rw [run_unbreaking]
  split
  · exact .inl ⟨_, rfl⟩
  · rename_i stop v _
    cases stop with
    | failed f => exact .inr ⟨f, v, rfl⟩
    | mute _ | cancelled => exact .inl ⟨v, rfl⟩

end Act

/-- Failures are noted as long as the listeners have names. -/
theorem serve_unbreaking_returns (number : Nat) {listeners : List Listener} (signal : Signal)
    (call : Listener → Act Unit) {complaint : Complaint}
    (named : ∀ who ∈ listeners, ∃ note, complaint who = .ok note) (w : World) :
    ∃ count v, (serve number signal (fun who => (call who).unbreaking) complaint listeners).run w =
      .ok count v := by
  induction listeners generalizing w with
  | nil => exact ⟨0, w, rfl⟩
  | cons who rest ih =>
    obtain ⟨⟨note, known⟩, later⟩ := List.forall_mem_cons.mp named
    simp only [serve, EStateM.run_bind, Act.run_enter, Act.run_attempt]
    rcases (call who).run_unbreaking_cases (w.enter (.called number who signal)) with
      ⟨v, returned⟩ | ⟨f, v, failed⟩
    · obtain ⟨count, u, others⟩ := ih later (v.enter (.settled number who true))
      simp only [returned, EStateM.run_bind, Act.run_enter, others]
      exact ⟨count + 1, u, rfl⟩
    · obtain ⟨count, u, others⟩ := ih later
        ((v.enter (.noted (note f.message))).enter (.settled number who false))
      simp only [failed, EStateM.run_bind, complaint.word_failed known, Act.run_orStop_ok,
        Act.run_enter, others]
      exact ⟨count, u, rfl⟩

theorem fanOut_unbreaking_returns (listeners : List Listener) (signal : Signal)
    (call : Listener → Act Unit) {complaint : Complaint}
    (named : ∀ who ∈ listeners, ∃ note, complaint who = .ok note) (w : World) :
    ∃ count v, (fanOut listeners signal (fun who => (call who).unbreaking) complaint).run w =
      .ok count v :=
  serve_unbreaking_returns w.fanOuts signal call named { w with fanOuts := w.fanOuts + 1 }

structure Law where
  /-- What holds of a world whenever a script is called. -/
  holds : World → Prop
  /-- How a world may differ from an earlier one. -/
  moves : World → World → Prop
  /-- Whether an act may be cancelled or raise an error without text. -/
  breaks : Prop
  refl : ∀ w, moves w w
  trans : ∀ {u v w}, moves u v → moves v w → moves u w

namespace Law

open Act

def also (L : Law) (P : World → Prop) : Law where
  holds w := L.holds w ∧ P w
  moves := L.moves
  breaks := L.breaks
  refl := L.refl
  trans := L.trans

variable {α β : Type} {L : Law}

/-- What a law says of the outcome of an act that starts in a world. -/
def Admits (L : Law) (w : World) : EStateM.Result Stop World α → Prop
  | .ok _ v => L.holds v ∧ L.moves w v
  | .error stop v => L.holds v ∧ L.moves w v ∧ (stop.breaks = true → L.breaks)

/-- Wherever the law holds, both acts do the same, and what they do obeys the law. -/
def Agree (L : Law) (x y : Act α) : Prop :=
  ∀ w, L.holds w → y.run w = x.run w ∧ L.Admits w (x.run w)

theorem Admits.ended {w : World} {ends : EStateM.Result Stop World α} (admits : L.Admits w ends) :
    L.holds (leaves ends) ∧ L.moves w (leaves ends) := by
  cases ends with
  | ok a v => exact admits
  | error stop v => exact ⟨admits.1, admits.2.1⟩

theorem Admits.after {w : World} {x : Act α} (ends : L.Admits w (x.run w)) :
    L.holds (x.after w) ∧ L.moves w (x.after w) := ends.ended

theorem Admits.trans {u v : World} (first : L.moves u v) {r : EStateM.Result Stop World α}
    (then_ : L.Admits v r) : L.Admits u r := by
  cases r with
  | ok a w => exact ⟨then_.1, L.trans first then_.2⟩
  | error stop w => exact ⟨then_.1, L.trans first then_.2.1, then_.2.2⟩

theorem Admits.error {w v : World} {stop : Stop}
    (ends : L.Admits w (.error stop v : EStateM.Result Stop World α)) :
    L.Admits w (.error stop v : EStateM.Result Stop World β) := ends

theorem Admits.map {u v : World} {x : Act α} (f : α → β) (ends : L.Admits u (x.run v)) :
    L.Admits u ((f <$> x).run v) := by
  rw [run_map]
  cases run : x.run v with
  | ok a v =>
    rw [run] at ends
    exact ends
  | error stop v =>
    rw [run] at ends
    exact ends.error

/-- What obeys one law obeys another that asks no more of the world that is left. -/
theorem Admits.mono {M : Law} {u w : World} {ends : EStateM.Result Stop World α}
    (admits : L.Admits u ends) (holds : L.holds (leaves ends) → M.holds (leaves ends))
    (moves : L.moves u (leaves ends) → M.moves w (leaves ends)) (breaks : L.breaks → M.breaks) :
    M.Admits w ends := by
  cases ends with
  | ok a v => exact ⟨holds admits.1, moves admits.2⟩
  | error stop v =>
    exact ⟨holds admits.1, moves admits.2.1, fun broken => breaks (admits.2.2 broken)⟩

theorem agree_pure (a : α) : L.Agree (pure a) (pure a) :=
  fun w holds => ⟨rfl, holds, L.refl w⟩

theorem agree_fail (f : Failure) : L.Agree (fail f : Act α) (fail f) :=
  fun w holds => ⟨rfl, holds, L.refl w, fun broken => nomatch broken⟩

/-- Where a law holds everywhere and lets acts break off, all it says is how worlds may differ. -/
theorem agree_of_moves {x : Act α} (holds : ∀ w, L.holds w) (breaks : L.breaks)
    (moves : ∀ w, L.moves w (x.after w)) : L.Agree x x := by
  intro w _
  refine ⟨rfl, ?_⟩
  have moves_w := moves w
  unfold Act.after at moves_w
  cases run : x.run w with
  | ok a v =>
    rw [run] at moves_w
    exact ⟨holds v, moves_w⟩
  | error stop v =>
    rw [run] at moves_w
    exact ⟨holds v, moves_w, fun _ => breaks⟩

theorem Agree.left {x y : Act α} (agree : L.Agree x y) : L.Agree x x :=
  fun w holds => ⟨rfl, (agree w holds).2⟩

/-- The second act may rely on what the first one returns. -/
theorem agree_bind_of_run {x y : Act α} {f g : α → Act β} (first : L.Agree x y)
    (next : ∀ a u v, L.holds u → x.run u = .ok a v → L.Agree (f a) (g a)) :
    L.Agree (x >>= f) (y >>= g) := by
  intro w holds
  obtain ⟨same, ends⟩ := first w holds
  simp only [EStateM.run_bind, same]
  cases run : x.run w with
  | ok a v =>
    rw [run] at ends
    obtain ⟨same_next, ends_next⟩ := next a w v holds run v ends.1
    exact ⟨same_next, ends_next.trans ends.2⟩
  | error stop v =>
    rw [run] at ends
    exact ⟨rfl, ends.error⟩

theorem agree_bind {x y : Act α} {f g : α → Act β} (first : L.Agree x y)
    (next : ∀ a, L.Agree (f a) (g a)) : L.Agree (x >>= f) (y >>= g) :=
  agree_bind_of_run first fun a _ _ _ _ => next a

theorem agree_map {x y : Act α} (f : α → β) (agree : L.Agree x y) :
    L.Agree (f <$> x) (f <$> y) := by
  intro w holds
  obtain ⟨same, ends⟩ := agree w holds
  refine ⟨?_, ends.map f⟩
  rw [run_map, run_map, same]

theorem agree_discard {x y : Act α} (agree : L.Agree x y) : L.Agree (discard x) (discard y) :=
  agree_map _ agree

/-- What is read is the world itself, in which the law holds. -/
theorem agree_get_bind {f g : World → Act β} (next : ∀ w, L.holds w → L.Agree (f w) (g w)) :
    L.Agree (get >>= f) (get >>= g) :=
  fun w holds => next w holds w holds

theorem agree_view?_bind {number : Nat} {f g : Option View → Act β}
    (next : ∀ v, L.Agree (f v) (g v)) : L.Agree (view? number >>= f) (view? number >>= g) :=
  fun w holds => next w.views[number]? w holds

/-- What is read is a player of a world in which the law holds, or nothing. -/
theorem agree_player?_bind {number : Nat} {f g : Option Player → Act β}
    (next : ∀ w, L.holds w → L.Agree (f w.players[number]?) (g w.players[number]?)) :
    L.Agree (player? number >>= f) (player? number >>= g) :=
  fun w holds => next w holds w holds

/-- What follows an attempt may rely on it that an error was raised in a lawful way. -/
theorem agree_attempt_bind {x y : Act α} {f g : Except Stop α → Act β} (agree : L.Agree x y)
    (returned : ∀ a, L.Agree (f (.ok a)) (g (.ok a)))
    (raised : ∀ stop, (stop.breaks = true → L.breaks) →
      L.Agree (f (.error stop)) (g (.error stop))) :
    L.Agree (attempt x >>= f) (attempt y >>= g) := by
  intro w holds
  obtain ⟨same, ends⟩ := agree w holds
  simp only [EStateM.run_bind, run_attempt, same]
  cases run : x.run w with
  | ok a v =>
    rw [run] at ends
    obtain ⟨same_next, ends_next⟩ := returned a v ends.1
    exact ⟨same_next, ends_next.trans ends.2⟩
  | error stop v =>
    rw [run] at ends
    obtain ⟨holds_v, moves, may⟩ := ends
    cases stop with
    | cancelled => exact ⟨rfl, holds_v, moves, may⟩
    | failed _ | mute _ =>
      obtain ⟨same_next, ends_next⟩ := raised _ may v holds_v
      exact ⟨same_next, ends_next.trans moves⟩

/-- Where a lawful error is asked for its text, what stops the act is lawful, too. -/
theorem agree_orStop {found : Except Stop α}
    (may : ∀ stop, found = .error stop → stop.breaks = true → L.breaks) :
    L.Agree (orStop found) (orStop found) := by
  cases found with
  | ok a => exact agree_pure a
  | error stop => exact fun w holds => ⟨rfl, holds, L.refl w, may stop rfl⟩

theorem agree_accept (checked : Except Rejection α) :
    L.Agree (accept checked) (accept checked) := by
  cases checked with
  | ok a => exact agree_pure a
  | error r => exact agree_fail _

theorem agree_viewNamed (id : String) : L.Agree (viewNamed id) (viewNamed id) := by
  apply agree_get_bind
  intro _ _
  split
  · exact agree_pure _
  · exact agree_fail _

theorem agree_playerInUse (request : String) :
    L.Agree (playerInUse request) (playerInUse request) := by
  apply agree_get_bind
  intro w holds
  split
  · exact agree_fail _
  · exact agree_pure _

/-- A law permits changes if it holds of the world after them, too, and if fan-outs obey it
whenever their calls do. What a fan-out hands out may be told to views. -/
structure Permits (L : Law) (A : Change → Prop) : Prop where
  change : ∀ {w c}, A c → L.holds w → L.holds (c.apply w) ∧ L.moves w (c.apply w)
  fanOut : ∀ {listeners signal call other complaint},
    (∀ ds, signal = .notice ds → ∀ number, A (.tell number ds)) →
    (∀ who, L.Agree (call who) (other who)) →
      L.Agree (fanOut listeners signal call complaint) (fanOut listeners signal other complaint)

theorem Permits.make {A : Change → Prop} (permits : L.Permits A) {c : Change} (allowed : A c) :
    L.Agree (make c) (make c) :=
  fun _ holds => ⟨rfl, permits.change allowed holds⟩

/-- The changes that fan-outs make by themselves. -/
structure FansOut (A : Change → Prop) : Prop where
  note : ∀ n, A (.note n)
  begins : A .beginFanOut
  called : ∀ number who signal, (∀ ds, signal = .notice ds → ∀ view, A (.tell view ds)) →
    A (.call number who signal)
  settled : ∀ number who cleanly, A (.settle number who cleanly)

/-- Where the single steps of fan-outs are permitted as changes, so is a fan-out whose listeners
obey the law. -/
theorem agree_fanOut_of_listed {A : Change → Prop}
    (change : ∀ {w c}, A c → L.holds w → L.holds (c.apply w) ∧ L.moves w (c.apply w))
    (fansOut : FansOut A) {signal : Signal}
    (tells : ∀ ds, signal = .notice ds → ∀ view, A (.tell view ds))
    {listeners : List Listener} {call other : Listener → Act Unit}
    {complaint : Complaint}
    (agree : ∀ who ∈ listeners, L.Agree (call who) (other who)) :
    L.Agree (fanOut listeners signal call complaint)
      (fanOut listeners signal other complaint) := by
  have make : ∀ {c}, A c → L.Agree (make c) (make c) :=
    fun allowed w holds => ⟨rfl, change allowed holds⟩
  have served : ∀ n, L.Agree (serve n signal call complaint listeners)
      (serve n signal other complaint listeners) := by
    intro n
    induction listeners with
    | nil => exact agree_pure 0
    | cons who rest ih =>
      obtain ⟨first, later⟩ := List.forall_mem_cons.mp agree
      apply agree_bind (make (fansOut.called n who signal tells))
      intro _
      apply agree_attempt_bind first
      · intro _
        apply agree_bind (make (fansOut.settled n who true))
        intro _
        exact agree_bind (ih later) fun others => agree_pure (others + 1)
      · intro stop may
        apply agree_bind (agree_orStop fun _ wordless broken =>
          may (complaint.breaks_of_word wordless broken))
        intro note
        apply agree_bind (make (fansOut.note note))
        intro _
        exact agree_bind (make (fansOut.settled n who false)) fun _ => ih later
  intro w holds
  exact agree_bind (make fansOut.begins) (fun _ => served w.fanOuts) w holds

/-- Where nothing breaks off and all listeners have names, a fan-out goes on to its end. -/
theorem Permits.fanOut_returns {A : Change → Prop} (permits : L.Permits A) (unbroken : ¬ L.breaks)
    {listeners : List Listener} {signal : Signal} {call : Listener → Act Unit}
    {complaint : Complaint} (tells : ∀ ds, signal = .notice ds → ∀ view, A (.tell view ds))
    (agree : ∀ who, L.Agree (call who) (call who))
    (named : ∀ who ∈ listeners, ∃ note, complaint who = .ok note) {w : World}
    (holds : L.holds w) :
    ∃ count v, (FleetMap.fanOut listeners signal call complaint).run w = .ok count v ∧
      L.holds v ∧ L.moves w v := by
  -- Calls that break off cannot be told from calls that do not: there are none.
  have same_call : ∀ who, L.Agree (call who) (unbreaking (call who)) := by
    intro who v holds_v
    have ends := (agree who v holds_v).2
    refine ⟨?_, ends⟩
    rw [run_unbreaking]
    cases run : (call who).run v with
    | ok _ u => rfl
    | error stop u =>
      rw [run] at ends
      exact if_neg fun broken => unbroken (ends.2.2 broken)
  have agree_all : L.Agree (FleetMap.fanOut listeners signal call complaint)
      (FleetMap.fanOut listeners signal (fun who => unbreaking (call who)) complaint) :=
    permits.fanOut tells same_call
  obtain ⟨same, ends⟩ := agree_all w holds
  obtain ⟨count, v, returned⟩ := fanOut_unbreaking_returns listeners signal call named w
  rw [returned] at same
  rw [← same] at ends
  exact ⟨count, v, same.symm, ends⟩

/-- A law that holds of the world after every permitted change permits fan-outs, too. -/
theorem Permits.of_change {A : Change → Prop}
    (change : ∀ {w c}, A c → L.holds w → L.holds (c.apply w) ∧ L.moves w (c.apply w))
    (fansOut : FansOut A) : L.Permits A where
  change := change
  fanOut tells agree := agree_fanOut_of_listed change fansOut tells fun who _ => agree who

/-- A law that holds of the world after every change permits anything. -/
theorem Permits.of_always {A : Change → Prop}
    (change : ∀ {w} (c : Change), L.holds w → L.holds (c.apply w) ∧ L.moves w (c.apply w)) :
    L.Permits A := by
  have anything : L.Permits fun _ => True := .of_change (fun _ => change _)
    ⟨fun _ => trivial, trivial, fun _ _ _ _ => trivial, fun _ _ _ => trivial⟩
  exact ⟨fun _ => change _, fun _ => anything.fanOut fun _ _ _ => trivial⟩

end Law

end FleetMap
