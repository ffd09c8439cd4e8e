import FleetMap.Proofs.Hub.Obedience

/-!
One fan-out, call by call. Listeners may do what they like while they are called, and in particular
begin fan-outs of their own; the calls of one fan-out are still told apart, by its number in the
journal. So it can be told of each fan-out which calls it made itself: `Round.serve_accounts` counts
them, and `Round.Makes.wrote` finds them in the journal.
-/

set_option autoImplicit false

namespace FleetMap

open Act Hub

def Entry.fanOut? : Entry → Option Nat
  | .called number _ _ | .settled number _ _ => some number
  | _ => none

/-- One fan-out: its number, what listeners are called with, how they are called and how an error
is worded. -/
structure Round where
  number : Nat
  signal : Signal
  call : Listener → Act Unit
  complaint : Complaint

/-- A call made by a fan-out: who is called, and the world at that moment. -/
structure Call where
  who : Listener
  start : World

namespace Round

variable (r : Round)

def result (c : Call) : EStateM.Result Stop World Unit := (r.call c.who).run c.start

def clean (c : Call) : Bool :=
  match r.result c with
  | .ok _ _ => true
  | .error _ _ => false

/-- What the fan-out stops with after a call: the call was cancelled, or its error cannot be noted
because it has no text or the listener has no name. -/
def breaksOff (c : Call) : Option Stop :=
  match r.result c with
  | .ok _ _ => none
  | .error .cancelled _ => some .cancelled
  | .error stop _ =>
    match r.complaint.word c.who stop with
    | .ok _ => none
    | .error asking => some asking

/-- The world that is left after a call, in which the fan-out goes on unless it stops. -/
def left (c : Call) : World :=
  match r.result c with
  | .ok _ v => v.enter (.settled r.number c.who true)
  | .error .cancelled v => v
  | .error stop v =>
    match r.complaint.word c.who stop with
    | .ok note => (v.enter (.noted note)).enter (.settled r.number c.who false)
    | .error _ => v

/-- What a call leaves in the journal under the number of its fan-out, the oldest entry first. -/
def entries (c : Call) : List Entry :=
  .called r.number c.who r.signal ::
    if (r.breaksOff c).isSome then [] else [.settled r.number c.who (r.clean c)]

/-- The fan-out makes calls one after another, nothing else happens in between. -/
inductive Makes : World → List Call → World → Prop where
  | none (w : World) : Makes w [] w
  | next {w v : World} {c : Call} {rest : List Call}
      (starts : c.start = w.enter (.called r.number c.who r.signal))
      (others : Makes (r.left c) rest v) : Makes w (c :: rest) v

/-- What the result of a fan-out says of its calls. It ends early in one way only: a call broke it
off, and that was the last one. -/
def Accounts (listeners : List Listener) (calls : List Call) :
    EStateM.Result Stop World Nat → Prop
  | .ok count _ =>
    calls.map (·.who) = listeners ∧ (∀ c ∈ calls, r.breaksOff c = none) ∧
      count = calls.countP r.clean
  | .error stop _ =>
    ∃ earlier last, calls = earlier ++ [last] ∧ r.breaksOff last = some stop ∧
      (∀ c ∈ earlier, r.breaksOff c = none) ∧ calls.map (·.who) <+: listeners

end Round

namespace Round

variable (r : Round)

abbrev serve : List Listener → Act Nat := FleetMap.serve r.number r.signal r.call r.complaint

def firstCall (w : World) (who : Listener) : Call := ⟨who, w.enter (.called r.number who r.signal)⟩

variable {w : World} {who : Listener} {rest : List Listener}

/-- A clean call counts, a failed one does not, and both let the fan-out go on. -/
theorem run_serve_cons (goes_on : r.breaksOff (r.firstCall w who) = none) :
    (r.serve (who :: rest)).run w =
      ((· + if r.clean (r.firstCall w who) then 1 else 0) <$> r.serve rest).run
        (r.left (r.firstCall w who)) := by
  have run_call : (r.call who).run (w.enter (.called r.number who r.signal)) =
      r.result (r.firstCall w who) := rfl
  simp only [serve, FleetMap.serve, EStateM.run_bind, run_enter, run_attempt, run_call, run_map]
  unfold breaksOff at goes_on
  unfold clean left
  cases result : r.result (r.firstCall w who) with
  | ok _ v =>
    simp only [EStateM.run_bind, run_enter, EStateM.run_pure, if_true, firstCall]
    cases (FleetMap.serve r.number r.signal r.call r.complaint rest).run
      (v.enter (.settled r.number who true)) with
    | ok count u => rfl
    | error stop u => rfl
  | error stop v =>
    rw [result] at goes_on
    cases stop with
    | cancelled => cases goes_on
    | failed _ | mute _ =>
      simp only [firstCall] at goes_on
      cases worded : r.complaint.word who _ with
      | error asking =>
        rw [worded] at goes_on
        cases goes_on
      | ok note =>
        simp only [EStateM.run_bind, run_orStop_ok, run_enter, Nat.add_zero, Bool.false_eq_true,
          if_false, firstCall, worded]
        cases (FleetMap.serve r.number r.signal r.call r.complaint rest).run
          ((v.enter (.noted note)).enter (.settled r.number who false)) with
        | ok count u => rfl
        | error stop u => rfl

theorem run_serve_cons_of_breaksOff {stop : Stop}
    (ends : r.breaksOff (r.firstCall w who) = some stop) :
    (r.serve (who :: rest)).run w = .error stop (r.left (r.firstCall w who)) := by
  have run_call : (r.call who).run (w.enter (.called r.number who r.signal)) =
      r.result (r.firstCall w who) := rfl
  simp only [serve, FleetMap.serve, EStateM.run_bind, run_enter, run_attempt, run_call]
  unfold breaksOff at ends
  unfold left
  cases result : r.result (r.firstCall w who) with
  | ok _ v =>
    rw [result] at ends
    cases ends
  | error raised v =>
    rw [result] at ends
    cases raised with
    | cancelled =>
      obtain rfl := Option.some.inj ends
      rfl
    | failed _ | mute _ =>
      simp only [firstCall] at ends
      cases worded : r.complaint.word who _ with
      | ok note =>
        rw [worded] at ends
        cases ends
      | error asking =>
        rw [worded] at ends
        obtain rfl := Option.some.inj ends
        simp only [EStateM.run_bind, run_orStop_error, firstCall, worded]

theorem Accounts.cons_ok {calls : List Call} {c : Call} (goes_on : r.breaksOff c = none)
    {count : Nat} {v : World} (accounts : r.Accounts rest calls (.ok count v)) :
    r.Accounts (c.who :: rest) (c :: calls) (.ok (count + if r.clean c then 1 else 0) v) := by
  obtain ⟨everyone, unbroken, counted⟩ := accounts
  refine ⟨by simp [everyone], ?_, ?_⟩
  · intro d member
    rcases List.mem_cons.mp member with rfl | member
    · exact goes_on
    · exact unbroken d member
  · rw [List.countP_cons, counted]

theorem Accounts.cons_error {calls : List Call} {c : Call} (goes_on : r.breaksOff c = none)
    {stop : Stop} {v : World} (accounts : r.Accounts rest calls (.error stop v)) :
    r.Accounts (c.who :: rest) (c :: calls) (.error stop v) := by
  obtain ⟨earlier, last, rfl, ends, unbroken, in_order⟩ := accounts
  refine ⟨c :: earlier, last, rfl, ends, ?_, ?_⟩
  · intro d member
    rcases List.mem_cons.mp member with rfl | member
    · exact goes_on
    · exact unbroken d member
  · exact (List.prefix_cons_inj c.who).mpr in_order

theorem serve_accounts (listeners : List Listener) (w : World) :
    ∃ calls, r.Makes w calls ((r.serve listeners).after w) ∧
      r.Accounts listeners calls ((r.serve listeners).run w) := by
  induction listeners generalizing w with
  | nil => exact ⟨[], .none w, rfl, by simp, rfl⟩
  | cons who rest ih =>
    unfold after
    cases ends : r.breaksOff (r.firstCall w who) with
    | some stop =>
      rw [run_serve_cons_of_breaksOff r ends]
      refine ⟨[r.firstCall w who], .next rfl (.none _), [], r.firstCall w who, rfl, ends, ?_⟩
      exact ⟨by simp, ⟨rest, rfl⟩⟩
    | none =>
      obtain ⟨calls, makes, accounts⟩ := ih (r.left (r.firstCall w who))
      rw [run_serve_cons r ends]
      refine ⟨r.firstCall w who :: calls, .next rfl ?_, ?_⟩
      · change r.Makes _ calls (Act.after _ _)
        rw [after_map]
        exact makes
      · rw [run_map]
        cases run : (r.serve rest).run (r.left (r.firstCall w who)) with
        | ok count v =>
          rw [run] at accounts
          exact Accounts.cons_ok r ends accounts
        | error stop v =>
          rw [run] at accounts
          exact Accounts.cons_error r ends accounts

end Round

/-- A later world: the journal only grew, and none of the new entries tells of a fan-out that had
begun before. -/
def World.LeadsTo (w v : World) : Prop :=
  ∃ added, v.journal = added ++ w.journal ∧ w.fanOuts ≤ v.fanOuts ∧
    ∀ e ∈ added, ∀ n, e.fanOut? = some n → w.fanOuts ≤ n

/-- Scripts write nothing under the numbers of fan-outs that are under way. -/
def Fire.KeepsBooks (fire : Fire) : Prop :=
  ∀ name signal (w : World), w.LeadsTo ((fire name signal).after w)

theorem World.LeadsTo.refl (w : World) : w.LeadsTo w :=
  ⟨[], rfl, Nat.le_refl _, by simp⟩

theorem World.LeadsTo.trans {u v w : World} (first : u.LeadsTo v) (second : v.LeadsTo w) :
    u.LeadsTo w := by
  obtain ⟨added, journal, later, fresh⟩ := first
  obtain ⟨more, journal', later', fresh'⟩ := second
  refine ⟨more ++ added, by rw [journal', journal, List.append_assoc], by omega, ?_⟩
  intro e member n belongs
  rcases List.mem_append.mp member with member | member
  · have := fresh' e member n belongs
    omega
  · exact fresh e member n belongs

namespace Round

variable (r : Round)

/-- The entries of a fan-out in a piece of the journal, the oldest first. -/
def own (journal : List Entry) : List Entry :=
  (journal.filter fun e => e.fanOut? = some r.number).reverse

theorem own_append (newer older : List Entry) :
    r.own (newer ++ older) = r.own older ++ r.own newer := by
  simp [own]

/-- From one world to a later one the fan-out itself wrote the given entries, the oldest first; all
other fan-outs that are mentioned meanwhile began meanwhile. -/
def Wrote (w v : World) (entries : List Entry) : Prop :=
  ∃ added, v.journal = added ++ w.journal ∧ w.fanOuts ≤ v.fanOuts ∧
    (∀ e ∈ added, ∀ n, e.fanOut? = some n → n = r.number ∨ w.fanOuts ≤ n) ∧
      r.own added = entries

theorem Wrote.refl (w : World) : r.Wrote w w [] :=
  ⟨[], rfl, Nat.le_refl _, by simp, rfl⟩

variable {r}

theorem Wrote.trans {u v w : World} {earlier later : List Entry} (first : r.Wrote u v earlier)
    (second : r.Wrote v w later) : r.Wrote u w (earlier ++ later) := by
  obtain ⟨added, journal, grown, fresh, rfl⟩ := first
  obtain ⟨more, journal', grown', fresh', rfl⟩ := second
  refine ⟨more ++ added, by rw [journal', journal, List.append_assoc], by omega, ?_,
    r.own_append more added⟩
  intro e member n belongs
  rcases List.mem_append.mp member with member | member
  · rcases fresh' e member n belongs with same | begun
    · exact .inl same
    · exact .inr (by omega)
  · exact fresh e member n belongs

/-- While later fan-outs are under way this one writes nothing. -/
theorem wrote_of_leadsTo {w v : World} (begun : r.number < w.fanOuts) (leads : w.LeadsTo v) :
    r.Wrote w v [] := by
  obtain ⟨added, journal, grown, fresh⟩ := leads
  refine ⟨added, journal, grown, fun e member n belongs => .inr (fresh e member n belongs), ?_⟩
  unfold own
  rw [List.filter_eq_nil_iff.mpr, List.reverse_nil]
  intro e member belongs
  have := fresh e member r.number (of_decide_eq_true belongs)
  omega

theorem wrote_own {e : Entry} (belongs : e.fanOut? = some r.number) (w : World) :
    r.Wrote w (w.enter e) [e] := by
  refine ⟨[e], rfl, Nat.le_refl _, ?_, by simp [own, belongs]⟩
  intro d member n told
  rw [List.mem_singleton.mp member, belongs] at told
  exact .inl (Option.some.inj told).symm

theorem wrote_note (n : Note) (w : World) : r.Wrote w (w.enter (.noted n)) [] := by
  refine ⟨[.noted n], rfl, Nat.le_refl _, ?_, rfl⟩
  intro e member m told
  rw [List.mem_singleton.mp member] at told
  exact nomatch told

/-- The calls of a round keep the books. -/
def KeepsBooks (r : Round) : Prop := ∀ who (w : World), w.LeadsTo ((r.call who).after w)

theorem wrote_left (books : r.KeepsBooks) {c : Call} (begun : r.number < c.start.fanOuts) :
    r.Wrote c.start (r.left c)
      (if (r.breaksOff c).isSome then [] else [.settled r.number c.who (r.clean c)]) := by
  have called := wrote_of_leadsTo begun (books c.who c.start)
  unfold after at called
  unfold left breaksOff clean result
  cases run : (r.call c.who).run c.start with
  | ok _ v =>
    rw [run] at called
    exact called.trans (wrote_own rfl v)
  | error stop v =>
    rw [run] at called
    cases stop with
    | cancelled => exact called
    | failed _ | mute _ =>
      simp only
      cases r.complaint.word c.who _ with
      | error asking => exact called
      | ok note => exact (called.trans (wrote_note note v)).trans (wrote_own rfl _)

theorem Makes.wrote (books : r.KeepsBooks) {w v : World} {calls : List Call}
    (makes : r.Makes w calls v) (begun : r.number < w.fanOuts) :
    r.Wrote w v (calls.flatMap r.entries) := by
  -- a call is made under way, so every fan-out that it begins has a later number
  induction makes with
  | none w => exact Wrote.refl r w
  | @next w v c rest starts others ih =>
    have called : r.Wrote w c.start [.called r.number c.who r.signal] := by
      rw [starts]
      exact wrote_own rfl w
    have begun_start : r.number < c.start.fanOuts := by
      rw [starts]
      exact begun
    have first := called.trans (wrote_left books begun_start)
    have begun_left : r.number < (r.left c).fanOuts := by
      obtain ⟨_, _, grown, _⟩ := first
      omega
    rw [List.flatMap_cons]
    exact first.trans (ih begun_left)

end Round

/-- A round describes a fan-out to listeners that begins in a world and ends in a given way. -/
structure Round.Describes (r : Round) (listeners : List Listener) (w : World)
    (ends : EStateM.Result Stop World Nat) (calls : List Call) : Prop where
  number : r.number = w.fanOuts
  makes : r.Makes { w with fanOuts := w.fanOuts + 1 } calls (leaves ends)
  accounts : r.Accounts listeners calls ends

/-- What the journal tells of a fan-out tells of its calls, one after another. -/
theorem Round.Describes.wrote {r : Round} {listeners : List Listener} {w : World}
    {ends : EStateM.Result Stop World Nat} {calls : List Call}
    (describes : r.Describes listeners w ends calls) (books : r.KeepsBooks) :
    r.Wrote w (leaves ends) (calls.flatMap r.entries) := by
  obtain ⟨number, makes, _⟩ := describes
  have begun : r.number < w.fanOuts + 1 := by omega
  obtain ⟨added, journal, grown, fresh, own⟩ := makes.wrote books begun
  refine ⟨added, journal, Nat.le_of_succ_le grown, ?_, own⟩
  intro e member n belongs
  rcases fresh e member n belongs with same | later
  · exact .inl same
  · exact .inr (Nat.le_of_succ_le later)

theorem fanOut_describes (listeners : List Listener) (signal : Signal)
    (call : Listener → Act Unit) (complaint : Complaint) (w : World) :
    ∃ calls, Round.Describes ⟨w.fanOuts, signal, call, complaint⟩ listeners w
      ((fanOut listeners signal call complaint).run w) calls := by
  obtain ⟨calls, makes, accounts⟩ := Round.serve_accounts ⟨w.fanOuts, signal, call, complaint⟩
    listeners { w with fanOuts := w.fanOuts + 1 }
  exact ⟨calls, rfl, makes, accounts⟩

theorem fanOut_leadsTo {listeners : List Listener} {signal : Signal}
    {call : Listener → Act Unit} {complaint : Complaint}
    (books : ∀ who (w : World), w.LeadsTo ((call who).after w)) (w : World) :
    w.LeadsTo ((fanOut listeners signal call complaint).after w) := by
  obtain ⟨calls, describes⟩ := fanOut_describes listeners signal call complaint w
  obtain ⟨added, journal, grown, fresh, _⟩ := describes.wrote books
  refine ⟨added, journal, grown, ?_⟩
  intro e member n belongs
  rcases fresh e member n belongs with same | later
  · exact Nat.le_of_eq same.symm
  · exact later

theorem leadsTo_of_same {w v : World} (journal : v.journal = w.journal)
    (fanOuts : v.fanOuts = w.fanOuts) : w.LeadsTo v :=
  ⟨[], journal, Nat.le_of_eq fanOuts.symm, by simp⟩

theorem leadsTo_enter {e : Entry} (elsewhere : e.fanOut? = none) (w : World) :
    w.LeadsTo (w.enter e) := by
  refine ⟨[e], rfl, Nat.le_refl _, ?_⟩
  intro d member n belongs
  rw [List.mem_singleton.mp member, elsewhere] at belongs
  exact nomatch belongs

theorem fanOut?_drawing (v : View) (number : Nat) : (v.drawing number).fanOut? = none := by
  unfold View.drawing
  split
  · rfl
  · rfl

theorem leadsTo_drawn (w : World) (number : Nat) (v : View) : w.LeadsTo (w.drawn number v) := by
  have noted : ∀ (misfits : List Misfit) (w : World),
      w.LeadsTo (misfits.foldl (fun w m => w.enter (.noted m.note)) w) := by
    intro misfits
    induction misfits with
    | nil => exact World.LeadsTo.refl
    | cons m rest ih => exact fun w => (leadsTo_enter rfl w).trans (ih _)
  exact (noted _ w).trans (leadsTo_enter (fanOut?_drawing v number) _)

theorem leadsTo_asked (w : World) (number : Nat) : w.LeadsTo (w.asked number) := by
  unfold World.asked
  dsimp only
  split
  · split
    · exact (leadsTo_of_same rfl rfl).trans (leadsTo_drawn _ _ _)
    · exact leadsTo_of_same rfl rfl
  · exact leadsTo_of_same rfl rfl

theorem leadsTo_apply {c : Change} (ordinary : c.IsOrdinary) (w : World) :
    w.LeadsTo (c.apply w) := by
  cases c with
  | note n => exact leadsTo_enter rfl w
  | firing name signal => exact (leadsTo_enter rfl w).trans (leadsTo_of_same rfl rfl)
  | store ds => exact (leadsTo_of_same rfl rfl).trans (leadsTo_enter rfl _)
  | activate number =>
    rcases Change.apply_activate w number with same | ⟨v, _, _, attached⟩
    · rw [same]
      exact World.LeadsTo.refl w
    · rw [attached]
      exact (leadsTo_of_same rfl rfl).trans (leadsTo_asked _ number)
  | deactivate number =>
    rcases Change.apply_deactivate w number with same | ⟨v, _, _, detached⟩
    · rw [same]
      exact World.LeadsTo.refl w
    · rw [detached]
      exact leadsTo_of_same rfl rfl
  | tell number ds =>
    rcases Change.apply_tell w number ds with same | ⟨_, told⟩
    · rw [same]
      exact World.LeadsTo.refl w
    · rw [told]
      exact (leadsTo_of_same rfl rfl).trans (leadsTo_asked _ number)
  | ask number => exact leadsTo_asked w number
  | cycle number | toggle number =>
    exact (leadsTo_of_same rfl rfl).trans (leadsTo_asked _ number)
  | restyle number settings | pose number stance =>
    exact (leadsTo_of_same rfl rfl).trans (leadsTo_enter rfl _)
  | beginFanOut | call | settle => exact ordinary.elim
  | openBus | register | remove | subscribe | unsubscribe | makeView | tellInbox | makePlayer
  | modifyPlayer | setLooping => exact leadsTo_of_same rfl rfl

/-- Whatever scripts do, the journal only grows, and numbers of fan-outs are not used again. -/
def bookkeeping : Law where
  holds _ := True
  moves := World.LeadsTo
  breaks := True
  refl := World.LeadsTo.refl
  trans := World.LeadsTo.trans

namespace Law

theorem bookkeeping_agree {α : Type} {x y : Act α} (same : y = x)
    (leads : ∀ w : World, w.LeadsTo (x.after w)) : bookkeeping.Agree x y := by
  rw [same]
  exact agree_of_moves (fun _ => trivial) trivial leads

theorem leadsTo_of_bookkeeping {α : Type} {x y : Act α} (agree : bookkeeping.Agree x y)
    (w : World) : w.LeadsTo (x.after w) :=
  (agree w trivial).2.after.2

theorem bookkeeping_permits : bookkeeping.Permits Change.IsOrdinary where
  change := fun ordinary _ => ⟨trivial, leadsTo_apply ordinary _⟩
  fanOut := by
    intro listeners signal call other complaint _ agree
    have same : other = call := by
      funext who
      exact Act.ext fun w => (agree who w trivial).1
    exact bookkeeping_agree (by rw [same])
      (fanOut_leadsTo fun who => leadsTo_of_bookkeeping (agree who))

theorem bookkeeping_binds : bookkeeping.Binds Change.IsOrdinary :=
  fun _ _ _ _ _ => ⟨fun c _ => Command.within_ordinary c, fun _ => trivial⟩

/-- Scripts keep the books, to whatever depth they call each other. -/
theorem fireAt_keepsBooks (depth : Nat) : (fireAt depth).KeepsBooks :=
  fun name signal => leadsTo_of_bookkeeping
    (agree_fireAt bookkeeping_permits routine_ordinary bookkeeping_binds depth name signal)

theorem deliver_keepsBooks {fire : Fire} (books : fire.KeepsBooks) (ds : List Device)
    (who : Listener) (w : World) : w.LeadsTo ((deliver fire ds who).after w) :=
  leadsTo_of_bookkeeping (agree_deliver bookkeeping_permits
    (fun name signal => bookkeeping_agree rfl (books name signal)) routine_ordinary.toAside ds
    (fun _ => trivial) who) w

theorem trigger_keepsBooks {fire : Fire} (books : fire.KeepsBooks) (who : Listener) (w : World) :
    w.LeadsTo ((trigger fire who).after w) :=
  leadsTo_of_bookkeeping (agree_trigger bookkeeping_permits
    (fun name signal => bookkeeping_agree rfl (books name signal)) routine_ordinary.toAside
    fun _ number _ => routine_ordinary.handles number) w

end Law

structure Law.Records (L : Law) (r : Round) : Prop where
  note : ∀ n w, L.holds w → L.holds (w.enter (.noted n)) ∧ L.moves w (w.enter (.noted n))
  settle : ∀ who cleanly w, L.holds w →
    L.holds (w.enter (.settled r.number who cleanly)) ∧
      L.moves w (w.enter (.settled r.number who cleanly))

namespace Law

variable {L : Law} {r : Round}

/-- Wherever a fan-out goes on after a lawful call, it does so lawfully. -/
theorem left_of_admits (records : L.Records r) {c : Call} {w : World}
    (ends : L.Admits w (r.result c)) :
    L.holds (r.left c) ∧ L.moves (leaves (r.result c)) (r.left c) := by
  unfold Round.left
  cases result : r.result c with
  | ok _ v =>
    rw [result] at ends
    exact records.settle c.who true v ends.1
  | error stop v =>
    rw [result] at ends
    have stays : L.holds v ∧ L.moves v v := ⟨ends.1, L.refl v⟩
    cases stop with
    | cancelled => exact stays
    | failed _ | mute _ =>
      simp only
      split
      · rename_i note _
        have noted := records.note note v ends.1
        have settled := records.settle c.who false _ noted.1
        exact ⟨settled.1, L.trans noted.2 settled.2⟩
      · exact stays

/-- What breaks off a fan-out is lawful, or a listener without a name. -/
theorem breaks_of_breaksOff {c : Call} {w : World} (ends : L.Admits w (r.result c)) {stop : Stop}
    (broken : r.breaksOff c = some stop) :
    L.breaks ∨ ∃ f, r.complaint c.who = .error f ∧ stop = .failed f := by
  unfold Round.breaksOff at broken
  cases result : r.result c with
  | ok _ v =>
    rw [result] at broken
    exact nomatch broken
  | error raised v =>
    rw [result] at broken ends
    cases raised with
    | mute _ | cancelled => exact .inl (ends.2.2 rfl)
    | failed f =>
      simp only at broken
      cases named : r.complaint c.who with
      | ok note =>
        rw [Complaint.word_failed named f] at broken
        exact nomatch broken
      | error g =>
        have worded : r.complaint.word c.who (.failed f) = .error (.failed g) := by
          unfold Complaint.word
          rw [named]
          rfl
        rw [worded] at broken
        exact .inr ⟨g, rfl, (Option.some.inj broken).symm⟩

section Reaching

variable (P : Listener → World → Prop) (records : L.Records r)
  (kept : ∀ {who w v}, L.moves w v → P who w → P who v) {listeners : List Listener}
  (reaches : ∀ who ∈ listeners, ∀ w, L.holds w →
    L.Admits w (r.result (r.firstCall w who)) ∧ P who (leaves (r.result (r.firstCall w who))))
  {w : World} (holds : L.holds w)

include records kept reaches holds

/-- A fan-out of lawful calls is lawful. If it returns, what a call brings about for the one who is
called, and nothing lawful takes back, holds for everyone who was listed; if it does not, that is
because acts may break off or because somebody has no name. -/
theorem serve_ends :
    L.Admits w ((r.serve listeners).run w) ∧
      match (r.serve listeners).run w with
      | .ok _ v => ∀ who ∈ listeners, P who v
      | .error _ _ => L.breaks ∨ ∃ who ∈ listeners, ∃ f, r.complaint who = .error f := by
  -- `P` is brought about by the call of the listener itself and kept by all that comes after, so
  -- the world in which the others are called is arbitrary
  induction listeners generalizing w with
  | nil => exact ⟨⟨holds, L.refl w⟩, nofun⟩
  | cons who rest ih =>
    let c := r.firstCall w who
    obtain ⟨ends, reached⟩ := reaches who List.mem_cons_self w holds
    obtain ⟨holds_left, settled⟩ := left_of_admits records ends
    have moves_left : L.moves w (r.left c) := L.trans ends.ended.2 settled
    cases goes_on : r.breaksOff c with
    | some stop =>
      rw [r.run_serve_cons_of_breaksOff goes_on]
      rcases breaks_of_breaksOff ends goes_on with breaks | ⟨f, nameless, rfl⟩
      · exact ⟨⟨holds_left, moves_left, fun _ => breaks⟩, .inl breaks⟩
      · exact ⟨⟨holds_left, moves_left, fun broken => nomatch broken⟩,
          .inr ⟨who, List.mem_cons_self, f, nameless⟩⟩
    | none =>
      obtain ⟨admits, others⟩ :=
        ih (fun other member => reaches other (List.mem_cons_of_mem who member)) holds_left
      rw [r.run_serve_cons goes_on]
      refine ⟨(Admits.map _ admits).trans moves_left, ?_⟩
      rw [run_map]
      cases run : (r.serve rest).run (r.left c) with
      | ok count v =>
        rw [run] at admits others
        intro other member
        rcases List.mem_cons.mp member with rfl | later
        · exact kept admits.2 (kept settled reached)
        · exact others other later
      | error stop v =>
        rw [run] at others
        exact others.imp_right fun ⟨other, later, nameless⟩ =>
          ⟨other, List.mem_cons_of_mem who later, nameless⟩

theorem serve_reaches_of_ok {count : Nat} {v : World}
    (returned : (r.serve listeners).run w = .ok count v) :
    L.holds v ∧ L.moves w v ∧ ∀ who ∈ listeners, P who v := by
  obtain ⟨⟨holds_v, moves⟩, reached⟩ := returned ▸ serve_ends P records kept reaches holds
  exact ⟨holds_v, moves, reached⟩

/-- Where nothing breaks off and all listeners have names, everyone is reached. -/
theorem serve_reaches (unbroken : ¬ L.breaks)
    (named : ∀ who ∈ listeners, ∃ note, r.complaint who = .ok note) :
    L.Admits w ((r.serve listeners).run w) ∧
      ∀ who ∈ listeners, P who ((r.serve listeners).after w) := by
  obtain ⟨admits, reached⟩ := serve_ends P records kept reaches holds
  refine ⟨admits, ?_⟩
  unfold Act.after
  cases run : (r.serve listeners).run w with
  | ok count v =>
    rw [run] at reached
    exact reached
  | error stop v =>
    rw [run] at reached
    rcases reached with breaks | ⟨who, member, f, nameless⟩
    · exact absurd breaks unbroken
    · obtain ⟨note, known⟩ := named who member
      exact nomatch nameless.symm.trans known

end Reaching

end Law

/-- The round of one notification: all observers are handed the collection fixed at its start. -/
def noticeRound (fire : Fire) (w : World) (given : Option (List Device)) : Round :=
  let ds := given.getD w.registry.devices
  ⟨w.fanOuts, .notice ds, deliver fire ds, observerComplaint w⟩

def triggerRound (fire : Fire) (w : World) (topic : String) : Round :=
  ⟨w.fanOuts, .trigger, trigger fire, handlerComplaint topic⟩

theorem notify_describes (fire : Fire) (w : World) (given : Option (List Device)) :
    ∃ calls, (noticeRound fire w given).Describes w.registry.observers w ((notify fire given).run w)
      calls :=
  fanOut_describes _ _ _ _ w

theorem emit_describes (fire : Fire) (w : World) (bus topic : String) :
    ∃ calls, (triggerRound fire w topic).Describes ((w.bus bus).handlers topic)
      (w.setBus bus (w.bus bus)) ((emit fire bus topic).run w) calls := by
  have run : (emit fire bus topic).run w =
      (fanOut ((w.bus bus).handlers topic) .trigger (trigger fire)
        (handlerComplaint topic)).run (w.setBus bus (w.bus bus)) := by
    simp only [emit, EStateM.run_bind, run_openBus, EStateM.run_get, World.bus_setBus, if_true]
  rw [run]
  exact fanOut_describes ((w.bus bus).handlers topic) .trigger (trigger fire)
    (handlerComplaint topic) (w.setBus bus (w.bus bus))

theorem Round.Describes.listed {r : Round} {listeners : List Listener} {w : World}
    {ends : EStateM.Result Stop World Nat} {calls : List Call}
    (describes : r.Describes listeners w ends calls) {c : Call} (member : c ∈ calls) :
    c.who ∈ listeners := by
  have called : c.who ∈ calls.map (·.who) := List.mem_map_of_mem member
  have accounts := describes.accounts
  cases ends with
  | ok count v =>
    obtain ⟨everyone, _⟩ := accounts
    exact everyone ▸ called
  | error stop v =>
    obtain ⟨_, _, _, _, _, in_order⟩ := accounts
    exact in_order.subset called

/-- What holds whenever a call is made, if every call keeps it. -/
theorem Round.Makes.starts_hold {L : Law} {r : Round} (records : L.Records r)
    (calls_hold : ∀ who w, L.holds w → L.holds (w.enter (.called r.number who r.signal)))
    (kept : ∀ who w, L.holds w → L.Admits w ((r.call who).run w)) {w v : World}
    {calls : List Call} (makes : r.Makes w calls v) (holds : L.holds w) :
    ∀ c ∈ calls, L.holds c.start := by
  induction makes with
  | none w => exact nofun
  | @next w v c rest starts others ih =>
    have now : L.holds c.start := by
      rw [starts]
      exact calls_hold c.who w holds
    have left : L.holds (r.left c) := (Law.left_of_admits records (kept c.who c.start now)).1
    intro d member
    rcases List.mem_cons.mp member with rfl | later
    · exact now
    · exact ih left d later

/-- What holds where a fan-out begins holds whenever it calls someone, if what it does by itself is
permitted and its calls obey. -/
theorem Round.Describes.starts_hold {L : Law} {A : Change → Prop} {r : Round}
    {listeners : List Listener} {w : World} {ends : EStateM.Result Stop World Nat}
    {calls : List Call} (describes : r.Describes listeners w ends calls)
    (change : ∀ {w c}, A c → L.holds w → L.holds (c.apply w) ∧ L.moves w (c.apply w))
    (fansOut : Law.FansOut A) (tells : ∀ ds, r.signal = .notice ds → ∀ view, A (.tell view ds))
    (agree : ∀ who, L.Agree (r.call who) (r.call who)) (holds : L.holds w) :
    ∀ c ∈ calls, L.holds c.start := by
  have records : L.Records r :=
    ⟨fun _ _ holds => change (fansOut.note _) holds,
      fun _ _ _ holds => change (fansOut.settled _ _ _) holds⟩
  have called : ∀ who v, L.holds v → L.holds (v.enter (.called r.number who r.signal)) :=
    fun who v holds => (change (fansOut.called r.number who r.signal tells) holds).1
  exact describes.makes.starts_hold records called (fun who w holds => (agree who w holds).2)
    (change fansOut.begins holds).1

/-- Whatever scripts do while a fan-out is under way, it calls exactly the listeners that were
listed when it began, each once and in order, and counts those that ended without an exception. It
ends early only with a call that was cancelled or whose error cannot be put into words. With scripts
that keep the books, as all scripts of sessions do, the journal tells of these calls under the
number of the fan-out, and of no others. -/
theorem fanOut_calls_every_listener_once (fire : Fire) (w : World) :
    (∀ given, ∃ calls,
      (noticeRound fire w given).Describes w.registry.observers w ((notify fire given).run w)
          calls ∧
        (fire.KeepsBooks → (noticeRound fire w given).Wrote w ((notify fire given).after w)
          (calls.flatMap (noticeRound fire w given).entries))) ∧
    (∀ bus topic, ∃ calls,
      (triggerRound fire w topic).Describes ((w.bus bus).handlers topic) (w.setBus bus (w.bus bus))
          ((emit fire bus topic).run w) calls ∧
        (fire.KeepsBooks → (triggerRound fire w topic).Wrote w ((emit fire bus topic).after w)
          (calls.flatMap (triggerRound fire w topic).entries))) ∧
    ∀ depth, (fireAt depth).KeepsBooks := by
  refine ⟨?_, ?_, Law.fireAt_keepsBooks⟩
  · intro given
    obtain ⟨calls, describes⟩ := notify_describes fire w given
    exact ⟨calls, describes, fun books => describes.wrote (Law.deliver_keepsBooks books _)⟩
  · intro bus topic
    obtain ⟨calls, describes⟩ := emit_describes fire w bus topic
    exact ⟨calls, describes, fun books => describes.wrote (Law.trigger_keepsBooks books)⟩

/-- The first observer raises an ordinary error, but one without text: the fan-out ends with what
comes of asking for it, and the second observer is not called. -/
theorem error_without_text_starves_the_next :
    let scripts : List (String × Script) :=
      [("choke", ⟨false, 0, [], .raisesMute (.failed .deepValue), none⟩),
        ("log", ⟨false, 0, [], .returns, none⟩)]
    let w := { World.empty with
      scripts := scripts, registry := ⟨[], [.script "choke", .script "log"]⟩ }
    (∃ v, (carryOut (.notify none)).run w = .error (.failed .deepValue) v) ∧
      ((carryOut (.notify none)).after w).journal.reverse.filter (·.fanOut? = some 0) =
        [.called 0 (.script "choke") (.notice [])] :=
  ⟨⟨_, rfl⟩, by decide⟩

/-- The first observer removes the second and notifies again before it fails. The second was listed
when the outer fan-out began, which calls it all the same. -/
example :
    let scripts : List (String × Script) :=
      [("a", ⟨true, 1, [.remove (.named "b"), .notify none], .raises "boom", none⟩),
        ("b", ⟨false, 0, [], .returns, none⟩)]
    let w := { World.empty with scripts := scripts, registry := ⟨[], [.script "a", .script "b"]⟩ }
    ((carryOut (.notify none)).after w).journal.reverse.filter (·.fanOut? = some 0) =
      [.called 0 (.script "a") (.notice []), .settled 0 (.script "a") false,
        .called 0 (.script "b") (.notice []), .settled 0 (.script "b") true] := by
  decide

end FleetMap
