import Mathlib.Data.List.Induction
import Mathlib.Data.List.Nodup

set_option autoImplicit false

namespace FleetMap

namespace Roster

inductive Call (α : Type) where
  | join (a : α)
  | leave (a : α)
  deriving DecidableEq, Repr

def Call.who {α : Type} : Call α → α
  | .join a | .leave a => a

variable {α : Type} [DecidableEq α]

def enroll (l : List α) : Call α → List α
  | .join a => if a ∈ l then l else l ++ [a]
  | .leave a => l.erase a

def after (l : List α) (calls : List (Call α)) : List α := calls.foldl enroll l

/-- The last call about `a` is to join. -/
def IsListed (calls : List (Call α)) (a : α) : Prop :=
  calls.reverse.find? (·.who = a) = some (.join a)

instance (calls : List (Call α)) (a : α) : Decidable (IsListed calls a) := by
  unfold IsListed
  infer_instance

/-- The first call with which `a` joins since it was last absent: it was absent then, and has not
left since. -/
structure JoinedWith (calls : List (Call α)) (a : α) (i : Nat) : Prop where
  joins : calls[i]? = some (.join a)
  absent : ¬ IsListed (calls.take i) a
  stays : .leave a ∉ calls.drop i

/-- The list that calls make: those whose last call is to join, each once, in the order in which
they joined since they were last absent. -/
structure IsRoster (calls : List (Call α)) (l : List α) : Prop where
  distinct : l.Nodup
  listed : ∀ a, a ∈ l ↔ IsListed calls a
  joined : ∀ a ∈ l, ∃ i, JoinedWith calls a i
  inOrder : l.Pairwise fun a b => ∀ i j, JoinedWith calls a i → JoinedWith calls b j → i < j

section Steps

variable {calls : List (Call α)} {c : Call α} {a : α} {i : Nat}

theorem enroll_join (l : List α) (a : α) :
    enroll l (.join a) = if a ∈ l then l else l ++ [a] := rfl

theorem enroll_leave (l : List α) (a : α) : enroll l (.leave a) = l.erase a := rfl

theorem enroll_leave_of_absent {l : List α} {a : α} (absent : a ∉ l) :
    enroll l (.leave a) = l := List.erase_of_not_mem absent

theorem enroll_leave_cons (b a : α) (l : List α) :
    enroll (b :: l) (.leave a) = if b = a then l else b :: enroll l (.leave a) := by
  simp [enroll_leave, List.erase_cons]

theorem after_append_singleton (l : List α) (calls : List (Call α)) (c : Call α) :
    after l (calls ++ [c]) = enroll (after l calls) c := by
  simp [after]

theorem not_isListed_nil (a : α) : ¬ IsListed [] a := nofun

theorem isListed_append_of_who (about : c.who = a) :
    IsListed (calls ++ [c]) a ↔ c = .join a := by
  simp [IsListed, about]

theorem isListed_append_of_ne (other : c.who ≠ a) :
    IsListed (calls ++ [c]) a ↔ IsListed calls a := by
  simp [IsListed, other]

/-- A further call ends the stay of the one who leaves, and begins the stay of one who joins and was
absent. -/
theorem joinedWith_append :
    JoinedWith (calls ++ [c]) a i ↔
      JoinedWith calls a i ∧ c ≠ .leave a ∨
        i = calls.length ∧ c = .join a ∧ ¬ IsListed calls a := by
  rcases Nat.lt_trichotomy i calls.length with before | rfl | beyond
  · have take : (calls ++ [c]).take i = calls.take i :=
      List.take_append_of_le_length (by omega)
    have drop : (calls ++ [c]).drop i = calls.drop i ++ [c] :=
      List.drop_append_of_le_length (by omega)
    constructor
    · rintro ⟨joins, absent, stays⟩
      rw [List.getElem?_append_left before] at joins
      rw [take] at absent
      rw [drop, List.mem_append, List.mem_singleton, not_or] at stays
      exact .inl ⟨⟨joins, absent, stays.1⟩, Ne.symm stays.2⟩
    · rintro (⟨⟨joins, absent, stays⟩, remains⟩ | ⟨rfl, _⟩)
      · refine ⟨?_, ?_, ?_⟩
        · rwa [List.getElem?_append_left before]
        · rwa [take]
        · rw [drop, List.mem_append, List.mem_singleton, not_or]
          exact ⟨stays, Ne.symm remains⟩
      · omega
  · constructor
    · rintro ⟨joins, absent, _⟩
      rw [List.getElem?_concat_length] at joins
      rw [List.take_left'  rfl] at absent
      exact .inr ⟨rfl, Option.some.inj joins, absent⟩
    · rintro (⟨⟨joins, _⟩, _⟩ | ⟨_, rfl, absent⟩)
      · simp at joins
      · refine ⟨List.getElem?_concat_length, ?_, ?_⟩
        · rwa [List.take_left' rfl]
        · simp
  · constructor
    · rintro ⟨joins, _⟩
      rw [List.getElem?_eq_none (by simp; omega)] at joins
      cases joins
    · rintro (⟨⟨joins, _⟩, _⟩ | ⟨rfl, _⟩)
      · rw [List.getElem?_eq_none (by omega)] at joins
        cases joins
      · omega

theorem JoinedWith.isListed (joined : JoinedWith calls a i) : IsListed calls a := by
  induction calls using List.reverseRecOn with
  | nil => exact nomatch joined.joins
  | append_singleton calls c ih =>
    rcases joinedWith_append.mp joined with ⟨before, remains⟩ | ⟨_, rfl, _⟩
    · by_cases about : c.who = a
      · rw [isListed_append_of_who about]
        cases c with
        | join b => rw [← about, Call.who]
        | leave b => exact absurd (about ▸ rfl) remains
      · exact (isListed_append_of_ne about).mpr (ih before)
    · exact (isListed_append_of_who rfl).mpr rfl

theorem IsListed.joined (listed : IsListed calls a) : ∃ i, JoinedWith calls a i := by
  induction calls using List.reverseRecOn with
  | nil => exact absurd listed (not_isListed_nil a)
  | append_singleton calls c ih =>
    by_cases already : IsListed calls a
    · obtain ⟨i, joined⟩ := ih already
      refine ⟨i, joinedWith_append.mpr (.inl ⟨joined, ?_⟩)⟩
      rintro rfl
      exact nomatch (isListed_append_of_who rfl).mp listed
    · by_cases about : c.who = a
      · exact ⟨_, joinedWith_append.mpr
          (.inr ⟨rfl, (isListed_append_of_who about).mp listed, already⟩)⟩
      · exact absurd ((isListed_append_of_ne about).mp listed) already

theorem nodup_after (calls : List (Call α)) : (after [] calls).Nodup := by
  induction calls using List.reverseRecOn with
  | nil => exact List.nodup_nil
  | append_singleton calls c ih =>
    rw [after_append_singleton]
    cases c with
    | join a =>
      rw [enroll_join]
      split
      · exact ih
      · rename_i absent
        simpa using ih.concat absent
    | leave a => exact ih.erase a

theorem mem_after (calls : List (Call α)) (a : α) : a ∈ after [] calls ↔ IsListed calls a := by
  induction calls using List.reverseRecOn with
  | nil => exact ⟨nofun, fun listed => absurd listed (not_isListed_nil a)⟩
  | append_singleton calls c ih =>
    rw [after_append_singleton]
    by_cases about : c.who = a
    · rw [isListed_append_of_who about]
      cases c with
      | join b =>
        obtain rfl : b = a := about
        rw [enroll_join]
        split
        · rename_i present
          exact iff_of_true present rfl
        · exact iff_of_true (List.mem_append_right _ (List.mem_singleton_self b)) rfl
      | leave b =>
        obtain rfl : b = a := about
        exact iff_of_false (nodup_after calls).not_mem_erase nofun
    · rw [isListed_append_of_ne about, ← ih]
      cases c with
      | join b =>
        have other : a ≠ b := Ne.symm about
        rw [enroll_join]
        split
        · rfl
        · simp [other]
      | leave b => exact List.mem_erase_of_ne (Ne.symm about)

theorem inOrder_after (calls : List (Call α)) :
    (after [] calls).Pairwise fun a b =>
      ∀ i j, JoinedWith calls a i → JoinedWith calls b j → i < j := by
  induction calls using List.reverseRecOn with
  | nil => exact List.Pairwise.nil
  | append_singleton calls c ih =>
    -- those who were listed before the last call joined before it
    have before : ∀ a ∈ after [] calls, ∀ i, JoinedWith (calls ++ [c]) a i →
        JoinedWith calls a i := by
      intro a member i joined
      rcases joinedWith_append.mp joined with ⟨joined, _⟩ | ⟨_, _, absent⟩
      · exact joined
      · exact absurd ((mem_after calls a).mp member) absent
    have kept : (after [] calls).Pairwise fun a b =>
        ∀ i j, JoinedWith (calls ++ [c]) a i → JoinedWith (calls ++ [c]) b j → i < j :=
      ih.imp_of_mem fun member_a member_b ordered i j joined_a joined_b =>
        ordered i j (before _ member_a i joined_a) (before _ member_b j joined_b)
    rw [after_append_singleton]
    cases c with
    | join a =>
      rw [enroll_join]
      split
      · exact kept
      · rename_i absent
        refine List.pairwise_append.mpr ⟨kept, List.pairwise_singleton _ _, ?_⟩
        intro b member last same i j joined_b joined_last
        obtain rfl := List.mem_singleton.mp same
        have earlier := (before b member i joined_b).joins
        rcases joinedWith_append.mp joined_last with ⟨joined, _⟩ | ⟨rfl, _⟩
        · exact absurd ((mem_after calls last).mpr joined.isListed) absent
        · exact (List.getElem?_eq_some_iff.mp earlier).1
    | leave a => exact kept.sublist List.erase_sublist

end Steps

theorem isRoster_iff {calls : List (Call α)} {l : List α} :
    IsRoster calls l ↔ l = after [] calls := by
  have roster : IsRoster calls (after [] calls) :=
    ⟨nodup_after calls, mem_after calls, fun a member => ((mem_after calls a).mp member).joined,
      inOrder_after calls⟩
  constructor
  · intro given
    have same : l.Perm (after [] calls) := by
      rw [List.perm_ext_iff_of_nodup given.distinct roster.distinct]
      intro a
      rw [given.listed, roster.listed]
    refine same.eq_of_pairwise ?_ given.inOrder roster.inOrder
    intro a b member_a member_b first second
    obtain ⟨i, joined_a⟩ := given.joined a member_a
    obtain ⟨j, joined_b⟩ := roster.joined b member_b
    have := first i j joined_a joined_b
    have := second j i joined_b joined_a
    omega
  · rintro rfl
    exact roster

end Roster

end FleetMap
