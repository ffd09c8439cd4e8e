import FleetMap.Text.Blank
import FleetMap.Text.Split
import Mathlib

set_option autoImplicit false

namespace FleetMap

section Trim

variable {p : Char → Bool} {cs : List Char}

theorem trimChars_eq (p : Char → Bool) (cs : List Char) :
    trimChars p cs = (cs.dropWhile p).rdropWhile p := rfl

theorem mem_of_mem_trimChars {c : Char} (member : c ∈ trimChars p cs) : c ∈ cs := by
  rw [trimChars_eq] at member
  exact (List.dropWhile_sublist p).subset ((List.rdropWhile_prefix p _).subset member)

/-- A text without any character to be removed is trimmed. -/
theorem trimChars_of_forall (kept : ∀ c ∈ cs, p c = false) : trimChars p cs = cs := by
  have none : ∀ c ∈ cs, ¬ p c = true := fun c member => Bool.eq_false_iff.mp (kept c member)
  have start : cs.dropWhile p = cs :=
    List.dropWhile_eq_self_iff.mpr fun _ => none _ (List.getElem_mem _)
  rw [trimChars_eq, start]
  exact List.rdropWhile_eq_self_iff.mpr fun _ => none _ (List.getLast_mem _)

theorem trimChars_cons {c : Char} (removed : p c = true) :
    trimChars p (c :: cs) = trimChars p cs := by
  rw [trimChars_eq, trimChars_eq, List.dropWhile_cons_of_pos removed]

theorem trimChars_trimChars (p : Char → Bool) (cs : List Char) :
    trimChars p (trimChars p cs) = trimChars p cs := by
  have start := List.dropWhile_idempotent p cs
  rw [trimChars_eq p cs]
  generalize cs.dropWhile p = rest at start
  -- trimming the end leaves the first character where it is
  have kept : (rest.rdropWhile p).dropWhile p = rest.rdropWhile p := by
    rw [List.dropWhile_eq_self_iff] at start ⊢
    intro nonempty
    have shorter := List.rdropWhile_prefix p rest
    rw [shorter.getElem nonempty]
    exact start (Nat.lt_of_lt_of_le nonempty shorter.length_le)
  rw [trimChars_eq, kept, List.rdropWhile_idempotent]

theorem trimBlank_trimBlank (s : String) : trimBlank (trimBlank s) = trimBlank s := by
  unfold trimBlank
  rw [String.toList_ofList, trimChars_trimChars]

end Trim

section Split

theorem splitAtChar_eq_splitOn (separator : Char) (cs : List Char) :
    splitAtChar separator cs = cs.splitOn separator := by
  induction cs with
  | nil => rfl
  | cons c rest ih =>
    rw [splitAtChar, List.splitOn_cons_eq_if_modifyHead, ih]
    by_cases same : c = separator
    · rw [if_pos same, if_pos (by simpa using same)]
    · rw [if_neg same, if_neg (by simpa using same)]
      cases parts : rest.splitOn separator with
      | nil => exact absurd parts (List.splitOn_ne_nil separator rest)
      | cons part parts => rfl

theorem not_mem_of_mem_splitAtChar {separator : Char} {cs part : List Char}
    (member : part ∈ splitAtChar separator cs) : separator ∉ part := by
  induction cs generalizing part with
  | nil =>
    rw [List.mem_singleton.mp member]
    exact List.not_mem_nil
  | cons c rest ih =>
    unfold splitAtChar at member
    split at member
    · rcases List.mem_cons.mp member with rfl | later
      · exact List.not_mem_nil
      · exact ih later
    · rename_i different
      split at member
      · rename_i first parts split
        rcases List.mem_cons.mp member with rfl | later
        · rw [List.mem_cons, not_or]
          refine ⟨Ne.symm different, ih ?_⟩
          rw [split]
          exact List.mem_cons_self
        · apply ih
          rw [split]
          exact List.mem_cons_of_mem first later
      · rw [List.mem_singleton.mp member, List.mem_singleton]
        exact Ne.symm different

theorem intercalate_splitText (separator : Char) (s : String) :
    (String.singleton separator).intercalate (splitText separator s) = s := by
  apply String.toList_inj.mp
  rw [String.toList_intercalate, splitText, List.map_map, splitAtChar_eq_splitOn]
  have same : String.toList ∘ String.ofList = id := by
    funext cs
    exact String.toList_ofList
  rw [same, List.map_id, String.toList_singleton, List.intercalate_splitOn]

theorem splitAtChar_intercalate {separator : Char} {parts : List (List Char)}
    (free : ∀ part ∈ parts, separator ∉ part) (nonempty : parts ≠ []) :
    splitAtChar separator ([separator].intercalate parts) = parts := by
  rw [splitAtChar_eq_splitOn, List.splitOn_intercalate separator free nonempty]

theorem splitAtChar_of_not_mem {separator : Char} {cs : List Char} (absent : separator ∉ cs) :
    splitAtChar separator cs = [cs] := by
  have alone := splitAtChar_intercalate (List.forall_mem_singleton.mpr absent)
    (List.cons_ne_nil cs [])
  rwa [List.intercalate_singleton] at alone

/-- A separator of two characters is one of one character with the other one before each part but
the first. -/
theorem intercalate_pair (a b : Char) (part : List Char) (parts : List (List Char)) :
    [a, b].intercalate (part :: parts) = [a].intercalate (part :: parts.map (b :: ·)) := by
  induction parts generalizing part with
  | nil => simp
  | cons next parts ih =>
    rw [List.map_cons, List.intercalate_cons_cons, List.intercalate_cons_cons, ih]
    cases parts with
    | nil => simp
    | cons later parts => simp

end Split

end FleetMap
