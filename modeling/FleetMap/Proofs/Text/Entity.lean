import FleetMap.Text.Entity
import Mathlib

set_option autoImplicit false

namespace FleetMap.Entity

/-- The characters that escaped text is free of. -/
def reserved : List Char := ['<', '>', '"', '\'']

/-- All other characters but the ampersand stand for themselves. -/
theorem escapeChar_of_not_mem {c : Char} (plain : c ∉ '&' :: reserved) : escapeChar c = [c] := by
  simp only [reserved, List.mem_cons, List.not_mem_nil, or_false, not_or] at plain
  obtain ⟨ampersand, less, greater, double, single⟩ := plain
  simp only [escapeChar, ampersand, less, greater, double, single, if_false]

theorem not_reserved_of_mem_escapeChar {c d : Char} (member : d ∈ escapeChar c) :
    d ∉ reserved := by
  by_cases special : c ∈ '&' :: reserved
  · have entities : ('&' :: reserved).all fun c => (escapeChar c).all (· ∉ reserved) := by decide
    have own := List.all_eq_true.mp entities c special
    exact of_decide_eq_true (List.all_eq_true.mp own d member)
  · rw [escapeChar_of_not_mem special, List.mem_singleton] at member
    rw [member]
    exact fun known => special (List.mem_cons_of_mem _ known)

theorem not_reserved_of_mem_escapeChars {cs : List Char} {d : Char}
    (member : d ∈ escapeChars cs) : d ∉ reserved := by
  obtain ⟨c, _, own⟩ := List.mem_flatMap.mp member
  exact not_reserved_of_mem_escapeChar own

theorem unescapeChars_cons {c : Char} (plain : c ≠ '&') (rest : List Char) :
    unescapeChars (c :: rest) = c :: unescapeChars rest := by
  conv_lhs => unfold unescapeChars
  split <;> simp_all

theorem unescapeChars_escapeChar_append (c : Char) (rest : List Char) :
    unescapeChars (escapeChar c ++ rest) = c :: unescapeChars rest := by
  by_cases special : c ∈ '&' :: reserved
  · simp only [reserved, List.mem_cons, List.not_mem_nil, or_false] at special
    rcases special with rfl | rfl | rfl | rfl | rfl
    all_goals rfl
  · rw [escapeChar_of_not_mem special, List.singleton_append]
    exact unescapeChars_cons (fun same => special (same ▸ List.mem_cons_self)) rest

theorem unescapeChars_escapeChars (cs : List Char) : unescapeChars (escapeChars cs) = cs := by
  induction cs with
  | nil => rfl
  | cons c cs ih =>
    unfold escapeChars at ih ⊢
    rw [List.flatMap_cons, unescapeChars_escapeChar_append, ih]

/-- Reading the entities of an escaped text gives the text back. -/
theorem unescape_escape (s : String) : unescape (escape s) = s := by
  unfold unescape escape
  rw [String.toList_ofList, unescapeChars_escapeChars, String.ofList_toList]

end FleetMap.Entity
