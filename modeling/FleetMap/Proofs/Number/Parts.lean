import FleetMap.Number.Numeral
import Mathlib

set_option autoImplicit false

namespace FleetMap

structure IsDigits (ds : List Char) : Prop where
  nonempty : ds ≠ []
  digits : ∀ c ∈ ds, c.isDigit = true

theorem IsDigits.of_subset {ds part : List Char} (digits : IsDigits ds) (nonempty : part ≠ [])
    (subset : part ⊆ ds) : IsDigits part :=
  ⟨nonempty, fun c member => digits.digits c (subset member)⟩

theorem isDigits_toDigits (n : Nat) : IsDigits (Nat.toDigits 10 n) where
  nonempty := Nat.toDigits_ne_nil
  digits _ member := Nat.isDigit_of_mem_toDigits (by decide) (by decide) member

/-- The first digit of a number is a zero only if the number is zero. -/
theorem head?_toDigits_ne {n : Nat} (pos : 0 < n) : (Nat.toDigits 10 n).head? ≠ some '0' := by
  induction n using Nat.strongRecOn with
  | ind n ih =>
    rcases Nat.lt_or_ge n 10 with small | large
    · rw [Nat.toDigits_of_lt_base small]
      interval_cases n <;> decide
    · rw [Nat.toDigits_of_base_le (by decide) large, List.head?_append_of_ne_nil]
      · exact ih (n / 10) (by omega) (by omega)
      · exact Nat.toDigits_ne_nil

namespace Numeral

structure IsWhole (ds : List Char) : Prop extends IsDigits ds where
  alone : ds = ['0'] ∨ ds.head? ≠ some '0'

theorem isWhole_toDigits (n : Nat) : IsWhole (Nat.toDigits 10 n) where
  toIsDigits := isDigits_toDigits n
  alone := by
    rcases Nat.eq_zero_or_pos n with rfl | pos
    · exact .inl rfl
    · exact .inr (head?_toDigits_ne pos)

/-- Digits that stand for the size of an integer stand for the integer with its sign. -/
theorem signedValue_eq {n : Int} {ds : List Char} (size : Nat.ofDigitChars 10 ds 0 = n.natAbs) :
    signedValue (decide (n < 0)) ds = n := by
  unfold signedValue
  rw [size]
  by_cases negative : n < 0
  · simp only [negative, decide_true, if_true]
    omega
  · simp only [negative, decide_false, Bool.false_eq_true, if_false]
    omega

/-- A numeral taken apart. Without digits after the point there is no point. -/
structure Parts where
  negative : Bool
  whole : List Char
  fraction : List Char
  /-- The sign and the digits of the exponent. -/
  exponent : Option (Bool × List Char)

namespace Parts

def fractionText (p : Parts) : List Char := if p.fraction = [] then [] else '.' :: p.fraction

def exponentText (p : Parts) : List Char :=
  match p.exponent with
  | none => []
  | some (negative, ds) => 'e' :: (if negative then '-' else '+') :: ds

def text (p : Parts) : List Char :=
  (if p.negative then ['-'] else []) ++ p.whole ++ p.fractionText ++ p.exponentText

def coefficient (p : Parts) : Nat := Nat.ofDigitChars 10 (p.whole ++ p.fraction) 0

def power (p : Parts) : Int :=
  (p.exponent.elim 0 fun (negative, ds) => signedValue negative ds) - p.fraction.length

structure WellFormed (p : Parts) : Prop where
  whole : IsWhole p.whole
  fraction : ∀ c ∈ p.fraction, c.isDigit = true
  exponent : ∀ e, p.exponent = some e → IsDigits e.2

/-- Neither a fraction nor an exponent, which is how integers are written. -/
def IsPlain (p : Parts) : Prop := p.fraction = [] ∧ p.exponent = none

end Parts

/-- A text that tells a double: it is no integer, and the double is nearest to what it says. -/
def Tells (text : List Char) (x : Float) : Prop :=
  ∃ p : Parts, p.WellFormed ∧ ¬ p.IsPlain ∧ p.text = text ∧
    nearest p.negative p.coefficient p.power = x

end Numeral

namespace Significant

def coefficient (s : Significant) : Nat := Nat.ofDigitChars 10 s.digits 0

def magnitude (s : Significant) : ℚ :=
  s.coefficient * 10 ^ (s.exponent + 1 - s.digits.length)

structure WellFormed (s : Significant) : Prop where
  digits : IsDigits s.digits
  leading : s.digits.head? ≠ some '0' ∨ s = zero

end Significant

namespace Layout

open Numeral

def positionalParts (negative : Bool) (digits : List Char) (exponent : Int) : Parts :=
  if exponent < 0 then
    ⟨negative, ['0'], List.replicate (-exponent - 1).toNat '0' ++ digits, none⟩
  else
    let before := exponent.toNat + 1
    if digits.length ≤ before then
      ⟨negative, digits ++ List.replicate (before - digits.length) '0', ['0'], none⟩
    else ⟨negative, digits.take before, digits.drop before, none⟩

def scientificParts (l : Layout) (negative : Bool) (digits : List Char) (exponent : Int) : Parts :=
  let size := Nat.toDigits 10 exponent.natAbs
  ⟨negative, digits.take 1, digits.drop 1,
    some (decide (exponent < 0), List.replicate (l.exponentWidth - size.length) '0' ++ size)⟩

def parts (l : Layout) (negative : Bool) (s : Significant) : Parts :=
  if l.least ≤ s.exponent ∧ s.exponent < l.bound then
    positionalParts negative s.digits s.exponent
  else l.scientificParts negative s.digits s.exponent

variable {l : Layout} {s : Significant}

theorem negative_parts (l : Layout) (negative : Bool) (s : Significant) :
    (l.parts negative s).negative = negative := by
  unfold parts positionalParts
  split
  · split
    · rfl
    · dsimp only
      split <;> rfl
  · rfl

theorem text_positionalParts (marks : l.markWhole = true) (negative : Bool) {digits : List Char}
    (some_digit : digits ≠ []) (exponent : Int) :
    (positionalParts negative digits exponent).text =
      (if negative then ['-'] else []) ++ l.positional digits exponent := by
  unfold positionalParts positional
  rw [if_pos marks]
  split
  · simp [Parts.text, Parts.fractionText, Parts.exponentText, some_digit]
  · dsimp only
    split
    · simp [Parts.text, Parts.fractionText, Parts.exponentText]
    · rename_i long
      have broken : digits.drop (exponent.toNat + 1) ≠ [] := by
        rw [ne_eq, List.drop_eq_nil_iff]
        exact long
      simp [Parts.text, Parts.fractionText, Parts.exponentText, broken]

theorem text_scientificParts (l : Layout) (negative : Bool) (digits : List Char) (exponent : Int) :
    (l.scientificParts negative digits exponent).text =
      (if negative then ['-'] else []) ++ l.scientific digits exponent := by
  unfold scientificParts scientific
  match digits with
  | [] => simp [Parts.text, Parts.fractionText, Parts.exponentText]
  | [d] => simp [Parts.text, Parts.fractionText, Parts.exponentText]
  | d :: next :: more => simp [Parts.text, Parts.fractionText, Parts.exponentText]

/-- Layouts that mark whole numbers write the text of the parts. -/
theorem write_eq_text (marks : l.markWhole = true) (negative : Bool) (some_digit : s.digits ≠ []) :
    l.write negative s = (l.parts negative s).text := by
  have signed : ∀ body : List Char,
      (if negative then '-' :: body else body) = (if negative then ['-'] else []) ++ body := by
    intro body
    cases negative <;> rfl
  unfold write parts
  rw [signed]
  by_cases near : l.least ≤ s.exponent ∧ s.exponent < l.bound
  · rw [if_pos near, if_pos near, text_positionalParts marks negative some_digit]
  · rw [if_neg near, if_neg near, text_scientificParts]

/-- The first digits of a well-formed number are a whole part. -/
theorem isWhole_take (wellFormed : s.WellFormed) {n : Nat} (pos : 0 < n) :
    IsWhole (s.digits.take n) := by
  have nonempty : s.digits.take n ≠ [] := by
    rw [ne_eq, List.take_eq_nil_iff]
    exact not_or.mpr ⟨pos.ne', wellFormed.digits.nonempty⟩
  refine ⟨wellFormed.digits.of_subset nonempty (List.take_subset n _), ?_⟩
  rcases wellFormed.leading with leading | rfl
  · right
    rwa [List.head?_take, if_neg pos.ne']
  · left
    exact List.take_of_length_le pos

theorem wellFormed_positionalParts (wellFormed : s.WellFormed) (negative : Bool) :
    (positionalParts negative s.digits s.exponent).WellFormed := by
  have zeros : ∀ n, ∀ c ∈ List.replicate n '0', c.isDigit = true := by
    intro n c member
    rw [List.eq_of_mem_replicate member]
    decide
  have zero : ∀ c ∈ ['0'], c.isDigit = true := zeros 1
  unfold positionalParts
  split
  · refine ⟨⟨⟨by simp, zero⟩, .inl rfl⟩, ?_, by simp⟩
    exact fun c member => (List.mem_append.mp member).elim (zeros _ c) (wellFormed.digits.digits c)
  · dsimp only
    split
    · refine ⟨⟨⟨by simp [wellFormed.digits.nonempty], ?_⟩, ?_⟩, zero, by simp⟩
      · exact fun c member =>
          (List.mem_append.mp member).elim (wellFormed.digits.digits c) (zeros _ c)
      · rcases wellFormed.leading with leading | rfl
        · right
          rwa [List.head?_append_of_ne_nil _ wellFormed.digits.nonempty]
        · exact .inl rfl
    · exact ⟨isWhole_take wellFormed (Nat.succ_pos _),
        fun c member => wellFormed.digits.digits c (List.mem_of_mem_drop member), by simp⟩

theorem wellFormed_scientificParts (l : Layout) (wellFormed : s.WellFormed) (negative : Bool) :
    (l.scientificParts negative s.digits s.exponent).WellFormed := by
  refine ⟨isWhole_take wellFormed Nat.one_pos,
    fun c member => wellFormed.digits.digits c (List.mem_of_mem_drop member), ?_⟩
  rintro e given
  obtain rfl := Option.some.inj given
  have size := isDigits_toDigits s.exponent.natAbs
  refine ⟨by simp [size.nonempty], ?_⟩
  intro c member
  rcases List.mem_append.mp member with zero | digit
  · rw [List.eq_of_mem_replicate zero]
    decide
  · exact size.digits c digit

theorem wellFormed_parts (l : Layout) (wellFormed : s.WellFormed) (negative : Bool) :
    (l.parts negative s).WellFormed := by
  unfold parts
  split
  · exact wellFormed_positionalParts wellFormed negative
  · exact wellFormed_scientificParts l wellFormed negative

theorem ofDigitChars_take_drop (ds : List Char) (n : Nat) :
    Nat.ofDigitChars 10 (ds.take n ++ ds.drop n) 0 = Nat.ofDigitChars 10 ds 0 := by
  rw [List.take_append_drop]

theorem value_positionalParts (s : Significant) (negative : Bool) :
    ((positionalParts negative s.digits s.exponent).coefficient : ℚ) *
      10 ^ (positionalParts negative s.digits s.exponent).power = s.magnitude := by
  unfold positionalParts Significant.magnitude Significant.coefficient
  split
  · -- zeros before the first digit count for nothing
    rename_i small
    have leading : Nat.ofDigitChars 10 (['0'] ++ (List.replicate (-s.exponent - 1).toNat '0' ++
        s.digits)) 0 = Nat.ofDigitChars 10 s.digits 0 := by
      rw [Nat.ofDigitChars_append, Nat.ofDigitChars_append, Nat.ofDigitChars_replicate_zero]
      simp [Nat.ofDigitChars_cons]
    simp only [Parts.coefficient, Parts.power, leading, Option.elim, List.length_append,
      List.length_replicate]
    congr 2
    omega
  · rename_i large
    dsimp only
    split
    · -- zeros after the last digit, one of them behind the point, make up for the power
      rename_i short
      have trailing : Nat.ofDigitChars 10 (s.digits ++
          List.replicate (s.exponent.toNat + 1 - s.digits.length) '0' ++ ['0']) 0 =
            10 ^ (s.exponent.toNat + 2 - s.digits.length) * Nat.ofDigitChars 10 s.digits 0 := by
        have more : s.exponent.toNat + 2 - s.digits.length =
            s.exponent.toNat + 1 - s.digits.length + 1 := by omega
        rw [Nat.ofDigitChars_append, Nat.ofDigitChars_append, Nat.ofDigitChars_replicate_zero, more,
          pow_succ]
        simp [Nat.ofDigitChars_cons]
        ring
      have shift : s.exponent + 1 - s.digits.length =
          (s.exponent.toNat + 2 - s.digits.length : Nat) + (0 - 1 : Int) := by omega
      simp only [Parts.coefficient, Parts.power, trailing, Option.elim, List.length_singleton,
        Nat.cast_one, shift]
      rw [zpow_add₀ (by norm_num), zpow_natCast]
      push_cast
      ring
    · rename_i long
      simp only [Parts.coefficient, Parts.power, ofDigitChars_take_drop, Option.elim,
        List.length_drop]
      congr 2
      omega

theorem value_scientificParts (l : Layout) (wellFormed : s.WellFormed) (negative : Bool) :
    ((l.scientificParts negative s.digits s.exponent).coefficient : ℚ) *
      10 ^ (l.scientificParts negative s.digits s.exponent).power = s.magnitude := by
  have some_digit := List.length_pos_of_ne_nil wellFormed.digits.nonempty
  have size : Nat.ofDigitChars 10 (List.replicate (l.exponentWidth -
      (Nat.toDigits 10 s.exponent.natAbs).length) '0' ++ Nat.toDigits 10 s.exponent.natAbs) 0 =
        s.exponent.natAbs := by
    rw [Nat.ofDigitChars_append, Nat.ofDigitChars_replicate_zero, Nat.mul_zero,
      Nat.ofDigitChars_ten_toDigits]
  have signed : signedValue (decide (s.exponent < 0)) (List.replicate (l.exponentWidth -
      (Nat.toDigits 10 s.exponent.natAbs).length) '0' ++ Nat.toDigits 10 s.exponent.natAbs) =
        s.exponent := signedValue_eq size
  simp only [scientificParts, Significant.magnitude, Significant.coefficient, Parts.coefficient,
    Parts.power, ofDigitChars_take_drop, Option.elim, signed, List.length_drop]
  congr 2
  omega

/-- The parts stand for the number that the significant digits stand for. -/
theorem value_parts (l : Layout) (wellFormed : s.WellFormed) (negative : Bool) :
    ((l.parts negative s).coefficient : ℚ) * 10 ^ (l.parts negative s).power = s.magnitude := by
  unfold parts
  split
  · exact value_positionalParts s negative
  · exact value_scientificParts l wellFormed negative

/-- A layout that marks whole numbers writes a fraction or an exponent in every case. -/
theorem not_isPlain_parts (l : Layout) (negative : Bool) (some_digit : s.digits ≠ []) :
    ¬ (l.parts negative s).IsPlain := by
  rintro ⟨whole, positional⟩
  unfold parts at whole positional
  by_cases near : l.least ≤ s.exponent ∧ s.exponent < l.bound
  · rw [if_pos near] at whole
    unfold positionalParts at whole
    split at whole
    · simp [some_digit] at whole
    · dsimp only at whole
      split at whole
      · simp at whole
      · rename_i long
        exact long (List.drop_eq_nil_iff.mp whole)
  · rw [if_neg near] at positional
    simp [scientificParts] at positional

end Layout

end FleetMap
