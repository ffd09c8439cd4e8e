import FleetMap.Proofs.Json.Numbers
import FleetMap.Proofs.Number.Shortest
import FleetMap.Proofs.Text.Trim

set_option autoImplicit false

namespace FleetMap

namespace Numeral

def marks : List Char := ['0', '1', '2', '3', '4', '5', '6', '7', '8', '9', '-', '+', '.', 'e']

theorem mem_marks_of_isDigit {c : Char} (digit : c.isDigit = true) : c ∈ marks := by
  have bounds : 48 ≤ c.toNat ∧ c.toNat ≤ 57 := Char.isDigit_iff_toNat.mp digit
  rw [← Char.ofNat_toNat c]
  generalize c.toNat = n at bounds
  obtain ⟨low, high⟩ := bounds
  interval_cases n <;> decide

/-- Shown numbers are neither trimmed nor respelled, and nothing in them is grouped. -/
theorem plain_of_mem_marks {c : Char} (mark : c ∈ marks) :
    isWhite c = false ∧ asciiDigit c = c ∧ c ≠ '_' := by
  have each : marks.all fun c => !isWhite c && asciiDigit c == c && c != '_' := by decide
  have this_one := List.all_eq_true.mp each c mark
  simpa only [Bool.and_eq_true, Bool.not_eq_true', beq_iff_eq, bne_iff_ne, and_assoc] using this_one

theorem withoutGrouping?_of_not_mem {cs : List Char} (ungrouped : '_' ∉ cs)
    (previous : Option Char) : withoutGrouping? previous cs = some cs := by
  induction cs generalizing previous with
  | nil => rfl
  | cons c rest ih =>
    obtain ⟨different, ungrouped⟩ := not_or.mp (mt List.mem_cons.mpr ungrouped)
    rw [withoutGrouping?, ih ungrouped]
    · rfl
    · exact fun same => different same.symm

section Marks

variable {s : String} (plain : ∀ c ∈ s.toList, c ∈ marks)

include plain

theorem typed_of_marks : typed s = s.toList := by
  have same : s.toList.map asciiDigit = s.toList :=
    (List.map_congr_left fun c member => (plain_of_mem_marks (plain c member)).2.1).trans
      (List.map_id _)
  unfold typed
  rw [same]
  exact trimChars_of_forall fun c member => (plain_of_mem_marks (plain c member)).1

theorem typedFloat?_of_marks : typedFloat? s = float? s.toList := by
  have ungrouped : '_' ∉ s.toList :=
    fun member => (plain_of_mem_marks (plain '_' member)).2.2 rfl
  unfold typedFloat?
  rw [typed_of_marks plain, withoutGrouping?_of_not_mem ungrouped]
  rfl

end Marks

section Integers

theorem ungrouped?_of_isDigits {ds : List Char} (digits : IsDigits ds) :
    ungrouped? ds = some ds := by
  obtain ⟨nonempty, digits⟩ := digits
  fun_induction ungrouped? ds with
  | case1 => exact absurd rfl nonempty
  | case2 d _ => rfl
  | case3 d no_digit => exact absurd (digits d List.mem_cons_self) no_digit
  | case4 d rest _ ih | case5 d rest no_digit =>
    have mark := digits '_' (List.mem_cons_of_mem d List.mem_cons_self)
    exact absurd mark (by decide)
  | case6 d rest single grouped digit ih =>
    have more : rest ≠ [] := fun empty => single (by rw [empty])
    rw [ih more fun c member => digits c (List.mem_cons_of_mem d member)]
    rfl
  | case7 d rest single grouped no_digit => exact absurd (digits d List.mem_cons_self) no_digit

/-- What is left when the grouping is taken away are digits. -/
theorem isDigit_of_ungrouped? {cs ds : List Char} (ungrouped : ungrouped? cs = some ds) :
    ∀ c ∈ ds, c.isDigit = true := by
  fun_induction ungrouped? cs generalizing ds with
  | case1 => exact nomatch ungrouped
  | case2 d digit =>
    rw [← Option.some.inj ungrouped]
    exact List.forall_mem_singleton.mpr digit
  | case3 d no_digit => exact nomatch ungrouped
  | case4 d rest digit ih | case6 d rest _ _ digit ih =>
    obtain ⟨others, found, rfl⟩ := Option.map_eq_some_iff.mp ungrouped
    exact List.forall_mem_cons.mpr ⟨digit, ih found⟩
  | case5 | case7 => exact nomatch ungrouped

theorem ofDigitChars_lt {ds : List Char} (digits : ∀ c ∈ ds, c.isDigit = true) :
    Nat.ofDigitChars 10 ds 0 < 10 ^ ds.length := by
  induction ds using List.reverseRecOn with
  | nil => exact Nat.one_pos
  | append_singleton ds d ih =>
    have before := ih fun c member => digits c (List.mem_append_left _ member)
    have last := Char.isDigit_iff_toNat.mp
      (digits d (List.mem_append_right _ (List.mem_singleton_self d)))
    have nine : '9'.toNat = '0'.toNat + 9 := rfl
    rw [Nat.ofDigitChars_append, Nat.ofDigitChars_cons, Nat.ofDigitChars_nil, List.length_append,
      List.length_singleton, pow_succ]
    omega

end Integers

section Parts

theorem sign_append {ds : List Char} (digits : IsDigits ds) (negative : Bool) (rest : List Char) :
    sign ((if negative then ['-'] else []) ++ (ds ++ rest)) = (negative, ds ++ rest) := by
  cases negative with
  | true => rfl
  | false =>
    cases ds with
    | nil => exact absurd rfl digits.nonempty
    | cons d ds =>
      have digit := digits.digits d List.mem_cons_self
      simp only [Bool.false_eq_true, if_false, List.nil_append, List.cons_append]
      unfold sign
      split
      · rename_i same
        rw [(List.cons.inj same).1] at digit
        exact absurd digit (by decide)
      · rename_i same
        rw [(List.cons.inj same).1] at digit
        exact absurd digit (by decide)
      · rfl

variable {p : Parts} (wellFormed : p.WellFormed)

include wellFormed

theorem mem_marks_text : ∀ c ∈ p.text, c ∈ marks := by
  have signed : ∀ negative : Bool, ∀ c ∈ if negative then ['-'] else [], c ∈ marks := by
    rintro (_ | _)
    · exact fun _ member => nomatch member
    · intro c member
      rw [List.mem_singleton.mp member]
      decide
  have fraction : ∀ c ∈ p.fractionText, c ∈ marks := by
    intro c member
    unfold Parts.fractionText at member
    split at member
    · exact nomatch member
    · rcases List.mem_cons.mp member with rfl | digit
      · decide
      · exact mem_marks_of_isDigit (wellFormed.fraction c digit)
  have exponent : ∀ c ∈ p.exponentText, c ∈ marks := by
    intro c member
    unfold Parts.exponentText at member
    split at member
    · exact nomatch member
    · rename_i negative ds given
      rcases List.mem_cons.mp member with rfl | member
      · decide
      · rcases List.mem_cons.mp member with rfl | digit
        · cases negative <;> decide
        · exact mem_marks_of_isDigit ((wellFormed.exponent _ given).digits c digit)
  intro c member
  unfold Parts.text at member
  simp only [List.mem_append, or_assoc] at member
  rcases member with sign | whole | point | power
  · exact signed p.negative c sign
  · exact mem_marks_of_isDigit (wellFormed.whole.digits c whole)
  · exact fraction c point
  · exact exponent c power

/-- A text that begins with a digit is none of the words for what is no number. -/
theorem not_word (rest : List Char) :
    let word := String.ofList ((p.whole ++ rest).map Char.toLower)
    ¬ (word = "inf" ∨ word = "infinity") ∧ word ≠ "nan" := by
  have each : marks.all fun c => c.toLower != 'i' && c.toLower != 'n' := by decide
  cases whole : p.whole with
  | nil => exact absurd whole wellFormed.whole.nonempty
  | cons d ds =>
    have digit : d.isDigit = true := wellFormed.whole.digits d (by simp [whole])
    have first := List.all_eq_true.mp each d (mem_marks_of_isDigit digit)
    simp only [Bool.and_eq_true, bne_iff_ne] at first
    have other : ∀ {c : Char} {cs : List Char}, d.toLower ≠ c →
        String.ofList ((d :: ds ++ rest).map Char.toLower) ≠ String.ofList (c :: cs) :=
      fun different same => different (List.cons.inj (String.ofList_injective same)).1
    exact ⟨not_or.mpr ⟨other first.1, other first.1⟩, other first.2⟩

theorem exponent?_text : exponent? p.exponentText =
    some (p.exponent.elim 0 fun (negative, ds) => signedValue negative ds) := by
  unfold Parts.exponentText
  cases given : p.exponent with
  | none => rfl
  | some e =>
    obtain ⟨negative, ds⟩ := e
    have digits := wellFormed.exponent _ given
    have all : ds ≠ [] ∧ ds.all Char.isDigit = true :=
      ⟨digits.nonempty, List.all_eq_true.mpr digits.digits⟩
    cases negative with
    | true => simp only [exponent?, sign, true_or, if_true, if_pos all, Option.elim]
    | false => simp only [exponent?, sign, true_or, if_true, Bool.false_eq_true, if_false,
        if_pos all, Option.elim]

theorem magnitude?_text (negative : Bool) :
    magnitude? negative (p.whole ++ (p.fractionText ++ p.exponentText)) =
      some (nearest negative p.coefficient p.power) := by
  have leaves : LeavesNumber [] := fun c head => nomatch head
  have behind := Json.noDigitHead_exponentText (p := p) leaves
  rw [List.append_nil] at behind
  have some_digit : ∀ {ds : List Char}, ¬ (p.whole = [] ∧ ds = []) :=
    fun none => wellFormed.whole.nonempty none.1
  unfold magnitude?
  rw [digits_append wellFormed.whole.digits (Json.noDigitHead_fractionText behind.1)]
  dsimp only
  by_cases broken : p.fraction = []
  · have no_fraction : p.fractionText = [] := if_pos broken
    rw [no_fraction, List.nil_append]
    split
    · rename_i point
      rw [point] at behind
      exact absurd rfl behind.2
    · rw [if_neg some_digit, exponent?_text wellFormed, ← broken]
      rfl
  · have fraction : p.fractionText = '.' :: p.fraction := if_neg broken
    rw [fraction]
    simp only [List.cons_append, digits_append wellFormed.fraction behind.1]
    rw [if_neg some_digit, exponent?_text wellFormed]
    rfl

theorem typedFloat?_text :
    typedFloat? (String.ofList p.text) = some (nearest p.negative p.coefficient p.power) := by
  have plain : ∀ c ∈ (String.ofList p.text).toList, c ∈ marks := by
    rw [String.toList_ofList]
    exact mem_marks_text wellFormed
  have text : p.text = (if p.negative then ['-'] else []) ++
      (p.whole ++ (p.fractionText ++ p.exponentText)) := by simp [Parts.text]
  obtain ⟨not_infinite, a_number⟩ := not_word wellFormed (p.fractionText ++ p.exponentText)
  rw [typedFloat?_of_marks plain, String.toList_ofList, text, float?,
    sign_append wellFormed.whole.toIsDigits]
  dsimp only
  rw [if_neg not_infinite, if_neg a_number, magnitude?_text wellFormed]

end Parts

section Shown

theorem typedFloat?_of_tells {s : String} {x : Float} (tells : Tells s.toList x) :
    typedFloat? s = some x := by
  obtain ⟨p, wellFormed, _, text, rfl⟩ := tells
  rw [← String.ofList_toList (s := s), ← text]
  exact typedFloat?_text wellFormed

theorem typedFloat?_decimalOfInt (n : Int) :
    typedFloat? (decimalOfInt n) = some (nearest (decide (n < 0)) n.natAbs 0) := by
  have read := typedFloat?_text (Json.wellFormed_int (decide (n < 0)) n.natAbs)
  rw [← Json.decimalOfInt_eq_text, String.ofList_toList] at read
  rw [read]
  unfold Parts.coefficient Parts.power
  rw [List.append_nil, Nat.ofDigitChars_ten_toDigits]
  rfl

theorem typedInt?_decimalOfInt {n : Int} (short : (Nat.toDigits 10 n.natAbs).length ≤ digitLimit) :
    typedInt? (decimalOfInt n) = .ok n := by
  have wellFormed := Json.wellFormed_int (decide (n < 0)) n.natAbs
  have digits := isDigits_toDigits n.natAbs
  have plain : ∀ c ∈ (decimalOfInt n).toList, c ∈ marks := by
    rw [Json.decimalOfInt_eq_text]
    exact mem_marks_text wellFormed
  have text : (decimalOfInt n).toList =
      (if decide (n < 0) then ['-'] else []) ++ (Nat.toDigits 10 n.natAbs ++ []) := by
    simp [Json.decimalOfInt_eq_text, Parts.text, Parts.fractionText, Parts.exponentText]
  have in_run : ∀ c ∈ Nat.toDigits 10 n.natAbs, (c.isDigit || c == '_') = true :=
    fun c member => by rw [digits.digits c member, Bool.true_or]
  unfold typedInt?
  rw [typed_of_marks plain, text, sign_append digits, List.append_nil]
  dsimp only
  rw [List.takeWhile_eq_self_iff.mpr in_run, List.dropWhile_eq_nil_iff.mpr in_run,
    ungrouped?_of_isDigits digits]
  dsimp only
  rw [if_neg (Nat.not_lt.mpr short), if_neg (not_not.mpr rfl),
    signedValue_eq Nat.ofDigitChars_ten_toDigits]

/-- No integer that is read has more digits than are read. -/
theorem short_of_typedInt? {s : String} {n : Int} (read : typedInt? s = .ok n) :
    (Nat.toDigits 10 n.natAbs).length ≤ digitLimit := by
  unfold typedInt? at read
  dsimp only at read
  split at read
  · rename_i ds found
    split_ifs at read with long more
    have size := ofDigitChars_lt (isDigit_of_ungrouped? found)
    have bound : Nat.ofDigitChars 10 ds 0 < 10 ^ digitLimit :=
      Nat.lt_of_lt_of_le size (Nat.pow_le_pow_right (by decide) (Nat.le_of_not_lt long))
    have same : n.natAbs = Nat.ofDigitChars 10 ds 0 := by
      rw [← Except.ok.inj read]
      unfold signedValue
      dsimp only
      split_ifs <;> omega
    rw [same]
    exact (Nat.length_toDigits_le_iff (by decide) (by decide)).mpr bound
  · exact nomatch read

end Shown

end Numeral

namespace BinaryFloat

variable {d : BinaryFloat}

theorem cast_floor (whole : d.IsWhole) : (d.floor : ℚ) = d.signed * 2 ^ d.exponent := by
  unfold floor
  simp only [Nat.pow_eq]
  rw [Double.zpow_eq_div two_ne_zero]
  split
  · rename_i large
    have none : (-d.exponent).toNat = 0 := by omega
    rw [none]
    push_cast
    rw [pow_zero, div_one]
  · rename_i small
    have none : d.exponent.toNat = 0 := by omega
    have divides : ((2 ^ (-d.exponent).toNat : ℕ) : ℤ) ∣ d.signed := by
      have significand := Int.natCast_dvd_natCast.mpr (whole.resolve_left small)
      unfold signed
      split
      · exact (dvd_neg).mpr significand
      · exact significand
    rw [Int.cast_div divides (by positivity), none]
    push_cast
    ring

theorem natAbs_floor (whole : d.IsWhole) :
    (d.floor.natAbs : ℚ) = d.significand * 2 ^ d.exponent := by
  have unit : (0 : ℚ) < 2 ^ d.exponent := zpow_pos two_pos _
  have size : |(d.signed : ℚ)| = d.significand := by
    unfold signed
    split
    · push_cast
      rw [abs_neg, Nat.abs_cast]
    · push_cast
      rw [Nat.abs_cast]
  rw [Nat.cast_natAbs, Int.cast_abs, cast_floor whole, abs_mul, abs_of_pos unit, size]

theorem floor_lt_zero_iff (whole : d.IsWhole) (not_zero : d.significand ≠ 0) :
    d.floor < 0 ↔ d.negative = true := by
  have unit : (0 : ℚ) < 2 ^ d.exponent := zpow_pos two_pos _
  have sign : 0 ≤ d.floor ↔ 0 ≤ d.signed := by
    rw [← Int.cast_nonneg_iff (R := ℚ), cast_floor whole, mul_nonneg_iff_of_pos_right unit,
      Int.cast_nonneg_iff]
  rw [← not_le, sign]
  unfold signed
  split
  · rename_i negative
    exact iff_of_true (by omega) negative
  · rename_i positive
    exact iff_of_false (by omega) positive

end BinaryFloat

namespace Numeral

variable {x : Float}

/-- The integer that a whole double denotes is read as the double, but for the negative zero. -/
theorem typedFloat?_of_whole {n : Int} (whole : wholeOfFloat? x = some n) (signed : x ≠ -0) :
    typedFloat? (decimalOfInt n) = some x := by
  obtain ⟨d, known, exact_value⟩ := Option.bind_eq_some_iff.mp whole
  have is_whole : d.IsWhole := by
    rw [← d.whole?_isSome_iff, exact_value]
    rfl
  obtain rfl : d.floor = n := by
    rw [BinaryFloat.whole?, if_pos is_whole] at exact_value
    exact Option.some.inj exact_value
  have size := BinaryFloat.natAbs_floor is_whole
  rw [typedFloat?_decimalOfInt, Option.some.injEq]
  by_cases zero : d.significand = 0
  · rw [zero, Nat.cast_zero, zero_mul, Nat.cast_eq_zero, Int.natAbs_eq_zero] at size
    have positive : d.negative = false := by
      cases negative : d.negative with
      | false => rfl
      | true =>
        have packed := Double.eq_pack_zero_of_ofFloat? known zero
        rw [negative] at packed
        exact absurd packed signed
    rw [size, Double.eq_pack_zero_of_ofFloat? known zero, positive]
    exact Double.nearest_zero false 0
  · obtain ⟨canonical, high⟩ := Double.canonical_of_ofFloat? known zero
    have sign : decide (d.floor < 0) = d.negative :=
      (Bool.decide_congr (BinaryFloat.floor_lt_zero_iff is_whole zero)).trans (Bool.decide_coe _)
    have near : Double.Near d.significand d.exponent ((d.floor.natAbs : ℚ) * 10 ^ (0 : ℤ)) := by
      rw [zpow_zero, mul_one, size]
      exact Double.near_self
    rw [sign, Double.nearest_of_near d.negative canonical near high]
    exact (Double.eq_pack_of_ofFloat? known zero).symm

theorem eq_of_not_isFinite (unbounded : x.isFinite = false) :
    x = .nan ∨ x = 1.0 / 0.0 ∨ x = -(1.0 / 0.0) := by
  have packed : x = .ofModel (.pack x.toModel.unpack) := (Float.ofBits_toBits x).symm
  have field : x.toModel.unpack.isFinite = false := unbounded
  cases unpacked : x.toModel.unpack with
  | notANumber =>
    rw [packed, unpacked]
    exact .inl rfl
  | infinity s =>
    rw [packed, unpacked]
    cases s with
    | positive => exact .inr (.inl rfl)
    | negative => exact .inr (.inr rfl)
  | zero s | finite s =>
    rw [unpacked] at field
    exact nomatch field

theorem typedFloat?_plainFloat (x : Float) : typedFloat? (plainFloat x) = some x := by
  cases finite : x.isFinite with
  | true => exact typedFloat?_of_tells (tells_writeFloat rfl .spoken finite)
  | false =>
    rcases eq_of_not_isFinite finite with rfl | rfl | rfl
    · rfl
    · rfl
    · rfl

end Numeral

end FleetMap
