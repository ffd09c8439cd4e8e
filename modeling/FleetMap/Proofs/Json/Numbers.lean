import FleetMap.Json.Reader
import FleetMap.Json.Writer
import FleetMap.Proofs.Number.Parts

set_option autoImplicit false

namespace FleetMap

def NoDigitHead (cs : List Char) : Prop := ∀ c, cs.head? = some c → c.isDigit = false

def EndsNumber (c : Char) : Prop := c.isDigit = false ∧ c ≠ '.' ∧ c ≠ 'e' ∧ c ≠ 'E'

instance (c : Char) : Decidable (EndsNumber c) := inferInstanceAs (Decidable (_ ∧ _))

def LeavesNumber (cs : List Char) : Prop := ∀ c, cs.head? = some c → EndsNumber c

theorem leavesNumber_cons {c : Char} (ends : EndsNumber c) (cs : List Char) :
    LeavesNumber (c :: cs) := by
  rintro d same
  obtain rfl := Option.some.inj same
  exact ends

theorem LeavesNumber.noDigitHead {cs : List Char} (leaves : LeavesNumber cs) : NoDigitHead cs :=
  fun c head => (leaves c head).1

theorem noDigitHead_cons {c : Char} {cs : List Char} (other : c.isDigit = false) :
    NoDigitHead (c :: cs) := by
  rintro d same
  obtain rfl := Option.some.inj same
  exact other

/-- Digits are read up to the first character that is none. -/
theorem Numeral.digits_append {ds rest : List Char} (all : ∀ c ∈ ds, c.isDigit = true)
    (stop : NoDigitHead rest) : Numeral.digits (ds ++ rest) = (ds, rest) := by
  unfold Numeral.digits
  rw [List.takeWhile_append_of_pos all, List.dropWhile_append_of_pos all]
  cases rest with
  | nil => simp
  | cons c rest =>
    have other : c.isDigit = false := stop c rfl
    simp [other]

namespace Json

open Numeral

/-- Behind the digits before the point there may be anything but a digit. -/
theorem readWhole_append {ds rest : List Char} (whole : IsWhole ds) (stop : NoDigitHead rest) :
    readWhole (ds ++ rest) = (ds, rest) := by
  rcases whole.alone with rfl | not_zero
  · rfl
  · rw [readWhole, digits_append whole.digits stop]
    intro more same
    have nonempty := whole.nonempty
    have head : (ds ++ rest).head? = ds.head? := List.head?_append_of_ne_nil ds nonempty
    rw [same] at head
    exact not_zero head.symm

theorem readFraction_parts {p : Parts} (wellFormed : p.WellFormed) {rest : List Char}
    (stop : NoDigitHead rest) (no_point : p.fraction = [] → rest.head? ≠ some '.') :
    readFraction (p.fractionText ++ rest) =
      (if p.fraction = [] then none else some p.fraction, rest) := by
  unfold Parts.fractionText
  split
  · rename_i whole
    have other := no_point whole
    rw [List.nil_append]
    unfold readFraction
    split
    · exact absurd rfl other
    · rfl
  · rename_i broken
    simp only [List.cons_append, readFraction, digits_append wellFormed.fraction stop]
    rw [if_neg broken]

theorem readExponent_parts {p : Parts} (wellFormed : p.WellFormed) {rest : List Char}
    (leaves : LeavesNumber rest) :
    readExponent (p.exponentText ++ rest) =
      (p.exponent.map fun (negative, ds) => signedValue negative ds, rest) := by
  unfold Parts.exponentText
  cases given : p.exponent with
  | none =>
    cases rest with
    | nil => rfl
    | cons c rest =>
      obtain ⟨_, _, no_e, no_E⟩ := leaves c rfl
      simp [readExponent, no_e, no_E]
  | some e =>
    obtain ⟨negative, ds⟩ := e
    have digits := wellFormed.exponent _ given
    have read := digits_append digits.digits leaves.noDigitHead
    cases negative with
    | true => simp [readExponent, sign, read, digits.nonempty]
    | false => simp [readExponent, sign, read, digits.nonempty]

theorem noDigitHead_exponentText {p : Parts} {rest : List Char} (leaves : LeavesNumber rest) :
    NoDigitHead (p.exponentText ++ rest) ∧ (p.exponentText ++ rest).head? ≠ some '.' := by
  unfold Parts.exponentText
  cases p.exponent with
  | none => exact ⟨leaves.noDigitHead, fun point => (leaves _ point).2.1 rfl⟩
  | some e => exact ⟨noDigitHead_cons (by decide), by simp⟩

theorem noDigitHead_fractionText {p : Parts} {rest : List Char} (stop : NoDigitHead rest) :
    NoDigitHead (p.fractionText ++ rest) := by
  unfold Parts.fractionText
  split
  · exact stop
  · exact noDigitHead_cons (by decide)

theorem readSign {ds rest cs : List Char} (digits : IsDigits ds) {negative : Bool} :
    cs = (if negative then ['-'] else []) ++ (ds ++ rest) →
      (match cs with
        | '-' :: more => (true, more)
        | _ => (false, cs)) = (negative, ds ++ rest) := by
  rintro rfl
  cases negative with
  | true => rfl
  | false =>
    cases ds with
    | nil => exact absurd rfl digits.nonempty
    | cons d ds =>
      have digit := digits.digits d List.mem_cons_self
      simp only [Bool.false_eq_true, if_false, List.nil_append, List.cons_append]
      split
      · rename_i same
        rw [(List.cons.inj same).1] at digit
        exact absurd digit (by decide)
      · rfl

/-- The reader finds the parts of a numeral and what follows it. -/
theorem readNumber_text {p : Parts} (wellFormed : p.WellFormed) {rest : List Char}
    (leaves : LeavesNumber rest) :
    readNumber (p.text ++ rest) =
      if p.fraction = [] ∧ p.exponent = none then
        if digitLimit < p.whole.length then .error (.tooLong p.whole.length)
        else .ok (.int (signedValue p.negative p.whole), rest)
      else .ok (.float (nearest p.negative p.coefficient p.power), rest) := by
  obtain ⟨stop, no_point⟩ := noDigitHead_exponentText (p := p) leaves
  have text : p.text ++ rest = (if p.negative then ['-'] else []) ++
      (p.whole ++ (p.fractionText ++ (p.exponentText ++ rest))) := by simp [Parts.text]
  unfold readNumber
  split
  rename_i negative body signed
  obtain ⟨rfl, rfl⟩ := Prod.mk.inj
    (signed.symm.trans (readSign wellFormed.whole.toIsDigits text))
  simp only [readWhole_append wellFormed.whole (noDigitHead_fractionText stop),
    readFraction_parts wellFormed stop (fun _ => no_point),
    readExponent_parts wellFormed leaves]
  rw [if_neg wellFormed.whole.nonempty]
  by_cases broken : p.fraction = []
  · cases given : p.exponent with
    | none => simp [broken]
    | some e => simp [broken, given, Parts.coefficient, Parts.power]
  · cases given : p.exponent with
    | none => simp [broken, given, Parts.coefficient, Parts.power]
    | some e => simp [broken, given, Parts.coefficient, Parts.power]

theorem decimalOfInt_eq_text (n : Int) :
    (decimalOfInt n).toList =
      (Parts.mk (decide (n < 0)) (Nat.toDigits 10 n.natAbs) [] none).text := by
  cases n with
  | ofNat n =>
    simp [decimalOfInt, Parts.text, Parts.fractionText, Parts.exponentText]
  | negSucc n =>
    have negative : Int.negSucc n < 0 := Int.negSucc_lt_zero n
    simp [decimalOfInt, Parts.text, Parts.fractionText, Parts.exponentText, negative]

theorem wellFormed_int (negative : Bool) (n : Nat) :
    (Parts.mk negative (Nat.toDigits 10 n) [] none).WellFormed :=
  ⟨isWhole_toDigits n, by simp, by simp⟩

theorem readNumber_decimalOfInt {n : Int} (short : (Nat.toDigits 10 n.natAbs).length ≤ digitLimit)
    {rest : List Char} (leaves : LeavesNumber rest) :
    readNumber ((decimalOfInt n).toList ++ rest) = .ok (.int n, rest) := by
  have value : signedValue (decide (n < 0)) (Nat.toDigits 10 n.natAbs) = n :=
    signedValue_eq Nat.ofDigitChars_ten_toDigits
  rw [decimalOfInt_eq_text, readNumber_text (wellFormed_int _ _) leaves, if_pos ⟨rfl, rfl⟩,
    if_neg (Nat.not_lt.mpr short), value]

theorem readNumber_of_tells {text : List Char} {x : Float} (tells : Tells text x)
    {rest : List Char} (leaves : LeavesNumber rest) :
    readNumber (text ++ rest) = .ok (.float x, rest) := by
  obtain ⟨p, wellFormed, not_plain, rfl, rfl⟩ := tells
  exact (readNumber_text wellFormed leaves).trans (if_neg not_plain)

def BeginsNumber (cs : List Char) : Prop :=
  ∃ d more, d.isDigit = true ∧ (cs = d :: more ∨ cs = '-' :: d :: more)

theorem BeginsNumber.append {cs : List Char} (begins : BeginsNumber cs) (rest : List Char) :
    BeginsNumber (cs ++ rest) := by
  obtain ⟨d, more, digit, rfl | rfl⟩ := begins
  · exact ⟨d, more ++ rest, digit, .inl rfl⟩
  · exact ⟨d, more ++ rest, digit, .inr rfl⟩

theorem beginsNumber_text {p : Parts} (wellFormed : p.WellFormed) : BeginsNumber p.text := by
  have digits := wellFormed.whole.toIsDigits
  cases whole : p.whole with
  | nil => exact absurd whole digits.nonempty
  | cons d ds =>
    refine ⟨d, ds ++ (p.fractionText ++ p.exponentText), ?_, ?_⟩
    · exact digits.digits d (by simp [whole])
    · cases signed : p.negative with
      | true => exact .inr (by simp [Parts.text, signed, whole])
      | false => exact .inl (by simp [Parts.text, signed, whole])

theorem beginsNumber_decimalOfInt (n : Int) : BeginsNumber (decimalOfInt n).toList := by
  rw [decimalOfInt_eq_text]
  exact beginsNumber_text (wellFormed_int _ _)

theorem beginsNumber_of_tells {text : List Char} {x : Float} (tells : Tells text x) :
    BeginsNumber text := by
  obtain ⟨p, wellFormed, _, rfl, _⟩ := tells
  exact beginsNumber_text wellFormed

theorem readScalar_of_number {cs : List Char} (begins : BeginsNumber cs) :
    readScalar cs = readNumber cs := by
  obtain ⟨d, more, digit, text⟩ := begins
  have first : ∀ {c : Char}, c.isDigit = false → c ≠ d := by
    rintro c other rfl
    rw [digit] at other
    exact nomatch other
  rcases text with rfl | rfl
  · rw [readScalar]
    all_goals
      intro rest same
      exact first (by decide) (List.cons.inj same).1.symm
  · rw [readScalar]
    all_goals
      intro rest same
      simp only [List.cons.injEq, Char.reduceEq, false_and, true_and] at same
    -- minus infinity is the one word that begins with a minus
    exact first (by decide) same.1.symm

end Json

end FleetMap
