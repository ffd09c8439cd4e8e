/-!
Doubles as exact numbers: a finite double is a whole number times a power of two. Whether it is
whole, and its floor, are read off that form, so they are exact however large the double is.
-/

set_option autoImplicit false

namespace FleetMap

/-- The number `± significand * 2 ^ exponent`; the sign stands apart because `-0.0` has one. -/
structure BinaryFloat where
  negative : Bool
  significand : Nat
  exponent : Int
  deriving DecidableEq, Repr

namespace BinaryFloat

/-- Reads the three fields of a binary64 word; a word of ones in the exponent holds no number. -/
def ofBits? (word : Nat) : Option BinaryFloat :=
  let negative : Bool := word / Nat.pow 2 63 % 2 == 1
  let biased : Nat := word / Nat.pow 2 52 % Nat.pow 2 11
  let fraction : Nat := word % Nat.pow 2 52
  if biased = 2047 then none
  else if biased = 0 then some ⟨negative, fraction, -1074⟩
  else some ⟨negative, Nat.pow 2 52 + fraction, (biased : Int) - 1075⟩

/-- The exact value of a finite double. -/
def ofFloat? (x : Float) : Option BinaryFloat := ofBits? x.toBits.toNat

/-- The significand with its sign; both zeros give zero. -/
def signed (d : BinaryFloat) : Int := if d.negative then -(d.significand : Int) else d.significand

/-- The largest integer that is not above the number. -/
def floor (d : BinaryFloat) : Int :=
  if 0 ≤ d.exponent then d.signed * Nat.pow 2 d.exponent.toNat
  else d.signed / Nat.pow 2 (-d.exponent).toNat

/-- The number is whole exactly when the power of two that divides it leaves nothing. -/
def IsWhole (d : BinaryFloat) : Prop :=
  0 ≤ d.exponent ∨ Nat.pow 2 (-d.exponent).toNat ∣ d.significand

instance (d : BinaryFloat) : Decidable d.IsWhole := by unfold IsWhole; infer_instance

/-- A whole number as an integer. -/
def whole? (d : BinaryFloat) : Option Int := if d.IsWhole then some d.floor else none

theorem whole?_isSome_iff (d : BinaryFloat) : d.whole?.isSome ↔ d.IsWhole := by
  unfold whole?
  split <;> simp_all

end BinaryFloat

/-- The exact integer that a whole double denotes. -/
def wholeOfFloat? (x : Float) : Option Int := (BinaryFloat.ofFloat? x).bind BinaryFloat.whole?

end FleetMap
