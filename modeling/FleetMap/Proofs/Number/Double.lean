import FleetMap.Value
import Mathlib

set_option autoImplicit false

namespace FleetMap

open Float.Model Float.Model.UnpackedFloat

namespace Double

section Fields

variable (b : BitVec Format.binary64.numBits)

theorem toNat_unpackExponent : (unpackExponent b).toNat = b.toNat / 2 ^ 52 % 2 ^ 11 := by
  simp [unpackExponent, BitVec.extractLsb_toNat, Nat.shiftRight_eq_div_pow]

theorem toNat_unpackMantissa : (unpackMantissa b).toNat = b.toNat % 2 ^ 52 := by
  simp [unpackMantissa, BitVec.extractLsb_toNat]

theorem unpackExponent_eq_ones : unpackExponent b = -1#_ ↔ b.toNat / 2 ^ 52 % 2 ^ 11 = 2047 := by
  rw [← toNat_unpackExponent]
  constructor
  · intro ones
    rw [ones]
    rfl
  · intro ones
    exact BitVec.eq_of_toNat_eq ones

theorem unpackExponent_eq_zero : unpackExponent b = 0#_ ↔ b.toNat / 2 ^ 52 % 2 ^ 11 = 0 := by
  rw [← toNat_unpackExponent]
  exact ⟨fun zero => by rw [zero]; rfl, fun zero => BitVec.eq_of_toNat_eq zero⟩

/-- The significand of a normal number has the hidden bit. -/
theorem toNat_withHiddenBit :
    ((1#1 ++ unpackMantissa b : BitVec (1 + 52))).toNat = 2 ^ 52 + b.toNat % 2 ^ 52 := by
  have bound := (unpackMantissa b).isLt
  have joined : ((1#1 ++ unpackMantissa b : BitVec (1 + 52))).toNat =
      2 ^ 52 + (unpackMantissa b).toNat := by
    simp only [BitVec.toNat_append]
    rw [← Nat.shiftLeft_add_eq_or_of_lt bound]
    rfl
  rw [joined, toNat_unpackMantissa]

/-- The exponent field as a number; all ones stand for what is not finite. -/
def biased : Nat := b.toNat / 2 ^ 52 % 2 ^ 11

def fraction : Nat := b.toNat % 2 ^ 52

/-- What the exponent field and the fraction of a double say about its unpacked form. -/
def Tells : UnpackedFloat → Prop
  | .infinity _ | .notANumber => biased b = 2047
  | .zero _ => biased b = 0
  | .finite _ m e _ =>
    biased b = 0 ∧ m = fraction b ∧ e = -1074 ∨
      biased b ≠ 0 ∧ biased b ≠ 2047 ∧ m = 2 ^ 52 + fraction b ∧ e = (biased b : Int) - 1075

theorem tells_unpack : Tells b (UnpackedFloat.unpack Format.binary64 b) := by
  unfold UnpackedFloat.unpack
  dsimp only
  split
  · rename_i ones
    have full := (unpackExponent_eq_ones b).mp ones
    split
    · exact full
    · exact full
  · rename_i bounded
    have not_full := mt (unpackExponent_eq_ones b).mpr bounded
    split
    · rename_i small
      have empty := (unpackExponent_eq_zero b).mp small
      split
      · exact empty
      · refine .inl ⟨empty, toNat_unpackMantissa b, ?_⟩
        rw [toNat_unpackExponent, empty]
        rfl
    · rename_i normal
      have not_empty := mt (unpackExponent_eq_zero b).mpr normal
      refine .inr ⟨not_empty, not_full, toNat_withHiddenBit b, ?_⟩
      rw [toNat_unpackExponent]
      rfl

/-- A significand has 53 bits at most, and exponents stay within bounds. -/
theorem bounds_of_unpack {s : Sign} {m : Nat} {e : Int} {pos : 0 < m}
    (unpacked : UnpackedFloat.unpack Format.binary64 b = .finite s m e pos) :
    m < 2 ^ 53 ∧ -1074 ≤ e ∧ e ≤ 971 := by
  have tells := tells_unpack b
  rw [unpacked] at tells
  simp only [Tells, biased, fraction] at tells
  omega

theorem isFinite_unpack :
    (UnpackedFloat.unpack Format.binary64 b).isFinite = decide (biased b ≠ 2047) := by
  have tells := tells_unpack b
  cases unpacked : UnpackedFloat.unpack Format.binary64 b with
  | infinity s | notANumber =>
    rw [unpacked] at tells
    have full : biased b = 2047 := tells
    simp [UnpackedFloat.isFinite, full]
  | zero s =>
    rw [unpacked] at tells
    have empty : biased b = 0 := tells
    simp [UnpackedFloat.isFinite, empty]
  | finite s m e pos =>
    rw [unpacked] at tells
    have not_full : biased b ≠ 2047 := by
      rcases tells with ⟨empty, _⟩ | ⟨_, not_full, _⟩
      · omega
      · exact not_full
    simp [UnpackedFloat.isFinite, not_full]

end Fields

theorem ofFloat?_isSome (x : Float) : (BinaryFloat.ofFloat? x).isSome = x.isFinite := by
  have finite : x.isFinite = decide (biased x.toModel.toBits.toBitVec ≠ 2047) :=
    isFinite_unpack x.toModel.toBits.toBitVec
  have field : biased x.toModel.toBits.toBitVec =
      x.toBits.toNat / Nat.pow 2 52 % Nat.pow 2 11 := rfl
  rw [finite, field]
  unfold BinaryFloat.ofFloat? BinaryFloat.ofBits?
  dsimp only
  split
  · rename_i full
    rw [full]
    rfl
  · rename_i not_full
    rw [decide_eq_true not_full]
    split
    · rfl
    · rfl

def IsZero (x : Float) : Prop := x = 0 ∨ x = -0

theorem isZero_pack_zero (s : Sign) : IsZero (.ofModel (.pack (.zero s))) := by
  cases s with
  | positive => exact .inl rfl
  | negative => exact .inr rfl

end Double

section Same

variable {x y z : Float}

/-- Numbers are the same by value exactly if they are equal or both zero. -/
theorem sameFloat_iff : sameFloat x y = true ↔ x = y ∨ Double.IsZero x ∧ Double.IsZero y := by
  have nan : ∀ {x : Float}, x.isNaN = true ↔ x = .nan := by
    intro x
    rw [Float.isNaN_eq_decide_eq_nan, decide_eq_true_eq]
  unfold sameFloat
  rw [Bool.or_eq_true, Bool.and_eq_true, Float.beq_iff_ne_nan_and_eq, nan, nan]
  constructor
  · rintro (⟨_, _, same | ⟨zero_x, zero_y⟩ | ⟨zero_x, zero_y⟩⟩ | ⟨nan_x, nan_y⟩)
    · exact .inl same
    · exact .inr ⟨.inl zero_x, .inr zero_y⟩
    · exact .inr ⟨.inr zero_x, .inl zero_y⟩
    · exact .inl (nan_x.trans nan_y.symm)
  · rintro (rfl | ⟨rfl | rfl, rfl | rfl⟩)
    · by_cases nan_x : x = .nan
      · exact .inr ⟨nan_x, nan_x⟩
      · exact .inl ⟨nan_x, nan_x, .inl rfl⟩
    all_goals exact .inl (Float.beq_iff_ne_nan_and_eq.mp rfl)

theorem sameFloat_self (x : Float) : sameFloat x x = true := sameFloat_iff.mpr (.inl rfl)

theorem sameFloat_symm (same : sameFloat x y = true) : sameFloat y x = true := by
  rcases sameFloat_iff.mp same with rfl | ⟨zero_x, zero_y⟩
  · exact same
  · exact sameFloat_iff.mpr (.inr ⟨zero_y, zero_x⟩)

theorem sameFloat_of_third (first : sameFloat x z = true) (second : sameFloat y z = true) :
    sameFloat x y = true := by
  rcases sameFloat_iff.mp first with rfl | ⟨zero_x, zero_z⟩
  · exact sameFloat_symm second
  · rcases sameFloat_iff.mp second with rfl | ⟨zero_y, _⟩
    · exact first
    · exact sameFloat_iff.mpr (.inr ⟨zero_x, zero_y⟩)

/-- Whatever does not tell the zeros apart does not tell numbers apart that are the same. -/
theorem eq_of_sameFloat {α : Type} (f : Float → α) (zeros : f 0 = f (-0))
    (same : sameFloat x y = true) : f x = f y := by
  rcases sameFloat_iff.mp same with rfl | ⟨rfl | rfl, rfl | rfl⟩
  · rfl
  · rfl
  · exact zeros
  · exact zeros.symm
  · rfl

/-- A product with a zero is a zero, or the other factor is not finite and both products are no
numbers. -/
theorem sameFloat_mul_zeros (c : Float) : sameFloat (c * 0) (c * -0) = true := by
  have product : ∀ z : Float, c * z = .ofModel (.pack (UnpackedFloat.mul Format.binary64
      c.toModel.unpack z.toModel.unpack)) := fun _ => rfl
  have positive : (0 : Float).toModel.unpack = .zero .positive := rfl
  have negative : (-0 : Float).toModel.unpack = .zero .negative := rfl
  rw [product, product, positive, negative, sameFloat_iff]
  cases c.toModel.unpack with
  | notANumber | infinity => exact .inl rfl
  | zero s | finite s => exact .inr ⟨Double.isZero_pack_zero _, Double.isZero_pack_zero _⟩

theorem sameFloat_mul (c : Float) (same : sameFloat x y = true) :
    sameFloat (c * x) (c * y) = true := by
  rcases sameFloat_iff.mp same with rfl | ⟨rfl | rfl, rfl | rfl⟩
  · exact sameFloat_self _
  · exact sameFloat_self _
  · exact sameFloat_mul_zeros c
  · exact sameFloat_symm (sameFloat_mul_zeros c)
  · exact sameFloat_self _

end Same

end FleetMap
