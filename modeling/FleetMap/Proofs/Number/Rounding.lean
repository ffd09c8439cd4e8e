import FleetMap.Projection
import FleetMap.Proofs.Number.Double

set_option autoImplicit false

namespace FleetMap

open Float.Model Float.Model.UnpackedFloat

namespace Double

/-- An unpacked number that is zero or whose exponent is within bounds. -/
def Fits : UnpackedFloat → Prop
  | .zero _ => True
  | .finite _ _ e _ => e ≤ 971
  | .infinity _ | .notANumber => False

theorem mantissa_shiftRight (em : ExtendedMantissa) (n : Nat) :
    (em >>> n).mantissa = em.mantissa / 2 ^ n := by
  induction n with
  | zero => simp [HShiftRight.hShiftRight, Nat.repeat]
  | succ n ih =>
    change (em >>> n).mantissa / 2 = _
    rw [ih, Nat.div_div_eq_div_mul, Nat.pow_succ]

theorem roundBit_shiftRight (em : ExtendedMantissa) (n : Nat) :
    (em >>> (n + 1)).roundBit = (em.mantissa / 2 ^ n % 2 != 0) := by
  change ((em >>> n).mantissa % 2 != 0) = _
  rw [mantissa_shiftRight]

theorem roundedMantissa_le (em : ExtendedMantissa) :
    em.roundedMantissa ≤ em.mantissa + em.roundBit.toNat := by
  obtain ⟨m, round, sticky⟩ := em
  cases round <;> cases sticky
  · exact Nat.le_refl _
  · exact Nat.le_refl _
  · change m + m % 2 ≤ m + 1
    omega
  · exact Nat.le_refl _

/-- Shifting out bits one by one, of which the last may be rounded up. -/
theorem roundedMantissa_shiftRight_le (em : ExtendedMantissa) (n : Nat) :
    (em >>> (n + 1)).roundedMantissa ≤ (em.mantissa / 2 ^ n + 1) / 2 := by
  have bound := roundedMantissa_le (em >>> (n + 1))
  rw [mantissa_shiftRight, roundBit_shiftRight, Nat.pow_succ, ← Nat.div_div_eq_div_mul] at bound
  have bit : (em.mantissa / 2 ^ n % 2 != 0).toNat = em.mantissa / 2 ^ n % 2 := by
    rcases Nat.mod_two_eq_zero_or_one (em.mantissa / 2 ^ n) with even | odd
    · simp [even]
    · simp [odd]
  rw [bit] at bound
  omega

theorem targetExponent_eq (m : Nat) (e : Int) :
    Format.binary64.targetExponent (totalExponent m e) =
      max ((m.log2 : Int) + 1 + e - 53) (-1074) := rfl

/-- A magnitude less than half a unit above the largest finite double. -/
def Below (m : Nat) (e : Int) : Prop := e ≤ 970 ∧ m < (2 ^ 54 - 1) * 2 ^ (970 - e).toNat

theorem log2_succ_le {m n : Nat} (bound : m < 2 ^ n) (pos : 0 < n) : m.log2 + 1 ≤ n := by
  by_cases zero : m = 0
  · rw [zero]
    exact pos
  · exact (Nat.log2_lt zero).mpr bound

theorem targetExponent_le {m : Nat} {e : Int} (below : Below m e) :
    Format.binary64.targetExponent (totalExponent m e) ≤ 971 := by
  obtain ⟨low, bound⟩ := below
  have wide : m < 2 ^ ((970 - e).toNat + 54) := by
    rw [Nat.pow_add, Nat.mul_comm]
    exact Nat.lt_of_lt_of_le bound (Nat.mul_le_mul_right _ (by decide))
  have bits := log2_succ_le wide (by omega)
  rw [targetExponent_eq]
  omega

/-- Once rounded to its exponent, a number has room for its bits up to the largest double. -/
theorem roundedMantissa_lt {m : Nat} {e : Int} (below : Below m e) {n : Nat}
    (fits : e + n ≤ 971) :
    ((ExtendedMantissa.mk m false false) >>> n).roundedMantissa < 2 ^ (1024 - (e + n)).toNat := by
  obtain ⟨low, bound⟩ := below
  cases n with
  | zero =>
    change m < _
    have room : (1024 - (e + (0 : Nat))).toNat = (970 - e).toNat + 54 := by omega
    rw [room, Nat.pow_add, Nat.mul_comm]
    exact Nat.lt_of_lt_of_le bound (Nat.mul_le_mul_right _ (by decide))
  | succ k =>
    have rounded := roundedMantissa_shiftRight_le (ExtendedMantissa.mk m false false) k
    let spare := (971 - (e + (k + 1 : Nat))).toNat
    have split_exponent : (970 - e).toNat = spare + k := by omega
    have room : (1024 - (e + (k + 1 : Nat))).toNat = spare + 53 := by omega
    have shifted : m / 2 ^ k < (2 ^ 54 - 1) * 2 ^ spare := by
      apply (Nat.div_lt_iff_lt_mul (Nat.two_pow_pos k)).mpr
      rw [Nat.mul_assoc, ← Nat.pow_add, ← split_exponent]
      exact bound
    rw [room, Nat.pow_add]
    have spare_pos := Nat.two_pow_pos spare
    change _ ≤ (m / 2 ^ k + 1) / 2 at rounded
    generalize 2 ^ spare = p at shifted spare_pos ⊢
    omega

theorem fits_roundWithAccuracy (s : Sign) {m : Nat} {e : Int} (below : Below m e) :
    Fits (roundWithAccuracy Format.binary64 s m e .exact) := by
  have target_bound := targetExponent_le below
  have low := below.1
  unfold roundWithAccuracy shiftToTargetExponent shiftToExponent
  generalize Format.binary64.targetExponent (totalExponent m e) = t at target_bound
  dsimp only [ExtendedMantissa.ofMantissaAndAccuracy]
  have rounded := roundedMantissa_lt below (n := (t - e).toNat) (by omega)
  generalize ((ExtendedMantissa.mk m false false) >>> (t - e).toNat).roundedMantissa = r at rounded
  have bits := log2_succ_le rounded (by omega)
  split
  · trivial
  · change e + ((t - e).toNat : Int) + _ ≤ 971
    rw [targetExponent_eq]
    omega

theorem fits_round (s : Sign) {m : Nat} {e : Int} (below : Below m e) :
    Fits (UnpackedFloat.round Format.binary64 s m e) := by
  obtain ⟨low, bound⟩ := below
  unfold UnpackedFloat.round decreaseExponent
  dsimp only
  generalize Format.binary64.targetExponent (totalExponent m e) = t
  apply fits_roundWithAccuracy
  refine ⟨by omega, ?_⟩
  have room : (970 - (e - ((e - t).toNat : Int))).toNat = (970 - e).toNat + (e - t).toNat := by
    omega
  rw [room, Nat.pow_add, ← Nat.mul_assoc, Nat.shiftLeft_eq]
  exact Nat.mul_lt_mul_of_pos_right bound (Nat.two_pow_pos _)

theorem fits_normalize {m : Int} {e : Int} (below : Below m.natAbs e) (zero : Sign) :
    Fits (UnpackedFloat.normalize Format.binary64 m e zero) := by
  unfold UnpackedFloat.normalize
  split
  · rename_i negative
    have sign := Int.compare_eq_lt.mp negative
    have magnitude : (-m).toNat = m.natAbs := by omega
    rw [magnitude]
    exact fits_round .negative below
  · trivial
  · rename_i positive
    have sign := Int.compare_eq_gt.mp positive
    have magnitude : m.toNat = m.natAbs := by omega
    rw [magnitude]
    exact fits_round .positive below

theorem biased_packComponents (s : Sign) (exponent : BitVec 11) (mantissa : BitVec 52) :
    biased (packComponents Format.binary64 s exponent mantissa) = exponent.toNat := by
  unfold biased
  rw [← toNat_unpackExponent, unpackExponent_packComponents]

theorem isFinite_pack {f : UnpackedFloat} (fits : Fits f) :
    (Float.ofModel (Float.Model.pack f)).isFinite = true := by
  change (UnpackedFloat.unpack Format.binary64 (UnpackedFloat.pack Format.binary64 f)).isFinite =
    true
  rw [isFinite_unpack, decide_eq_true_eq]
  cases f with
  | infinity s => exact fits.elim
  | notANumber => exact fits.elim
  | zero s =>
    change biased (packComponents Format.binary64 s 0#11 0#52) ≠ 2047
    rw [biased_packComponents]
    decide
  | finite s m e pos =>
    have bound : e ≤ 971 := fits
    have room : (e + (1023 : Nat) + (52 : Nat)).toNat < 2047 := by omega
    have bounded : ¬ 2 ^ 11 ≤ (e + (1023 : Nat) + (52 : Nat)).toNat + 1 := by omega
    unfold UnpackedFloat.pack
    change biased (if 2 ^ 11 ≤ (e + (1023 : Nat) + (52 : Nat)).toNat + 1 then _ else _) ≠ 2047
    rw [if_neg bounded]
    split
    · rw [biased_packComponents, BitVec.toNat_ofNat]
      change (e + (1023 : Nat) + (52 : Nat)).toNat % 2 ^ 11 ≠ 2047
      omega
    · rw [biased_packComponents]
      decide

theorem unpack_half : (0.5 : Float).toModel.unpack = .finite .positive (2 ^ 52) (-53) (by decide) :=
  rfl

theorem natAbs_apply_add_le (s : Sign) (a b : Nat) : (s.apply a + b).natAbs ≤ a + b := by
  cases s with
  | positive =>
    change ((a : Int) + b).natAbs ≤ a + b
    omega
  | negative =>
    change (-(a : Int) + b).natAbs ≤ a + b
    omega

/-- Adding one half to a number as large as doubles get stays below the bound of rounding. -/
theorem below_add_half {m : Nat} {e : Int} (significand : m < 2 ^ 53) (low : -1074 ≤ e)
    (high : e ≤ 971) :
    Below (m <<< (e - min e (-53)).toNat + 2 ^ 52 <<< (-53 - min e (-53)).toNat) (min e (-53)) := by
  refine ⟨by omega, ?_⟩
  rw [Nat.shiftLeft_eq, Nat.shiftLeft_eq]
  rcases Int.le_total (-53) e with large | small
  · rw [Int.min_eq_right large]
    generalize room : (970 - (-53 : Int)).toNat = k
    have magnitude : m * 2 ^ (e - -53).toNat ≤ (2 ^ 53 - 1) * 2 ^ (k + 1) :=
      Nat.mul_le_mul (by omega) (Nat.pow_le_pow_right (by decide) (by omega))
    have half : (2 : Nat) ^ 52 < 2 ^ k := Nat.pow_lt_pow_right (by decide) (by omega)
    have unshifted : ((-53 : Int) - -53).toNat = 0 := rfl
    have unit : (2 : Nat) ^ (k + 1) = 2 ^ k * 2 := Nat.pow_succ 2 k
    rw [unit] at magnitude
    rw [unshifted]
    generalize 2 ^ k = p at magnitude half ⊢
    omega
  · rw [Int.min_eq_left small]
    have unshifted : (e - e).toNat = 0 := by omega
    have shift : (970 - e).toNat = (-53 - e).toNat + 1023 := by omega
    have unit : (2 : Nat) ^ 53 ≤ 2 ^ (970 - e).toNat :=
      Nat.pow_le_pow_right (by decide) (by omega)
    have half : 2 ^ 52 * 2 ^ (-53 - e).toNat ≤ 2 ^ (970 - e).toNat := by
      rw [← Nat.pow_add]
      exact Nat.pow_le_pow_right (by decide) (by omega)
    rw [unshifted]
    generalize 2 ^ (970 - e).toNat = p at unit half ⊢
    omega

theorem isFinite_add_half {x : Float} (finite : x.isFinite = true) :
    (x + 0.5).isFinite = true := by
  change (Float.ofModel (Float.Model.pack (UnpackedFloat.add Format.binary64 x.toModel.unpack
    (0.5 : Float).toModel.unpack))).isFinite = true
  apply isFinite_pack
  rw [unpack_half]
  change x.toModel.unpack.isFinite = true at finite
  cases unpacked : x.toModel.unpack with
  | infinity s | notANumber =>
    rw [unpacked] at finite
    exact nomatch finite
  | zero s =>
    change (-53 : Int) ≤ 971
    decide
  | finite s m e pos =>
    obtain ⟨significand, low, high⟩ := bounds_of_unpack _ unpacked
    obtain ⟨exponent, magnitude⟩ := below_add_half significand low high
    apply fits_normalize
    exact ⟨exponent, Nat.lt_of_le_of_lt (natAbs_apply_add_le s _ _) magnitude⟩

end Double

theorem roundHalfUp_of_isFinite {x : Float} (finite : x.isFinite = true) :
    ∃ n, roundHalfUp x = .ok n := by
  have exact_sum := Double.ofFloat?_isSome (x + 0.5)
  rw [Double.isFinite_add_half finite] at exact_sum
  obtain ⟨d, sum⟩ := Option.isSome_iff_exists.mp exact_sum
  refine ⟨d.floor, ?_⟩
  unfold roundHalfUp
  simp only [sum]

end FleetMap
