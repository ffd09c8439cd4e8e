import FleetMap.Number.Numeral
import FleetMap.Proofs.Number.Nearest

set_option autoImplicit false

namespace FleetMap.Double

open Float.Model Float.Model.UnpackedFloat

/-- A power as a quotient of powers with natural exponents, one of which is zero. -/
theorem zpow_eq_div {b : ℚ} (nonzero : b ≠ 0) (e : ℤ) : b ^ e = b ^ e.toNat / b ^ (-e).toNat := by
  have split : e = e.toNat - ((-e).toNat : ℤ) := by omega
  nth_rewrite 1 [split]
  rw [zpow_sub₀ nonzero, zpow_natCast, zpow_natCast]

theorem near_self {m : ℕ} {e : ℤ} : Near m e (m * 2 ^ e) := by
  have unit : (0 : ℚ) < 2 ^ e := zpow_pos two_pos e
  have itself : (m : ℚ) * 2 ^ e / 2 ^ e = m := mul_div_cancel_right₀ _ unit.ne'
  left
  rw [itself]
  exact ⟨(reach_bounds m e).2, by linarith⟩

def Holds (u : UnpackedFloat) (r : ℚ) : Prop :=
  ∃ m e pos, u = .finite .positive m e pos ∧ (m : ℚ) * 2 ^ e = r ∧ 2 ^ 52 ≤ m

theorem mul_of_holds {u v : UnpackedFloat} {r q : ℚ} (left : Holds u r) (right : Holds v q)
    {n : ℕ} {f : ℤ} (canonical : Canonical n f) (near : Near n f (r * q)) :
    UnpackedFloat.mul Format.binary64 u v = .finite .positive n f canonical.pos := by
  obtain ⟨m₁, e₁, pos₁, rfl, rfl, long⟩ := left
  obtain ⟨m₂, e₂, pos₂, rfl, rfl, _⟩ := right
  exact mul_of_near .positive .positive canonical near (long.trans (Nat.le_mul_of_pos_right _ pos₂))

theorem div_of_holds {u v : UnpackedFloat} {r q : ℚ} (left : Holds u r) (right : Holds v q)
    {n : ℕ} {f : ℤ} (canonical : Canonical n f) (near : Near n f (r / q)) :
    UnpackedFloat.div Format.binary64 u v = .finite .positive n f canonical.pos := by
  obtain ⟨m₁, e₁, pos₁, rfl, rfl, _⟩ := left
  obtain ⟨m₂, e₂, pos₂, rfl, rfl, _⟩ := right
  exact div_of_near .positive .positive canonical near

section Whole

variable {n s : ℕ} (pos : 0 < n) (shift : s + n.log2 = 52)

include pos shift

/-- Shifted to 53 bits, a whole number is spelled as doubles are. -/
theorem canonical_shiftLeft : 2 ^ 52 ≤ n <<< s ∧ Canonical (n <<< s) (-(s : ℤ)) := by
  have long : 2 ^ 52 ≤ n <<< s := by
    rw [Nat.shiftLeft_eq, ← shift, pow_add, mul_comm]
    exact Nat.mul_le_mul_right _ (Nat.log2_self_le pos.ne')
  have below : n <<< s < 2 ^ 53 := by
    have wide : 2 ^ 53 = 2 ^ (n.log2 + 1) * 2 ^ s := by
      rw [← pow_add]
      congr 1
      omega
    rw [Nat.shiftLeft_eq, wide]
    exact Nat.mul_lt_mul_of_pos_right Nat.lt_log2_self (Nat.two_pow_pos s)
  exact ⟨long, by omega, below, by omega, .inl long⟩

omit pos shift in
theorem shiftLeft_mul_zpow (n s : ℕ) : ((n <<< s : ℕ) : ℚ) * 2 ^ (-(s : ℤ)) = n := by
  rw [Nat.shiftLeft_eq, zpow_neg, zpow_natCast]
  push_cast
  field_simp

/-- A whole number of at most 53 bits is converted exactly. -/
theorem ofNat_eq (canonical : Canonical (n <<< s) (-(s : ℤ))) :
    UnpackedFloat.ofNat Format.binary64 n =
      .finite .positive (n <<< s) (-(s : ℤ)) canonical.pos := by
  have value := shiftLeft_mul_zpow n s
  have order : compare (n : ℤ) 0 = .gt := Int.compare_eq_gt.mpr (by omega)
  have target : Format.binary64.targetExponent (totalExponent n 0) = -(s : ℤ) := by
    rw [targetExponent_eq]
    omega
  have marks : Marks (ExtendedMantissa.ofMantissaAndAccuracy (n <<< s) .exact)
      (n / 2 ^ (-(s : ℤ))) := by
    rw [← value, mul_div_cancel_right₀ _ (zpow_pos two_pos _).ne']
    rfl
  have near : Near (n <<< s) (-(s : ℤ)) n := by
    have near := near_self (m := n <<< s) (e := -(s : ℤ))
    rwa [value] at near
  have bits := (Nat.le_log2 canonical.pos.ne').mpr (canonical_shiftLeft pos shift).1
  show UnpackedFloat.normalize Format.binary64 n 0 .positive = _
  unfold UnpackedFloat.normalize UnpackedFloat.round decreaseExponent
  simp only [order, target, Int.zero_sub, Int.neg_neg, Int.toNat_natCast]
  apply roundWithAccuracy_of_near _ marks _ canonical near
  rw [targetExponent_eq]
  omega

end Whole

theorem holds_toFloat {n : ℕ} (pos : 0 < n) (bound : n < 2 ^ 53) :
    Holds n.toUInt64.toFloat.toModel.unpack n := by
  have short := log2_succ_le bound (by decide)
  obtain ⟨s, shift⟩ : ∃ s, s + n.log2 = 52 := ⟨52 - n.log2, by omega⟩
  obtain ⟨long, canonical⟩ := canonical_shiftLeft pos shift
  have word : n.toUInt64.toNat = n := by
    show n % 2 ^ 64 = n
    exact Nat.mod_eq_of_lt (by omega)
  refine ⟨n <<< s, -(s : ℤ), canonical.pos, ?_, shiftLeft_mul_zpow n s, long⟩
  show UnpackedFloat.unpack Format.binary64 (UnpackedFloat.pack Format.binary64
    (UnpackedFloat.ofNat Format.binary64 n.toUInt64.toNat)) = _
  rw [word, ofNat_eq pos shift canonical]
  exact unpack_pack canonical (by omega) .positive

/-- The powers of ten in the table, taken apart. -/
def IsPower (k : ℕ) (d : BinaryFloat) : Prop :=
  d.negative = false ∧ 2 ^ 52 ≤ d.significand ∧
    d.significand * 2 ^ d.exponent.toNat = 10 ^ k * 2 ^ (-d.exponent).toNat

instance (k : ℕ) (d : BinaryFloat) : Decidable (IsPower k d) := inferInstanceAs (Decidable (_ ∧ _))

theorem isPower_table : ∀ k : Fin Float.exactlyRepresentablePowersOfTen.size,
    ∃ d ∈ BinaryFloat.ofFloat? Float.exactlyRepresentablePowersOfTen[k], IsPower k d := by
  decide

theorem holds_power {k : ℕ} (listed : k < Float.exactlyRepresentablePowersOfTen.size) :
    Holds Float.exactlyRepresentablePowersOfTen[k].toModel.unpack (10 ^ k) := by
  obtain ⟨d, known, positive, long, value⟩ := isPower_table ⟨k, listed⟩
  have not_zero : d.significand ≠ 0 := by omega
  obtain ⟨canonical, high⟩ := canonical_of_ofFloat? known not_zero
  refine ⟨d.significand, d.exponent, canonical.pos, ?_, ?_, long⟩
  · have packed := eq_pack_of_ofFloat? known not_zero
    rw [positive] at packed
    change Float.exactlyRepresentablePowersOfTen[k] = _ at packed
    rw [packed]
    exact unpack_pack canonical high .positive
  · have exact_value : (d.significand : ℚ) * 2 ^ d.exponent.toNat =
        10 ^ k * 2 ^ (-d.exponent).toNat := by exact_mod_cast value
    rw [zpow_eq_div two_ne_zero, ← mul_div_assoc, exact_value,
      mul_div_cancel_right₀ _ (pow_ne_zero _ two_ne_zero)]

section Near

variable {n : ℕ} {f : ℤ} (canonical : Canonical n f) {r : ℚ} (near : Near n f r)

include canonical near

theorem zpow_le_of_near : (2 : ℚ) ^ (-1075 : ℤ) ≤ r := by
  have unit : (0 : ℚ) < 2 ^ f := zpow_pos two_pos f
  have lowest := canonical.low
  have one : (1 : ℚ) ≤ n := by exact_mod_cast canonical.pos
  have half : (1 : ℚ) / 2 ≤ r / 2 ^ f := by
    have low := near.bounds.1
    have reached := (reach_bounds n f).1
    linarith
  have scale : (2 : ℚ) ^ (-1075 : ℤ) ≤ 1 / 2 * 2 ^ f := by
    have least : (2 : ℚ) ^ (-1075 : ℤ) ≤ 2 ^ (f - 1) :=
      zpow_le_zpow_right₀ one_le_two (by omega)
    rw [zpow_sub_one₀ two_ne_zero] at least
    linarith
  exact scale.trans ((le_div_iff₀ unit).mp half)

theorem lt_zpow_of_near (high : f ≤ 971) : r < (2 : ℚ) ^ (1024 : ℤ) := by
  have unit : (0 : ℚ) < 2 ^ f := zpow_pos two_pos f
  have bound : (n : ℚ) + 1 ≤ 2 ^ 53 := by exact_mod_cast canonical.bound
  have below : r / 2 ^ f < 2 ^ 53 := by
    have top := near.bounds.2
    linarith
  have scale : (2 : ℚ) ^ 53 * 2 ^ f ≤ 2 ^ (1024 : ℤ) := by
    rw [← zpow_natCast, ← zpow_add₀ two_ne_zero]
    exact zpow_le_zpow_right₀ one_le_two (by omega)
  exact ((div_lt_iff₀ unit).mp below).trans_le scale

end Near

section Read

variable {c : ℕ} {k : ℤ} {n : ℕ} {f : ℤ} (canonical : Canonical n f)
  (near : Near n f ((c : ℚ) * 10 ^ k))

include canonical near

theorem coefficient_pos_of_near : 0 < c := by
  rcases Nat.eq_zero_or_pos c with rfl | pos
  · have low := zpow_le_of_near canonical near
    rw [Nat.cast_zero, zero_mul] at low
    exact absurd low (not_le.mpr (zpow_pos two_pos _))
  · exact pos

/-- The exponent of a numeral near a finite double is not too large. -/
theorem exponent_le_of_near (high : f ≤ 971) : k ≤ 2 ^ 11 := by
  by_contra large
  have top := lt_zpow_of_near canonical near high
  have pos := coefficient_pos_of_near canonical near
  have one : (1 : ℚ) ≤ c := by exact_mod_cast pos
  have power : (2 : ℚ) ^ (1024 : ℤ) ≤ 10 ^ k := by
    calc (2 : ℚ) ^ (1024 : ℤ) ≤ 2 ^ k := zpow_le_zpow_right₀ one_le_two (by omega)
      _ ≤ 10 ^ k := zpow_le_zpow_left₀ (by omega) (by norm_num) (by norm_num)
  have scaled : (10 : ℚ) ^ k ≤ c * 10 ^ k :=
    le_mul_of_one_le_left (zpow_pos (by norm_num) k).le one
  linarith

/-- The exponent of a numeral near a double is not too small for its coefficient. -/
theorem le_exponent_of_near : -((2 ^ 11 : ℤ) + c.log2) ≤ k := by
  by_contra small
  have low := zpow_le_of_near canonical near
  have pos := coefficient_pos_of_near canonical near
  have coefficient : (c : ℚ) < 2 ^ (c.log2 + 1) := by exact_mod_cast Nat.lt_log2_self
  have power : (10 : ℚ) ^ k ≤ 2 ^ k := by
    have inverse : (2 : ℚ) ^ (-k) ≤ 10 ^ (-k) :=
      zpow_le_zpow_left₀ (by omega) (by norm_num) (by norm_num)
    rw [zpow_neg, zpow_neg] at inverse
    exact (inv_le_inv₀ (zpow_pos two_pos k) (zpow_pos (by norm_num) k)).mp inverse
  have scaled : (c : ℚ) * 10 ^ k < 2 ^ (c.log2 + 1) * 2 ^ k :=
    mul_lt_mul coefficient power (zpow_pos (by norm_num) k) (by positivity)
  rw [← zpow_natCast, ← zpow_add₀ two_ne_zero] at scaled
  have order := (zpow_lt_zpow_iff_right₀ one_lt_two).mp (low.trans_lt scaled)
  push_cast at order
  omega

/-- One rounding of the exact number reads a numeral near a double as this double. -/
theorem unpacked_of_near (high : f ≤ 971) :
    UnpackedFloat.ofScientific Format.binary64 c k = .finite .positive n f canonical.pos := by
  have pos := coefficient_pos_of_near canonical near
  have not_large := exponent_le_of_near canonical near high
  have not_small := le_exponent_of_near canonical near
  unfold UnpackedFloat.ofScientific
  rw [dif_neg pos.ne', if_neg (not_lt.mpr not_large), if_neg (not_lt.mpr not_small)]
  split
  · rename_i up
    have product : (c : ℚ) * 10 ^ k = ((c <<< Format.binary64.mantissaBits : ℕ) : ℚ) *
        2 ^ (-(Format.binary64.mantissaBits : ℤ)) * ((10 ^ k.toNat : ℕ) * 2 ^ (0 : ℤ)) := by
      have size : k = (k.toNat : ℤ) := (Int.toNat_of_nonneg up).symm
      rw [shiftLeft_mul_zpow, zpow_zero, mul_one]
      nth_rewrite 1 [size]
      push_cast
      rw [zpow_natCast]
    have long : 2 ^ 52 ≤ c <<< Format.binary64.mantissaBits := by
      have wide : 2 ^ 52 ≤ 2 ^ Format.binary64.mantissaBits := by decide
      rw [Nat.shiftLeft_eq]
      exact wide.trans (Nat.le_mul_of_pos_left _ pos)
    rw [product] at near
    exact mul_of_near .positive .positive canonical near
      (long.trans (Nat.le_mul_of_pos_right _ (Nat.pow_pos (by decide))))
  · rename_i down
    have quotient : (c : ℚ) * 10 ^ k =
        (c : ℚ) * 2 ^ (0 : ℤ) / ((10 ^ (-k).toNat : ℕ) * 2 ^ (0 : ℤ)) := by
      have size : k = -((-k).toNat : ℤ) := by omega
      rw [zpow_zero, mul_one, mul_one, div_eq_mul_inv]
      nth_rewrite 1 [size]
      push_cast
      rw [zpow_neg, zpow_natCast]
    rw [quotient] at near
    exact div_of_near .positive .positive canonical near

/-- A numeral near a double is read as this double, by one exact operation on small numbers and by
one rounding of the exact number else. -/
theorem ofScientific_of_near (high : f ≤ 971) :
    Float.ofScientific c (decide (k < 0)) k.natAbs =
      .ofModel (.pack (.finite .positive n f canonical.pos)) := by
  unfold Float.ofScientific
  split
  · rename_i small
    have coefficient := holds_toFloat (coefficient_pos_of_near canonical near) small.1
    have listed : k.natAbs < Float.exactlyRepresentablePowersOfTen.size :=
      Nat.lt_of_le_of_lt small.2 (by decide)
    have power := holds_power listed
    dsimp only
    rcases Int.lt_or_le k 0 with down | up
    · have quotient : (c : ℚ) * 10 ^ k = c / 10 ^ k.natAbs := by
        have size : k = -(k.natAbs : ℤ) := by omega
        rw [size, zpow_neg, zpow_natCast, Int.natAbs_neg, Int.natAbs_natCast, div_eq_mul_inv]
      rw [quotient] at near
      rw [if_pos (decide_eq_true down)]
      show Float.ofModel (.pack (UnpackedFloat.div Format.binary64 _ _)) = _
      rw [div_of_holds coefficient power canonical near]
    · have product : (c : ℚ) * 10 ^ k = c * 10 ^ k.natAbs := by
        have size : k = (k.natAbs : ℤ) := by omega
        rw [size, zpow_natCast, Int.natAbs_natCast]
      rw [product] at near
      rw [if_neg (by simp [up])]
      show Float.ofModel (.pack (UnpackedFloat.mul Format.binary64 _ _)) = _
      rw [mul_of_holds coefficient power canonical near]
  · have exponent : (if decide (k < 0) = true then Int.negOfNat k.natAbs
        else Int.ofNat k.natAbs) = k := by
      by_cases down : k < 0
      · rw [if_pos (decide_eq_true down), Int.negOfNat_eq]
        show -(k.natAbs : ℤ) = k
        omega
      · rw [if_neg (by simpa using down)]
        show (k.natAbs : ℤ) = k
        omega
    dsimp only
    rw [exponent]
    unfold Float.Model.ofScientific
    rw [unpacked_of_near canonical near high]

end Read

/-- A numeral near a finite double is read as this double, with its sign. -/
theorem nearest_of_near (negative : Bool) {c : ℕ} {k : ℤ} {n : ℕ} {f : ℤ}
    (canonical : Canonical n f) (near : Near n f ((c : ℚ) * 10 ^ k)) (high : f ≤ 971) :
    Numeral.nearest negative c k =
      .ofModel (.pack (.finite (signOf negative) n f canonical.pos)) := by
  unfold Numeral.nearest
  dsimp only
  rw [ofScientific_of_near canonical near high]
  cases negative with
  | false => rfl
  | true =>
    change Float.ofModel (.pack (UnpackedFloat.neg (UnpackedFloat.unpack Format.binary64
      (UnpackedFloat.pack Format.binary64 (.finite .positive n f canonical.pos))))) = _
    rw [unpack_pack canonical high]
    rfl

theorem nearest_zero (negative : Bool) (k : ℤ) :
    Numeral.nearest negative 0 k = .ofModel (.pack (.zero (signOf negative))) := by
  have zero : Float.ofScientific 0 (decide (k < 0)) k.natAbs =
      .ofModel (.pack (.zero .positive)) := by
    unfold Float.ofScientific
    split
    · rename_i small
      have listed : k.natAbs < Float.exactlyRepresentablePowersOfTen.size :=
        Nat.lt_of_le_of_lt small.2 (by decide)
      obtain ⟨m, e, pos, power, _⟩ := holds_power listed
      have none : (0 : ℕ).toUInt64.toFloat.toModel.unpack = .zero .positive := rfl
      dsimp only
      split
      · change Float.ofModel (.pack (UnpackedFloat.div Format.binary64 _ _)) = _
        rw [none, power]
        rfl
      · change Float.ofModel (.pack (UnpackedFloat.mul Format.binary64 _ _)) = _
        rw [none, power]
        rfl
    · rfl
  unfold Numeral.nearest
  dsimp only
  rw [zero]
  cases negative with
  | false => rfl
  | true => rfl

end FleetMap.Double
