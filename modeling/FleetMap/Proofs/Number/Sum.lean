import FleetMap.Proofs.Number.Decimal

set_option autoImplicit false

namespace FleetMap

namespace BinaryFloat

/-- The signed significand is as large as the significand. -/
theorem natAbs_signed (d : BinaryFloat) : d.signed.natAbs = d.significand := by
  unfold signed
  split <;> omega

def value (d : BinaryFloat) : ℚ := d.signed * 2 ^ d.exponent

theorem abs_value (d : BinaryFloat) : |d.value| = d.significand * 2 ^ d.exponent := by
  have unit : (0 : ℚ) < 2 ^ d.exponent := zpow_pos two_pos _
  rw [value, abs_mul, abs_of_pos unit, ← Int.cast_abs, ← Nat.cast_natAbs, natAbs_signed]

theorem floor_eq (d : BinaryFloat) : d.floor = ⌊d.value⌋ := by
  unfold floor value
  simp only [Nat.pow_eq]
  rw [Double.zpow_eq_div two_ne_zero]
  split
  · rename_i large
    have none : (-d.exponent).toNat = 0 := by omega
    rw [none, pow_zero, div_one]
    exact_mod_cast (Int.floor_intCast (R := ℚ) (d.signed * 2 ^ d.exponent.toNat)).symm
  · rename_i small
    have none : d.exponent.toNat = 0 := by omega
    rw [none, pow_zero, mul_one_div]
    exact_mod_cast (Rat.floor_intCast_div_natCast d.signed (2 ^ (-d.exponent).toNat)).symm

theorem value_mk (negative : Bool) (n : ℕ) (f : ℤ) :
    (⟨negative, n, f⟩ : BinaryFloat).value = if negative then -(n * 2 ^ f : ℚ) else n * 2 ^ f := by
  unfold value signed
  cases negative with
  | false => simp
  | true => simp

end BinaryFloat

namespace Double

open Float.Model Float.Model.UnpackedFloat

theorem reach_power {e : ℤ} (normal : -1074 < e) : reach (2 ^ 52) e = 2 ^ 52 - 1 / 4 := by
  unfold reach
  rw [if_pos ⟨rfl, normal⟩]
  norm_num

/-- A number of 53 bits in a smaller unit that comes as far as what is near a double comes as far as
the double itself. -/
theorem le_of_reach_le {n a p : ℕ} {f : ℤ} (full : 2 ^ 52 ≤ n) (normal : -1074 < f)
    (bound : a ≤ 2 ^ 53) (pos : 0 < p) (share : reach n f * (2 * p : ℕ) ≤ a) : n * (2 * p) ≤ a := by
  by_cases power : n = 2 ^ 52
  · subst power
    have halves : (2 ^ 54 : ℚ) * p ≤ 2 * a + p := by
      rw [reach_power normal] at share
      push_cast at share
      linarith
    norm_cast at halves
    omega
  · have half := (reach_bounds n f).1
    have more : (2 ^ 52 : ℚ) + 1 ≤ n := by
      exact_mod_cast Nat.lt_of_le_of_ne full (Ne.symm power)
    have top : ((2 ^ 52 : ℚ) + 1 / 2) * (2 * p : ℕ) ≤ a :=
      (mul_le_mul_of_nonneg_right (by linarith) (Nat.cast_nonneg _)).trans share
    have wholes : (2 ^ 53 : ℚ) * p + p ≤ a := by
      push_cast at top
      linarith
    norm_cast at wholes
    omega

section Order

variable {n : ℕ} {f : ℤ} {r : ℚ} (canonical : Canonical n f) (near : Near n f r) {a : ℕ} {g : ℤ}
  (bound : a ≤ 2 ^ 53) (low : -1074 ≤ g)

theorem mul_zpow_eq {f g : ℤ} {k : ℕ} (finer : g = f + k) (a : ℕ) :
    (a : ℚ) * 2 ^ g = (a * 2 ^ k : ℕ) * 2 ^ f := by
  rw [finer, zpow_add₀ two_ne_zero, zpow_natCast]
  push_cast
  ring

include canonical near bound low

/-- Rounding stays above every double that the number is above. -/
theorem Near.le (above : (a : ℚ) * 2 ^ g ≤ r) : (a : ℚ) * 2 ^ g ≤ n * 2 ^ f := by
  have unit : (0 : ℚ) < 2 ^ f := zpow_pos two_pos f
  rcases le_or_gt f g with coarse | fine
  · obtain ⟨k, finer⟩ := Int.le.dest coarse
    rw [mul_zpow_eq finer.symm] at above ⊢
    have top := near.bounds.2
    have below : ((a * 2 ^ k : ℕ) : ℚ) < n + 1 := by
      have share := (le_div_iff₀ unit).mpr above
      linarith
    apply mul_le_mul_of_nonneg_right _ unit.le
    exact_mod_cast Nat.lt_succ_iff.mp (by exact_mod_cast below)
  · obtain ⟨k, finer⟩ := Int.le.dest fine.le
    have full := canonical.full.resolve_right (by omega)
    obtain ⟨j, rfl⟩ : ∃ j, k = j + 1 := ⟨k - 1, by omega⟩
    rw [mul_zpow_eq finer.symm]
    apply mul_le_mul_of_nonneg_right _ (zpow_pos two_pos g).le
    have room : 2 ^ 52 * 2 ≤ n * 2 ^ (j + 1) :=
      Nat.mul_le_mul full (Nat.le_self_pow (Nat.succ_ne_zero j) 2)
    exact_mod_cast bound.trans (by omega)

/-- Rounding stays below every double that the number is below. -/
theorem Near.ge (below : r ≤ (a : ℚ) * 2 ^ g) : (n : ℚ) * 2 ^ f ≤ a * 2 ^ g := by
  have unit : (0 : ℚ) < 2 ^ f := zpow_pos two_pos f
  have reached := near.bounds.1
  rcases le_or_gt f g with coarse | fine
  · obtain ⟨k, finer⟩ := Int.le.dest coarse
    rw [mul_zpow_eq finer.symm] at below ⊢
    have whole := (reach_bounds n f).1
    have above : (n : ℚ) < (a * 2 ^ k : ℕ) + 1 := by
      have share := (div_le_iff₀ unit).mpr below
      linarith
    apply mul_le_mul_of_nonneg_right _ unit.le
    exact_mod_cast Nat.lt_succ_iff.mp (by exact_mod_cast above)
  · obtain ⟨k, finer⟩ := Int.le.dest fine.le
    have full := canonical.full.resolve_right (by omega)
    obtain ⟨j, rfl⟩ : ∃ j, k = j + 1 := ⟨k - 1, by omega⟩
    have share : reach n f * (2 * 2 ^ j : ℕ) ≤ a := by
      have units : (2 : ℚ) ^ f = (2 * 2 ^ j : ℕ) * 2 ^ g := by
        have units := mul_zpow_eq finer.symm 1
        rwa [Nat.cast_one, one_mul, one_mul, pow_succ'] at units
      have scaled := ((le_div_iff₀ unit).mp reached).trans below
      rwa [units, ← mul_assoc, mul_le_mul_iff_left₀ (zpow_pos two_pos g)] at scaled
    rw [mul_zpow_eq finer.symm, pow_succ']
    apply mul_le_mul_of_nonneg_right _ (zpow_pos two_pos g).le
    exact_mod_cast le_of_reach_le full (by omega) bound (Nat.two_pow_pos j) share

end Order

section Existence

/-- Every number that is not negative is rounded to a whole number. -/
theorem exists_roundsTo {q : ℚ} (nonneg : 0 ≤ q) : ∃ n, RoundsTo q n := by
  have low := Nat.floor_le nonneg
  have high := Nat.lt_floor_add_one q
  generalize ⌊q⌋₊ = m at low high
  rcases lt_trichotomy q (m + 1 / 2) with below | middle | above
  · exact ⟨m, .inl ⟨by linarith, below⟩⟩
  · rcases Nat.mod_two_eq_zero_or_one m with even | odd
    · exact ⟨m, .inr ⟨even, .inr middle⟩⟩
    · refine ⟨m + 1, .inr ⟨by omega, .inl ?_⟩⟩
      push_cast
      linarith
  · refine ⟨m + 1, .inl ?_⟩
    push_cast
    constructor <;> linarith

variable {r : ℚ} {t : ℤ}

/-- Rounded to a number of 53 bits in units of its last place, a number is near a double. -/
theorem near_of_roundsTo {n : ℕ} (rounds : RoundsTo (r / 2 ^ t) n) (pos : 0 < n) (low : -1074 ≤ t)
    (bound : n < 2 ^ 53) (full : (2 : ℚ) ^ 52 ≤ r / 2 ^ t ∨ t = -1074) :
    Canonical n t ∧ Near n t r := by
  by_cases power : n = 2 ^ 52 ∧ -1074 < t
  · obtain ⟨rfl, normal⟩ := power
    have above := full.resolve_right (by omega)
    refine ⟨⟨pos, bound, low, .inl le_rfl⟩, ?_⟩
    have reached := (reach_bounds (2 ^ 52) t).2
    push_cast at reached
    have high := rounds.bounds.2
    rcases high.lt_or_eq with less | middle
    · exact .inl ⟨reached.trans_le above, less⟩
    · exact .inr ⟨rfl, .inr middle⟩
  · have whole : reach n t = n - 1 / 2 := if_neg power
    refine ⟨⟨pos, bound, low, ?_⟩, ?_⟩
    · rcases full with above | lowest
      · left
        have high := rounds.bounds.2
        have more : (2 ^ 52 : ℚ) < n + 1 := by linarith
        norm_cast at more
        omega
      · exact .inr lowest
    · unfold Near
      rw [whole]
      exact rounds

/-- Rounded up to one bit more, a number is near a power of two. -/
theorem near_of_carry (rounds : RoundsTo (r / 2 ^ t) (2 ^ 53)) (below : r / 2 ^ t < 2 ^ 53)
    (low : -1074 ≤ t) : Canonical (2 ^ 52) (t + 1) ∧ Near (2 ^ 52) (t + 1) r := by
  have quarter : reach (2 ^ 52) (t + 1) = 2 ^ 52 - 1 / 4 := reach_power (by omega)
  have halved : r / 2 ^ (t + 1) = r / 2 ^ t / 2 := by
    rw [zpow_add_one₀ two_ne_zero, div_mul_eq_div_div]
  have reached := rounds.bounds.1
  refine ⟨⟨by decide, by decide, by omega, .inl le_rfl⟩, ?_⟩
  unfold Near
  rw [quarter, halved]
  push_cast at reached ⊢
  rcases reached.lt_or_eq with more | middle
  · exact .inl ⟨by linarith, by linarith⟩
  · exact .inr ⟨by decide, .inl (by linarith)⟩

/-- From the smallest positive double on, every number has 53 bits in some unit, or fewer in the
smallest unit. -/
theorem exists_unit (least : (2 : ℚ) ^ (-1074 : ℤ) ≤ r) : ∃ t : ℤ, -1074 ≤ t ∧
    1 ≤ r / 2 ^ t ∧ r / 2 ^ t < 2 ^ 53 ∧ ((2 : ℚ) ^ 52 ≤ r / 2 ^ t ∨ t = -1074) := by
  have pos : 0 < r := (zpow_pos two_pos _).trans_le least
  have low : (2 : ℚ) ^ Int.log 2 r ≤ r := by exact_mod_cast Int.zpow_log_le_self one_lt_two pos
  have high : r < (2 : ℚ) ^ (Int.log 2 r + 1) := by
    exact_mod_cast Int.lt_zpow_succ_log_self one_lt_two r
  generalize Int.log 2 r = l at low high
  -- each bound compares the number with a power of two
  have above : ∀ t k : ℤ, t + k ≤ l → (2 : ℚ) ^ k ≤ r / 2 ^ t := by
    intro t k within
    rw [le_div_iff₀ (zpow_pos two_pos t), ← zpow_add₀ two_ne_zero]
    exact (zpow_le_zpow_right₀ one_le_two (by omega)).trans low
  have below : ∀ t : ℤ, l < t + 53 → r / 2 ^ t < 2 ^ 53 := by
    intro t beyond
    rw [div_lt_iff₀ (zpow_pos two_pos t), ← zpow_natCast, ← zpow_add₀ two_ne_zero]
    exact high.trans_le (zpow_le_zpow_right₀ one_le_two (by omega))
  rcases Int.le_total (-1074) (l - 52) with normal | subnormal
  · have full := above (l - 52) 52 (by omega)
    have one : (1 : ℚ) ≤ 2 ^ (52 : ℤ) := one_le_zpow₀ one_le_two (by decide)
    exact ⟨l - 52, normal, one.trans full, below _ (by omega), .inl (by exact_mod_cast full)⟩
  · refine ⟨-1074, le_rfl, ?_, below _ (by omega), .inr rfl⟩
    rw [le_div_iff₀ (zpow_pos two_pos _), one_mul]
    exact least

/-- From the smallest positive double on, every number is near some double. -/
theorem exists_near (least : (2 : ℚ) ^ (-1074 : ℤ) ≤ r) : ∃ n f, Canonical n f ∧ Near n f r := by
  obtain ⟨t, low, one, below, full⟩ := exists_unit least
  obtain ⟨n, rounds⟩ := exists_roundsTo (zero_le_one.trans one)
  obtain ⟨bottom, top⟩ := rounds.bounds
  have some_bit : 0 < n := by
    have more : (0 : ℚ) < n := by linarith
    exact_mod_cast more
  have bits : n ≤ 2 ^ 53 := by
    have less : (n : ℚ) < 2 ^ 53 + 1 := by linarith
    norm_cast at less
    omega
  rcases bits.lt_or_eq with bound | rfl
  · exact ⟨n, t, near_of_roundsTo rounds some_bit low bound full⟩
  · exact ⟨2 ^ 52, t + 1, near_of_carry rounds below low⟩

end Existence

section Rounding

variable {n : ℕ} {f : ℤ} (canonical : Canonical n f)

theorem log2_shiftLeft {m : ℕ} (pos : 0 < m) (k : ℕ) : (m <<< k).log2 = m.log2 + k := by
  induction k with
  | zero => rfl
  | succ k ih =>
    have shifted : m <<< k ≠ 0 := by
      rw [Nat.shiftLeft_eq]
      exact (Nat.mul_pos pos (Nat.two_pow_pos k)).ne'
    rw [Nat.shiftLeft_succ, Nat.log2_two_mul shifted, ih, Nat.add_assoc]

theorem shiftLeft_mul_zpow_sub (m k : ℕ) (e : ℤ) :
    ((m <<< k : ℕ) : ℚ) * 2 ^ (e - k) = m * 2 ^ e := by
  rw [Nat.shiftLeft_eq, zpow_sub₀ two_ne_zero, zpow_natCast]
  push_cast
  field_simp

theorem round_of_near (s : Sign) {m : ℕ} {e : ℤ} (pos : 0 < m) (near : Near n f (m * 2 ^ e)) :
    UnpackedFloat.round Format.binary64 s m e = .finite s n f canonical.pos := by
  unfold UnpackedFloat.round decreaseExponent
  dsimp only
  generalize shift_eq : (e - Format.binary64.targetExponent (totalExponent m e)).toNat = k
  have exact_value : Marks (ExtendedMantissa.ofMantissaAndAccuracy (m <<< k) .exact)
      (m * 2 ^ e / 2 ^ (e - k)) := by
    rw [← shiftLeft_mul_zpow_sub m k e, mul_div_cancel_right₀ _ (zpow_pos two_pos _).ne']
    rfl
  apply roundWithAccuracy_of_near s exact_value _ canonical near
  rw [targetExponent_eq] at shift_eq ⊢
  rw [log2_shiftLeft pos]
  omega

theorem normalize_of_near {m e : ℤ} (near : Near n f |(m : ℚ) * 2 ^ e|) :
    UnpackedFloat.normalize Format.binary64 m e .positive =
      .finite (signOf (decide ((m : ℚ) * 2 ^ e < 0))) n f canonical.pos := by
  have unit : (0 : ℚ) < 2 ^ e := zpow_pos two_pos e
  have magnitude : |(m : ℚ) * 2 ^ e| = m.natAbs * 2 ^ e := by
    rw [abs_mul, abs_of_pos unit, Nat.cast_natAbs, Int.cast_abs]
  have some_bit : 0 < m.natAbs := by
    by_contra none
    obtain rfl : m = 0 := by omega
    have low := zpow_le_of_near canonical near
    rw [Int.cast_zero, zero_mul, abs_zero] at low
    exact absurd low (not_le.mpr (zpow_pos two_pos _))
  have sign : (m : ℚ) * 2 ^ e < 0 ↔ m < 0 := by
    rw [← not_le, mul_nonneg_iff_of_pos_right unit, Int.cast_nonneg_iff, not_le]
  rw [magnitude] at near
  unfold UnpackedFloat.normalize
  split
  · rename_i order
    have negative := Int.compare_eq_lt.mp order
    have size : (-m).toNat = m.natAbs := by omega
    rw [size, decide_eq_true (sign.mpr negative)]
    exact round_of_near canonical .negative some_bit near
  · rename_i order
    have zero := Int.compare_eq_eq.mp order
    omega
  · rename_i order
    have positive := Int.compare_eq_gt.mp order
    have size : m.toNat = m.natAbs := by omega
    rw [size, decide_eq_false (by rw [sign]; omega)]
    exact round_of_near canonical .positive some_bit near

/-- The bits of a double are unpacked as they were packed. -/
theorem unpack_model (high : f ≤ 971) (s : Sign) :
    (Float.Model.pack (.finite s n f canonical.pos)).unpack = .finite s n f canonical.pos :=
  unpack_pack canonical high s

theorem signOf_injective : Function.Injective signOf := by
  intro a b same
  cases a <;> cases b
  · rfl
  · exact Sign.noConfusion same
  · exact Sign.noConfusion same
  · rfl

theorem ofFloat?_pack (high : f ≤ 971) (negative : Bool) :
    BinaryFloat.ofFloat? (.ofModel (.pack (.finite (signOf negative) n f canonical.pos))) =
      some ⟨negative, n, f⟩ := by
  have fits : Fits (.finite (signOf negative) n f canonical.pos) := high
  obtain ⟨d, known⟩ := Option.isSome_iff_exists.mp
    ((ofFloat?_isSome _).trans (isFinite_pack fits))
  by_cases zero : d.significand = 0
  · have packed := congrArg (·.toModel.unpack) (eq_pack_zero_of_ofFloat? known zero)
    simp only [unpack_model canonical high] at packed
    cases sign : signOf d.negative with
    | positive | negative =>
      rw [sign] at packed
      exact UnpackedFloat.noConfusion packed
  · obtain ⟨same, bounded⟩ := canonical_of_ofFloat? known zero
    have packed := congrArg (·.toModel.unpack) (eq_pack_of_ofFloat? known zero)
    simp only [unpack_model canonical high, unpack_model same bounded] at packed
    obtain ⟨signs, rfl, rfl⟩ := UnpackedFloat.finite.inj packed
    obtain rfl := signOf_injective signs
    exact known

end Rounding

/-- The numbers that fit a double, as long as they are not too large. -/
def Held (y : ℚ) : Prop := ∃ (a : ℕ) (g : ℤ), a ≤ 2 ^ 53 ∧ -1074 ≤ g ∧ |y| = a * 2 ^ g

theorem held_of_eq {y : ℚ} {a g : ℤ} (bound : a.natAbs ≤ 2 ^ 53) (low : -1074 ≤ g)
    (value : y = a * 2 ^ g) : Held y := by
  have unit : (0 : ℚ) < 2 ^ g := zpow_pos two_pos g
  refine ⟨a.natAbs, g, bound, low, ?_⟩
  rw [value, abs_mul, abs_of_pos unit, Nat.cast_natAbs, Int.cast_abs]

/-- A rounded number keeps its side of everything that fits a double. -/
theorem Held.keeps {y : ℚ} (held : Held y) {n : ℕ} {f : ℤ} (canonical : Canonical n f) {r : ℚ}
    (near : Near n f |r|) :
    (y ≤ r → y ≤ (⟨decide (r < 0), n, f⟩ : BinaryFloat).value) ∧
      (r ≤ y → (⟨decide (r < 0), n, f⟩ : BinaryFloat).value ≤ y) := by
  obtain ⟨a, g, bound, low, size⟩ := held
  have rounded_pos : (0 : ℚ) < n * 2 ^ f :=
    mul_pos (by exact_mod_cast canonical.pos) (zpow_pos two_pos f)
  have above : |y| ≤ |r| → |y| ≤ n * 2 ^ f := by
    rw [size]
    exact near.le canonical bound low
  have below : |r| ≤ |y| → n * 2 ^ f ≤ |y| := by
    rw [size]
    exact near.ge canonical bound low
  rw [BinaryFloat.value_mk]
  rcases lt_or_ge r 0 with negative | positive
  · rw [if_pos (decide_eq_true negative)]
    rw [abs_of_neg negative] at above below
    rcases lt_or_ge y 0 with lower | upper
    · rw [abs_of_neg lower] at above below
      exact ⟨fun order => by linarith [below (by linarith)],
        fun order => by linarith [above (by linarith)]⟩
    · exact ⟨fun order => by linarith, fun _ => by linarith⟩
  · rw [if_neg (by simpa using positive)]
    rw [abs_of_nonneg positive] at above below
    rcases lt_or_ge y 0 with lower | upper
    · exact ⟨fun _ => by linarith, fun order => by linarith⟩
    · rw [abs_of_nonneg upper] at above below
      exact ⟨above, below⟩

section Half

variable {x : Float} {d : BinaryFloat} (known : BinaryFloat.ofFloat? x = some d)

/-- What is added up for a number in a smaller unit is the number. -/
theorem apply_shiftLeft_mul (d : BinaryFloat) (k : ℕ) :
    (((signOf d.negative).apply (d.significand <<< k : ℕ) : ℤ) : ℚ) * 2 ^ (d.exponent - k) =
      d.value := by
  unfold BinaryFloat.value BinaryFloat.signed
  have scaled := shiftLeft_mul_zpow_sub d.significand k d.exponent
  cases d.negative with
  | false => exact_mod_cast scaled
  | true =>
    change ((-((d.significand <<< k : ℕ) : ℤ) : ℤ) : ℚ) * 2 ^ (d.exponent - k) =
      ((-(d.significand : ℤ) : ℤ) : ℚ) * 2 ^ d.exponent
    rw [Int.cast_neg, Int.cast_neg, Int.cast_natCast, Int.cast_natCast, neg_mul, neg_mul, scaled]

include known

/-- The sum with one half is an exact number of units, normalized. -/
theorem add_half_eq : ∃ m e : ℤ, (m : ℚ) * 2 ^ e = d.value + 1 / 2 ∧ -1074 ≤ e ∧
    Below m.natAbs e ∧
    x + 0.5 = .ofModel (.pack (.normalize Format.binary64 m e .positive)) := by
  by_cases zero : d.significand = 0
  · have small : 2 ^ 52 < (2 ^ 54 - 1) * 2 ^ (970 - -53 : ℤ).toNat :=
      Nat.lt_of_lt_of_le (by decide) (Nat.le_mul_of_pos_right _ (Nat.two_pow_pos _))
    refine ⟨(2 ^ 52 : ℕ), -53, ?_, by decide, ⟨by decide, small⟩, ?_⟩
    · unfold BinaryFloat.value BinaryFloat.signed
      rw [zero]
      norm_num
    · rw [eq_pack_zero_of_ofFloat? known zero]
      generalize signOf d.negative = s
      cases s <;> rfl
  · obtain ⟨canonical, high⟩ := canonical_of_ofFloat? known zero
    have low := canonical.low
    generalize unit_eq : min d.exponent (-53) = e
    obtain ⟨k, shift⟩ : ∃ k : ℕ, d.exponent - k = e := ⟨(d.exponent - e).toNat, by omega⟩
    obtain ⟨l, half_shift⟩ : ∃ l : ℕ, -53 - (l : ℤ) = e := ⟨(-53 - e).toNat, by omega⟩
    have half := shiftLeft_mul_zpow_sub (2 ^ 52) l (-53)
    have addend := apply_shiftLeft_mul d k
    obtain ⟨exponent, magnitude⟩ := below_add_half canonical.bound low high
    rw [shift] at addend
    rw [half_shift] at half
    have first : (d.exponent - e).toNat = k := by omega
    have second : (-53 - e).toNat = l := by omega
    rw [unit_eq, first, second] at magnitude
    refine ⟨(signOf d.negative).apply (d.significand <<< k : ℕ) + (2 ^ 52 <<< l : ℕ), e, ?_,
      by omega, ⟨by omega, (natAbs_apply_add_le _ _ _).trans_lt magnitude⟩, ?_⟩
    · have sum : ((2 ^ 52 <<< l : ℕ) : ℚ) * 2 ^ e = 1 / 2 := by
        rw [half]
        norm_num
      rw [← addend, ← sum, ← add_mul]
      push_cast
      rfl
    · rw [eq_pack_of_ofFloat? known zero]
      change Float.ofModel (.pack (UnpackedFloat.add Format.binary64 (Float.Model.pack _).unpack
        (0.5 : Float).toModel.unpack)) = _
      rw [unpack_model canonical high, unpack_half, ← first, ← second, ← unit_eq]
      rfl

/-- The sum with one half is the double that is near the exact sum. -/
theorem add_half_of_near {n : ℕ} {f : ℤ} (canonical : Canonical n f)
    (near : Near n f |d.value + 1 / 2|) :
    BinaryFloat.ofFloat? (x + 0.5) = some ⟨decide (d.value + 1 / 2 < 0), n, f⟩ := by
  obtain ⟨m, e, sum, low, below, added⟩ := add_half_eq known
  rw [← sum] at near ⊢
  have fits := fits_normalize below .positive
  rw [normalize_of_near canonical near] at added fits
  rw [added]
  exact ofFloat?_pack canonical fits _

/-- The sum with one half stays on its side of everything that fits a double. -/
theorem half_sum : ∃ t, BinaryFloat.ofFloat? (x + 0.5) = some t ∧
    ∀ y, Held y → (y ≤ d.value + 1 / 2 → y ≤ t.value) ∧ (d.value + 1 / 2 ≤ y → t.value ≤ y) := by
  obtain ⟨m, e, sum, low, _, added⟩ := add_half_eq known
  by_cases zero : m = 0
  · rw [zero, Int.cast_zero, zero_mul] at sum
    have none : UnpackedFloat.normalize Format.binary64 0 e .positive = .zero .positive := rfl
    have nothing : (⟨false, 0, -1074⟩ : BinaryFloat).value = 0 := by
      rw [BinaryFloat.value_mk, Nat.cast_zero, zero_mul]
      rfl
    rw [zero, none] at added
    refine ⟨⟨false, 0, -1074⟩, ?_, fun y _ => ?_⟩
    · rw [added]
      rfl
    · rw [nothing, sum]
      exact ⟨id, id⟩
  · have least : (2 : ℚ) ^ (-1074 : ℤ) ≤ |d.value + 1 / 2| := by
      have unit : (0 : ℚ) < 2 ^ e := zpow_pos two_pos e
      have one : (1 : ℚ) ≤ m.natAbs := by exact_mod_cast Int.natAbs_pos.mpr zero
      rw [← sum, abs_mul, abs_of_pos unit, ← Int.cast_abs, ← Nat.cast_natAbs]
      exact (zpow_le_zpow_right₀ one_le_two low).trans (le_mul_of_one_le_left unit.le one)
    obtain ⟨n, f, canonical, near⟩ := exists_near least
    exact ⟨_, add_half_of_near known canonical near, fun y held => held.keeps canonical near⟩

end Half

end Double

end FleetMap
