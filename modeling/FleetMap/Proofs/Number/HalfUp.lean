import FleetMap.Proofs.Number.Sum
import FleetMap.Proofs.Projection

/-!
Rounding with halves going up. One half is added in doubles before the floor is taken, so the sum is
rounded itself. Where it is rounded up to a whole number the floor is one too high: just below one
half, and on odd numbers so large that the half falls between two doubles. Main statements:
`roundHalfUp_of_overshoots`, `roundHalfUp_of_not_overshoots`, by which this happens nowhere else,
and `rounding_is_exact_unless_it_overshoots`.
-/

set_option autoImplicit false

namespace FleetMap

open Double

/-- The numbers that the half carries too far: the last double below one half, and the odd whole
numbers of 53 bits, between which and the next ones there is no double. -/
def Overshoots (q : ℚ) : Prop :=
  q = 1 / 2 - 1 / 2 ^ 54 ∨ ∃ k : ℤ, q = k ∧ k % 2 = 1 ∧ 2 ^ 52 < |k| ∧ |k| < 2 ^ 53

section Rounding

variable {x : Float} {d : BinaryFloat} (known : BinaryFloat.ofFloat? x = some d)

theorem roundHalfUp_of_sum {t : BinaryFloat} (sum : BinaryFloat.ofFloat? (x + 0.5) = some t) :
    roundHalfUp x = .ok ⌊t.value⌋ := by
  unfold roundHalfUp
  simp only [sum, t.floor_eq]

include known

/-- A whole number that the exact sum is near is the answer. -/
theorem roundHalfUp_of_near {n : ℕ} {f j : ℤ} (canonical : Canonical n f)
    (near : Near n f |d.value + 1 / 2|) (size : |(j : ℚ)| = n * 2 ^ f)
    (side : j < 0 ↔ d.value + 1 / 2 < 0) : roundHalfUp x = .ok j := by
  have sum := add_half_of_near known canonical near
  have rounded : (⟨decide (d.value + 1 / 2 < 0), n, f⟩ : BinaryFloat).value = j := by
    rw [BinaryFloat.value_mk, ← size]
    by_cases negative : j < 0
    · rw [if_pos (decide_eq_true (side.mp negative)),
        abs_of_neg (by exact_mod_cast negative), neg_neg]
    · rw [if_neg (by rw [decide_eq_true_iff, ← side]; exact negative),
        abs_of_nonneg (by exact_mod_cast le_of_not_gt negative)]
  rw [roundHalfUp_of_sum sum, rounded, Int.floor_intCast]

/-- A whole number is the answer if the exact sum lies between two numbers with a double each, from
the whole number on and below the next one. -/
theorem roundHalfUp_of_between {low high : ℚ} (held_low : Held low) (held_high : Held high)
    (above : low ≤ d.value + 1 / 2) (below : d.value + 1 / 2 ≤ high) {j : ℤ}
    (from_j : (j : ℚ) ≤ low) (to_next : high < j + 1) :
    roundHalfUp x = .ok ⌊d.value + 1 / 2⌋ := by
  obtain ⟨t, sum, keeps⟩ := half_sum known
  have bottom := (keeps low held_low).1 above
  have top := (keeps high held_high).2 below
  have rounded : ⌊t.value⌋ = j := Int.floor_eq_iff.mpr ⟨by linarith, by linarith⟩
  have meant : ⌊d.value + 1 / 2⌋ = j := Int.floor_eq_iff.mpr ⟨by linarith, by linarith⟩
  rw [roundHalfUp_of_sum sum, rounded, meant]

theorem roundHalfUp_of_held (held : Held (d.value + 1 / 2)) :
    roundHalfUp x = .ok ⌊d.value + 1 / 2⌋ :=
  roundHalfUp_of_between known held held le_rfl le_rfl (Int.floor_le _) (Int.lt_floor_add_one _)

end Rounding

section Middle

/-- The middle above an even number of 53 bits is near this number. -/
theorem near_middle_above {n : ℕ} (even : n % 2 = 0) (low : 2 ^ 52 ≤ n) (high : n < 2 ^ 53) :
    Canonical n 0 ∧ Near n 0 (n + 1 / 2) := by
  refine ⟨⟨by omega, high, by decide, .inl low⟩, .inr ⟨even, .inr ?_⟩⟩
  rw [zpow_zero, div_one]

/-- The middle below an even number is near this number; the power of two has a bit too many and
takes the next exponent. -/
theorem near_middle_below {n : ℕ} (even : n % 2 = 0) (low : 2 ^ 52 < n) (high : n ≤ 2 ^ 53) :
    ∃ m f, Canonical m f ∧ Near m f (n - 1 / 2) ∧ (n : ℚ) = m * 2 ^ f := by
  rcases high.lt_or_eq with bound | rfl
  · have half : reach n 0 = n - 1 / 2 := if_neg fun power => by omega
    refine ⟨n, 0, ⟨by omega, bound, by decide, .inl low.le⟩, .inr ⟨even, .inl ?_⟩, ?_⟩
    · rw [zpow_zero, div_one, half]
    · rw [zpow_zero, mul_one]
  · refine ⟨2 ^ 52, 1, ⟨by decide, by decide, by decide, .inl le_rfl⟩, .inr ⟨rfl, .inl ?_⟩, ?_⟩
    · rw [reach_power (by decide)]
      norm_num
    · norm_num

/-- One less an eighth of the unit in its last place is near one. -/
theorem near_one : Canonical (2 ^ 52) (-52) ∧ Near (2 ^ 52) (-52) (1 - 1 / 2 ^ 54) := by
  refine ⟨⟨by decide, by decide, by decide, .inl le_rfl⟩, .inr ⟨rfl, .inl ?_⟩⟩
  rw [reach_power (by decide)]
  norm_num

theorem floor_add_half (k : ℤ) : ⌊(k : ℚ) + 1 / 2⌋ = k := by
  rw [Int.floor_eq_iff]
  constructor <;> linarith

/-- A half above a number of 53 bits has 53 bits before the point. -/
theorem middle_bounds {k : ℤ} (low : 2 ^ 52 ≤ k ∨ k < -2 ^ 52) (high : |k| < 2 ^ 53) :
    2 ^ 52 < |(k : ℚ) + 1 / 2| ∧ |(k : ℚ) + 1 / 2| < 2 ^ 53 := by
  obtain ⟨least, most⟩ := abs_lt.mp high
  have least : (-2 ^ 53 : ℚ) + 1 ≤ k := by exact_mod_cast least
  have most : (k : ℚ) + 1 ≤ 2 ^ 53 := by exact_mod_cast most
  rcases low with positive | negative
  · have above : (2 ^ 52 : ℚ) ≤ k := by exact_mod_cast positive
    rw [abs_of_pos (by linarith)]
    constructor <;> linarith
  · have below : (k : ℚ) + 1 ≤ -2 ^ 52 := by exact_mod_cast negative
    rw [abs_of_neg (by linarith)]
    constructor <;> linarith

/-- A large number has the sign of the whole number half a unit from it, and its size but for the
half. -/
theorem side_and_size {q : ℚ} {j : ℤ} (low : 2 ^ 52 < |q|) (middle : |q - j| = 1 / 2) :
    (j < 0 ↔ q < 0) ∧ (|q| = |(j : ℚ)| + 1 / 2 ∨ |q| = |(j : ℚ)| - 1 / 2) := by
  obtain ⟨least, most⟩ := abs_le.mp middle.le
  rcases lt_or_ge q 0 with negative | positive
  · rw [abs_of_neg negative] at low ⊢
    have below : (j : ℚ) < 0 := by linarith
    rw [abs_of_neg below]
    refine ⟨iff_of_true (by exact_mod_cast below) negative, ?_⟩
    rcases abs_choice (q - j) with above | under
    · exact .inr (by linarith)
    · exact .inl (by linarith)
  · rw [abs_of_nonneg positive] at low ⊢
    have above : (0 : ℚ) ≤ j := by linarith
    rw [abs_of_nonneg above]
    refine ⟨iff_of_false (not_lt.mpr (by exact_mod_cast above)) (not_lt.mpr positive), ?_⟩
    rcases abs_choice (q - j) with above | under
    · exact .inl (by linarith)
    · exact .inr (by linarith)

variable {x : Float} {d : BinaryFloat} (known : BinaryFloat.ofFloat? x = some d)

include known

/-- In the middle between two whole numbers of 53 bits the answer is the even one. -/
theorem roundHalfUp_of_middle {j : ℤ} (even : j % 2 = 0) (low : 2 ^ 52 < |d.value + 1 / 2|)
    (high : |d.value + 1 / 2| < 2 ^ 53) (middle : |d.value + 1 / 2 - j| = 1 / 2) :
    roundHalfUp x = .ok j := by
  obtain ⟨side, size⟩ := side_and_size low middle
  have magnitude : |(j : ℚ)| = j.natAbs := by rw [Nat.cast_natAbs, Int.cast_abs]
  have even_size : j.natAbs % 2 = 0 := by omega
  rw [magnitude] at size
  generalize j.natAbs = n at size magnitude even_size
  rcases size with above | below
  · have least : (2 ^ 52 : ℚ) < n + 1 := by linarith
    have most : (n : ℚ) < 2 ^ 53 := by linarith
    norm_cast at least most
    obtain ⟨canonical, near⟩ := near_middle_above even_size (by omega) (by omega)
    rw [← above] at near
    exact roundHalfUp_of_near known canonical near (by rw [magnitude, zpow_zero, mul_one]) side
  · have least : (2 ^ 52 : ℚ) < n := by linarith
    have most : (n : ℚ) < 2 ^ 53 + 1 := by linarith
    norm_cast at least most
    obtain ⟨m, f, canonical, near, value⟩ := near_middle_below even_size (by omega) (by omega)
    rw [← below] at near
    exact roundHalfUp_of_near known canonical near (magnitude.trans value) side

/-- Where the half carries too far, the answer is one too high. -/
theorem roundHalfUp_of_overshoots (too_high : Overshoots d.value) :
    roundHalfUp x = .ok (⌊d.value + 1 / 2⌋ + 1) := by
  rcases too_high with last | ⟨k, whole, odd, low, high⟩
  · have sum : d.value + 1 / 2 = 1 - 1 / 2 ^ 54 := by
      rw [last]
      ring
    have below : ⌊d.value + 1 / 2⌋ = 0 := by
      rw [sum, Int.floor_eq_zero_iff]
      constructor <;> norm_num
    obtain ⟨canonical, near⟩ := near_one
    rw [below]
    apply roundHalfUp_of_near known canonical
    · rw [sum, abs_of_pos (by norm_num)]
      exact near
    · norm_num
    · rw [sum]
      norm_num
  · have size := Int.abs_eq_natAbs k
    obtain ⟨least, most⟩ := middle_bounds (k := k) (by omega) high
    have middle : |d.value + 1 / 2 - (k + 1 : ℤ)| = 1 / 2 := by
      rw [whole, Int.cast_add, Int.cast_one, add_sub_add_left_eq_sub]
      norm_num
    rw [← whole] at least most
    rw [show ⌊d.value + 1 / 2⌋ = k by rw [whole, floor_add_half]]
    exact roundHalfUp_of_middle known (by omega) least most middle

end Middle

section Carry

variable {x : Float} {d : BinaryFloat} (canonical : Canonical d.significand d.exponent)

include canonical

theorem abs_value_le : |d.value| ≤ (2 ^ 53 - 1) * 2 ^ d.exponent := by
  have bits : (d.significand : ℚ) + 1 ≤ 2 ^ 53 := by exact_mod_cast canonical.bound
  rw [d.abs_value]
  exact mul_le_mul_of_nonneg_right (by linarith) (zpow_pos two_pos _).le

theorem lt_of_carry (carry : 2 ^ 53 * 2 ^ d.exponent < |d.value + 1 / 2|) :
    2 ^ 53 * 2 ^ d.exponent < d.value + 1 / 2 := by
  have unit : (0 : ℚ) < 2 ^ d.exponent := zpow_pos two_pos _
  have low := (abs_le.mp (abs_value_le canonical)).1
  rcases lt_abs.mp carry with above | below
  · exact above
  · linarith

omit canonical in
/-- In units of a number with a fraction, the half is a whole number too. -/
theorem exists_half_units (small : d.exponent < 0) : ∃ h : ℕ, 0 < h ∧
    (-53 ≤ d.exponent → h ≤ 2 ^ 52) ∧ (1 : ℚ) / 2 = h * 2 ^ d.exponent := by
  refine ⟨2 ^ (-d.exponent - 1).toNat, Nat.two_pow_pos _,
    fun large => Nat.pow_le_pow_right two_pos (by omega), ?_⟩
  have shift : ((-d.exponent - 1).toNat : ℤ) = -d.exponent - 1 := by omega
  have less : -d.exponent - 1 + d.exponent = -1 := by omega
  rw [Nat.cast_pow, Nat.cast_ofNat, ← zpow_natCast, shift, ← zpow_add₀ two_ne_zero, less,
    zpow_neg_one, one_div]

variable (known : BinaryFloat.ofFloat? x = some d)

include known

/-- Unless it is carried over to more bits, a sum is not rounded. -/
theorem roundHalfUp_of_no_carry (small : d.exponent < 0)
    (bound : |d.value + 1 / 2| ≤ 2 ^ 53 * 2 ^ d.exponent) :
    roundHalfUp x = .ok ⌊d.value + 1 / 2⌋ := by
  obtain ⟨h, _, _, half⟩ := exists_half_units small
  have unit : (0 : ℚ) < 2 ^ d.exponent := zpow_pos two_pos _
  have sum : d.value + 1 / 2 = ((d.signed + h : ℤ) : ℚ) * 2 ^ d.exponent := by
    rw [half, BinaryFloat.value]
    push_cast
    ring
  rw [sum, abs_mul, abs_of_pos unit, mul_le_mul_iff_left₀ unit, ← Int.cast_abs,
    ← Nat.cast_natAbs] at bound
  exact roundHalfUp_of_held known (held_of_eq (by exact_mod_cast bound) canonical.low sum)

/-- Carried over to more bits from one on, a sum stays below the next whole number. -/
theorem roundHalfUp_of_carry (small : d.exponent < 0) (large : -53 ≤ d.exponent)
    (carry : 2 ^ 53 * 2 ^ d.exponent < |d.value + 1 / 2|) :
    roundHalfUp x = .ok ⌊d.value + 1 / 2⌋ := by
  have above := lt_of_carry canonical carry
  have below := (abs_le.mp (abs_value_le canonical)).2
  have low := canonical.low
  obtain ⟨h, pos, few, half⟩ := exists_half_units small
  have room := few large
  have power : (2 : ℚ) ^ 53 * 2 ^ d.exponent = (2 ^ (53 + d.exponent).toNat : ℤ) := by
    have size : ((53 + d.exponent).toNat : ℤ) = (53 : ℕ) + d.exponent := by omega
    push_cast
    rw [← zpow_natCast, ← zpow_natCast, size, zpow_add₀ two_ne_zero]
  have unit : (0 : ℚ) < 2 ^ d.exponent := zpow_pos two_pos _
  -- the last number before the next whole number that has 53 bits in twice the unit
  have held_high : Held ((2 ^ 52 + h - 1) * (2 * 2 ^ d.exponent)) := by
    apply held_of_eq (a := 2 ^ 52 + h - 1) (g := d.exponent + 1) (by omega) (by omega)
    rw [zpow_add_one₀ two_ne_zero, mul_comm ((2 : ℚ) ^ d.exponent)]
    norm_num
  have held_low : Held (2 ^ 53 * 2 ^ d.exponent) :=
    held_of_eq (a := 2 ^ 53) (by decide) low (by norm_num)
  have one : (1 : ℚ) ≤ h := by exact_mod_cast pos
  have units : (2 : ℚ) ^ d.exponent ≤ h * 2 ^ d.exponent := le_mul_of_one_le_left unit.le one
  apply roundHalfUp_of_between known held_low held_high above.le _ power.ge _
  · rw [half]
    linarith
  · rw [← power]
    linarith

omit known in
/-- Of the tiny numbers all but one leave room for the half. -/
theorem value_le_of_tiny (tiny : d.exponent < -53) (steady : ¬ Overshoots d.value) :
    d.value ≤ 1 / 2 - 1 / 2 ^ 53 := by
  rcases lt_or_eq_of_le (Int.le_sub_one_of_lt tiny) with less | last
  · have below := (abs_le.mp (abs_value_le canonical)).2
    have quarter : (2 : ℚ) ^ d.exponent ≤ 2 ^ (-55 : ℤ) :=
      zpow_le_zpow_right₀ one_le_two (by omega)
    rw [zpow_neg, ← one_div] at quarter
    linarith
  · have exponent : d.exponent = -(54 : ℕ) := by omega
    have value : d.value = d.signed / 2 ^ 54 := by
      rw [BinaryFloat.value, exponent, zpow_neg, zpow_natCast, ← div_eq_mul_inv]
    have not_last : d.signed ≠ 2 ^ 53 - 1 := by
      intro all_ones
      apply steady
      left
      rw [value, all_ones]
      norm_num
    have bound := canonical.bound
    have size := d.natAbs_signed
    have bits : (d.signed : ℚ) ≤ 2 ^ 53 - 2 := by
      exact_mod_cast (by omega : d.signed ≤ 2 ^ 53 - 2)
    rw [value]
    linarith

/-- Carried over to more bits below one, a sum stays there, but for the last number below one
half. -/
theorem roundHalfUp_of_carry_below_one (tiny : d.exponent < -53)
    (carry : 2 ^ 53 * 2 ^ d.exponent < |d.value + 1 / 2|) (steady : ¬ Overshoots d.value) :
    roundHalfUp x = .ok ⌊d.value + 1 / 2⌋ := by
  have above := lt_of_carry canonical carry
  have top := value_le_of_tiny canonical tiny steady
  have held_zero : Held 0 := held_of_eq (a := 0) (g := 0) (by decide) (by decide) (by norm_num)
  have held_high : Held (1 - 1 / 2 ^ 53) :=
    held_of_eq (a := 2 ^ 53 - 1) (g := -53) (by decide) (by decide) (by norm_num)
  have pos : (0 : ℚ) < 2 ^ 53 * 2 ^ d.exponent := mul_pos (by norm_num) (zpow_pos two_pos _)
  apply roundHalfUp_of_between known held_zero held_high (j := 0)
  · linarith
  · linarith
  · exact Int.cast_zero.le
  · norm_num

end Carry

section Whole

/-- A quarter of a unit at most, and less than that below a power of two, makes no difference. -/
theorem near_of_quarter {m : ℕ} {e : ℤ} {r : ℚ} (low : (m : ℚ) - 1 / 4 ≤ r / 2 ^ e)
    (high : r / 2 ^ e ≤ m + 1 / 4) : Near m e r := by
  by_cases power : m = 2 ^ 52 ∧ -1074 < e
  · have quarter : reach m e = m - 1 / 4 := if_pos power
    rcases low.lt_or_eq with inside | border
    · exact .inl ⟨quarter.trans_lt inside, by linarith⟩
    · exact .inr ⟨by rw [power.1]; decide, .inl (by rw [quarter, border])⟩
  · have half : reach m e = m - 1 / 2 := if_neg power
    exact .inl ⟨by linarith, by linarith⟩

/-- The half is lost on a number whose unit is larger than one. -/
theorem near_of_large_unit {m : ℕ} {e : ℤ} {q : ℚ} (size : |q| = m * 2 ^ e) (coarse : 0 < e) :
    Near m e |q + 1 / 2| := by
  have two : (2 : ℚ) ≤ 2 ^ e := by
    have power : (2 : ℚ) ^ (1 : ℤ) ≤ 2 ^ e := zpow_le_zpow_right₀ one_le_two (by omega)
    rwa [zpow_one] at power
  have unit : (0 : ℚ) < 2 ^ e := zpow_pos two_pos e
  have low := abs_sub_abs_le_abs_sub q (-(1 / 2))
  have high := abs_add_le q (1 / 2)
  have half : |(1 / 2 : ℚ)| = 1 / 2 := abs_of_pos one_half_pos
  rw [sub_neg_eq_add, abs_neg, half, size] at low
  rw [half, size] at high
  apply near_of_quarter
  · rw [le_div_iff₀ unit]
    linarith
  · rw [div_le_iff₀ unit]
    linarith

theorem add_half_neg_iff (k : ℤ) : k < 0 ↔ (k : ℚ) + 1 / 2 < 0 := by
  constructor
  · intro negative
    have most : (k : ℚ) + 1 ≤ 0 := by exact_mod_cast negative
    linarith
  · intro negative
    exact_mod_cast (by linarith : (k : ℚ) < 0)

variable {x : Float} {d : BinaryFloat} (known : BinaryFloat.ofFloat? x = some d)

include known

theorem roundHalfUp_of_even {k : ℤ} (whole : d.value = k) (even : k % 2 = 0) (low : 2 ^ 52 ≤ |k|)
    (high : |k| < 2 ^ 53) : roundHalfUp x = .ok ⌊d.value + 1 / 2⌋ := by
  by_cases power : k = -2 ^ 52
  · -- below the power of two the sum still fits a double
    apply roundHalfUp_of_held known
    rw [whole, power]
    exact held_of_eq (a := -(2 ^ 53 - 1)) (g := -1) (by decide) (by decide) (by norm_num)
  · have size := Int.abs_eq_natAbs k
    obtain ⟨least, most⟩ := middle_bounds (k := k) (by omega) high
    have middle : |d.value + 1 / 2 - k| = 1 / 2 := by
      rw [whole, add_sub_cancel_left, abs_of_pos one_half_pos]
    rw [← whole] at least most
    rw [show ⌊d.value + 1 / 2⌋ = k by rw [whole, floor_add_half]]
    exact roundHalfUp_of_middle known even least most middle

/-- On whole numbers the half makes no difference, unless it carries too far. -/
theorem roundHalfUp_of_whole (canonical : Canonical d.significand d.exponent)
    (whole : 0 ≤ d.exponent) (steady : ¬ Overshoots d.value) :
    roundHalfUp x = .ok ⌊d.value + 1 / 2⌋ := by
  have bound := canonical.bound
  have full := canonical.full.resolve_right (by omega)
  have signed := d.natAbs_signed
  rcases whole.eq_or_lt with unit | coarse
  · have value : d.value = d.signed := by
      rw [BinaryFloat.value, ← unit, zpow_zero, mul_one]
    have size : |d.signed| = d.significand := by rw [Int.abs_eq_natAbs, signed]
    rcases Int.emod_two_eq_zero_or_one d.signed with even | odd
    · exact roundHalfUp_of_even known value even (by omega) (by omega)
    · exact absurd (.inr ⟨d.signed, value, odd, by omega, by omega⟩) steady
  · have value : d.value = (d.signed * 2 ^ d.exponent.toNat : ℤ) := by
      have shift : (d.exponent.toNat : ℤ) = d.exponent := Int.toNat_of_nonneg whole
      push_cast
      rw [BinaryFloat.value, ← zpow_natCast, shift]
    have size := d.abs_value
    have near := near_of_large_unit size coarse
    rw [value] at size
    rw [show ⌊d.value + 1 / 2⌋ = _ by rw [value, floor_add_half]]
    apply roundHalfUp_of_near known canonical near size
    rw [value]
    exact add_half_neg_iff _

end Whole

section Answer

variable {x : Float} {d : BinaryFloat} (known : BinaryFloat.ofFloat? x = some d)

include known

/-- The answer is the floor of the exact sum, unless the half carries too far. -/
theorem roundHalfUp_of_not_overshoots (steady : ¬ Overshoots d.value) :
    roundHalfUp x = .ok ⌊d.value + 1 / 2⌋ := by
  by_cases zero : d.significand = 0
  · have nothing : d.value = 0 := by
      rw [← abs_eq_zero, d.abs_value, zero, Nat.cast_zero, zero_mul]
    apply roundHalfUp_of_held known
    rw [nothing]
    exact held_of_eq (a := 1) (g := -1) (by decide) (by decide) (by norm_num)
  · obtain ⟨canonical, _⟩ := canonical_of_ofFloat? known zero
    -- in units below one the half is exact, but the sum may carry; in others the number is whole
    rcases lt_or_ge d.exponent 0 with small | whole
    · rcases le_or_gt |d.value + 1 / 2| (2 ^ 53 * 2 ^ d.exponent) with bound | carry
      · exact roundHalfUp_of_no_carry canonical known small bound
      · rcases lt_or_ge d.exponent (-53) with tiny | large
        · exact roundHalfUp_of_carry_below_one canonical known tiny carry steady
        · exact roundHalfUp_of_carry canonical known small large carry
    · exact roundHalfUp_of_whole known canonical whole steady

end Answer

/-- An integer that is read out for a coordinate: half a unit off at most, and one unit where the
half carries too far. -/
def ReadOut (x : Float) (n : ℤ) : Prop :=
  ∃ d, BinaryFloat.ofFloat? x = some d ∧ |n - d.value| ≤ 1 ∧
    (¬ Overshoots d.value → |n - d.value| ≤ 1 / 2)

theorem abs_floor_sub_le (q : ℚ) : |⌊q + 1 / 2⌋ - q| ≤ 1 / 2 := by
  have low := Int.floor_le (q + 1 / 2)
  have high := Int.lt_floor_add_one (q + 1 / 2)
  rw [abs_le]
  constructor <;> linarith

/-- An answer that is one too high is one unit off at most. -/
theorem abs_overshoot_sub_le {q : ℚ} (too_high : Overshoots q) :
    |((⌊q + 1 / 2⌋ + 1 : ℤ) : ℚ) - q| ≤ 1 := by
  rcases too_high with last | ⟨k, whole, _⟩
  · have below : ⌊q + 1 / 2⌋ = 0 := by
      rw [last, Int.floor_eq_zero_iff]
      constructor <;> norm_num
    rw [below, last]
    norm_num
  · rw [whole, floor_add_half]
    norm_num

theorem exists_readOut {x : Float} (finite : x.isFinite = true) :
    ∃ n, roundHalfUp x = .ok n ∧ ReadOut x n := by
  obtain ⟨d, known⟩ := Option.isSome_iff_exists.mp ((ofFloat?_isSome x).trans finite)
  by_cases too_high : Overshoots d.value
  · exact ⟨_, roundHalfUp_of_overshoots known too_high, d, known, abs_overshoot_sub_le too_high,
      fun steady => absurd too_high steady⟩
  · have near := abs_floor_sub_le d.value
    exact ⟨_, roundHalfUp_of_not_overshoots known too_high, d, known, by linarith, fun _ => near⟩

/-- Every placed device is described with the integers that are read out for its pixels. -/
theorem Device.describe_readOut {s : Settings} {device : Device} {p : Placement}
    (placed : device.place s = .ok p) :
    ∃ place left top depth, device.position = some place ∧
      device.describe s = .ok (p.words device.name left top depth) ∧
      ReadOut (s.scale * place.x) left ∧ ReadOut (s.scale * place.y) top ∧
      ReadOut (s.scale * place.z) depth := by
  rcases device.place_cases s with
    ⟨bounded, place, o, position, orientation, there⟩ | ⟨_, m, none, _⟩
  · obtain rfl := Except.ok.inj (there.symm.trans placed)
    unfold isPlaceable at bounded
    simp only [position, orientation, List.all_cons, Bool.and_eq_true] at bounded
    obtain ⟨finite_left, finite_top, finite_depth, _⟩ := bounded
    obtain ⟨left, rounded_left, read_left⟩ := exists_readOut finite_left
    obtain ⟨top, rounded_top, read_top⟩ := exists_readOut finite_top
    obtain ⟨depth, rounded_depth, read_depth⟩ := exists_readOut finite_depth
    refine ⟨place, left, top, depth, position, ?_, read_left, read_top, read_depth⟩
    change (device.place s >>= fun placement => placement.describe device.name) = _
    rw [there]
    change Placement.describe device.name _ = _
    unfold Placement.describe Placement.ofGeometry
    simp only [rounded_left, rounded_top, rounded_depth]
  · rw [none] at placed
    exact nomatch placed

/-- Rounding finds the one integer around which a double lies within a half, and on whole numbers
the number itself, unless the half carries too far; then the integer is the next one. So devices are
read out half a pixel off at most, and one pixel where this happens. -/
theorem rounding_is_exact_unless_it_overshoots {x : Float} (finite : x.isFinite = true) :
    (∃ d n, BinaryFloat.ofFloat? x = some d ∧ roundHalfUp x = .ok n ∧
      (¬ Overshoots d.value → n = ⌊d.value + 1 / 2⌋ ∧
        (n : ℚ) - 1 / 2 ≤ d.value ∧ d.value < n + 1 / 2 ∧ ∀ k : ℤ, d.value = k → n = k) ∧
      (Overshoots d.value → n = ⌊d.value + 1 / 2⌋ + 1)) ∧
    ∀ (s : Settings) (device : Device) (p : Placement), device.place s = .ok p →
      ∃ place left top depth, device.position = some place ∧
        device.describe s = .ok (p.words device.name left top depth) ∧
        ReadOut (s.scale * place.x) left ∧ ReadOut (s.scale * place.y) top ∧
        ReadOut (s.scale * place.z) depth := by
  refine ⟨?_, fun s device p placed => Device.describe_readOut placed⟩
  obtain ⟨d, known⟩ := Option.isSome_iff_exists.mp ((ofFloat?_isSome x).trans finite)
  by_cases too_high : Overshoots d.value
  · exact ⟨d, _, known, roundHalfUp_of_overshoots known too_high,
      fun steady => absurd too_high steady, fun _ => rfl⟩
  · refine ⟨d, _, known, roundHalfUp_of_not_overshoots known too_high, fun _ => ⟨rfl, ?_, ?_, ?_⟩,
      fun carried => absurd carried too_high⟩
    · have low := Int.floor_le (d.value + 1 / 2)
      linarith
    · have high := Int.lt_floor_add_one (d.value + 1 / 2)
      linarith
    · intro k whole
      rw [whole, floor_add_half]

def plainSettings : Settings := { Settings.standard with scale := 1 }

/-- A device just below half a pixel, at a large odd number of pixels and at a negative half. -/
def brinkDevice : Device :=
  ⟨"van", true, some ⟨0.49999999999999994, 4503599627370497, -2.5⟩, some ⟨0, 0, 0⟩, none⟩

def brinkPlacement : Placement := ⟨0.49999999999999994, 4503599627370497, -2.5, 0, 0, 0⟩

theorem not_overshoots_of_negative_half : ¬ Overshoots (-(5 / 2)) := by
  rintro (last | ⟨k, whole, _⟩)
  · norm_num at last
  · have twice : ((2 * k : ℤ) : ℚ) = (-5 : ℤ) := by
      push_cast
      linarith
    have integers := Int.cast_injective twice
    omega

theorem brinkDevice_is_read_out :
    (-2.5 : Float).isFinite = true ∧
      (∃ d n, BinaryFloat.ofFloat? (-2.5) = some d ∧ ¬ Overshoots d.value ∧
        roundHalfUp (-2.5) = .ok n ∧ (n : ℚ) - 1 / 2 ≤ d.value ∧ d.value < n + 1 / 2) ∧
      brinkDevice.place plainSettings = .ok brinkPlacement ∧
      ∃ place left top depth, brinkDevice.position = some place ∧
        brinkDevice.describe plainSettings = .ok (brinkPlacement.words "van" left top depth) ∧
        ReadOut (plainSettings.scale * place.x) left ∧
        ReadOut (plainSettings.scale * place.y) top ∧
        ReadOut (plainSettings.scale * place.z) depth := by
  have finite : (-2.5 : Float).isFinite = true := by decide
  have placed : brinkDevice.place plainSettings = .ok brinkPlacement := by decide +kernel
  obtain ⟨⟨d, n, known, rounded, steady, _⟩, read_out⟩ :=
    rounding_is_exact_unless_it_overshoots finite
  refine ⟨finite, ?_, placed, read_out _ _ _ placed⟩
  have parts : BinaryFloat.ofFloat? (-2.5) = some ⟨true, 5 * 2 ^ 50, -51⟩ := by decide
  obtain rfl := Option.some.inj (known.symm.trans parts)
  have value : (⟨true, 5 * 2 ^ 50, -51⟩ : BinaryFloat).value = -(5 / 2) := by
    rw [BinaryFloat.value_mk]
    norm_num
  have not_carried := not_overshoots_of_negative_half
  rw [← value] at not_carried
  obtain ⟨_, low, high, _⟩ := steady not_carried
  exact ⟨_, n, known, not_carried, rounded, low, high⟩

/-- A number below one half is rounded to one, and a whole number to the next one; both are read
out. -/
theorem half_carries_too_far :
    (∃ d, BinaryFloat.ofFloat? 0.49999999999999994 = some d ∧ ⌊d.value + 1 / 2⌋ = 0 ∧
      d.value < 1 / 2) ∧
      roundHalfUp 0.49999999999999994 = .ok 1 ∧
      wholeOfFloat? 4503599627370497 = some 4503599627370497 ∧
      roundHalfUp 4503599627370497 = .ok 4503599627370498 ∧
      brinkDevice.describe plainSettings =
        .ok (brinkPlacement.words "van" 1 4503599627370498 (-2)) := by
  refine ⟨⟨⟨false, 2 ^ 53 - 1, -54⟩, by decide, ?_, ?_⟩, rfl, by decide, rfl, by decide +kernel⟩
  · rw [BinaryFloat.value_mk, Int.floor_eq_zero_iff]
    constructor <;> norm_num
  · rw [BinaryFloat.value_mk]
    norm_num

end FleetMap
