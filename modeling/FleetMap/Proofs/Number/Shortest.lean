import FleetMap.Number.Shortest
import FleetMap.Proofs.Number.Decimal
import FleetMap.Proofs.Number.Parts

set_option autoImplicit false

namespace FleetMap

namespace Ratio

def value (r : Ratio) : ℚ := r.numerator / r.denominator

theorem value_ofBinary (n : ℕ) (e : ℤ) : (ofBinary n e).value = n * 2 ^ e := by
  rw [Double.zpow_eq_div two_ne_zero, ← mul_div_assoc]
  simp [value, ofBinary]

theorem value_ofDecimal (n : ℕ) (e : ℤ) : (ofDecimal n e).value = n * 10 ^ e := by
  rw [Double.zpow_eq_div (by norm_num), ← mul_div_assoc]
  simp [value, ofDecimal]

theorem denominator_ofBinary_pos (n : ℕ) (e : ℤ) : 0 < (ofBinary n e).denominator :=
  Nat.pow_pos (by decide)

theorem denominator_ofDecimal_pos (n : ℕ) (e : ℤ) : 0 < (ofDecimal n e).denominator :=
  Nat.pow_pos (by decide)

section Order

variable {a b : Ratio} (pos_a : 0 < a.denominator) (pos_b : 0 < b.denominator)

include pos_a pos_b

theorem le_iff : a.le b = true ↔ a.value ≤ b.value := by
  have unit_a : (0 : ℚ) < a.denominator := by exact_mod_cast pos_a
  have unit_b : (0 : ℚ) < b.denominator := by exact_mod_cast pos_b
  rw [le, decide_eq_true_eq, value, value, div_le_div_iff₀ unit_a unit_b]
  norm_cast

theorem lt_iff : a.lt b = true ↔ a.value < b.value := by
  have unit_a : (0 : ℚ) < a.denominator := by exact_mod_cast pos_a
  have unit_b : (0 : ℚ) < b.denominator := by exact_mod_cast pos_b
  rw [lt, decide_eq_true_eq, value, value, div_lt_div_iff₀ unit_a unit_b]
  norm_cast

end Order

end Ratio

namespace Neighbourhood

open Double (Near reach)

variable {d : BinaryFloat}

theorem low_ofFloat (pos : 0 < d.significand) :
    (ofFloat d).low.value = reach d.significand d.exponent * 2 ^ d.exponent := by
  unfold ofFloat reach
  dsimp only
  simp only [Nat.pow_eq]
  split
  · have whole : ((4 * d.significand - 1 : ℕ) : ℚ) = 4 * d.significand - 1 := by
      rw [Nat.cast_sub (by omega)]
      push_cast
      rfl
    rw [Ratio.value_ofBinary, whole, zpow_sub₀ two_ne_zero]
    norm_num
    ring
  · have whole : ((2 * d.significand - 1 : ℕ) : ℚ) = 2 * d.significand - 1 := by
      rw [Nat.cast_sub (by omega)]
      push_cast
      rfl
    rw [Ratio.value_ofBinary, whole, zpow_sub₀ two_ne_zero]
    norm_num
    ring

theorem high_ofFloat :
    (ofFloat d).high.value = (d.significand + 1 / 2) * 2 ^ d.exponent := by
  unfold ofFloat
  dsimp only
  rw [Ratio.value_ofBinary, zpow_sub₀ two_ne_zero]
  push_cast
  ring

theorem denominator_low_pos (d : BinaryFloat) : 0 < (ofFloat d).low.denominator := by
  unfold ofFloat
  dsimp only
  split
  · exact Ratio.denominator_ofBinary_pos _ _
  · exact Ratio.denominator_ofBinary_pos _ _

/-- What the neighbourhood of a double contains is near the double. -/
theorem near_of_contains (pos : 0 < d.significand) {n : ℕ} {grid : ℤ}
    (contained : (ofFloat d).contains (.ofDecimal n grid) = true) :
    Near d.significand d.exponent ((n : ℚ) * 10 ^ grid) := by
  have unit : (0 : ℚ) < 2 ^ d.exponent := zpow_pos two_pos _
  have pos_low := denominator_low_pos d
  have pos_high : 0 < (ofFloat d).high.denominator := Ratio.denominator_ofBinary_pos _ _
  have pos_n := Ratio.denominator_ofDecimal_pos n grid
  have below := Double.reach_bounds d.significand d.exponent
  unfold contains at contained
  unfold Near
  rw [lt_div_iff₀ unit, div_lt_iff₀ unit, div_eq_iff unit.ne', div_eq_iff unit.ne']
  split at contained
  · rename_i closed
    have even : d.significand % 2 = 0 := eq_of_beq closed
    rw [Bool.and_eq_true, Ratio.le_iff pos_low pos_n, Ratio.le_iff pos_n pos_high,
      low_ofFloat pos, high_ofFloat, Ratio.value_ofDecimal] at contained
    rcases contained.1.lt_or_eq with above | bottom
    · rcases contained.2.lt_or_eq with under | top
      · exact .inl ⟨above, under⟩
      · exact .inr ⟨even, .inr top⟩
    · exact .inr ⟨even, .inl bottom.symm⟩
  · rw [Bool.and_eq_true, Ratio.lt_iff pos_low pos_n, Ratio.lt_iff pos_n pos_high,
      low_ofFloat pos, high_ofFloat, Ratio.value_ofDecimal] at contained
    exact .inl contained

theorem contains_of_onGrid? {s : Neighbourhood} {grid : ℤ} {n : ℕ}
    (found : s.onGrid? grid = some n) : s.contains (.ofDecimal n grid) = true := by
  unfold onGrid? at found
  dsimp only at found
  generalize (if s.value.nearest grid = (s.value.onGrid grid).1 then _ else _) = far at found
  split at found
  · rename_i contained
    obtain rfl := Option.some.inj found
    exact contained
  · split at found
    · rename_i contained
      obtain rfl := Option.some.inj found
      exact contained
    · exact nomatch found

end Neighbourhood

namespace Ratio

variable {r : Ratio} (pos : 0 < r.denominator)

include pos

theorem nearest_bounds (grid : ℤ) :
    r.value / 10 ^ grid - 1 / 2 ≤ r.nearest grid ∧
      (r.nearest grid : ℚ) ≤ r.value / 10 ^ grid + 1 / 2 := by
  unfold nearest onGrid
  simp only [Nat.pow_eq]
  generalize top_eq : r.numerator * 10 ^ (-grid).toNat = top
  generalize bottom_eq : r.denominator * 10 ^ grid.toNat = bottom
  have pos_bottom : 0 < bottom := by
    rw [← bottom_eq]
    exact Nat.mul_pos pos (Nat.pow_pos (by decide))
  have measured : r.value / 10 ^ grid = (top : ℚ) / bottom := by
    rw [Double.zpow_eq_div (by norm_num), value, ← top_eq, ← bottom_eq]
    push_cast
    field_simp
  have below := Double.share_lt_one top pos_bottom
  have sides := Double.share_cases (top % bottom) pos_bottom
  rw [measured, Double.cast_div_eq top pos_bottom]
  generalize top / bottom = q
  generalize top % bottom = rest at below sides ⊢
  have above : (0 : ℚ) ≤ rest / bottom := by positivity
  cases side : compare (2 * rest) bottom with
  | lt =>
    rw [side] at sides
    constructor <;> linarith
  | gt =>
    rw [side] at sides
    push_cast
    constructor <;> linarith
  | eq =>
    rw [side] at sides
    have even : ((q % 2 : ℕ) : ℚ) ≤ 1 := by exact_mod_cast Nat.le_of_lt_succ (Nat.mod_lt q two_pos)
    have zero : (0 : ℚ) ≤ ((q % 2 : ℕ) : ℚ) := Nat.cast_nonneg _
    rw [sides, Nat.cast_add]
    constructor <;> linarith

omit pos in
theorem pow_length_le {n : ℕ} (pos_n : 0 < n) : 10 ^ ((Nat.toDigits 10 n).length - 1) ≤ n := by
  rcases Nat.eq_zero_or_pos ((Nat.toDigits 10 n).length - 1) with one | more
  · rw [one]
    exact pos_n
  · by_contra less
    have short := (Nat.length_toDigits_le_iff (by decide) more).mpr (Nat.lt_of_not_le less)
    omega

theorem zpow_magnitude_le (pos_r : 0 < r.numerator) : (10 : ℚ) ^ r.magnitude ≤ r.value := by
  have unit : (0 : ℚ) < r.denominator := by exact_mod_cast pos
  unfold magnitude value
  rw [le_div_iff₀ unit]
  split
  · rename_i large
    have digits := Nat.length_toDigits_pos (b := 10) (n := r.numerator / r.denominator)
    have size := pow_length_le (Nat.div_pos large pos)
    have power : (((Nat.toDigits 10 (r.numerator / r.denominator)).length : ℤ) - 1) =
        ((Nat.toDigits 10 (r.numerator / r.denominator)).length - 1 : ℕ) := by omega
    rw [power, zpow_natCast]
    exact_mod_cast (Nat.le_div_iff_mul_le pos).mp size
  · have digits := Nat.length_toDigits_pos (b := 10) (n := r.denominator / r.numerator)
    dsimp only
    generalize places_eq : (Nat.toDigits 10 (r.denominator / r.numerator)).length = places
      at digits ⊢
    have inverse : ∀ k : ℕ, (r.denominator : ℚ) ≤ r.numerator * 10 ^ k →
        (10 : ℚ) ^ (-(k : ℤ)) * r.denominator ≤ r.numerator := by
      intro k covered
      rw [zpow_neg, zpow_natCast, inv_mul_le_iff₀ (by positivity), mul_comm]
      exact covered
    split
    · rename_i covered
      have power : (-((places : ℤ) - 1)) = -((places - 1 : ℕ) : ℤ) := by omega
      rw [power]
      apply inverse
      simp only [Nat.pow_eq] at covered
      exact_mod_cast covered
    · apply inverse
      have less := (Nat.length_toDigits_le_iff (by decide) digits).mp places_eq.le
      have covered := (Nat.div_lt_iff_lt_mul pos_r).mp less
      rw [mul_comm] at covered
      exact_mod_cast covered.le

end Ratio

namespace Significant

open Double (Near reach)

section Shortest

variable {d : BinaryFloat} (canonical : Double.Canonical d.significand d.exponent)

include canonical

/-- An error of one half in the 17th digit is less than a quarter of the last place. -/
theorem near_of_error {r : ℚ}
    (low : d.significand - (d.significand : ℚ) / (2 * 10 ^ 16) ≤ r / 2 ^ d.exponent)
    (high : r / 2 ^ d.exponent ≤ d.significand + (d.significand : ℚ) / (2 * 10 ^ 16)) :
    Near d.significand d.exponent r := by
  have bound : (d.significand : ℚ) < 2 ^ 53 := by exact_mod_cast canonical.bound
  left
  constructor
  · unfold reach
    split
    · rename_i short
      rw [short.1] at low ⊢
      norm_num at low ⊢
      linarith
    · linarith
  · linarith

/-- With 17 digits the nearest multiple is near the double, though it is not checked. -/
theorem near_nearest {v : Ratio} (same : v = .ofBinary d.significand d.exponent) :
    Near d.significand d.exponent
      ((v.nearest (v.magnitude - 16) : ℚ) * 10 ^ (v.magnitude - 16)) := by
  have pos_denominator : 0 < v.denominator := same ▸ Ratio.denominator_ofBinary_pos _ _
  have pos_numerator : 0 < v.numerator :=
    same ▸ Nat.mul_pos canonical.pos (Nat.pow_pos (by decide))
  have size := Ratio.zpow_magnitude_le pos_denominator pos_numerator
  obtain ⟨low, high⟩ := Ratio.nearest_bounds pos_denominator (v.magnitude - 16)
  have value : v.value = d.significand * 2 ^ d.exponent := same ▸ Ratio.value_ofBinary _ _
  have grid : (0 : ℚ) < 10 ^ (v.magnitude - 16) := zpow_pos (by norm_num) _
  have unit : (0 : ℚ) < 2 ^ d.exponent := zpow_pos two_pos _
  have fine : (10 : ℚ) ^ (v.magnitude - 16) * 10 ^ 16 = 10 ^ v.magnitude := by
    rw [← zpow_natCast, ← zpow_add₀ (by norm_num)]
    congr 1
    omega
  rw [← fine, value] at size
  rw [value, tsub_le_iff_right, div_le_iff₀ grid] at low
  rw [value, ← sub_le_iff_le_add, le_div_iff₀ grid] at high
  apply near_of_error canonical
  · rw [le_div_iff₀ unit]
    linarith
  · rw [div_le_iff₀ unit]
    linarith

theorem search_near (left count : ℕ) (total : left + count = 16) :
    let s := Neighbourhood.ofFloat d
    ∃ n grid, search s s.value.magnitude left count = ofMultiple n grid ∧
      Near d.significand d.exponent ((n : ℚ) * 10 ^ grid) := by
  intro s
  induction left generalizing count with
  | zero =>
    -- the last grid is taken without a check
    obtain rfl : count = 16 := by omega
    exact ⟨_, _, rfl, near_nearest canonical rfl⟩
  | succ left ih =>
    unfold search
    split
    · rename_i n found
      exact ⟨n, _, rfl, Neighbourhood.near_of_contains canonical.pos
        (Neighbourhood.contains_of_onGrid? found)⟩
    · exact ih _ (by omega)

end Shortest

section Multiple

variable {n : ℕ} (pos : 0 < n) (grid : ℤ)

theorem toDigits_ofMultiple : ∃ zeros, Nat.toDigits 10 n =
    (ofMultiple n grid).digits ++ List.replicate zeros '0' := by
  refine ⟨((Nat.toDigits 10 n).reverse.takeWhile (· == '0')).length, ?_⟩
  have zeros : (Nat.toDigits 10 n).reverse.takeWhile (· == '0') =
      List.replicate ((Nat.toDigits 10 n).reverse.takeWhile (· == '0')).length '0' := by
    rw [List.eq_replicate_iff]
    refine ⟨rfl, fun c member => ?_⟩
    have zero := List.mem_takeWhile_imp member
    exact eq_of_beq zero
  have split := List.takeWhile_append_dropWhile (p := (· == '0')) (l := (Nat.toDigits 10 n).reverse)
  have whole := congrArg List.reverse split
  rw [List.reverse_append, List.reverse_reverse, zeros, List.reverse_replicate] at whole
  exact whole.symm

theorem magnitude_ofMultiple : (ofMultiple n grid).magnitude = n * 10 ^ grid := by
  obtain ⟨zeros, digits⟩ := toDigits_ofMultiple (n := n) grid
  have number : n = 10 ^ zeros * (ofMultiple n grid).coefficient := by
    have number := Nat.ofDigitChars_ten_toDigits (n := n)
    rw [digits, Nat.ofDigitChars_append, Nat.ofDigitChars_replicate_zero] at number
    exact number.symm
  have exponent : (ofMultiple n grid).exponent + 1 - (ofMultiple n grid).digits.length =
      zeros + grid := by
    have length := congrArg List.length digits
    rw [List.length_append, List.length_replicate] at length
    change grid + ((Nat.toDigits 10 n).length : ℤ) - 1 + 1 - _ = _
    omega
  unfold magnitude
  rw [exponent, zpow_add₀ (by norm_num), zpow_natCast]
  nth_rewrite 2 [number]
  push_cast
  ring

include pos in
theorem wellFormed_ofMultiple : (ofMultiple n grid).WellFormed := by
  obtain ⟨zeros, digits⟩ := toDigits_ofMultiple (n := n) grid
  have leading := head?_toDigits_ne pos
  have nonempty : (ofMultiple n grid).digits ≠ [] := by
    intro empty
    have some_digit := Nat.toDigits_ne_nil (b := 10) (n := n)
    rw [digits, empty, List.nil_append] at leading some_digit
    cases zeros with
    | zero => exact some_digit rfl
    | succ zeros => exact leading rfl
  refine ⟨(isDigits_toDigits n).of_subset nonempty ?_, .inl ?_⟩
  · rw [digits]
    exact List.subset_append_left _ _
  · rwa [digits, List.head?_append_of_ne_nil _ nonempty] at leading

end Multiple

/-- The shortest digits of a double that is not zero are near it. -/
theorem shortest_near {d : BinaryFloat} (canonical : Double.Canonical d.significand d.exponent) :
    (shortest d).WellFormed ∧ Near d.significand d.exponent (shortest d).magnitude := by
  obtain ⟨n, grid, found, near⟩ := search_near canonical 16 0 (Nat.add_zero 16)
  have multiple : shortest d = ofMultiple n grid := by
    unfold shortest
    rw [if_neg canonical.pos.ne']
    exact found
  have pos_n := Double.coefficient_pos_of_near canonical near
  rw [multiple, magnitude_ofMultiple]
  exact ⟨wellFormed_ofMultiple pos_n grid, near⟩

theorem wellFormed_zero : zero.WellFormed := ⟨isDigits_toDigits 0, .inr rfl⟩

end Significant

/-- In every layout that marks whole numbers the shortest digits of a finite double tell it. -/
theorem tells_writeFloat {l : Layout} (marks : l.markWhole = true) (u : Unbounded) {x : Float}
    (finite : x.isFinite = true) :
    Numeral.Tells (writeFloat Significant.shortest l u x).toList x := by
  rw [← Double.ofFloat?_isSome] at finite
  obtain ⟨d, known⟩ := Option.isSome_iff_exists.mp finite
  have tells : ∀ s : Significant, Significant.shortest d = s → s.WellFormed →
      Numeral.nearest d.negative (l.parts d.negative s).coefficient
        (l.parts d.negative s).power = x →
      Numeral.Tells (writeFloat Significant.shortest l u x).toList x := by
    rintro s rfl wellFormed nearest
    have some_digit := wellFormed.digits.nonempty
    refine ⟨l.parts d.negative (Significant.shortest d), l.wellFormed_parts wellFormed _,
      l.not_isPlain_parts _ some_digit, ?_, ?_⟩
    rotate_left
    · rw [Layout.negative_parts]
      exact nearest
    unfold writeFloat
    rw [known, ← Layout.write_eq_text marks _ some_digit]
    exact String.toList_ofList.symm
  by_cases zero : d.significand = 0
  · apply tells .zero (if_pos zero) Significant.wellFormed_zero
    have value := l.value_parts Significant.wellFormed_zero d.negative
    have none : Significant.zero.magnitude = 0 := by
      simp [Significant.magnitude, Significant.coefficient, Significant.zero, Nat.ofDigitChars_cons]
    have power : (10 : ℚ) ^ (l.parts d.negative .zero).power ≠ 0 := zpow_ne_zero _ (by norm_num)
    rw [none, mul_eq_zero, or_iff_left power, Nat.cast_eq_zero] at value
    rw [value, Double.nearest_zero]
    exact (Double.eq_pack_zero_of_ofFloat? known zero).symm
  · obtain ⟨canonical, high⟩ := Double.canonical_of_ofFloat? known zero
    obtain ⟨wellFormed, near⟩ := Significant.shortest_near canonical
    apply tells _ rfl wellFormed
    rw [← l.value_parts wellFormed d.negative] at near
    rw [Double.nearest_of_near d.negative canonical near high]
    exact (Double.eq_pack_of_ofFloat? known zero).symm

end FleetMap
