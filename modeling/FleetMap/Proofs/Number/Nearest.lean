import FleetMap.Proofs.Number.Packing

/-!
Rounding finds the nearest double. A number is near a double if it lies in the middle between two
neighbours at most, and there only if the significand of the double is even. Main statements:
`roundWithAccuracy_of_near`, by which whatever is near a double is rounded to it, and from it the
same of products and quotients.
-/

set_option autoImplicit false

namespace FleetMap.Double

open Float.Model Float.Model.UnpackedFloat

section Marks

/-- What the bits of an extended mantissa say about the number it stands for. -/
def Marks (em : ExtendedMantissa) (q : ℚ) : Prop :=
  match em.roundBit, em.stickyBit with
  | false, false => q = em.mantissa
  | false, true => (em.mantissa : ℚ) < q ∧ q < em.mantissa + 1 / 2
  | true, false => q = em.mantissa + 1 / 2
  | true, true => (em.mantissa : ℚ) + 1 / 2 < q ∧ q < em.mantissa + 1

theorem Marks.shiftRightOne {em : ExtendedMantissa} {q : ℚ} (marks : Marks em q) :
    Marks em.shiftRightOne (q / 2) := by
  obtain ⟨m, round, sticky⟩ := em
  -- the bit that is lost becomes the round bit
  obtain ⟨k, rfl | rfl⟩ : ∃ k, m = 2 * k ∨ m = 2 * k + 1 := ⟨m / 2, by omega⟩
  · have half : 2 * k / 2 = k := by omega
    have bit : (2 * k % 2 != 0) = false := by simp
    cases round <;> cases sticky <;>
      simp only [Marks, ExtendedMantissa.shiftRightOne, half, bit, Bool.or_false, Bool.or_true,
        Bool.or_self, Nat.cast_mul, Nat.cast_ofNat] at marks ⊢
    · linarith
    all_goals
      constructor
      all_goals linarith
  · have half : (2 * k + 1) / 2 = k := by omega
    have bit : ((2 * k + 1) % 2 != 0) = true := by simp
    cases round <;> cases sticky <;>
      simp only [Marks, ExtendedMantissa.shiftRightOne, half, bit, Bool.or_false, Bool.or_true,
        Bool.or_self, Nat.cast_add, Nat.cast_mul, Nat.cast_ofNat, Nat.cast_one] at marks ⊢
    · linarith
    all_goals
      constructor
      all_goals linarith

theorem Marks.shiftRight {em : ExtendedMantissa} {q : ℚ} (marks : Marks em q) (n : ℕ) :
    Marks (em >>> n) (q / 2 ^ n) := by
  induction n with
  | zero =>
    rw [pow_zero, div_one]
    exact marks
  | succ n ih =>
    have next := ih.shiftRightOne
    rwa [div_div, ← pow_succ] at next

theorem Marks.bounds {em : ExtendedMantissa} {q : ℚ} (marks : Marks em q) :
    (em.mantissa : ℚ) ≤ q ∧ q < em.mantissa + 1 := by
  obtain ⟨m, round, sticky⟩ := em
  cases round <;> cases sticky <;> simp only [Marks] at marks ⊢ <;> constructor <;> linarith

/-- Numbers that are rounded to a whole number, a half going to the even one. -/
def RoundsTo (q : ℚ) (n : ℕ) : Prop :=
  (n : ℚ) - 1 / 2 < q ∧ q < n + 1 / 2 ∨ n % 2 = 0 ∧ (q = n - 1 / 2 ∨ q = n + 1 / 2)

theorem RoundsTo.bounds {q : ℚ} {n : ℕ} (rounds : RoundsTo q n) :
    (n : ℚ) - 1 / 2 ≤ q ∧ q ≤ n + 1 / 2 := by
  rcases rounds with ⟨above, below⟩ | ⟨_, low | high⟩
  · exact ⟨above.le, below.le⟩
  · exact ⟨low.ge, by linarith⟩
  · exact ⟨by linarith, high.le⟩

theorem Marks.roundedMantissa {em : ExtendedMantissa} {q : ℚ} {n : ℕ} (marks : Marks em q)
    (rounds : RoundsTo q n) : em.roundedMantissa = n := by
  obtain ⟨m, round, sticky⟩ := em
  obtain ⟨low, high⟩ := rounds.bounds
  cases round <;> cases sticky <;> simp only [Marks] at marks
  · change m = n
    have below : (m : ℚ) < n + 1 := by linarith
    have above : (n : ℚ) < m + 1 := by linarith
    norm_cast at below above
    omega
  · change m = n
    have below : (m : ℚ) < n + 1 := by linarith
    have above : (n : ℚ) < m + 1 := by linarith
    norm_cast at below above
    omega
  · -- a half is rounded to the even one of its neighbours
    change m + m % 2 = n
    rcases rounds with ⟨above, below⟩ | ⟨even, low | high⟩
    · have below : (m : ℚ) < n := by linarith
      have above : (n : ℚ) < m + 1 := by linarith
      norm_cast at below above
      omega
    · have next : (n : ℚ) = m + 1 := by linarith
      norm_cast at next
      omega
    · have same : (n : ℚ) = m := by linarith
      norm_cast at same
      omega
  · change m + 1 = n
    have below : (m : ℚ) < n := by linarith
    have above : (n : ℚ) < m + 2 := by linarith
    norm_cast at below above
    omega

end Marks

/-- How far the numbers near a double reach down, in units of its last place. -/
def reach (m : ℕ) (e : ℤ) : ℚ := if m = 2 ^ 52 ∧ -1074 < e then m - 1 / 4 else m - 1 / 2

/-- The numbers that are nearer to a double than to any other; those in the middle are near the one
whose significand is even. -/
def Near (m : ℕ) (e : ℤ) (r : ℚ) : Prop :=
  reach m e < r / 2 ^ e ∧ r / 2 ^ e < m + 1 / 2 ∨
    m % 2 = 0 ∧ (r / 2 ^ e = reach m e ∨ r / 2 ^ e = m + 1 / 2)

theorem reach_bounds (m : ℕ) (e : ℤ) : (m : ℚ) - 1 / 2 ≤ reach m e ∧ reach m e < m := by
  unfold reach
  split
  · constructor <;> linarith
  · constructor <;> linarith

theorem Near.bounds {m : ℕ} {e : ℤ} {r : ℚ} (near : Near m e r) :
    reach m e ≤ r / 2 ^ e ∧ r / 2 ^ e ≤ m + 1 / 2 := by
  have below := (reach_bounds m e).2
  rcases near with ⟨low, high⟩ | ⟨_, low | high⟩
  · exact ⟨low.le, high.le⟩
  · exact ⟨low.ge, by linarith⟩
  · exact ⟨by linarith, high.le⟩

/-- Apart from the short way down below a power of two, near means rounded in units of the last
place. -/
theorem Near.roundsTo {m : ℕ} {e : ℤ} {r : ℚ} (near : Near m e r)
    (usual : m = 2 ^ 52 ∧ -1074 < e → (m : ℚ) ≤ r / 2 ^ e) : RoundsTo (r / 2 ^ e) m := by
  by_cases short : m = 2 ^ 52 ∧ -1074 < e
  · have above := usual short
    have below := (reach_bounds m e).2
    rcases near with ⟨_, high⟩ | ⟨even, low | high⟩
    · exact .inl ⟨by linarith, high⟩
    · linarith
    · exact .inr ⟨even, .inr high⟩
  · have whole : reach m e = m - 1 / 2 := if_neg short
    unfold Near at near
    rw [whole] at near
    exact near

/-- On the short way down a power of two is reached by rounding up in half its units. -/
theorem Near.roundsTo_half {e : ℤ} {r : ℚ} (near : Near (2 ^ 52) e r) (above : -1074 < e)
    (short : r / 2 ^ e < (2 : ℚ) ^ 52) : RoundsTo (r / 2 ^ (e - 1)) (2 ^ 53) := by
  have quarter : reach (2 ^ 52) e = 2 ^ 52 - 1 / 4 := by
    unfold reach
    rw [if_pos ⟨rfl, above⟩]
    norm_num
  have twice : r / 2 ^ (e - 1) = 2 * (r / 2 ^ e) := by
    rw [zpow_sub_one₀ two_ne_zero]
    field_simp
  unfold Near at near
  rw [quarter] at near
  unfold RoundsTo
  rw [twice]
  push_cast at near ⊢
  rcases near with ⟨low, _⟩ | ⟨_, low | high⟩
  · exact .inl ⟨by linarith, by linarith⟩
  · exact .inr ⟨by norm_num, .inl (by linarith)⟩
  · linarith

section Target

variable {m : ℕ} {e : ℤ} {r : ℚ} (whole : (m : ℚ) ≤ r / 2 ^ e ∧ r / 2 ^ e < m + 1)

include whole

theorem zpow_le_of_whole (pos : 0 < m) : (2 : ℚ) ^ ((m.log2 : ℤ) + e) ≤ r := by
  have unit : (0 : ℚ) < 2 ^ e := zpow_pos two_pos e
  have low : (2 : ℚ) ^ m.log2 ≤ m := by exact_mod_cast Nat.log2_self_le pos.ne'
  rw [zpow_add₀ two_ne_zero, zpow_natCast, ← le_div_iff₀ unit]
  exact low.trans whole.1

theorem lt_zpow_of_whole : r < (2 : ℚ) ^ ((m.log2 : ℤ) + 1 + e) := by
  have unit : (0 : ℚ) < 2 ^ e := zpow_pos two_pos e
  have high : (m : ℚ) + 1 ≤ 2 ^ (m.log2 + 1) := by exact_mod_cast Nat.lt_log2_self
  rw [zpow_add₀ two_ne_zero, ← div_lt_iff₀ unit]
  exact whole.2.trans_le (by exact_mod_cast high)

/-- A number below a power of two has its last place no higher than that power says. -/
theorem targetExponent_le_of_lt (enough : e ≤ Format.binary64.targetExponent (totalExponent m e))
    {n : ℤ} (below : r < 2 ^ (n + 1)) :
    Format.binary64.targetExponent (totalExponent m e) ≤ max (n - 52) (-1074) := by
  rw [targetExponent_eq] at enough ⊢
  rcases Nat.eq_zero_or_pos m with rfl | pos
  · simp only [Nat.log2_zero] at enough ⊢
    omega
  · have order := (zpow_lt_zpow_iff_right₀ one_lt_two).mp
      ((zpow_le_of_whole whole pos).trans_lt below)
    omega

/-- A number from a power of two on has its last place no lower than that power says. -/
theorem le_targetExponent_of_le {n : ℤ} (above : 2 ^ n ≤ r) :
    max (n - 52) (-1074) ≤ Format.binary64.targetExponent (totalExponent m e) := by
  have order := (zpow_lt_zpow_iff_right₀ one_lt_two).mp (above.trans_lt (lt_zpow_of_whole whole))
  rw [targetExponent_eq]
  omega

theorem targetExponent_le_of_lt_pow
    (enough : e ≤ Format.binary64.targetExponent (totalExponent m e)) {f : ℤ} {k : ℕ}
    (below : r / 2 ^ f < (2 : ℚ) ^ (k + 1)) :
    Format.binary64.targetExponent (totalExponent m e) ≤ max (f + k - 52) (-1074) := by
  apply targetExponent_le_of_lt whole enough
  rw [add_assoc, zpow_add₀ two_ne_zero, mul_comm, ← div_lt_iff₀ (zpow_pos two_pos f)]
  exact_mod_cast below

theorem le_targetExponent_of_pow_le {f : ℤ} {k : ℕ} (above : (2 : ℚ) ^ k ≤ r / 2 ^ f) :
    max (f + k - 52) (-1074) ≤ Format.binary64.targetExponent (totalExponent m e) := by
  apply le_targetExponent_of_le whole
  rw [zpow_add₀ two_ne_zero, mul_comm, zpow_natCast, ← le_div_iff₀ (zpow_pos two_pos f)]
  exact above

/-- A number near a double has its last place where the double has it, or one place lower on the
short way down. -/
theorem targetExponent_of_near (enough : e ≤ Format.binary64.targetExponent (totalExponent m e))
    {n : ℕ} {f : ℤ} (canonical : Canonical n f) (near : Near n f r) :
    Format.binary64.targetExponent (totalExponent m e) = f ∧ RoundsTo (r / 2 ^ f) n ∨
      n = 2 ^ 52 ∧ Format.binary64.targetExponent (totalExponent m e) = f - 1 ∧
        RoundsTo (r / 2 ^ (f - 1)) (2 ^ 53) := by
  obtain ⟨low, high⟩ := near.bounds
  have size : (n : ℚ) + 1 ≤ 2 ^ 53 := by exact_mod_cast canonical.bound
  have below : r / 2 ^ f < (2 : ℚ) ^ (52 + 1) := by linarith
  have upper := targetExponent_le_of_lt_pow whole enough below
  have lowest := canonical.low
  have least := (targetExponent_eq m e).ge.trans' (le_max_right _ _)
  rcases canonical.full with full | lowest
  · by_cases power : (2 : ℚ) ^ 52 ≤ r / 2 ^ f
    · have lower := le_targetExponent_of_pow_le whole power
      refine .inl ⟨by omega, near.roundsTo ?_⟩
      rintro ⟨rfl, _⟩
      exact_mod_cast power
    · -- the number lies below a power of two, which is the double it is near
      have nearest := (reach_bounds n f).1
      have less : (n : ℚ) < 2 ^ 52 + 1 := by linarith
      norm_cast at less
      obtain rfl : n = 2 ^ 52 := by omega
      rcases Int.lt_or_eq_of_le canonical.low with above | same_low
      · right
        have half : (2 : ℚ) ^ 51 ≤ r / 2 ^ f := by
          have room : (2 : ℚ) ^ 51 ≤ (2 : ℚ) ^ 52 - 1 / 2 := by norm_num
          push_cast at nearest
          linarith
        have lower := le_targetExponent_of_pow_le whole half
        have shorter := targetExponent_le_of_lt_pow whole enough (k := 51) (lt_of_not_ge power)
        exact ⟨rfl, by omega, near.roundsTo_half above (lt_of_not_ge power)⟩
      · subst same_low
        refine .inl ⟨by omega, near.roundsTo ?_⟩
        exact fun short => absurd short.2 (by omega)
  · subst lowest
    refine .inl ⟨by omega, near.roundsTo ?_⟩
    exact fun short => absurd short.2 (by omega)

end Target

theorem mantissa_ofMantissaAndAccuracy (m : ℕ) (a : Accuracy) :
    (ExtendedMantissa.ofMantissaAndAccuracy m a).mantissa = m := by
  cases a with
  | exact => rfl
  | inexact order => cases order <;> rfl

theorem shiftToTargetExponent_of_lt {m : ℕ} {e : ℤ} (bound : m < 2 ^ 53) (low : -1074 ≤ e) :
    shiftToTargetExponent Format.binary64 m e .exact = (⟨m, false, false⟩, e) := by
  have bits := log2_succ_le bound (by decide)
  have unshifted : (Format.binary64.targetExponent (totalExponent m e) - e).toNat = 0 := by
    rw [targetExponent_eq]
    omega
  unfold shiftToTargetExponent shiftToExponent
  simp only [unshifted]
  change (_, e + 0) = _
  rw [Int.add_zero]
  rfl

/-- A significand that was rounded up to one bit more loses that bit again. -/
theorem shiftToTargetExponent_carry {e : ℤ} (low : -1074 ≤ e) :
    shiftToTargetExponent Format.binary64 (2 ^ 53) e .exact = (⟨2 ^ 52, false, false⟩, e + 1) := by
  have shifted : (Format.binary64.targetExponent (totalExponent (2 ^ 53) e) - e).toNat = 1 := by
    rw [targetExponent_eq, Nat.log2_two_pow]
    omega
  unfold shiftToTargetExponent shiftToExponent
  simp only [shifted]
  rfl

theorem roundWithAccuracy_of_near (s : Sign) {m : ℕ} {e : ℤ} {a : Accuracy} {r : ℚ}
    (marks : Marks (ExtendedMantissa.ofMantissaAndAccuracy m a) (r / 2 ^ e))
    (enough : e ≤ Format.binary64.targetExponent (totalExponent m e))
    {n : ℕ} {f : ℤ} (canonical : Canonical n f) (near : Near n f r) :
    roundWithAccuracy Format.binary64 s m e a = .finite s n f canonical.pos := by
  have whole := marks.bounds
  rw [mantissa_ofMantissaAndAccuracy] at whole
  have target := targetExponent_of_near whole enough canonical near
  have least := (targetExponent_eq m e).ge.trans' (le_max_right _ _)
  generalize t_eq : Format.binary64.targetExponent (totalExponent m e) = t at enough target least
  have exponent : e + ((t - e).toNat : ℤ) = t := by omega
  have shifted : Marks (ExtendedMantissa.ofMantissaAndAccuracy m a >>> (t - e).toNat)
      (r / 2 ^ t) := by
    have shifted := marks.shiftRight (t - e).toNat
    rwa [div_div, ← zpow_natCast, ← zpow_add₀ two_ne_zero, exponent] at shifted
  have first : shiftToTargetExponent Format.binary64 m e a =
      (ExtendedMantissa.ofMantissaAndAccuracy m a >>> (t - e).toNat, t) := by
    unfold shiftToTargetExponent shiftToExponent
    simp only [t_eq, exponent]
  unfold roundWithAccuracy
  simp only [first]
  rcases target with ⟨rfl, rounds⟩ | ⟨rfl, rfl, rounds⟩
  · simp only [shifted.roundedMantissa rounds, shiftToTargetExponent_of_lt canonical.bound
      canonical.low]
    rw [dif_neg canonical.pos.ne']
  · -- rounded up to 54 bits, the significand is shifted once more and loses a zero
    have carried : f - 1 + 1 = f := by omega
    simp only [shifted.roundedMantissa rounds, shiftToTargetExponent_carry least, carried]
    rfl

section Division

variable (m : ℕ) {d : ℕ} (pos : 0 < d)

include pos

/-- A quotient is its whole part and the share that is left. -/
theorem cast_div_eq : (m : ℚ) / d = (m / d : ℕ) + ((m % d : ℕ) : ℚ) / d := by
  have unit : (0 : ℚ) < d := by exact_mod_cast pos
  have whole : (m : ℚ) = d * (m / d : ℕ) + (m % d : ℕ) := by
    exact_mod_cast (Nat.div_add_mod m d).symm
  nth_rewrite 1 [whole]
  field_simp

theorem share_lt_one : ((m % d : ℕ) : ℚ) / d < 1 := by
  have unit : (0 : ℚ) < d := by exact_mod_cast pos
  rw [div_lt_one unit]
  exact_mod_cast Nat.mod_lt m pos

/-- Twice the remainder against the divisor says on which side of one half the share lies. -/
theorem share_cases :
    match compare (2 * m) d with
    | .lt => (m : ℚ) / d < 1 / 2
    | .eq => (m : ℚ) / d = 1 / 2
    | .gt => 1 / 2 < (m : ℚ) / d := by
  have unit : (0 : ℚ) < d := by exact_mod_cast pos
  cases side : compare (2 * m) d with
  | lt =>
    have order : ((2 * m : ℕ) : ℚ) < d := by exact_mod_cast Nat.compare_eq_lt.mp side
    push_cast at order
    show (m : ℚ) / d < 1 / 2
    rw [div_lt_iff₀ unit]
    linarith
  | eq =>
    have order : ((2 * m : ℕ) : ℚ) = d := by exact_mod_cast Nat.compare_eq_eq.mp side
    push_cast at order
    show (m : ℚ) / d = 1 / 2
    rw [div_eq_iff unit.ne']
    linarith
  | gt =>
    have order : (d : ℚ) < (2 * m : ℕ) := by exact_mod_cast Nat.compare_eq_gt.mp side
    push_cast at order
    show 1 / 2 < (m : ℚ) / d
    rw [lt_div_iff₀ unit]
    linarith

/-- The remainder of a division says where the quotient lies. -/
theorem marks_quotient :
    Marks (ExtendedMantissa.ofMantissaAndAccuracy (m / d) (accuracyOfFraction (m % d) d))
      ((m : ℚ) / d) := by
  have unit : (0 : ℚ) < d := by exact_mod_cast pos
  have below := share_lt_one m pos
  have sides := share_cases (m % d) pos
  rw [cast_div_eq m pos]
  generalize m / d = q
  generalize m % d = r at below sides ⊢
  unfold accuracyOfFraction
  by_cases none_left : r = 0
  · rw [if_pos none_left, none_left, Nat.cast_zero, zero_div, add_zero]
    rfl
  · have above : (0 : ℚ) < r / d := div_pos (by exact_mod_cast Nat.pos_of_ne_zero none_left) unit
    rw [if_neg none_left]
    cases side : compare (2 * r) d with
    | lt =>
      rw [side] at sides
      show (q : ℚ) < q + r / d ∧ (q : ℚ) + r / d < q + 1 / 2
      constructor <;> linarith
    | eq =>
      rw [side] at sides
      show (q : ℚ) + r / d = q + 1 / 2
      rw [sides]
    | gt =>
      rw [side] at sides
      show (q : ℚ) + 1 / 2 < q + r / d ∧ (q : ℚ) + r / d < q + 1
      constructor <;> linarith

end Division

section Operations

variable {m₁ m₂ : ℕ} {e₁ e₂ : ℤ} {pos₁ : 0 < m₁} {pos₂ : 0 < m₂} (s₁ s₂ : Sign) {n : ℕ} {f : ℤ}
  (canonical : Canonical n f)

include canonical

/-- A product that is near a double is rounded to it, if it has more bits than doubles have. -/
theorem mul_of_near (near : Near n f (m₁ * 2 ^ e₁ * (m₂ * 2 ^ e₂)))
    (enough : 2 ^ 52 ≤ m₁ * m₂) :
    UnpackedFloat.mul Format.binary64 (.finite s₁ m₁ e₁ pos₁) (.finite s₂ m₂ e₂ pos₂) =
      .finite (s₁ * s₂) n f canonical.pos := by
  have exact_product : Marks (ExtendedMantissa.ofMantissaAndAccuracy (m₁ * m₂) .exact)
      ((m₁ : ℚ) * 2 ^ e₁ * (m₂ * 2 ^ e₂) / 2 ^ (e₁ + e₂)) := by
    have whole : (m₁ : ℚ) * 2 ^ e₁ * (m₂ * 2 ^ e₂) / 2 ^ (e₁ + e₂) = (m₁ * m₂ : ℕ) := by
      rw [zpow_add₀ two_ne_zero]
      push_cast
      field_simp
    rw [whole]
    rfl
  have bits : 52 ≤ (m₁ * m₂).log2 :=
    (Nat.le_log2 (Nat.mul_pos pos₁ pos₂).ne').mpr enough
  apply roundWithAccuracy_of_near _ exact_product _ canonical near
  rw [targetExponent_eq]
  omega

theorem div_of_near (near : Near n f (m₁ * 2 ^ e₁ / (m₂ * 2 ^ e₂))) :
    UnpackedFloat.div Format.binary64 (.finite s₁ m₁ e₁ pos₁) (.finite s₂ m₂ e₂ pos₂) =
      .finite (s₁ / s₂) n f canonical.pos := by
  unfold UnpackedFloat.div
  dsimp only [divCore]
  generalize t_eq : min (e₁ - e₂) (Format.binary64.targetExponent
    (totalExponent m₁ e₁ - totalExponent m₂ e₂)) = t
  generalize shifted_eq : m₁ <<< (e₁ - e₂ - t).toNat = m
  have unit : ∀ k : ℤ, (0 : ℚ) < 2 ^ k := fun k => zpow_pos two_pos k
  have divisor : (0 : ℚ) < m₂ := by exact_mod_cast pos₂
  have quotient : (m : ℚ) / m₂ = m₁ * 2 ^ e₁ / (m₂ * 2 ^ e₂) / 2 ^ t := by
    have low : ((e₁ - e₂ - t).toNat : ℤ) = e₁ - e₂ - t := by omega
    rw [← shifted_eq, Nat.shiftLeft_eq, Nat.cast_mul, Nat.cast_pow, Nat.cast_ofNat,
      ← zpow_natCast, low, zpow_sub₀ two_ne_zero, zpow_sub₀ two_ne_zero]
    field_simp
  have marks := marks_quotient m pos₂
  rw [quotient] at marks
  apply roundWithAccuracy_of_near _ marks _ canonical near
  have whole := marks.bounds
  rw [mantissa_ofMantissaAndAccuracy] at whole
  -- the quotient has 53 bits at least, since the shift made up for what the divisor takes
  have above : (2 : ℚ) ^ ((m₁.log2 : ℤ) + e₁ - (m₂.log2 + 1 + e₂)) ≤
      m₁ * 2 ^ e₁ / (m₂ * 2 ^ e₂) := by
    have dividend : (2 : ℚ) ^ m₁.log2 ≤ m₁ := by exact_mod_cast Nat.log2_self_le pos₁.ne'
    have divisor_low : (m₂ : ℚ) ≤ 2 ^ (m₂.log2 + 1) := by exact_mod_cast Nat.lt_log2_self.le
    rw [zpow_sub₀ two_ne_zero]
    apply div_le_div₀ (by positivity)
    · rw [zpow_add₀ two_ne_zero, zpow_natCast]
      exact mul_le_mul_of_nonneg_right dividend (unit e₁).le
    · positivity
    · rw [zpow_add₀ two_ne_zero]
      apply mul_le_mul_of_nonneg_right _ (unit e₂).le
      exact_mod_cast divisor_low
  have bits := le_targetExponent_of_le whole above
  have total : Format.binary64.targetExponent (totalExponent m₁ e₁ - totalExponent m₂ e₂) =
      max ((m₁.log2 : ℤ) + 1 + e₁ - (m₂.log2 + 1 + e₂) - 53) (-1074) := rfl
  rw [total] at t_eq
  omega

end Operations

end FleetMap.Double
