import FleetMap.Proofs.Number.Rounding

set_option autoImplicit false

namespace FleetMap.Double

open Float.Model Float.Model.UnpackedFloat

/-- A significand and an exponent as doubles have them. -/
structure Canonical (m : ℕ) (e : ℤ) : Prop where
  pos : 0 < m
  bound : m < 2 ^ 53
  low : -1074 ≤ e
  full : 2 ^ 52 ≤ m ∨ e = -1074

/-- The bits of a double are its sign, its exponent field and its fraction, one after another. -/
theorem toNat_packComponents (s : Sign) (e : BitVec 11) (m : BitVec 52) :
    (packComponents Format.binary64 s e m).toNat =
      s.toBitVec.toNat * 2 ^ 63 + e.toNat * 2 ^ 52 + m.toNat := by
  change (s.toBitVec ++ e ++ m : BitVec (1 + 11 + 52)).toNat = _
  rw [BitVec.toNat_append, ← Nat.shiftLeft_add_eq_or_of_lt m.isLt, BitVec.toNat_append,
    ← Nat.shiftLeft_add_eq_or_of_lt e.isLt, Nat.shiftLeft_eq, Nat.shiftLeft_eq]
  omega

theorem toNat_toBitVec_le (s : Sign) : s.toBitVec.toNat ≤ 1 := by
  cases s <;> decide

theorem fraction_packComponents (s : Sign) (exponent : BitVec 11) (mantissa : BitVec 52) :
    fraction (packComponents Format.binary64 s exponent mantissa) = mantissa.toNat := by
  unfold fraction
  rw [← toNat_unpackMantissa, unpackMantissa_packComponents]

theorem unpackSign_packComponents (s : Sign) (exponent : BitVec 11) (mantissa : BitVec 52) :
    unpackSign (packComponents Format.binary64 s exponent mantissa) = s.toBitVec := by
  apply BitVec.eq_of_toNat_eq
  have packed := toNat_packComponents s exponent mantissa
  have sign := toNat_toBitVec_le s
  have exponent_lt := exponent.isLt
  have mantissa_lt := mantissa.isLt
  have extracted : (unpackSign (packComponents Format.binary64 s exponent mantissa)).toNat =
      (packComponents Format.binary64 s exponent mantissa).toNat / 2 ^ 63 % 2 := by
    simp [unpackSign, BitVec.extractLsb_toNat, Nat.shiftRight_eq_div_pow]
  rw [extracted, packed]
  omega

theorem sign_unpack {b : BitVec Format.binary64.numBits} {s : Sign} {m : ℕ} {e : ℤ} {pos : 0 < m}
    (unpacked : UnpackedFloat.unpack Format.binary64 b = .finite s m e pos) :
    s = Sign.ofBitVec (unpackSign b) := by
  unfold UnpackedFloat.unpack at unpacked
  dsimp only at unpacked
  split at unpacked
  · split at unpacked <;> exact nomatch unpacked
  · split at unpacked
    · split at unpacked
      · exact nomatch unpacked
      · exact (UnpackedFloat.finite.inj unpacked).1.symm
    · exact (UnpackedFloat.finite.inj unpacked).1.symm

theorem fraction_of_unpack_zero {b : BitVec Format.binary64.numBits} {s : Sign}
    (unpacked : UnpackedFloat.unpack Format.binary64 b = .zero s) : fraction b = 0 := by
  unfold UnpackedFloat.unpack at unpacked
  dsimp only at unpacked
  split at unpacked
  · split at unpacked <;> exact nomatch unpacked
  · split at unpacked
    · split at unpacked
      · rename_i empty
        unfold fraction
        rw [← toNat_unpackMantissa, empty]
        rfl
      · exact nomatch unpacked
    · exact nomatch unpacked

theorem ofBitVec_toBitVec (s : Sign) : Sign.ofBitVec s.toBitVec = s := by
  cases s <;> rfl

section Canonical

variable {m : ℕ} {e : ℤ} (canonical : Canonical m e) (high : e ≤ 971)

/-- The exponent field of a double; zero stands for numbers without the hidden bit. -/
def exponentField (m : ℕ) (e : ℤ) : ℕ := if m < 2 ^ 52 then 0 else (e + 1075).toNat

include high in
theorem exponentField_lt : exponentField m e < 2047 := by
  unfold exponentField
  split <;> omega

include canonical high

theorem pack_finite (s : Sign) :
    UnpackedFloat.pack Format.binary64 (.finite s m e canonical.pos) =
      packComponents Format.binary64 s (BitVec.ofNat 11 (exponentField m e))
        (BitVec.ofNat 52 m) := by
  have low := canonical.low
  have bounded : ¬ 2 ^ 11 ≤ (e + (1023 : ℕ) + (52 : ℕ)).toNat + 1 := by omega
  have field : (e + (1023 : ℕ) + (52 : ℕ)).toNat = (e + 1075).toNat := by omega
  unfold UnpackedFloat.pack exponentField
  change (if 2 ^ 11 ≤ (e + (1023 : ℕ) + (52 : ℕ)).toNat + 1 then _ else if m.log2 + 1 = 53 then _
    else _) = _
  rw [if_neg bounded]
  by_cases small : m < 2 ^ 52
  · have short := log2_succ_le small (by decide)
    rw [if_neg (by omega), if_pos small]
  · have long := (Nat.le_log2 canonical.pos.ne').mpr (Nat.le_of_not_lt small)
    have short := log2_succ_le canonical.bound (by decide)
    rw [if_pos (by omega), if_neg small]
    rw [← field]
    rfl

theorem unpack_pack (s : Sign) :
    UnpackedFloat.unpack Format.binary64
      (UnpackedFloat.pack Format.binary64 (.finite s m e canonical.pos)) =
        .finite s m e canonical.pos := by
  rw [pack_finite canonical high]
  have room := exponentField_lt (m := m) high
  have field : biased (packComponents Format.binary64 s (BitVec.ofNat 11 (exponentField m e))
      (BitVec.ofNat 52 m)) = exponentField m e := by
    rw [biased_packComponents, BitVec.toNat_ofNat]
    exact Nat.mod_eq_of_lt (by omega)
  have rest : fraction (packComponents Format.binary64 s (BitVec.ofNat 11 (exponentField m e))
      (BitVec.ofNat 52 m)) = m % 2 ^ 52 := by
    rw [fraction_packComponents, BitVec.toNat_ofNat]
  have sign := unpackSign_packComponents s (BitVec.ofNat 11 (exponentField m e)) (BitVec.ofNat 52 m)
  generalize packComponents Format.binary64 s (BitVec.ofNat 11 (exponentField m e))
    (BitVec.ofNat 52 m) = b at field rest sign
  have tells := tells_unpack b
  have bound := canonical.bound
  have low := canonical.low
  have full := canonical.full
  have pos := canonical.pos
  -- without the hidden bit the field is zero, and the fraction alone makes the significand
  unfold exponentField at field room
  cases unpacked : UnpackedFloat.unpack Format.binary64 b with
  | infinity s' | notANumber =>
    rw [unpacked] at tells
    simp only [Tells] at tells
    omega
  | zero s' =>
    have no_fraction := fraction_of_unpack_zero unpacked
    rw [unpacked] at tells
    simp only [Tells] at tells
    split at field <;> omega
  | finite s' m' e' pos' =>
    rw [unpacked] at tells
    simp only [Tells] at tells
    have same : s' = s := by rw [sign_unpack unpacked, sign, ofBitVec_toBitVec]
    obtain ⟨rfl, rfl⟩ : m' = m ∧ e' = e := by split at field <;> omega
    rw [same]

end Canonical

section Exact

def signOf (negative : Bool) : Sign := if negative then .negative else .positive

variable {x : Float} {d : BinaryFloat} (known : BinaryFloat.ofFloat? x = some d)

include known

theorem bits_of_ofFloat? :
    (x.toBits.toNat = (signOf d.negative).toBitVec.toNat * 2 ^ 63 + d.significand ∧
        d.significand < 2 ^ 52 ∧ d.exponent = -1074) ∨
      ∃ field : ℕ, 0 < field ∧ field < 2047 ∧ d.exponent = field - 1075 ∧
        2 ^ 52 ≤ d.significand ∧ d.significand < 2 ^ 53 ∧
        x.toBits.toNat = (signOf d.negative).toBitVec.toNat * 2 ^ 63 + field * 2 ^ 52 +
          (d.significand - 2 ^ 52) := by
  have word : x.toBits.toNat < 2 ^ 64 := x.toBits.toNat_lt
  have sign : (signOf (x.toBits.toNat / 2 ^ 63 % 2 == 1)).toBitVec.toNat =
      x.toBits.toNat / 2 ^ 63 := by
    have bit : x.toBits.toNat / 2 ^ 63 = 0 ∨ x.toBits.toNat / 2 ^ 63 = 1 := by omega
    rcases bit with zero | one
    · rw [zero]
      rfl
    · rw [one]
      rfl
  unfold BinaryFloat.ofFloat? BinaryFloat.ofBits? at known
  simp only [Nat.pow_eq] at known
  split at known
  · exact nomatch known
  · split at known
    · obtain rfl := Option.some.inj known
      left
      dsimp only
      rw [sign]
      omega
    · obtain rfl := Option.some.inj known
      right
      refine ⟨x.toBits.toNat / 2 ^ 52 % 2 ^ 11, ?_⟩
      dsimp only
      rw [sign]
      omega

/-- The exact value of a double that is not zero is spelled as doubles are. -/
theorem canonical_of_ofFloat? (not_zero : d.significand ≠ 0) :
    Canonical d.significand d.exponent ∧ d.exponent ≤ 971 := by
  rcases bits_of_ofFloat? known with ⟨_, small, low⟩ | ⟨field, _, _, _, full, bound, _⟩
  · exact ⟨⟨by omega, by omega, by omega, .inr low⟩, by omega⟩
  · exact ⟨⟨by omega, bound, by omega, .inl full⟩, by omega⟩

omit known in
theorem eq_ofModel_of_toNat {y : UnpackedFloat}
    (same : x.toBits.toNat = (UnpackedFloat.pack Format.binary64 y).toNat) :
    x = .ofModel (.pack y) := by
  obtain ⟨⟨bits, valid⟩⟩ := x
  have equal : bits = UInt64.ofBitVec (UnpackedFloat.pack Format.binary64 y) :=
    UInt64.toNat_inj.mp same
  subst equal
  rfl

/-- A double that is not zero is packed from its exact value. -/
theorem eq_pack_of_ofFloat? (not_zero : d.significand ≠ 0) :
    x = .ofModel (.pack (.finite (signOf d.negative) d.significand d.exponent
      (Nat.pos_of_ne_zero not_zero))) := by
  obtain ⟨canonical, high⟩ := canonical_of_ofFloat? known not_zero
  apply eq_ofModel_of_toNat
  rw [pack_finite canonical high, toNat_packComponents, BitVec.toNat_ofNat, BitVec.toNat_ofNat]
  unfold exponentField
  rcases bits_of_ofFloat? known with ⟨bits, small, _⟩ | ⟨field, pos, bound, exponent, full, _, bits⟩
  · rw [if_pos small, bits]
    omega
  · rw [if_neg (by omega), bits, exponent]
    omega

theorem eq_pack_zero_of_ofFloat? (zero : d.significand = 0) :
    x = .ofModel (.pack (.zero (signOf d.negative))) := by
  apply eq_ofModel_of_toNat
  change _ = (packComponents Format.binary64 (signOf d.negative) 0#11 0#52).toNat
  rw [toNat_packComponents]
  rcases bits_of_ofFloat? known with ⟨bits, _⟩ | ⟨_, _, _, _, full, _⟩
  · rw [bits, zero, BitVec.toNat_zero, BitVec.toNat_zero, Nat.zero_mul]
  · omega

end Exact

end FleetMap.Double
