import FleetMap.Text.Utf8

set_option autoImplicit false

namespace FleetMap.Utf8

section Tail

variable {lead least most : UInt8} {seen high bits : Nat}

theorem isBetween_ofNat (bound : bits < 64) (low : least.toNat ≤ 0x80 + bits)
    (top : 0x80 + bits ≤ most.toNat) :
    (UInt8.ofNat (bits + 0x80)).toNat = bits + 0x80 ∧
      least ≤ UInt8.ofNat (bits + 0x80) ∧ UInt8.ofNat (bits + 0x80) ≤ most := by
  have value : (UInt8.ofNat (bits + 0x80)).toNat = bits + 0x80 :=
    UInt8.toNat_ofNat_of_lt' (by change _ < 256; omega)
  rw [UInt8.le_iff_toNat_le, UInt8.le_iff_toNat_le, value]
  omega

theorem decodeFrom_more (owed : Nat) (bound : bits < 64) (low : least.toNat ≤ 0x80 + bits)
    (top : 0x80 + bits ≤ most.toNat) (position : Nat) (rest : List UInt8) :
    decodeFrom position (some ⟨lead, seen, owed + 2, least, most, high⟩)
        (UInt8.ofNat (bits + 0x80) :: rest) =
      decodeFrom position (some ⟨lead, seen + 1, owed + 1, 0x80, 0xBF, high * 64 + bits⟩) rest := by
  obtain ⟨value, between⟩ := isBetween_ofNat bound low top
  have unfinished : ¬ owed + 2 = 1 := by omega
  rw [decodeFrom, if_pos between, if_neg unfinished, value, Nat.add_sub_cancel]
  rfl

theorem decodeFrom_last (bound : bits < 64) (low : least.toNat ≤ 0x80 + bits)
    (top : 0x80 + bits ≤ most.toNat) (position : Nat) (rest : List UInt8) :
    decodeFrom position (some ⟨lead, seen, 1, least, most, high⟩)
        (UInt8.ofNat (bits + 0x80) :: rest) =
      (decodeFrom (position + seen + 1) none rest).map (Char.ofNat (high * 64 + bits) :: ·) := by
  obtain ⟨value, between⟩ := isBetween_ofNat bound low top
  rw [decodeFrom, if_pos between, if_pos rfl, value, Nat.add_sub_cancel]

end Tail

/-- A first byte that is no character by itself opens what it announces. -/
theorem decodeFrom_lead {lead : Nat} (high : 0x80 ≤ lead) (bound : lead < 256) {o : Open}
    (opens : Open.ofLead? (UInt8.ofNat lead) = some o) (position : Nat) (rest : List UInt8) :
    decodeFrom position none (UInt8.ofNat lead :: rest) = decodeFrom position (some o) rest := by
  have above : ¬ UInt8.ofNat lead < 0x80 := by
    rw [UInt8.lt_iff_toNat_lt, UInt8.toNat_ofNat_of_lt' bound]
    change ¬ lead < 0x80
    omega
  rw [decodeFrom, if_neg above, opens]

theorem ofLead?_ofNat (lead : Nat) (bound : lead < 256) :
    Open.ofLead? (UInt8.ofNat lead) =
      let opened (owed : Nat) (least most : UInt8) (bits : Nat) : Open :=
        ⟨UInt8.ofNat lead, 1, owed, least, most, bits⟩
      if 0xC2 ≤ lead ∧ lead ≤ 0xDF then some (opened 1 0x80 0xBF (lead - 0xC0))
      else if lead = 0xE0 then some (opened 2 0xA0 0xBF 0)
      else if lead = 0xED then some (opened 2 0x80 0x9F 0xD)
      else if 0xE1 ≤ lead ∧ lead ≤ 0xEF then some (opened 2 0x80 0xBF (lead - 0xE0))
      else if lead = 0xF0 then some (opened 3 0x90 0xBF 0)
      else if lead = 0xF4 then some (opened 3 0x80 0x8F 4)
      else if 0xF1 ≤ lead ∧ lead ≤ 0xF3 then some (opened 3 0x80 0xBF (lead - 0xF0))
      else none := by
  have value : (UInt8.ofNat lead).toNat = lead := UInt8.toNat_ofNat_of_lt' bound
  simp only [Open.ofLead?, UInt8.le_iff_toNat_le, ← UInt8.toNat_inj, value]
  rfl

section Char

variable {v : Nat} (position : Nat) (rest : List UInt8)

theorem decodeFrom_one (bound : v ≤ 0x7F) :
    decodeFrom position none (UInt8.ofNat v :: rest) =
      (decodeFrom (position + 1) none rest).map (Char.ofNat v :: ·) := by
  have value : (UInt8.ofNat v).toNat = v := UInt8.toNat_ofNat_of_lt' (by change v < 256; omega)
  have low : UInt8.ofNat v < 0x80 := by
    rw [UInt8.lt_iff_toNat_lt, value]
    change v < 0x80
    omega
  rw [decodeFrom, if_pos low, value]

theorem decodeFrom_two (above : 0x7F < v) (bound : v ≤ 0x7FF) :
    decodeFrom position none
        (UInt8.ofNat (v / 64 % 0x20 + 0xC0) :: UInt8.ofNat (v % 0x40 + 0x80) :: rest) =
      (decodeFrom (position + 2) none rest).map (Char.ofNat v :: ·) := by
  have announced : 0xC2 ≤ v / 64 % 0x20 + 0xC0 ∧ v / 64 % 0x20 + 0xC0 ≤ 0xDF := by omega
  have opens := ofLead?_ofNat (v / 64 % 0x20 + 0xC0) (by omega)
  rw [if_pos announced] at opens
  have whole : (v / 64 % 0x20 + 0xC0 - 0xC0) * 64 + v % 0x40 = v := by omega
  rw [decodeFrom_lead (by omega) (by omega) opens,
    decodeFrom_last (by omega) (Nat.le_add_right 0x80 _) (show _ ≤ 0xBF by omega), whole]

/-- The first of three bytes bounds the second so that neither an overlong form nor a surrogate
comes out. -/
theorem opens_three (above : 0x7FF < v) (bound : v ≤ 0xFFFF)
    (valid : v < 0xD800 ∨ 0xDFFF < v) :
    ∃ least most : UInt8, Open.ofLead? (UInt8.ofNat (v / 4096 % 0x10 + 0xE0)) =
        some ⟨UInt8.ofNat (v / 4096 % 0x10 + 0xE0), 1, 2, least, most, v / 4096⟩ ∧
      least.toNat ≤ 0x80 + v / 64 % 0x40 ∧ 0x80 + v / 64 % 0x40 ≤ most.toNat := by
  have reduced : v / 4096 % 0x10 = v / 4096 := by omega
  have opens := ofLead?_ofNat (v / 4096 % 0x10 + 0xE0) (by omega)
  rw [reduced] at opens ⊢
  rw [if_neg (by omega)] at opens
  by_cases first : v / 4096 = 0
  · rw [if_pos (by omega)] at opens
    refine ⟨0xA0, 0xBF, by rw [opens, first], ?_, ?_⟩
    · change 0xA0 ≤ _
      omega
    · change _ ≤ 0xBF
      omega
  rw [if_neg (by omega)] at opens
  by_cases last : v / 4096 = 0xD
  · rw [if_pos (by omega)] at opens
    refine ⟨0x80, 0x9F, by rw [opens, last], ?_, ?_⟩
    · change 0x80 ≤ _
      omega
    · change _ ≤ 0x9F
      omega
  rw [if_neg (by omega), if_pos (by omega)] at opens
  refine ⟨0x80, 0xBF, by rw [opens, Nat.add_sub_cancel], ?_, ?_⟩
  · change 0x80 ≤ _
    omega
  · change _ ≤ 0xBF
    omega

theorem decodeFrom_three (above : 0x7FF < v) (bound : v ≤ 0xFFFF)
    (valid : v < 0xD800 ∨ 0xDFFF < v) :
    decodeFrom position none
        (UInt8.ofNat (v / 4096 % 0x10 + 0xE0) :: UInt8.ofNat (v / 64 % 0x40 + 0x80) ::
          UInt8.ofNat (v % 0x40 + 0x80) :: rest) =
      (decodeFrom (position + 3) none rest).map (Char.ofNat v :: ·) := by
  obtain ⟨least, most, opens, low, high⟩ := opens_three above bound valid
  have whole : (v / 4096 * 64 + v / 64 % 0x40) * 64 + v % 0x40 = v := by omega
  rw [decodeFrom_lead (by omega) (by omega) opens, decodeFrom_more 0 (by omega) low high,
    decodeFrom_last (by omega) (Nat.le_add_right 0x80 _) (show _ ≤ 0xBF by omega), whole]

/-- The first of four bytes bounds the second so that what comes out is neither overlong nor beyond
the last plane. -/
theorem opens_four (above : 0xFFFF < v) (bound : v < 0x110000) :
    ∃ least most : UInt8, Open.ofLead? (UInt8.ofNat (v / 262144 % 0x08 + 0xF0)) =
        some ⟨UInt8.ofNat (v / 262144 % 0x08 + 0xF0), 1, 3, least, most, v / 262144⟩ ∧
      least.toNat ≤ 0x80 + v / 4096 % 0x40 ∧ 0x80 + v / 4096 % 0x40 ≤ most.toNat := by
  have reduced : v / 262144 % 0x08 = v / 262144 := by omega
  have opens := ofLead?_ofNat (v / 262144 % 0x08 + 0xF0) (by omega)
  rw [reduced] at opens ⊢
  rw [if_neg (by omega), if_neg (by omega), if_neg (by omega), if_neg (by omega)] at opens
  by_cases first : v / 262144 = 0
  · rw [if_pos (by omega)] at opens
    refine ⟨0x90, 0xBF, by rw [opens, first], ?_, ?_⟩
    · change 0x90 ≤ _
      omega
    · change _ ≤ 0xBF
      omega
  rw [if_neg (by omega)] at opens
  by_cases last : v / 262144 = 4
  · rw [if_pos (by omega)] at opens
    refine ⟨0x80, 0x8F, by rw [opens, last], ?_, ?_⟩
    · change 0x80 ≤ _
      omega
    · change _ ≤ 0x8F
      omega
  rw [if_neg (by omega), if_pos (by omega)] at opens
  refine ⟨0x80, 0xBF, by rw [opens, Nat.add_sub_cancel], ?_, ?_⟩
  · change 0x80 ≤ _
    omega
  · change _ ≤ 0xBF
    omega

theorem decodeFrom_four (above : 0xFFFF < v) (bound : v < 0x110000) :
    decodeFrom position none
        (UInt8.ofNat (v / 262144 % 0x08 + 0xF0) :: UInt8.ofNat (v / 4096 % 0x40 + 0x80) ::
          UInt8.ofNat (v / 64 % 0x40 + 0x80) :: UInt8.ofNat (v % 0x40 + 0x80) :: rest) =
      (decodeFrom (position + 4) none rest).map (Char.ofNat v :: ·) := by
  obtain ⟨least, most, opens, low, high⟩ := opens_four above bound
  have whole : ((v / 262144 * 64 + v / 4096 % 0x40) * 64 + v / 64 % 0x40) * 64 + v % 0x40 = v := by
    omega
  rw [decodeFrom_lead (by omega) (by omega) opens, decodeFrom_more 1 (by omega) low high,
    decodeFrom_more 0 (by omega) (Nat.le_add_right 0x80 _) (show _ ≤ 0xBF by omega),
    decodeFrom_last (by omega) (Nat.le_add_right 0x80 _) (show _ ≤ 0xBF by omega), whole]

end Char

theorem decodeFrom_encodeChar (c : Char) (position : Nat) (rest : List UInt8) :
    decodeFrom position none (String.utf8EncodeChar c ++ rest) =
      (decodeFrom (position + (String.utf8EncodeChar c).length) none rest).map (c :: ·) := by
  have valid : c.val.toNat < 0xD800 ∨ 0xDFFF < c.val.toNat ∧ c.val.toNat < 0x110000 := c.valid
  have itself : Char.ofNat c.val.toNat = c := Char.ofNat_toNat c
  unfold String.utf8EncodeChar
  dsimp only
  split
  · rename_i one
    have read := decodeFrom_one position rest one
    rwa [itself] at read
  split
  · rename_i one two
    have read := decodeFrom_two position rest (Nat.lt_of_not_le one) two
    rwa [itself] at read
  split
  · rename_i two three
    have read := decodeFrom_three position rest (Nat.lt_of_not_le two) three
      (valid.imp_right And.left)
    rwa [itself] at read
  · rename_i three
    have read := decodeFrom_four position rest (Nat.lt_of_not_le three) (by omega)
    rwa [itself] at read

theorem decodeFrom_encode (cs : List Char) (position : Nat) :
    decodeFrom position none (encode cs) = .ok cs := by
  induction cs generalizing position with
  | nil => rfl
  | cons c rest ih =>
    have apart : encode (c :: rest) = String.utf8EncodeChar c ++ encode rest := rfl
    rw [apart, decodeFrom_encodeChar, ih]
    rfl

/-- Decoding gives back what was encoded. -/
theorem decode_encode (cs : List Char) : decode (encode cs) = .ok cs := decodeFrom_encode cs 0

end FleetMap.Utf8
