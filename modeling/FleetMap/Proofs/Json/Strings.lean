import FleetMap.Json.Reader
import FleetMap.Json.Writer

set_option autoImplicit false

namespace FleetMap.Json

section HexDigits

theorem hexValue?_digitChar {k : Nat} (bound : k < 16) : hexValue? (Nat.digitChar k) = some k := by
  revert k
  decide

theorem hexDigits_four {n : Nat} (bound : n < 0x10000) :
    hexDigits 4 n = [Nat.digitChar (n / 4096), Nat.digitChar (n / 256 % 16),
      Nat.digitChar (n / 16 % 16), Nat.digitChar (n % 16)] := by
  have last : ∀ {k}, k < 16 → Nat.toDigits 16 k = [Nat.digitChar k] :=
    fun small => Nat.toDigits_of_lt_base small
  have split : ∀ {k}, 16 ≤ k → Nat.toDigits 16 k =
      Nat.toDigits 16 (k / 16) ++ [Nat.digitChar (k % 16)] :=
    fun large => Nat.toDigits_of_base_le (by decide) large
  have thousands : n / 16 / 16 / 16 = n / 4096 := by omega
  have hundreds : n / 16 / 16 = n / 256 := by omega
  unfold hexDigits
  by_cases one : n < 16
  · have zeros : n / 4096 = 0 ∧ n / 256 % 16 = 0 ∧ n / 16 % 16 = 0 ∧ n % 16 = n := by omega
    rw [last one, zeros.1, zeros.2.1, zeros.2.2.1, zeros.2.2.2]
    rfl
  by_cases two : n < 256
  · have zeros : n / 4096 = 0 ∧ n / 256 % 16 = 0 ∧ n / 16 % 16 = n / 16 := by omega
    rw [split (by omega), last (by omega), zeros.1, zeros.2.1, zeros.2.2]
    rfl
  by_cases three : n < 4096
  · have zeros : n / 4096 = 0 ∧ n / 256 % 16 = n / 256 := by omega
    rw [split (by omega), split (by omega), last (by omega), hundreds, zeros.1, zeros.2]
    rfl
  · rw [split (by omega), split (by omega), split (by omega), last (by omega), thousands, hundreds]
    rfl

theorem hexQuad?_digits {n : Nat} (bound : n < 0x10000) :
    hexQuad? (Nat.digitChar (n / 4096)) (Nat.digitChar (n / 256 % 16))
      (Nat.digitChar (n / 16 % 16)) (Nat.digitChar (n % 16)) = some n := by
  have whole : ((n / 4096 * 16 + n / 256 % 16) * 16 + n / 16 % 16) * 16 + n % 16 = n := by omega
  unfold hexQuad?
  rw [hexValue?_digitChar (by omega), hexValue?_digitChar (by omega),
    hexValue?_digitChar (by omega), hexValue?_digitChar (by omega)]
  exact congrArg some whole

end HexDigits

def unitsOf (ascii : Bool) (c : Char) : List Nat :=
  if ascii && 0x10000 ≤ c.toNat then
    [0xD800 + (c.toNat - 0x10000) / 0x400, 0xDC00 + (c.toNat - 0x10000) % 0x400]
  else [c.toNat]

section Read

variable {opening tail left : List Char} {units : List Nat}

/-- An escape by number stands for its number, whatever may follow in the string. -/
theorem readUnits_unicodeEscape {n : Nat} (bound : n < 0x10000)
    (read : readUnits opening tail = .ok (units, left)) :
    readUnits opening (unicodeEscape n ++ tail) = .ok (n :: units, left) := by
  cases tail with
  | nil => exact nomatch read
  | cons next rest =>
    unfold unicodeEscape
    rw [hexDigits_four bound]
    simp only [List.cons_append, List.nil_append]
    rw [readUnits, hexQuad?_digits bound, read]
    rfl

theorem readUnits_utf16Escape {n : Nat} (bound : n < 0x110000)
    (read : readUnits opening tail = .ok (units, left)) :
    readUnits opening (utf16Escape n ++ tail) =
      .ok ((if n < 0x10000 then [n]
        else [0xD800 + (n - 0x10000) / 0x400, 0xDC00 + (n - 0x10000) % 0x400]) ++ units, left) := by
  unfold utf16Escape
  split
  · rename_i small
    exact readUnits_unicodeEscape small read
  · simp only [List.append_assoc]
    apply readUnits_unicodeEscape (by omega)
    exact readUnits_unicodeEscape (by omega) read

theorem readUnits_simpleEscape {e c : Char} (stands : simpleEscape? e = some c)
    (read : readUnits opening tail = .ok (units, left)) :
    readUnits opening ('\\' :: e :: tail) = .ok (c.toNat :: units, left) := by
  have no_number : e ≠ 'u' := by
    rintro rfl
    exact nomatch stands
  rw [readUnits, stands, read]
  · rfl
  · intros
    exact no_number ‹_›
  · exact no_number

theorem readUnits_plain {c : Char} (no_quote : c ≠ '"') (no_backslash : c ≠ '\\')
    (no_control : 0x20 ≤ c.toNat) (read : readUnits opening tail = .ok (units, left)) :
    readUnits opening (c :: tail) = .ok (c.toNat :: units, left) := by
  rw [readUnits, if_neg (Nat.not_lt.mpr no_control), read]
  · rfl
  · exact no_quote
  all_goals
    intros
    exact no_backslash ‹_›

end Read

/-- The four ways in which a character is written. -/
inductive Spelling (ascii : Bool) (c : Char) : List Char → Prop where
  | letter (e : Char) : simpleEscape? e = some c → c.toNat < 0x10000 →
    Spelling ascii c ['\\', e]
  | control : c.toNat < 0x20 → Spelling ascii c (unicodeEscape c.toNat)
  | foreign : ascii = true → Spelling ascii c (utf16Escape c.toNat)
  | plain : c ≠ '"' → c ≠ '\\' → 0x20 ≤ c.toNat → (ascii = true → c.toNat < 0x10000) →
    Spelling ascii c [c]

theorem spelling_writeChar (ascii : Bool) (c : Char) : Spelling ascii c (writeChar ascii c) := by
  unfold writeChar
  split
  · rename_i same
    subst same
    exact .letter '"' rfl (by decide)
  split
  · rename_i same
    subst same
    exact .letter '\\' rfl (by decide)
  split
  · rename_i same
    subst same
    exact .letter 'n' rfl (by decide)
  split
  · rename_i same
    subst same
    exact .letter 'r' rfl (by decide)
  split
  · rename_i same
    subst same
    exact .letter 't' rfl (by decide)
  split
  · rename_i same
    subst same
    exact .letter 'f' rfl (by decide)
  split
  · rename_i same
    subst same
    exact .letter 'b' rfl (by decide)
  split
  · rename_i control
    exact .control control
  split
  · rename_i foreign
    rw [Bool.and_eq_true] at foreign
    exact .foreign foreign.1
  · rename_i no_quote no_backslash _ _ _ _ _ no_control no_foreign
    refine .plain no_quote no_backslash (Nat.le_of_not_lt no_control) ?_
    rintro rfl
    simp at no_foreign
    omega

theorem toNat_lt (c : Char) : c.toNat < 0x110000 := by
  have valid : c.toNat < 0xD800 ∨ 0xDFFF < c.toNat ∧ c.toNat < 0x110000 := c.valid
  omega

/-- A written character is read as the code units it was written in. -/
theorem readUnits_writeChar (ascii : Bool) (c : Char) {opening tail left : List Char}
    {units : List Nat} (read : readUnits opening tail = .ok (units, left)) :
    readUnits opening (writeChar ascii c ++ tail) = .ok (unitsOf ascii c ++ units, left) := by
  have one : (ascii = true → c.toNat < 0x10000) → unitsOf ascii c = [c.toNat] := by
    intro small
    apply if_neg
    simp only [Bool.and_eq_true, decide_eq_true_eq]
    exact fun wide => Nat.not_le_of_lt (small wide.1) wide.2
  have spelled := spelling_writeChar ascii c
  generalize writeChar ascii c = text at spelled ⊢
  cases spelled with
  | letter e stands small =>
    rw [one fun _ => small]
    exact readUnits_simpleEscape stands read
  | control control =>
    rw [one fun _ => by omega]
    exact readUnits_unicodeEscape (by omega) read
  | foreign foreign =>
    rw [readUnits_utf16Escape (toNat_lt c) read]
    unfold unitsOf
    by_cases plane : c.toNat < 0x10000
    · rw [if_pos plane, if_neg (by simp; omega)]
    · rw [if_neg plane, if_pos (by simp [foreign]; omega)]
  | plain no_quote no_backslash no_control small =>
    rw [one small]
    exact readUnits_plain no_quote no_backslash no_control read

theorem readUnits_writeChars (ascii : Bool) (cs : List Char) (opening rest : List Char) :
    readUnits opening (cs.flatMap (writeChar ascii) ++ '"' :: rest) =
      .ok (cs.flatMap (unitsOf ascii), rest) := by
  induction cs with
  | nil => rfl
  | cons c cs ih =>
    rw [List.flatMap_cons, List.flatMap_cons, List.append_assoc]
    exact readUnits_writeChar ascii c ih

section Join

/-- Code units that are no high surrogates stay as they are. -/
theorem joinSurrogates_cons {n : Nat} (not_high : isHighSurrogate n = false) (rest : List Nat) :
    joinSurrogates (n :: rest) = n :: joinSurrogates rest := by
  cases rest with
  | nil => rfl
  | cons low rest =>
    rw [joinSurrogates, if_neg (by simp [not_high])]

theorem joinSurrogates_pair {high low : Nat} (is_high : isHighSurrogate high = true)
    (is_low : isLowSurrogate low = true) (rest : List Nat) :
    joinSurrogates (high :: low :: rest) =
      (0x10000 + (high - 0xD800) * 0x400 + (low - 0xDC00)) :: joinSurrogates rest := by
  rw [joinSurrogates, if_pos ⟨is_high, is_low⟩]

/-- The code units of a character are joined to its code point. -/
theorem joinSurrogates_unitsOf (ascii : Bool) (c : Char) (rest : List Nat) :
    joinSurrogates (unitsOf ascii c ++ rest) = c.toNat :: joinSurrogates rest := by
  have bound := toNat_lt c
  unfold unitsOf
  split
  · rename_i wide
    simp only [Bool.and_eq_true, decide_eq_true_eq] at wide
    have whole : 0x10000 + (0xD800 + (c.toNat - 0x10000) / 0x400 - 0xD800) * 0x400 +
        (0xDC00 + (c.toNat - 0x10000) % 0x400 - 0xDC00) = c.toNat := by omega
    rw [List.cons_append, List.cons_append, joinSurrogates_pair, whole]
    · rfl
    · simp [isHighSurrogate]
      omega
    · simp [isLowSurrogate]
      omega
  · have valid : c.toNat < 0xD800 ∨ 0xDFFF < c.toNat ∧ c.toNat < 0x110000 := c.valid
    apply joinSurrogates_cons
    simp [isHighSurrogate]
    omega

theorem joinSurrogates_flatMap (ascii : Bool) (cs : List Char) :
    joinSurrogates (cs.flatMap (unitsOf ascii)) = cs.map Char.toNat := by
  induction cs with
  | nil => rfl
  | cons c cs ih => rw [List.flatMap_cons, joinSurrogates_unitsOf, ih, List.map_cons]

end Join

/-- A written string is read as the code points of its text. -/
theorem readString_writeString (ascii : Bool) (s : String) (rest : List Char) :
    ∃ more, writeString ascii s ++ rest = '"' :: more ∧
      readString ('"' :: more) more = .ok (s.toList.map Char.toNat, rest) := by
  refine ⟨s.toList.flatMap (writeChar ascii) ++ '"' :: rest, by simp [writeString], ?_⟩
  unfold readString
  rw [readUnits_writeChars]
  change Except.ok (joinSurrogates _, rest) = _
  rw [joinSurrogates_flatMap]

theorem textOfUnits?_toNat (s : String) : textOfUnits? (s.toList.map Char.toNat) = some s := by
  have read : ∀ cs : List Char, (cs.map Char.toNat).mapM (fun n =>
      if h : n.isValidChar then some (Char.ofNatAux n h) else none) = some cs := by
    intro cs
    induction cs with
    | nil => rfl
    | cons c cs ih =>
      have valid : c.toNat.isValidChar := c.valid
      rw [List.map_cons, List.mapM_cons, dif_pos valid, ih]
      rfl
  unfold textOfUnits?
  rw [read, Option.map_some, String.ofList_toList]

theorem keyOfUnits_toNat (s : String) : keyOfUnits (s.toList.map Char.toNat) = s := by
  have itself : ∀ c : Char, (if h : c.toNat.isValidChar then Char.ofNatAux c.toNat h
      else '\uFFFD') = c := by
    intro c
    have valid : c.toNat.isValidChar := c.valid
    rw [dif_pos valid]
    rfl
  unfold keyOfUnits
  rw [List.map_map]
  have same := List.map_congr_left (fun c (_ : c ∈ s.toList) => itself c)
  exact (congrArg String.ofList (same.trans (List.map_id' _))).trans String.ofList_toList

end FleetMap.Json
