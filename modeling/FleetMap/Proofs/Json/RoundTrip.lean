import FleetMap.Proofs.Json.Numbers
import FleetMap.Proofs.Json.Strings
import FleetMap.Text.Lines

set_option autoImplicit false

namespace FleetMap.Json

/-- Values within the limits of the reader, with at most so many levels of arrays and objects. -/
inductive Readable : Nat → Value → Prop where
  | null (depth : Nat) : Readable depth .null
  | bool (depth : Nat) (b : Bool) : Readable depth (.bool b)
  | int (depth : Nat) (n : Int) : (Nat.toDigits 10 n.natAbs).length ≤ digitLimit →
    Readable depth (.int n)
  | float (depth : Nat) (x : Float) : x.isFinite = true → Readable depth (.float x)
  | text (depth : Nat) (t : String) : Readable depth (.text t)
  | list (depth : Nat) (items : List Value) : (∀ v ∈ items, Readable depth v) →
    Readable (depth + 1) (.list items)
  | object (depth : Nat) (fields : List (String × Value)) : (fields.map (·.1)).Nodup →
    (∀ e ∈ fields, Readable depth e.2) → Readable (depth + 1) (.object fields)

def Style.TellsNumbers (s : Style) : Prop :=
  ∀ x, x.isFinite = true → Numeral.Tells (s.number x).toList x

theorem putField_of_new {α : Type} {key : String} {value : α} {fields : List (String × α)}
    (new : key ∉ fields.map (·.1)) : putField key value fields = fields ++ [(key, value)] := by
  induction fields with
  | nil => rfl
  | cons entry rest ih =>
    obtain ⟨different, new⟩ := not_or.mp (mt List.mem_cons.mpr new)
    rw [putField, if_neg (Ne.symm different), ih new, List.cons_append]

/-- Where no key stands twice, a key is new to the entries before it. -/
theorem new_of_nodup {α : Type} {key : String} {value : α} {before after : List (String × α)}
    (distinct : ((before ++ (key, value) :: after).map (·.1)).Nodup) :
    key ∉ before.map (·.1) := by
  rw [List.map_append, List.map_cons, List.nodup_append] at distinct
  exact fun member => distinct.2.2 _ member _ List.mem_cons_self rfl

theorem skipSpace_of_head {c : Char} (mark : isSpace c = false) (cs : List Char) :
    skipSpace (c :: cs) = c :: cs := by
  simp [skipSpace, mark]

theorem skipSpace_lineBreak (s : Style) (level : Nat) (cs : List Char) :
    skipSpace (s.lineBreak level ++ cs) = skipSpace cs := by
  have blanks : ∀ n, ∀ c ∈ List.replicate n ' ', isSpace c = true := by
    intro n c member
    rw [List.eq_of_mem_replicate member]
    rfl
  unfold skipSpace Style.lineBreak
  split
  · rw [List.dropWhile_append_of_pos]
    exact List.forall_mem_cons.mpr ⟨rfl, blanks _⟩
  · rfl

theorem leavesNumber_lineBreak (s : Style) (level : Nat) {c : Char} (mark : EndsNumber c)
    (cs : List Char) : LeavesNumber (s.lineBreak level ++ c :: cs) := by
  unfold Style.lineBreak
  split
  · exact leavesNumber_cons (by decide) _
  · exact leavesNumber_cons mark cs

structure Begins (c : Char) : Prop where
  no_space : isSpace c = false
  no_bracket : c ≠ ']'
  no_mark : c ≠ '\uFEFF'

instance (c : Char) : Decidable (Begins c) :=
  decidable_of_iff (isSpace c = false ∧ c ≠ ']' ∧ c ≠ '\uFEFF')
    ⟨fun ⟨a, b, c⟩ => ⟨a, b, c⟩, fun ⟨a, b, c⟩ => ⟨a, b, c⟩⟩

theorem begins_of_isDigit {c : Char} (digit : c.isDigit = true) : Begins c := by
  have other : ∀ d : Char, d.isDigit = false → c ≠ d := by
    rintro d none rfl
    rw [digit] at none
    exact nomatch none
  refine ⟨?_, other _ (by decide), other _ (by decide)⟩
  simp [isSpace, other]

/-- The items after the first take a character each at least. -/
theorem length_writeItems (s : Style) (level : Nat) (items : List Value) :
    items.length ≤ (writeItems s level items).length := by
  induction items with
  | nil => exact Nat.zero_le _
  | cons v items ih =>
    rw [writeItems]
    simp only [List.length_cons, List.length_append]
    omega

theorem length_writeEntries (s : Style) (level : Nat) (fields : List (String × Value)) :
    fields.length ≤ (writeEntries s level fields).length := by
  induction fields with
  | nil => exact Nat.zero_le _
  | cons e fields ih =>
    rw [writeEntries]
    simp only [List.length_cons, List.length_append]
    omega

/-- What is no array and no object is read as a word, a string or a number. -/
theorem readValue_scalar {c : Char} (no_array : c ≠ '[') (no_object : c ≠ '{') (depth : Nat)
    (cs : List Char) : readValue depth (c :: cs) = readScalar (c :: cs) := by
  cases depth with
  | zero =>
    rw [readValue]
    · exact fun _ same => no_array (List.cons.inj same).1
    · exact fun _ same => no_object (List.cons.inj same).1
  | succ depth =>
    rw [readValue]
    · exact fun _ same => no_array (List.cons.inj same).1
    · exact fun _ same => no_object (List.cons.inj same).1

theorem readValue_number {cs : List Char} (begins : BeginsNumber cs) (depth : Nat) :
    readValue depth cs = readNumber cs := by
  rw [← readScalar_of_number begins]
  obtain ⟨d, more, digit, rfl | rfl⟩ := begins
  · apply readValue_scalar
    · rintro rfl
      exact absurd digit (by decide)
    · rintro rfl
      exact absurd digit (by decide)
  · exact readValue_scalar (by decide) (by decide) depth _

section Write

variable {s : Style} (tells : s.TellsNumbers) {depth level : Nat} {v : Value}

include tells

theorem head_write (level : Nat) (readable : Readable depth v) :
    ∃ c more, write s level v = c :: more ∧ Begins c := by
  have number : ∀ cs : List Char, BeginsNumber cs → ∃ c more, cs = c :: more ∧ Begins c := by
    rintro cs ⟨d, more, digit, rfl | rfl⟩
    · exact ⟨d, more, rfl, begins_of_isDigit digit⟩
    · exact ⟨'-', d :: more, rfl, by decide⟩
  cases readable with
  | null => exact ⟨'n', _, by rw [write], by decide⟩
  | bool _ b => cases b <;> exact ⟨_, _, by rw [write], by decide⟩
  | int _ n =>
    rw [write]
    exact number _ (beginsNumber_decimalOfInt n)
  | float _ x finite =>
    rw [write]
    exact number _ (beginsNumber_of_tells (tells x finite))
  | text _ t => exact ⟨'"', _, by rw [write, writeString], by decide⟩
  | list _ items =>
    cases items with
    | nil => exact ⟨'[', _, by rw [write], by decide⟩
    | cons => exact ⟨'[', _, by rw [write], by decide⟩
  | object _ fields =>
    cases fields with
    | nil => exact ⟨'\x7b', _, by rw [write], by decide⟩
    | cons => exact ⟨'\x7b', _, by rw [write], by decide⟩

theorem skipSpace_write (level : Nat) (readable : Readable depth v) (cs : List Char) :
    skipSpace (write s level v ++ cs) = write s level v ++ cs := by
  obtain ⟨c, more, text, begins⟩ := head_write tells level readable
  rw [text, List.cons_append, skipSpace_of_head begins.no_space]

/-- A reader of values reads these values wherever they are written. -/
def Reads (s : Style) (read : List Char → Except Fault (Value × List Char)) (v : Value) : Prop :=
  ∀ level rest, LeavesNumber rest → read (write s level v ++ rest) = .ok (v, rest)

section Parts

variable {read : List Char → Except Fault (Value × List Char)}

/-- The items of an array are read one after another up to the closing bracket. -/
theorem readItems_write (level : Nat) {items : List Value}
    (readable : ∀ w ∈ v :: items, Readable depth w) (reads : ∀ w ∈ v :: items, Reads s read w)
    {fuel : Nat} (enough : items.length < fuel) (rest : List Char) :
    readItems read fuel (write s (level + 1) v ++ (writeItems s level items ++
      (s.lineBreak (level - 1) ++ ']' :: rest))) = .ok (v :: items, rest) := by
  -- the item at the head is read, and then the reader stands before a comma or the bracket
  induction items generalizing v fuel with
  | nil =>
    obtain ⟨fuel, rfl⟩ := Nat.exists_eq_add_one_of_ne_zero (Nat.ne_of_gt enough)
    have closing := leavesNumber_lineBreak s (level - 1) (c := ']') (by decide) rest
    rw [writeItems, List.nil_append, readItems, reads v List.mem_cons_self _ _ closing]
    simp only [bind, Except.bind, skipSpace_lineBreak]
    rw [skipSpace_of_head (by decide)]
    rfl
  | cons w items ih =>
    have some_left : fuel ≠ 0 := Nat.ne_of_gt (Nat.zero_lt_of_lt enough)
    obtain ⟨fuel, rfl⟩ := Nat.exists_eq_add_one_of_ne_zero some_left
    have next := ih (List.forall_mem_of_forall_mem_cons readable)
      (List.forall_mem_of_forall_mem_cons reads) (Nat.lt_of_succ_lt_succ enough)
    have readable_w := readable w (by simp)
    rw [writeItems, List.cons_append, readItems,
      reads v List.mem_cons_self _ _ (leavesNumber_cons (by decide) _)]
    simp only [bind, Except.bind, List.append_assoc]
    rw [skipSpace_of_head (by decide)]
    simp only [skipSpace_lineBreak, skipSpace_write tells _ readable_w, next]
    rfl

/-- One entry of an object, after which the object ends or goes on with a comma. -/
theorem readEntries_entry (readable : Readable depth v) (reads : Reads s read v) (key : String)
    (before : List (String × Value)) (fuel : Nat) {tail : List Char} (leaves : LeavesNumber tail) :
    readEntries read (fuel + 1) before (writeString s.ascii key ++ (':' :: ' ' ::
      (write s (level + 1) v ++ tail))) =
      match skipSpace tail with
      | '}' :: rest => .ok (putField key v before, rest)
      | ',' :: rest => readEntries read fuel (putField key v before) (skipSpace rest)
      | rest => .error (.broken .comma rest) := by
  obtain ⟨more, quoted, read_key⟩ := readString_writeString s.ascii key
    (':' :: ' ' :: (write s (level + 1) v ++ tail))
  have blank : skipSpace (' ' :: (write s (level + 1) v ++ tail)) = write s (level + 1) v ++ tail :=
    skipSpace_write tells (level + 1) readable tail
  rw [quoted, readEntries, read_key]
  simp only [bind, Except.bind]
  rw [skipSpace_of_head (by decide)]
  simp only [blank, reads (level + 1) tail leaves, keyOfUnits_toNat]
  rfl

/-- The entries of an object are read one after another up to the closing brace. -/
theorem readEntries_write (level : Nat) {fields : List (String × Value)}
    (before : List (String × Value)) {key : String}
    (distinct : ((before ++ (key, v) :: fields).map (·.1)).Nodup)
    (readable : ∀ e ∈ (key, v) :: fields, Readable depth e.2)
    (reads : ∀ e ∈ (key, v) :: fields, Reads s read e.2) {fuel : Nat}
    (enough : fields.length < fuel) (rest : List Char) :
    readEntries read fuel before (writeString s.ascii key ++ (':' :: ' ' ::
      (write s (level + 1) v ++ (writeEntries s level fields ++
        (s.lineBreak (level - 1) ++ '}' :: rest))))) =
      .ok (before ++ (key, v) :: fields, rest) := by
  -- the entries read so far are in `before`, to which each step adds one
  induction fields generalizing before key v fuel with
  | nil =>
    obtain ⟨fuel, rfl⟩ := Nat.exists_eq_add_one_of_ne_zero (Nat.ne_of_gt enough)
    rw [writeEntries, List.nil_append, readEntries_entry tells (readable _ List.mem_cons_self)
      (reads _ List.mem_cons_self) _ _ _ (leavesNumber_lineBreak s _ (by decide) rest),
      skipSpace_lineBreak, skipSpace_of_head (by decide), putField_of_new (new_of_nodup distinct)]
    rfl
  | cons e fields ih =>
    have some_left : fuel ≠ 0 := Nat.ne_of_gt (Nat.zero_lt_of_lt enough)
    obtain ⟨fuel, rfl⟩ := Nat.exists_eq_add_one_of_ne_zero some_left
    obtain ⟨next, w⟩ := e
    have others := ih (before ++ [(key, v)]) (by simpa using distinct)
      (List.forall_mem_of_forall_mem_cons readable) (List.forall_mem_of_forall_mem_cons reads)
      (Nat.lt_of_succ_lt_succ enough)
    obtain ⟨more, quoted, _⟩ := readString_writeString s.ascii next
      (':' :: ' ' :: (write s (level + 1) w ++ (writeEntries s level fields ++
        (s.lineBreak (level - 1) ++ '}' :: rest))))
    rw [writeEntries, List.cons_append, readEntries_entry tells (readable _ List.mem_cons_self)
      (reads _ List.mem_cons_self) _ _ _ (leavesNumber_cons (by decide) _),
      skipSpace_of_head (by decide), putField_of_new (new_of_nodup distinct)]
    simp only [List.append_assoc, skipSpace_lineBreak, List.cons_append, List.nil_append]
    rw [quoted] at others ⊢
    rw [skipSpace_of_head (by decide), others, List.append_assoc]
    rfl

end Parts

theorem reads_list {items : List Value} (readable : ∀ v ∈ items, Readable depth v)
    (reads : ∀ v ∈ items, Reads s (readValue depth) v) :
    Reads s (readValue (depth + 1)) (.list items) := by
  intro level rest _
  cases items with
  | nil =>
    rw [write]
    rfl
  | cons v items =>
    have readable_v := readable v List.mem_cons_self
    obtain ⟨c, more, text, begins⟩ := head_write tells (level + 1) readable_v
    rw [write, List.cons_append, readValue]
    simp only [List.append_assoc, List.cons_append, List.nil_append, skipSpace_lineBreak]
    rw [skipSpace_write tells _ readable_v]
    -- the reader allows as many items as characters are left
    have enough : items.length < (write s (level + 1) v ++ (writeItems s level items ++
        (s.lineBreak (level - 1) ++ ']' :: rest))).length + 1 := by
      have covered := length_writeItems s level items
      simp only [List.length_append]
      omega
    split
    · rename_i closed
      rw [text] at closed
      exact absurd (List.cons.inj closed).1 begins.no_bracket
    · rw [readItems_write tells level readable reads enough rest]
      rfl

/-- An object whose keys are distinct is read as itself if its entries are. -/
theorem reads_object {fields : List (String × Value)} (distinct : (fields.map (·.1)).Nodup)
    (readable : ∀ e ∈ fields, Readable depth e.2)
    (reads : ∀ e ∈ fields, Reads s (readValue depth) e.2) :
    Reads s (readValue (depth + 1)) (.object fields) := by
  intro level rest _
  cases fields with
  | nil =>
    rw [write]
    rfl
  | cons e fields =>
    obtain ⟨key, v⟩ := e
    obtain ⟨more, quoted, _⟩ := readString_writeString s.ascii key
      (':' :: ' ' :: (write s (level + 1) v ++ (writeEntries s level fields ++
        (s.lineBreak (level - 1) ++ '}' :: rest))))
    have enough : fields.length < (writeString s.ascii key ++ (':' :: ' ' ::
        (write s (level + 1) v ++ (writeEntries s level fields ++
          (s.lineBreak (level - 1) ++ '}' :: rest))))).length + 1 := by
      have covered := length_writeEntries s level fields
      simp only [List.length_append, List.length_cons]
      omega
    have read := readEntries_write tells level [] distinct readable reads enough rest
    rw [write, List.cons_append, readValue]
    simp only [List.append_assoc, List.cons_append, List.nil_append, skipSpace_lineBreak]
    rw [quoted] at read ⊢
    rw [skipSpace_of_head (by decide)]
    show Except.map _ (readEntries _ (('"' :: more).length + 1) [] ('"' :: more)) = _
    rw [read]
    rfl

/-- Within the limits of the reader a written value is read as itself, whatever follows. -/
theorem reads_of_readable (readable : Readable depth v) : Reads s (readValue depth) v := by
  induction readable with
  | null depth =>
    intro level rest _
    rw [write, List.cons_append, readValue_scalar (by decide) (by decide)]
    rfl
  | bool depth b =>
    intro level rest _
    cases b
    all_goals
      rw [write, List.cons_append, readValue_scalar (by decide) (by decide)]
      rfl
  | int depth n short =>
    intro level rest leaves
    rw [write, readValue_number ((beginsNumber_decimalOfInt n).append rest)]
    exact readNumber_decimalOfInt short leaves
  | float depth x finite =>
    intro level rest leaves
    rw [write, readValue_number ((beginsNumber_of_tells (tells x finite)).append rest)]
    exact readNumber_of_tells (tells x finite) leaves
  | text depth t =>
    intro level rest _
    obtain ⟨more, quoted, read⟩ := readString_writeString s.ascii t rest
    rw [write, quoted, readValue_scalar (by decide) (by decide), readScalar, read]
    show Except.ok (valueOfUnits (t.toList.map Char.toNat), rest) = _
    unfold valueOfUnits
    rw [textOfUnits?_toNat]
  | list depth items readable reads => exact reads_list tells readable reads
  | object depth fields distinct readable reads =>
    exact reads_object tells distinct readable reads

/-- Within the limits of the reader the text of a value is read as this value. -/
theorem read_text (readable : Readable depthLimit v) : read (text s v) = .ok v := by
  obtain ⟨c, more, begins_text, begins⟩ := head_write tells 1 readable
  have no_mark : (write s 1 v).head? ≠ some '\uFEFF' := by
    rw [begins_text]
    exact fun mark => begins.no_mark (Option.some.inj mark)
  have ends : LeavesNumber [] := by
    rintro c none
    exact nomatch none
  have skipped := skipSpace_write tells 1 readable []
  have whole := reads_of_readable tells readable 1 [] ends
  rw [List.append_nil] at skipped whole
  unfold read text
  rw [if_neg no_mark, skipped, whole]
  rfl

end Write

section Lines

theorem carriageReturn_not_mem_escape {n : Nat} (bound : n < 0x10000) :
    '\r' ∉ unicodeEscape n := by
  have digit : ∀ k, k < 16 → '\r' ≠ Nat.digitChar k := by decide
  unfold unicodeEscape
  rw [hexDigits_four bound]
  simp only [List.mem_cons, List.not_mem_nil, or_false, not_or]
  exact ⟨by decide, by decide, digit _ (by omega), digit _ (by omega), digit _ (by omega),
    digit _ (by omega)⟩

theorem carriageReturn_not_mem_writeChar (ascii : Bool) (c : Char) :
    '\r' ∉ writeChar ascii c := by
  have spelled := spelling_writeChar ascii c
  have bound := toNat_lt c
  generalize writeChar ascii c = text at spelled
  cases spelled with
  | letter e stands =>
    simp only [List.mem_cons, List.not_mem_nil, or_false, not_or]
    refine ⟨by decide, ?_⟩
    rintro rfl
    exact nomatch stands
  | control control => exact carriageReturn_not_mem_escape (by omega)
  | foreign =>
    unfold utf16Escape
    split
    · exact carriageReturn_not_mem_escape (by omega)
    · rw [List.mem_append, not_or]
      exact ⟨carriageReturn_not_mem_escape (by omega), carriageReturn_not_mem_escape (by omega)⟩
  | plain _ _ no_control =>
    rw [List.mem_singleton]
    rintro rfl
    exact absurd no_control (by decide)

theorem carriageReturn_not_mem_writeString (ascii : Bool) (t : String) :
    '\r' ∉ writeString ascii t := by
  simp [writeString, carriageReturn_not_mem_writeChar]

theorem carriageReturn_not_mem_digits {ds : List Char} (digits : ∀ c ∈ ds, c.isDigit = true) :
    '\r' ∉ ds :=
  fun member => absurd (digits _ member) (by decide)

theorem carriageReturn_not_mem_parts {p : Numeral.Parts} (wellFormed : p.WellFormed) :
    '\r' ∉ p.text := by
  have whole := carriageReturn_not_mem_digits wellFormed.whole.digits
  have fraction : '\r' ∉ p.fractionText := by
    unfold Numeral.Parts.fractionText
    split
    · exact List.not_mem_nil
    · exact List.not_mem_cons_of_ne_of_not_mem (by decide)
        (carriageReturn_not_mem_digits wellFormed.fraction)
  have exponent : '\r' ∉ p.exponentText := by
    unfold Numeral.Parts.exponentText
    split
    · exact List.not_mem_nil
    · rename_i negative ds given
      have digits := carriageReturn_not_mem_digits (wellFormed.exponent _ given).digits
      cases negative <;> simp [digits]
  unfold Numeral.Parts.text
  cases p.negative <;> simp [whole, fraction, exponent]

theorem carriageReturn_not_mem_lineBreak (s : Style) (level : Nat) :
    '\r' ∉ s.lineBreak level := by
  unfold Style.lineBreak
  split <;> simp

section Sequence

variable {s : Style} {level : Nat}

theorem carriageReturn_not_mem_writeItems {items : List Value}
    (none : ∀ v ∈ items, '\r' ∉ write s (level + 1) v) : '\r' ∉ writeItems s level items := by
  induction items with
  | nil => simp [writeItems]
  | cons v items ih =>
    obtain ⟨none_v, none⟩ := List.forall_mem_cons.mp none
    simp [writeItems, carriageReturn_not_mem_lineBreak, none_v, ih none]

theorem carriageReturn_not_mem_writeEntries {fields : List (String × Value)}
    (none : ∀ e ∈ fields, '\r' ∉ write s (level + 1) e.2) :
    '\r' ∉ writeEntries s level fields := by
  induction fields with
  | nil => simp [writeEntries]
  | cons e fields ih =>
    obtain ⟨none_e, none⟩ := List.forall_mem_cons.mp none
    simp [writeEntries, carriageReturn_not_mem_lineBreak, carriageReturn_not_mem_writeString,
      none_e, ih none]

end Sequence

theorem carriageReturn_not_mem_write {s : Style} (tells : s.TellsNumbers) {depth level : Nat}
    {v : Value} (readable : Readable depth v) : '\r' ∉ write s level v := by
  induction readable generalizing level with
  | null => simp [write]
  | bool _ b => cases b <;> simp [write]
  | int _ n =>
    rw [write, decimalOfInt_eq_text]
    exact carriageReturn_not_mem_parts (wellFormed_int _ _)
  | float _ x finite =>
    obtain ⟨p, wellFormed, _, text, _⟩ := tells x finite
    rw [write, ← text]
    exact carriageReturn_not_mem_parts wellFormed
  | text _ t =>
    rw [write]
    exact carriageReturn_not_mem_writeString s.ascii t
  | list _ items _ ih =>
    cases items with
    | nil => simp [write]
    | cons v items =>
      obtain ⟨none_v, none⟩ := List.forall_mem_cons.mp ih
      simp [write, carriageReturn_not_mem_lineBreak, none_v,
        carriageReturn_not_mem_writeItems fun w member => none w member]
  | object _ fields _ _ ih =>
    cases fields with
    | nil => simp [write]
    | cons e fields =>
      obtain ⟨none_e, none⟩ := List.forall_mem_cons.mp ih
      simp [write, carriageReturn_not_mem_lineBreak, carriageReturn_not_mem_writeString, none_e,
        carriageReturn_not_mem_writeEntries fun w member => none w member]

end Lines

end FleetMap.Json
