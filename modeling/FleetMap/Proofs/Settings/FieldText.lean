import FleetMap.Proofs.Files.Library
import FleetMap.Proofs.Number.Typed
import FleetMap.Proofs.Settings.Draft
import FleetMap.Settings.Field

set_option autoImplicit false

namespace FleetMap

namespace FieldText

structure IsEntry (s : String) : Prop where
  nonempty : s ≠ ""
  no_comma : ',' ∉ s.toList
  trimmed : trimBlank s = s

instance (s : String) : Decidable (IsEntry s) :=
  decidable_of_iff (s ≠ "" ∧ ',' ∉ s.toList ∧ trimBlank s = s)
    ⟨fun ⟨nonempty, no_comma, trimmed⟩ => ⟨nonempty, no_comma, trimmed⟩,
      fun ⟨nonempty, no_comma, trimmed⟩ => ⟨nonempty, no_comma, trimmed⟩⟩

section Lists

theorem texts_map (index : Nat) (entries : List String) :
    texts index (entries.map .text) = .ok entries := by
  induction entries generalizing index with
  | nil => rfl
  | cons entry rest ih =>
    rw [List.map_cons, texts, ih]
    rfl

theorem write_list (entries : List String) :
    write true (.list (entries.map .text)) = .ok (", ".intercalate entries) := by
  change (texts 0 (entries.map .text)).map ", ".intercalate = _
  rw [texts_map]
  rfl

theorem isEntry_of_mem_listEntries {typed entry : String} (member : entry ∈ listEntries typed) :
    IsEntry entry := by
  obtain ⟨trimmed, nonempty⟩ := List.mem_filter.mp member
  obtain ⟨piece, between_commas, rfl⟩ := List.mem_map.mp trimmed
  obtain ⟨part, part_member, rfl⟩ := List.mem_map.mp between_commas
  refine ⟨of_decide_eq_true nonempty, ?_, trimBlank_trimBlank _⟩
  intro comma
  unfold trimBlank at comma
  rw [String.toList_ofList, String.toList_ofList] at comma
  exact not_mem_of_mem_splitAtChar part_member (mem_of_mem_trimChars comma)

/-- The blank that follows a comma is not part of an entry. -/
theorem trimBlank_cons {entry : String} (trimmed : trimBlank entry = entry) :
    trimBlank (String.ofList (' ' :: entry.toList)) = entry := by
  unfold trimBlank
  rw [String.toList_ofList, trimChars_cons (by decide)]
  exact trimmed

/-- Entries that are joined with commas and blanks are found again. -/
theorem listEntries_intercalate {entries : List String} (each : ∀ s ∈ entries, IsEntry s) :
    listEntries (", ".intercalate entries) = entries := by
  cases entries with
  | nil => rfl
  | cons first rest =>
    have joined : (", ".intercalate (first :: rest)).toList =
        [','].intercalate (first.toList :: (rest.map String.toList).map (' ' :: ·)) := by
      rw [String.toList_intercalate, List.map_cons]
      exact intercalate_pair ',' ' ' first.toList (rest.map String.toList)
    have free : ∀ part ∈ first.toList :: (rest.map String.toList).map (' ' :: ·), ',' ∉ part := by
      intro part member
      rcases List.mem_cons.mp member with rfl | later
      · exact (each first List.mem_cons_self).no_comma
      · obtain ⟨_, characters, rfl⟩ := List.mem_map.mp later
        obtain ⟨entry, listed, rfl⟩ := List.mem_map.mp characters
        rw [List.mem_cons, not_or]
        exact ⟨by decide, (each entry (List.mem_cons_of_mem first listed)).no_comma⟩
    have trimmed : (rest.map fun entry => trimBlank (String.ofList (' ' :: entry.toList))) = rest :=
      (List.map_congr_left fun entry listed =>
        trimBlank_cons (each entry (List.mem_cons_of_mem first listed)).trimmed).trans
        (List.map_id rest)
    have pieces : (splitText ',' (", ".intercalate (first :: rest))).map trimBlank =
        first :: rest := by
      unfold splitText
      rw [joined, splitAtChar_intercalate free (List.cons_ne_nil _ _)]
      simp only [List.map_cons, List.map_map, String.ofList_toList,
        (each first List.mem_cons_self).trimmed]
      exact congrArg (first :: ·) trimmed
    unfold listEntries
    rw [pieces, List.filter_eq_self]
    exact fun entry listed => decide_eq_true (each entry listed).nonempty

end Lists

section Floats

theorem write_float (x : Float) : write false (.float x) =
    .ok (match wholeOfFloat? x with
      | some n => decimalOfInt n
      | none => plainFloat x) := rfl

theorem write_float_of_signed {x : Float} (signed : x ≠ -0) :
    ∃ shown, write false (.float x) = .ok shown ∧ Numeral.typedFloat? shown = some x := by
  refine ⟨_, write_float x, ?_⟩
  split
  · rename_i n whole
    exact Numeral.typedFloat?_of_whole whole signed
  · exact Numeral.typedFloat?_plainFloat x

theorem write_zero {x : Float} (zero : Double.IsZero x) : write false (.float x) = .ok "0" := by
  have whole : wholeOfFloat? x = some 0 := by
    rcases zero with rfl | rfl <;> decide +kernel
  rw [write_float, whole]
  rfl

theorem read_zero : read .float "0" = .ok (.float 0) := rfl

end Floats

/-- The values of each sort that are read from the text that is shown for them. -/
inductive Retypable : FieldSort → Value → Prop
  | list {entries : List String} (each : ∀ s ∈ entries, IsEntry s) :
    Retypable .list (.list (entries.map .text))
  | int {n : Int} (short : (Nat.toDigits 10 n.natAbs).length ≤ digitLimit) :
    Retypable .int (.int n)
  | float {x : Float} (signed : x ≠ -0) : Retypable .float (.float x)
  | text {s : String} (trimmed : trimBlank s = s) : Retypable .text (.text s)

variable {sort : FieldSort} {v : Value}

theorem Retypable.shown (retypable : Retypable sort v) :
    ∃ shown, write (sort = .list) v = .ok shown ∧ read sort shown = .ok v := by
  cases retypable with
  | @list entries each =>
    refine ⟨_, write_list entries, ?_⟩
    rw [read, listEntries_intercalate each]
  | @int n short =>
    refine ⟨decimalOfInt n, if_neg (Nat.not_lt.mpr short), ?_⟩
    rw [read, Numeral.typedInt?_decimalOfInt short]
  | @float x signed =>
    obtain ⟨shown, written, typed⟩ := write_float_of_signed signed
    refine ⟨shown, written, ?_⟩
    rw [read, typed]
  | @text s trimmed =>
    refine ⟨s, rfl, ?_⟩
    rw [read, trimmed]

/-- Whatever is read from a text is retypable, but for the negative zero. -/
theorem retypable_of_read {typed : String} (known : read sort typed = .ok v) :
    Retypable sort v ∨ sort = .float ∧ v = .float (-0) := by
  unfold read at known
  split at known
  · obtain rfl := Except.ok.inj known
    exact .inl (.list fun _ => isEntry_of_mem_listEntries)
  · split at known
    · rename_i n typed_int
      obtain rfl := Except.ok.inj known
      exact .inl (.int (Numeral.short_of_typedInt? typed_int))
    · exact nomatch known
    · exact nomatch known
  · split at known
    · rename_i x typed_float
      obtain rfl := Except.ok.inj known
      by_cases zero : x = -0
      · exact .inr ⟨rfl, by rw [zero]⟩
      · exact .inl (.float zero)
    · exact nomatch known
  · obtain rfl := Except.ok.inj known
    exact .inl (.text (trimBlank_trimBlank _))

/-- A value is read from its text exactly if it is retypable. -/
theorem retypable_iff : Retypable sort v ↔
    ∃ shown, write (sort = .list) v = .ok shown ∧ read sort shown = .ok v := by
  refine ⟨Retypable.shown, ?_⟩
  rintro ⟨shown, written, known⟩
  rcases retypable_of_read known with retypable | ⟨rfl, rfl⟩
  · exact retypable
  · obtain rfl := Except.ok.inj ((write_zero (.inr rfl)).symm.trans written)
    have zeros : (0 : Float) = -0 := Value.float.inj (Except.ok.inj (read_zero.symm.trans known))
    exact absurd zeros (by decide)

section Inversion

theorem retypable_list_iff {entries : List String} :
    Retypable .list (.list (entries.map .text)) ↔ ∀ s ∈ entries, IsEntry s := by
  refine ⟨fun retypable => ?_, .list⟩
  generalize shape : Value.list (entries.map .text) = v at retypable
  cases retypable with
  | @list others each =>
    have injective : Function.Injective Value.text := fun _ _ => Value.text.inj
    rwa [List.map_injective_iff.mpr injective (Value.list.inj shape)]

theorem retypable_int_iff {n : Int} :
    Retypable .int (.int n) ↔ (Nat.toDigits 10 n.natAbs).length ≤ digitLimit := by
  refine ⟨fun retypable => ?_, .int⟩
  cases retypable with
  | int short => exact short

theorem retypable_text_iff {s : String} : Retypable .text (.text s) ↔ trimBlank s = s := by
  refine ⟨fun retypable => ?_, .text⟩
  cases retypable with
  | text trimmed => exact trimmed

end Inversion

theorem Retypable.same_self (retypable : Retypable sort v) : v.same v = true := by
  cases retypable with
  | list each =>
    rw [Value.same]
    rename_i entries
    clear each
    induction entries with
    | nil => rfl
    | cons entry rest ih =>
      rw [List.map_cons, Value.sameItems, Value.same, ih, beq_self_eq_true]
      rfl
  | int short => exact beq_self_eq_true _
  | float signed => exact sameFloat_self _
  | text trimmed => exact beq_self_eq_true _

end FieldText

open FieldText (IsEntry Retypable)

/-- A text that is typed settles after one round: its value has a text, which is read as a value
that is the same, and that value is shown by the same text again. For a list the value consists of
what stands between commas, without the blanks around it and without what is blank altogether, in
order, so that its entries are trimmed, not empty and free of commas. -/
theorem typed_text_settles {sort : FieldSort} {typed : String} {v : Value}
    (known : FieldText.read sort typed = .ok v) :
    (∃ shown w, FieldText.write (sort = .list) v = .ok shown ∧
      FieldText.read sort shown = .ok w ∧ w.same v = true ∧
      FieldText.write (sort = .list) w = .ok shown) ∧
    (sort = .list → ∃ pieces : List String,
      ",".intercalate pieces = typed ∧ (∀ piece ∈ pieces, ',' ∉ piece.toList) ∧
      let entries := (pieces.map trimBlank).filter (· ≠ "")
      v = .list (entries.map .text) ∧ ∀ entry ∈ entries, IsEntry entry) := by
  constructor
  · rcases FieldText.retypable_of_read known with retypable | ⟨rfl, rfl⟩
    · obtain ⟨shown, written, again⟩ := retypable.shown
      exact ⟨shown, v, written, again, retypable.same_self, written⟩
    · exact ⟨"0", .float 0, FieldText.write_zero (.inr rfl), FieldText.read_zero,
        sameFloat_iff.mpr (.inr ⟨.inl rfl, .inr rfl⟩), FieldText.write_zero (.inl rfl)⟩
  · rintro rfl
    refine ⟨splitText ',' typed, intercalate_splitText ',' typed, ?_,
      (Except.ok.inj known).symm, fun _ => FieldText.isEntry_of_mem_listEntries⟩
    intro piece member
    obtain ⟨part, part_member, rfl⟩ := List.mem_map.mp member
    rw [String.toList_ofList]
    exact not_mem_of_mem_splitAtChar part_member

/-- Blanks and commas without anything between them go, in every script. -/
theorem untidy_palette_settles :
    let typed := " red ,,\t, pale blue\u3000,red"
    let v := Value.list [.text "red", .text "pale blue", .text "red"]
    FieldText.read .list typed = .ok v ∧
    (∃ shown w, FieldText.write true v = .ok shown ∧ FieldText.read .list shown = .ok w ∧
      w.same v = true ∧ FieldText.write true w = .ok shown) ∧
    ∃ pieces : List String,
      ",".intercalate pieces = typed ∧ (∀ piece ∈ pieces, ',' ∉ piece.toList) ∧
      let entries := (pieces.map trimBlank).filter (· ≠ "")
      v = .list (entries.map .text) ∧ ∀ entry ∈ entries, IsEntry entry := by
  intro typed v
  have entries : FieldText.listEntries typed = ["red", "pale blue", "red"] := by decide
  have known : FieldText.read .list typed = .ok v := by
    rw [FieldText.read, entries]
    rfl
  obtain ⟨settled, pieces⟩ := typed_text_settles known
  exact ⟨known, settled, pieces rfl⟩

section Shown

/-- The entries that the fields edit, with what is typed into them. -/
theorem forall_fields_iff (s : Settings) (P : FieldSort → Value → Prop) :
    (∀ f ∈ Field.all, ∀ v, (f.key, v) ∈ s.entries → P f.sort v) ↔
      P .float (.float s.scale) ∧ P .list (.list (s.palette.map .text)) ∧
      P .text (.text s.spriteSize) ∧ P .int (.int s.patternCount) ∧
      P .int (.int s.isometricTop) ∧ P .float (.float s.playbackInterval) := by
  simp only [Field.all, List.forall_mem_cons]
  constructor
  · rintro ⟨scale, palette, size, count, top, interval, _⟩
    exact ⟨scale _ (by simp [Settings.entries]), palette _ (by simp [Settings.entries]),
      size _ (by simp [Settings.entries]), count _ (by simp [Settings.entries]),
      top _ (by simp [Settings.entries]), interval _ (by simp [Settings.entries])⟩
  · rintro ⟨scale, palette, size, count, top, interval⟩
    refine ⟨?_, ?_, ?_, ?_, ?_, ?_, List.forall_mem_nil _⟩
    all_goals
      intro v entry
      simp only [Settings.entries, List.mem_cons, Prod.mk.injEq, String.reduceEq, false_and,
        true_and, or_false, false_or, List.not_mem_nil] at entry
      rwa [entry]

theorem exists_entry_of_field (s : Settings) {f : Field} (field : f ∈ Field.all) :
    ∃ v, (f.key, v) ∈ s.entries := by
  simp only [Field.all, List.mem_cons, List.not_mem_nil, or_false] at field
  rcases field with rfl | rfl | rfl | rfl | rfl | rfl <;> simp [Settings.entries]

theorem lookupField_ofSettings (s : Settings) :
    ∀ e ∈ s.entries, lookupField e.1 (Draft.ofSettings s).entries = some e.2 :=
  fun _ member => lookupField_of_mem s.entries_distinct member

variable {s : Settings} {d : Draft}

/-- A draft that holds the entries of settings holds them still when what one of them is, is put in
again. -/
theorem Draft.lookupField_set_get (key : String) {e : String × Value}
    (held : lookupField e.1 d.entries = some e.2) :
    lookupField e.1 (d.set key (d.get key)).entries = some e.2 := by
  by_cases same_key : e.1 = key
  · have value : d.get key = e.2 := by
      rw [← same_key, Draft.get, held]
      rfl
    rw [same_key, Draft.lookupField_set_self, value]
    unfold keepIfSame
    rw [ite_self]
  · rw [d.lookupField_set_of_ne same_key, held]

/-- Putting in again what a field shows changes nothing in the settings, if it is read back. -/
theorem settle_enter (valid : s.Valid)
    (held : ∀ e ∈ s.entries, lookupField e.1 d.entries = some e.2)
    {f : Field} (retypable : Retypable f.sort (d.get f.key)) {shown : String}
    (text : f.text d = .ok shown) : (f.enter shown d).settle.1 = s := by
  obtain ⟨same, written, known⟩ := retypable.shown
  obtain rfl := Except.ok.inj (written.symm.trans text)
  have entered : f.enter same d = d.set f.key (d.get f.key) := by
    unfold Field.enter
    rw [known]
  have checked : (f.enter same d).check = .ok s := by
    rw [entered, Draft.check_eq_ok]
    exact Intake.settingsFields_of_entries valid fun e member =>
      Draft.lookupField_set_get f.key (held e member)
  rw [Draft.settle_of_valid _ checked]

theorem retypable_of_isPositive {x : Float} (positive : Settings.IsPositive x) :
    Retypable .float (.float x) := by
  apply Retypable.float
  rintro rfl
  exact absurd positive.2 (by decide)

theorem isEntry_of_not_blank {color : String} (not_blank : ¬ IsBlankText color) :
    IsEntry color ↔ ',' ∉ color.toList ∧ trimBlank color = color := by
  have nonempty : color ≠ "" := by
    rintro rfl
    exact not_blank fun c member => nomatch member
  exact ⟨fun entry => ⟨entry.no_comma, entry.trimmed⟩,
    fun ⟨no_comma, trimmed⟩ => ⟨nonempty, no_comma, trimmed⟩⟩

theorem retypable_fields_iff (valid : s.Valid) :
    (∀ f ∈ Field.all, ∀ v, (f.key, v) ∈ s.entries → Retypable f.sort v) ↔
      (∀ color ∈ s.palette, ',' ∉ color.toList ∧ trimBlank color = color) ∧
      trimBlank s.spriteSize = s.spriteSize ∧
      (Nat.toDigits 10 s.patternCount).length ≤ digitLimit ∧
      (Nat.toDigits 10 s.isometricTop).length ≤ digitLimit := by
  have colors : (∀ color ∈ s.palette, IsEntry color) ↔
      ∀ color ∈ s.palette, ',' ∉ color.toList ∧ trimBlank color = color :=
    forall₂_congr fun color member => isEntry_of_not_blank (valid.palette_not_blank color member)
  have scale := iff_true_intro (retypable_of_isPositive valid.scale_positive)
  have interval := iff_true_intro (retypable_of_isPositive valid.interval_positive)
  rw [forall_fields_iff, FieldText.retypable_list_iff, FieldText.retypable_text_iff,
    FieldText.retypable_int_iff, FieldText.retypable_int_iff, colors, scale, interval, true_and,
    and_true]
  rfl

theorem retypable_of_float (valid : s.Valid) {f : Field} (field : f ∈ Field.all) {v : Value}
    (entry : (f.key, v) ∈ s.entries) (float : f.sort = .float) : Retypable f.sort v := by
  have each := (forall_fields_iff s fun sort v => sort = .float → Retypable sort v).mpr
    ⟨fun _ => retypable_of_isPositive valid.scale_positive, nofun, nofun, nofun, nofun,
      fun _ => retypable_of_isPositive valid.interval_positive⟩
  exact each f field v entry float

/-- What the form shows for valid settings that a draft holds. The text of a field is read as its
value exactly if the value is retypable, as the numbers with a fraction always are, and in this case
putting the text in again leaves the settings in effect as they are. All fields are retypable
exactly if the colors have no commas and, like the size of a sprite, no blanks at their ends, and if
the integers are not too long to be written. -/
theorem shown_settings_are_read_back (valid : s.Valid)
    (held : ∀ e ∈ s.entries, lookupField e.1 d.entries = some e.2) :
    (∀ f ∈ Field.all, ∃ v, (f.key, v) ∈ s.entries ∧
      ((∃ shown, f.text d = .ok shown ∧ FieldText.read f.sort shown = .ok v) ↔
        Retypable f.sort v) ∧
      (f.sort = .float → Retypable f.sort v) ∧
      ∀ shown, f.text d = .ok shown → Retypable f.sort v → (f.enter shown d).settle.1 = s) ∧
    ((∀ f ∈ Field.all, ∀ v, (f.key, v) ∈ s.entries → Retypable f.sort v) ↔
      (∀ color ∈ s.palette, ',' ∉ color.toList ∧ trimBlank color = color) ∧
      trimBlank s.spriteSize = s.spriteSize ∧
      (Nat.toDigits 10 s.patternCount).length ≤ digitLimit ∧
      (Nat.toDigits 10 s.isometricTop).length ≤ digitLimit) := by
  refine ⟨fun f field => ?_, retypable_fields_iff valid⟩
  obtain ⟨v, entry⟩ := exists_entry_of_field s field
  have value : d.get f.key = v := by
    rw [Draft.get, held _ entry]
    rfl
  refine ⟨v, entry, ?_, ?_, ?_⟩
  · rw [Field.text, value]
    exact FieldText.retypable_iff.symm
  · exact retypable_of_float valid field entry
  · intro shown text retypable
    exact settle_enter valid held (value ▸ retypable) text

end Shown

def plainHall : Settings :=
  { Settings.standard with
    palette := ["rgb(255 0 0)", "teal"]
    spriteSize := "2 em"
    scale := 12.5 }

theorem plainHall_valid : plainHall.Valid :=
  { Settings.standard_valid with
    scale_positive := ⟨by decide, by decide⟩
    palette_nonempty := by decide
    palette_not_blank := by decide }

theorem plain_hall_is_retyped :
    plainHall.Valid ∧
      (∀ e ∈ plainHall.entries, lookupField e.1 (Draft.ofSettings plainHall).entries = some e.2) ∧
      ∀ f ∈ Field.all, ∃ shown, f.text (.ofSettings plainHall) = .ok shown ∧
        (f.enter shown (.ofSettings plainHall)).settle.1 = plainHall := by
  have held := lookupField_ofSettings plainHall
  obtain ⟨each, complete⟩ := shown_settings_are_read_back plainHall_valid held
  have retypable := complete.mpr
    ⟨by decide, by decide, by decide, by decide⟩
  refine ⟨plainHall_valid, held, fun f field => ?_⟩
  obtain ⟨v, entry, read_back, _, entered⟩ := each f field
  obtain ⟨shown, text, _⟩ := read_back.mpr (retypable f field v entry)
  exact ⟨shown, text, entered shown text (retypable f field v entry)⟩

def commaHall : Settings := { Settings.standard with palette := ["rgb(255, 0, 0)"] }

/-- Settings with such a color are valid. The field shows the color as it is, but when the same text
is put in again there are three colors, and the map takes them. -/
theorem comma_in_color_makes_three_colors :
    commaHall.Valid ∧ ∃ f ∈ Field.all, ∃ shown, f.key = "palette" ∧
      f.text (.ofSettings commaHall) = .ok shown ∧
      FieldText.read f.sort shown = .ok (.list [.text "rgb(255", .text "0", .text "0)"]) ∧
      (f.enter shown (.ofSettings commaHall)).settle.1 =
        { commaHall with palette := ["rgb(255", "0", "0)"] } := by
  refine ⟨{ Settings.standard_valid with
    palette_nonempty := by decide
    palette_not_blank := by decide }, Field.all[1], by decide, "rgb(255, 0, 0)", rfl, ?_,
    ?_, ?_⟩
  · have text : FieldText.write true (.list (["rgb(255, 0, 0)"].map .text)) = _ :=
      FieldText.write_list ["rgb(255, 0, 0)"]
    exact text
  · have entries : FieldText.listEntries "rgb(255, 0, 0)" = ["rgb(255", "0", "0)"] := by
      decide
    change FieldText.read .list _ = _
    rw [FieldText.read, entries]
    rfl
  · decide +kernel

end FleetMap
