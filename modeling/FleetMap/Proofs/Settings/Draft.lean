import FleetMap.Proofs.Intake.Settings
import FleetMap.Proofs.Number.Double
import FleetMap.Settings.Draft

set_option autoImplicit false

namespace FleetMap

namespace Value

/-- Only the value itself is the same as it. -/
def IsDistinct (v : Value) : Prop := ∀ held : Value, held.same v = true → held = v

theorem isDistinct_text (s : String) : (text s).IsDistinct := by
  intro held same_held
  cases held with
  | text t =>
    rw [same, beq_iff_eq] at same_held
    rw [same_held]
  | _ => exact nomatch same_held

theorem isDistinct_int (n : Int) : (int n).IsDistinct := by
  intro held same_held
  cases held with
  | int m =>
    rw [same, beq_iff_eq] at same_held
    rw [same_held]
  | _ => exact nomatch same_held

/-- The two zeros are the only doubles that are the same without being equal. -/
theorem isDistinct_float {x : Float} (positive : Settings.IsPositive x) :
    (float x).IsDistinct := by
  intro held same_held
  cases held with
  | float y =>
    rw [same] at same_held
    rcases sameFloat_iff.mp same_held with rfl | ⟨_, rfl | rfl⟩
    · rfl
    · exact absurd positive.2 (by decide)
    · exact absurd positive.2 (by decide)
  | _ => exact nomatch same_held

theorem eq_of_sameItems {items values : List Value} (distinct : ∀ v ∈ values, v.IsDistinct)
    (same_items : sameItems items values = true) : items = values := by
  induction values generalizing items with
  | nil =>
    cases items with
    | nil => rfl
    | cons item rest => exact nomatch same_items
  | cons v values ih =>
    cases items with
    | nil => exact nomatch same_items
    | cons item rest =>
      rw [sameItems, Bool.and_eq_true] at same_items
      rw [distinct v List.mem_cons_self item same_items.1,
        ih (fun u member => distinct u (List.mem_cons_of_mem v member)) same_items.2]

theorem isDistinct_list {values : List Value} (distinct : ∀ v ∈ values, v.IsDistinct) :
    (list values).IsDistinct := by
  intro held same_held
  cases held with
  | list items =>
    rw [same] at same_held
    rw [eq_of_sameItems distinct same_held]
  | _ => exact nomatch same_held

end Value

theorem Settings.isDistinct_of_mem_entries {s : Settings} (valid : s.Valid) {e : String × Value}
    (member : e ∈ s.entries) : e.2.IsDistinct := by
  have each : ∀ e ∈ s.entries, e.2.IsDistinct := by
    simp only [entries, List.forall_mem_cons]
    refine ⟨Value.isDistinct_text _, Value.isDistinct_float valid.scale_positive, ?_,
      Value.isDistinct_text _, Value.isDistinct_int _, Value.isDistinct_int _,
      Value.isDistinct_float valid.interval_positive, fun _ => List.not_mem_nil.elim⟩
    apply Value.isDistinct_list
    intro v listed
    obtain ⟨color, _, rfl⟩ := List.mem_map.mp listed
    exact Value.isDistinct_text color
  exact each e member

namespace Draft

variable (d : Draft)

theorem lookupField_set_self (key : String) (v : Value) :
    lookupField key (d.set key v).entries = some (keepIfSame Value.same (d.get key) v) :=
  lookupField_putField_self ..

theorem lookupField_set_of_ne {key other : String} (different : other ≠ key) (v : Value) :
    lookupField other (d.set key v).entries = lookupField other d.entries :=
  lookupField_putField_of_ne different ..

/-- A value that nothing else is the same as is taken over, whatever was held before. -/
theorem lookupField_set_of_isDistinct (key : String) {v : Value} (distinct : v.IsDistinct) :
    lookupField key (d.set key v).entries = some v := by
  rw [lookupField_set_self]
  unfold keepIfSame
  split
  · rename_i same_held
    rw [distinct _ same_held]
  · rfl

/-- Assigning several entries of different keys brings in each of them. -/
theorem lookupField_foldl_set {assigned : List (String × Value)}
    (keys : assigned.Pairwise fun a b => a.1 ≠ b.1) (distinct : ∀ e ∈ assigned, e.2.IsDistinct)
    {e : String × Value} (member : e ∈ assigned) :
    lookupField e.1 (assigned.foldl (fun d e => d.set e.1 e.2) d).entries = some e.2 := by
  -- an entry is looked up after the last assignment, so the induction peels the list from the end
  induction assigned using List.reverseRecOn with
  | nil => exact nomatch member
  | append_singleton earlier last ih =>
    rw [List.foldl_append, List.foldl_cons, List.foldl_nil]
    obtain ⟨keys_earlier, _, apart⟩ := List.pairwise_append.mp keys
    rcases List.mem_append.mp member with before | now
    · have different := apart e before last (List.mem_singleton_self last)
      rw [lookupField_set_of_ne _ different]
      exact ih keys_earlier (fun e member => distinct e (List.mem_append_left _ member)) before
    · obtain rfl := List.mem_singleton.mp now
      exact lookupField_set_of_isDistinct _ e.1 (distinct e member)

theorem check_eq_ok {s : Settings} :
    d.check = .ok s ↔ Intake.settingsFields d.entries = .accepted s :=
  Checked.conclude_eq_ok

theorem lookupField_load {s : Settings} (valid : s.Valid) {e : String × Value}
    (member : e ∈ s.entries) : lookupField e.1 (d.load s).entries = some e.2 :=
  lookupField_foldl_set d (by simp [Settings.entries])
    (fun _ => Settings.isDistinct_of_mem_entries valid) member

/-- Raw values that are just loaded are valid, and they are the settings that were loaded. -/
theorem check_load {s : Settings} (valid : s.Valid) : (d.load s).check = .ok s := by
  rw [check_eq_ok]
  exact Intake.settingsFields_of_entries valid fun _ => d.lookupField_load valid

theorem valid_of_check {s : Settings} (valid : d.check = .ok s) : s.Valid :=
  Intake.valid_of_settingsFields (d.check_eq_ok.mp valid)

theorem settle_of_valid {s : Settings} (valid : d.check = .ok s) :
    d.settle = (s, { d with lastValid := s }) := by
  unfold settle
  rw [valid]

theorem settle_of_invalid {r : Rejection} (invalid : d.check = .error r) :
    d.settle = (d.lastValid, d) := by
  unfold settle
  rw [invalid]

@[simp] theorem entries_settle : d.settle.2.entries = d.entries := by
  cases checked : d.check with
  | ok s => rw [d.settle_of_valid checked]
  | error r => rw [d.settle_of_invalid checked]

end Draft

namespace Draft

inductive Edit where
  /-- A raw value is assigned, valid or not. -/
  | assign (key : String) (v : Value)
  | settle
  | load (s : Settings)

def perform (d : Draft) : Edit → Draft
  | .assign key v => d.set key v
  | .settle => d.settle.2
  | .load s => d.load s

def performAll (d : Draft) (edits : List Edit) : Draft := edits.foldl perform d

/-- Valid settings that an edit brings to light: those it loads, or those it finds the raw values
to be. -/
def sees (d : Draft) : Edit → List Settings
  | .assign _ _ => []
  | .settle => d.check.toOption.toList
  | .load s => [s]

/-- All valid settings that are seen in the course of edits, the newest last. -/
def sights (d : Draft) : List Edit → List Settings
  | [] => []
  | e :: rest => d.sees e ++ (d.perform e).sights rest

/-- What an edit leaves as the last valid settings is the newest that was seen. -/
theorem lastValid_perform (d : Draft) (e : Edit) :
    (d.lastValid :: d.sees e).getLast? = some (d.perform e).lastValid := by
  cases e with
  | assign key v => rfl
  | load s => rfl
  | settle =>
    unfold perform sees
    cases checked : d.check with
    | ok s =>
      rw [d.settle_of_valid checked]
      rfl
    | error r =>
      rw [d.settle_of_invalid checked]
      rfl

theorem lastValid_performAll (d : Draft) (edits : List Edit) :
    (d.lastValid :: d.sights edits).getLast? = some (d.performAll edits).lastValid := by
  induction edits generalizing d with
  | nil => rfl
  | cons e rest ih =>
    change _ = some ((d.perform e).performAll rest).lastValid
    rw [← ih (d.perform e), sights, ← List.cons_append, List.getLast?_append, lastValid_perform,
      ← List.singleton_append, List.getLast?_append]
    rfl

theorem valid_of_mem_sees {d : Draft} {e : Edit} (load : ∀ s, e = .load s → s.Valid)
    {s : Settings} (seen : s ∈ d.sees e) : s.Valid := by
  cases e with
  | assign key v => exact nomatch seen
  | load t =>
    obtain rfl := List.mem_singleton.mp seen
    exact load s rfl
  | settle =>
    unfold sees at seen
    cases checked : d.check with
    | ok t =>
      rw [checked] at seen
      obtain rfl := List.mem_singleton.mp seen
      exact d.valid_of_check checked
    | error r =>
      rw [checked] at seen
      exact nomatch seen

theorem valid_of_mem_sights {d : Draft} {edits : List Edit}
    (loads : ∀ s, .load s ∈ edits → s.Valid) {s : Settings} (seen : s ∈ d.sights edits) :
    s.Valid := by
  induction edits generalizing d with
  | nil => exact nomatch seen
  | cons e rest ih =>
    rcases List.mem_append.mp seen with now | later
    · apply valid_of_mem_sees _ now
      rintro t rfl
      exact loads t List.mem_cons_self
    · exact ih (fun t member => loads t (List.mem_cons_of_mem e member)) later

theorem valid_lastValid_performAll {d : Draft} (valid : d.lastValid.Valid) {edits : List Edit}
    (loads : ∀ s, .load s ∈ edits → s.Valid) : (d.performAll edits).lastValid.Valid := by
  have newest := List.mem_of_getLast? (lastValid_performAll d edits)
  rcases List.mem_cons.mp newest with same | seen
  · rw [same]
    exact valid
  · exact valid_of_mem_sights loads seen

end Draft

/-- Settings that are asked for in the course of any edits are valid. They are what the raw values
say if these are valid, and else the newest valid settings that were seen: those at the start, those
loaded, or those found on asking. Asking changes no raw value. And whatever raw values a draft
holds, settings that are loaded into it are the ones that are then in effect. -/
theorem settled_settings_are_the_newest_valid_ones {default : Settings} (valid : default.Valid)
    {edits : List Draft.Edit} (loads : ∀ s, .load s ∈ edits → s.Valid) :
    let start := Draft.ofSettings default
    let d := start.performAll edits
    d.settle.1.Valid ∧
      (∀ s, d.check = .ok s → d.settle.1 = s) ∧
      (∀ r, d.check = .error r → (default :: start.sights edits).getLast? = some d.settle.1) ∧
      d.settle.2.entries = d.entries ∧
      ∀ (held : Draft) (s : Settings), s.Valid → (held.load s).settle.1 = s := by
  intro start d
  have valid_last : d.lastValid.Valid := Draft.valid_lastValid_performAll valid loads
  refine ⟨?_, ?_, ?_, d.entries_settle, ?_⟩
  · cases checked : d.check with
    | ok s =>
      rw [d.settle_of_valid checked]
      exact d.valid_of_check checked
    | error r =>
      rw [d.settle_of_invalid checked]
      exact valid_last
  · intro s checked
    rw [d.settle_of_valid checked]
  · intro r checked
    rw [d.settle_of_invalid checked]
    exact start.lastValid_performAll edits
  · intro held s valid_s
    rw [Draft.settle_of_valid _ (held.check_load valid_s)]

/-- A hall is loaded and given another scale, and then its palette is half typed. -/
def hallEdits : List Draft.Edit :=
  [.load { Settings.standard with name := "Hall" }, .assign "scale" (.text " 1_2.5 "), .settle,
    .assign "pattern_count" (.bool true), .assign "palette" (.list [.text "red", .text " "])]

theorem half_typed_palette_keeps_the_hall :
    let d := (Draft.ofSettings .standard).performAll hallEdits
    Settings.standard.Valid ∧ (∀ s, .load s ∈ hallEdits → s.Valid) ∧ d.check.isOk = false ∧
      d.settle.1 = { Settings.standard with name := "Hall", scale := 12.5 } ∧ d.settle.1.Valid ∧
      (d.load .standard).settle.1 = .standard := by
  intro d
  have loads : ∀ s, .load s ∈ hallEdits → s.Valid := by
    intro s member
    simp only [hallEdits, List.mem_cons, Draft.Edit.load.injEq, reduceCtorEq, List.not_mem_nil,
      or_false] at member
    rw [member]
    exact { Settings.standard_valid with }
  have settled := settled_settings_are_the_newest_valid_ones Settings.standard_valid loads
  exact ⟨Settings.standard_valid, loads, by decide, by decide, settled.1,
    settled.2.2.2.2 d .standard Settings.standard_valid⟩

end FleetMap
