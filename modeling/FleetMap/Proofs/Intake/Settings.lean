import FleetMap.Intake.Record

set_option autoImplicit false

namespace FleetMap

namespace Checked

variable {α β : Type}

theorem conclude_eq_ok {schema : Schema} {x : Checked α} {a : α} :
    x.conclude schema = .ok a ↔ x = .accepted a := by
  cases x with
  | accepted b => simp [conclude]
  | faulty first others => simp [conclude]

theorem map_eq_accepted {f : α → β} {x : Checked α} {b : β} :
    f <$> x = .accepted b ↔ ∃ a, x = .accepted a ∧ f a = b := by
  cases x with
  | accepted a => simp [Functor.map, map]
  | faulty first others => simp [Functor.map, map]

theorem seq_eq_accepted {f : Checked (α → β)} {x : Checked α} {b : β} :
    f <*> x = .accepted b ↔ ∃ g a, f = .accepted g ∧ x = .accepted a ∧ g a = b := by
  cases f with
  | accepted g =>
    cases x with
    | accepted a => simp [Seq.seq, ap]
    | faulty first others => simp [Seq.seq, ap]
  | faulty first others =>
    cases x with
    | accepted a => simp [Seq.seq, ap]
    | faulty next more => simp [Seq.seq, ap]

theorem andThen_eq_accepted {x : Checked α} {f : α → Checked β} {b : β} :
    x.andThen f = .accepted b ↔ ∃ a, x = .accepted a ∧ f a = .accepted b := by
  cases x with
  | accepted a => simp [andThen]
  | faulty first others => simp [andThen]

theorem under_eq_accepted {segment : Segment} {x : Checked α} {a : α} :
    x.under segment = .accepted a ↔ x = .accepted a := by
  cases x with
  | accepted b => rfl
  | faulty first others => simp [under]

end Checked

namespace Intake

open Checked

section Accepted

/-- What holds of the default and of all that a reader accepts holds of an entry. -/
theorem entry_satisfies {α : Type} {P : α → Prop} {key : String} {read : Value → Checked α}
    {default : α} {fields : Fields} {a : α} (of_default : P default)
    (of_read : ∀ v b, read v = .accepted b → P b)
    (accepted : entry key read default fields = .accepted a) : P a := by
  unfold entry at accepted
  split at accepted
  · exact of_read _ a (under_eq_accepted.mp accepted)
  · obtain rfl := Checked.accepted.inj accepted
    exact of_default

theorem isPositive_of_positive {v : Value} {x : Float} (accepted : positive v = .accepted x) :
    Settings.IsPositive x := by
  obtain ⟨y, finite_y, accepted⟩ := andThen_eq_accepted.mp accepted
  split at accepted
  · rename_i above
    obtain rfl := Checked.accepted.inj accepted
    obtain ⟨z, _, accepted⟩ := andThen_eq_accepted.mp finite_y
    split at accepted
    · rename_i bounded
      obtain rfl := Checked.accepted.inj accepted
      exact ⟨bounded, above⟩
    · exact nomatch accepted
  · exact nomatch accepted

theorem palette_of_accepted {v : Value} {colors : List String}
    (accepted : palette v = .accepted colors) :
    colors ≠ [] ∧ ∀ color ∈ colors, ¬ IsBlankText color := by
  obtain ⟨cs, _, accepted⟩ := andThen_eq_accepted.mp accepted
  split at accepted
  · exact nomatch accepted
  · rename_i nonempty
    split at accepted
    · exact nomatch accepted
    · rename_i none_blank
      obtain rfl := Checked.accepted.inj accepted
      exact ⟨nonempty, fun color member blank => none_blank ⟨color, member, blank⟩⟩

theorem le_of_atLeast {bound n : Nat} {v : Value} (accepted : atLeast bound v = .accepted n) :
    bound ≤ n := by
  obtain ⟨k, _, accepted⟩ := andThen_eq_accepted.mp accepted
  split at accepted
  · obtain rfl := Checked.accepted.inj accepted
    omega
  · exact nomatch accepted

theorem valid_of_settingsFields {fields : Fields} {s : Settings}
    (accepted : settingsFields fields = .accepted s) : s.Valid := by
  simp only [settingsFields, seq_eq_accepted, map_eq_accepted] at accepted
  obtain ⟨_, interval, ⟨_, top, ⟨_, count, ⟨_, size, ⟨_, colors, ⟨_, scale, ⟨name, _, rfl⟩,
    accepted_scale, rfl⟩, accepted_colors, rfl⟩, _, rfl⟩, accepted_count, rfl⟩, _, rfl⟩,
    accepted_interval, rfl⟩ := accepted
  have standard := Settings.standard_valid
  have colored := entry_satisfies ⟨standard.palette_nonempty, standard.palette_not_blank⟩
    (fun _ _ => palette_of_accepted) accepted_colors
  exact {
    scale_positive := entry_satisfies standard.scale_positive
      (fun _ _ => isPositive_of_positive) accepted_scale
    palette_nonempty := colored.1
    palette_not_blank := colored.2
    patternCount_pos := entry_satisfies standard.patternCount_pos
      (fun _ _ => le_of_atLeast) accepted_count
    interval_positive := entry_satisfies standard.interval_positive
      (fun _ _ => isPositive_of_positive) accepted_interval }

end Accepted

section Entries

theorem entry_of_found {α : Type} {key : String} {read : Value → Checked α} {default a : α}
    {fields : Fields} {v : Value} (found : lookupField key fields = some v)
    (accepted : read v = .accepted a) : entry key read default fields = .accepted a := by
  unfold entry
  rw [found]
  exact under_eq_accepted.mpr accepted

theorem positive_float {x : Float} (positive_x : Settings.IsPositive x) :
    positive (.float x) = .accepted x := by
  have finite_x : finite (.float x) = .accepted x := if_pos positive_x.1
  apply andThen_eq_accepted.mpr
  exact ⟨x, finite_x, if_pos positive_x.2⟩

theorem items_text (index : Nat) (texts : List String) :
    Checked.items text index (texts.map .text) = .accepted texts := by
  induction texts generalizing index with
  | nil => rfl
  | cons s rest ih =>
    rw [List.map_cons, Checked.items, ih]
    rfl

theorem palette_list {colors : List String} (nonempty : colors ≠ [])
    (not_blank : ∀ color ∈ colors, ¬ IsBlankText color) :
    palette (.list (colors.map .text)) = .accepted colors := by
  have none_blank : ¬ ∃ color ∈ colors, IsBlankText color :=
    fun ⟨color, member, blank⟩ => not_blank color member blank
  apply andThen_eq_accepted.mpr
  refine ⟨colors, items_text 0 colors, ?_⟩
  rw [if_neg nonempty, if_neg none_blank]

theorem atLeast_int {bound n : Nat} (le : bound ≤ n) : atLeast bound (.int n) = .accepted n := by
  apply andThen_eq_accepted.mpr
  exact ⟨n, rfl, if_pos (Int.ofNat_le.mpr le)⟩

/-- Fields among which are the entries of valid settings are accepted as these settings. -/
theorem settingsFields_of_entries {s : Settings} (valid : s.Valid) {fields : Fields}
    (found : ∀ e ∈ s.entries, lookupField e.1 fields = some e.2) :
    settingsFields fields = .accepted s := by
  simp only [Settings.entries, List.forall_mem_cons] at found
  obtain ⟨name, scale, colors, size, count, top, interval, _⟩ := found
  have read_text : ∀ t : String, text (.text t) = .accepted t := fun _ => rfl
  dsimp only [settingsFields]
  rw [entry_of_found name (read_text s.name),
    entry_of_found scale (positive_float valid.scale_positive),
    entry_of_found colors (palette_list valid.palette_nonempty valid.palette_not_blank),
    entry_of_found size (read_text s.spriteSize),
    entry_of_found count (atLeast_int valid.patternCount_pos),
    entry_of_found top (atLeast_int (Nat.zero_le _)),
    entry_of_found interval (positive_float valid.interval_positive)]
  rfl

end Entries

end Intake

end FleetMap
