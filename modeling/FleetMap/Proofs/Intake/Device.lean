import FleetMap.Proofs.Intake.Settings

set_option autoImplicit false

namespace FleetMap

theorem Device.isFinite_iff_all {d : Device} : d.IsFinite ↔
    d.position.all (·.coordinates.all Float.isFinite) = true ∧
      d.orientation.all (·.angles.all Float.isFinite) = true := by
  unfold IsFinite
  cases d.position with
  | none => cases d.orientation <;> simp
  | some p => cases d.orientation <;> simp

instance (d : Device) : Decidable d.IsFinite := decidable_of_iff _ Device.isFinite_iff_all.symm

/-- A device that came of submitted data. -/
def Device.IsValidated (d : Device) : Prop := ∃ v, Intake.device v = .accepted d

/-- The entries of a device are among the fields; unknown ones may be left out. -/
def Device.IsShownBy (d : Device) (fields : Intake.Fields) : Prop :=
  ∀ e ∈ d.entries, lookupField e.1 fields = some e.2 ∨
    e.2 = .null ∧ lookupField e.1 fields = none

theorem lookupField_eq_none {α : Type} {key : String} {fields : List (String × α)} :
    lookupField key fields = none ↔ key ∉ fields.map (·.1) := by
  induction fields with
  | nil => simp [lookupField]
  | cons entry rest ih =>
    by_cases same : entry.1 = key
    · simp [lookupField, same]
    · simp only [lookupField, same, if_false, ih, List.map_cons, List.mem_cons, not_or]
      exact ⟨fun absent => ⟨Ne.symm same, absent⟩, And.right⟩

/-- Where no key stands twice, every entry is the first of its key. -/
theorem lookupField_of_mem {α : Type} {fields : List (String × α)}
    (distinct : (fields.map (·.1)).Nodup) {key : String} {value : α}
    (member : (key, value) ∈ fields) : lookupField key fields = some value := by
  induction fields with
  | nil => exact nomatch member
  | cons entry rest ih =>
    obtain ⟨apart, distinct⟩ := List.nodup_cons.mp distinct
    rcases List.mem_cons.mp member with rfl | member
    · simp [lookupField]
    · have listed : key ∈ rest.map (·.1) := List.mem_map_of_mem member
      have different : entry.1 ≠ key := by
        rintro rfl
        exact apart listed
      simp only [lookupField, different, if_false]
      exact ih distinct member

namespace Device

theorem entries_distinct (d : Device) : (d.entries.map (·.1)).Nodup := by
  have keys : d.entries.map (·.1) =
      ["name", "visible", "position", "orientation", "device_type"] := rfl
  rw [keys]
  decide

theorem isShownBy_entries (d : Device) : d.IsShownBy d.entries :=
  fun _ member => .inl (lookupField_of_mem d.entries_distinct member)

theorem isShownBy_known (d : Device) :
    d.IsShownBy (d.entries.filter fun e => e.2.kind != .null) := by
  intro e member
  have distinct := d.entries_distinct.sublist
    ((List.filter_sublist (p := fun e : String × Value => e.2.kind != .null)).map (·.1))
  by_cases unknown : e.2.kind = .null
  · right
    constructor
    · cases given : e.2 with
      | null => rfl
      | _ => simp [given, Value.kind] at unknown
    · rw [lookupField_eq_none]
      intro kept
      obtain ⟨other, kept, same⟩ := List.mem_map.mp kept
      obtain ⟨listed, known⟩ := List.mem_filter.mp kept
      have found := lookupField_of_mem d.entries_distinct listed
      rw [same, lookupField_of_mem d.entries_distinct member] at found
      rw [← Option.some.inj found] at known
      simp [unknown] at known
  · left
    exact lookupField_of_mem distinct (List.mem_filter.mpr ⟨member, by simpa using unknown⟩)

end Device

namespace Intake

open Checked

section Accepted

theorem isFinite_of_finite {v : Value} {x : Float} (accepted : finite v = .accepted x) :
    x.isFinite = true := by
  obtain ⟨y, _, accepted⟩ := andThen_eq_accepted.mp accepted
  split at accepted
  · rename_i bounded
    obtain rfl := Checked.accepted.inj accepted
    exact bounded
  · exact nomatch accepted

theorem isFinite_of_entry {key : String} {fields : Fields} {x : Float}
    (accepted : entry key finite 0.0 fields = .accepted x) : x.isFinite = true :=
  entry_satisfies (P := fun x => x.isFinite = true) (by decide)
    (fun _ _ => isFinite_of_finite) accepted

theorem record_eq_accepted {α : Type} {schema : Schema} {read : Fields → Checked α} {v : Value}
    {a : α} : record schema read v = .accepted a ↔
      ∃ fields, v = .object fields ∧ read fields = .accepted a := by
  cases v with
  | object fields => simp [record]
  | _ => simp [record, fault]

theorem isFinite_of_position {v : Value} {p : Position} (accepted : position v = .accepted p) :
    ∀ x ∈ p.coordinates, x.isFinite = true := by
  obtain ⟨fields, _, accepted⟩ := record_eq_accepted.mp accepted
  simp only [seq_eq_accepted, map_eq_accepted] at accepted
  obtain ⟨_, z, ⟨_, y, ⟨x, read_x, rfl⟩, read_y, rfl⟩, read_z, rfl⟩ := accepted
  simp only [Position.coordinates, List.forall_mem_cons]
  exact ⟨isFinite_of_entry read_x, isFinite_of_entry read_y, isFinite_of_entry read_z, nofun⟩

theorem isFinite_of_orientation {v : Value} {o : Orientation}
    (accepted : orientation v = .accepted o) : ∀ x ∈ o.angles, x.isFinite = true := by
  obtain ⟨fields, _, accepted⟩ := record_eq_accepted.mp accepted
  simp only [seq_eq_accepted, map_eq_accepted] at accepted
  obtain ⟨_, roll, ⟨_, pitch, ⟨yaw, read_yaw, rfl⟩, read_pitch, rfl⟩, read_roll, rfl⟩ := accepted
  simp only [Orientation.angles, List.forall_mem_cons]
  exact ⟨isFinite_of_entry read_yaw, isFinite_of_entry read_pitch, isFinite_of_entry read_roll,
    nofun⟩

/-- What holds of all that a reader accepts holds of an optional entry, if it is known. -/
theorem optional_satisfies {α : Type} {P : α → Prop} {key : String} {read : Value → Checked α}
    {fields : Fields} {a? : Option α} (of_read : ∀ v b, read v = .accepted b → P b)
    (accepted : entry key (optional read) none fields = .accepted a?) : ∀ a, a? = some a → P a := by
  have unknown : ∀ a, none = some a → P a := by
    intro a known
    cases known
  apply entry_satisfies (P := fun a? => ∀ a, a? = some a → P a) unknown _ accepted
  intro v b? accepted a known
  cases v with
  | null =>
    obtain rfl := Checked.accepted.inj accepted
    exact nomatch known
  | _ =>
    obtain ⟨b, read_b, rfl⟩ := map_eq_accepted.mp accepted
    exact of_read _ a (Option.some.inj known ▸ read_b)

theorem isFinite_of_device {v : Value} {d : Device} (accepted : device v = .accepted d) :
    d.IsFinite := by
  obtain ⟨fields, _, accepted⟩ := record_eq_accepted.mp accepted
  simp only [seq_eq_accepted, map_eq_accepted] at accepted
  obtain ⟨_, kind, ⟨_, o, ⟨_, p, ⟨_, visible, ⟨name, _, rfl⟩, _, rfl⟩, read_p, rfl⟩, read_o, rfl⟩,
    _, rfl⟩ := accepted
  exact ⟨optional_satisfies (fun _ _ => isFinite_of_position) read_p,
    optional_satisfies (fun _ _ => isFinite_of_orientation) read_o⟩

end Accepted

section Entries

theorem finite_float {x : Float} (bounded : x.isFinite = true) :
    finite (.float x) = .accepted x := if_pos bounded

theorem position_toValue {p : Position} (bounded : ∀ x ∈ p.coordinates, x.isFinite = true) :
    position p.toValue = .accepted p := by
  simp only [Position.coordinates, List.forall_mem_cons] at bounded
  obtain ⟨x, y, z, _⟩ := bounded
  unfold position Position.toValue record
  dsimp only
  rw [entry_of_found rfl (finite_float x), entry_of_found rfl (finite_float y),
    entry_of_found rfl (finite_float z)]
  rfl

theorem orientation_toValue {o : Orientation} (bounded : ∀ x ∈ o.angles, x.isFinite = true) :
    orientation o.toValue = .accepted o := by
  simp only [Orientation.angles, List.forall_mem_cons] at bounded
  obtain ⟨yaw, pitch, roll, _⟩ := bounded
  unfold orientation Orientation.toValue record
  dsimp only
  rw [entry_of_found rfl (finite_float yaw), entry_of_found rfl (finite_float pitch),
    entry_of_found rfl (finite_float roll)]
  rfl

theorem required_of_found {α : Type} {key : String} {read : Value → Checked α} {a : α}
    {fields : Fields} {v : Value} (found : lookupField key fields = some v)
    (accepted : read v = .accepted a) : required key read fields = .accepted a := by
  unfold required
  rw [found]
  exact under_eq_accepted.mpr accepted

/-- An optional entry that is null or left out is unknown; any other is read. -/
theorem entry_of_shown {α : Type} {key : String} {read : Value → Checked α} {toValue : α → Value}
    {a? : Option α} {fields : Fields}
    (shown : lookupField key fields = some (.ofOption toValue a?) ∨
      Value.ofOption toValue a? = .null ∧ lookupField key fields = none)
    (known : ∀ a, toValue a ≠ .null)
    (accepted : ∀ a, a? = some a → read (toValue a) = .accepted a) :
    entry key (optional read) none fields = .accepted a? := by
  cases a? with
  | none =>
    rcases shown with found | ⟨_, absent⟩
    · exact entry_of_found found rfl
    · unfold entry
      rw [absent]
  | some a =>
    have found : lookupField key fields = some (toValue a) :=
      shown.resolve_right fun absent => known a absent.1
    apply entry_of_found found
    have read_a : (read (toValue a)).map some = .accepted (some a) := by
      rw [accepted a rfl]
      rfl
    unfold optional
    split
    · rename_i null
      exact absurd null (known a)
    · exact read_a

/-- Fields that show a finite device are accepted as this device. -/
theorem device_of_shown {d : Device} (bounded : d.IsFinite) {fields : Fields}
    (shown : d.IsShownBy fields) : device (.object fields) = .accepted d := by
  simp only [Device.IsShownBy, Device.entries, List.forall_mem_cons] at shown
  obtain ⟨name, visible, position, orientation, kind, _⟩ := shown
  have found_name := name.resolve_right fun absent => nomatch absent.1
  have found_visible := visible.resolve_right fun absent => nomatch absent.1
  have read_text : ∀ t : String, text (.text t) = .accepted t := fun _ => rfl
  have read_bool : ∀ b : Bool, bool (.bool b) = .accepted b := fun _ => rfl
  unfold device record
  dsimp only
  rw [required_of_found found_name (read_text d.name),
    entry_of_found found_visible (read_bool d.visible),
    entry_of_shown position nofun fun p known => position_toValue (bounded.1 p known),
    entry_of_shown orientation nofun fun o known => orientation_toValue (bounded.2 o known),
    entry_of_shown kind nofun fun t _ => read_text t]
  rfl

end Entries

end Intake

namespace Device

/-- Checking all entries of a finite device gives the device back. -/
theorem device_toValue {d : Device} (bounded : d.IsFinite) :
    Intake.device d.toValue = .accepted d :=
  Intake.device_of_shown bounded d.isShownBy_entries

/-- Checking the known entries of a finite device gives the device back. -/
theorem device_toSparseValue {d : Device} (bounded : d.IsFinite) :
    Intake.device d.toSparseValue = .accepted d :=
  Intake.device_of_shown bounded d.isShownBy_known

/-- The devices that checking brings forth are the finite ones. -/
theorem isValidated_iff {d : Device} : d.IsValidated ↔ d.IsFinite :=
  ⟨fun ⟨_, accepted⟩ => Intake.isFinite_of_device accepted,
    fun bounded => ⟨d.toValue, device_toValue bounded⟩⟩

end Device

end FleetMap
