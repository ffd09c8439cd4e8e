import FleetMap.Hub.Registry
import FleetMap.Proofs.Intake.Device

set_option autoImplicit false

namespace FleetMap

open Checked (seq_eq_accepted map_eq_accepted under_eq_accepted)

namespace Intake

/-- An entry after changes: what is read of the given value, or as it was if none is given. -/
def Follows {α : Type} (read : Value → Checked α) (key : String) (changes : Fields)
    (old new : α) : Prop :=
  match lookupField key changes with
  | some v => read v = .accepted new
  | none => new = old

/-- An optional part of a record after changes: null forgets it, an object changes what it mentions
of it, from zeros if there was none, and nothing else is accepted in its place. -/
def FollowsPart {α : Type} (follows : Fields → α → α → Prop) (zeros : α) (key : String)
    (changes : Fields) (old new : Option α) : Prop :=
  match lookupField key changes with
  | none => new = old
  | some .null => new = none
  | some (.object part) => ∃ a, new = some a ∧ follows part (old.getD zeros) a
  | some _ => False

def KeysDiffer : Value → Prop
  | .object fields => (fields.map (·.1)).Nodup
  | _ => True

instance : DecidablePred KeysDiffer
  | .object fields => inferInstanceAs (Decidable (fields.map (·.1)).Nodup)
  | .null | .bool _ | .int _ | .float _ | .text _ | .garbled _ | .list _ => .isTrue trivial

/-- Changes in which no key stands twice, nor in an object among them. -/
structure AreDistinct (changes : Fields) : Prop where
  keys : (changes.map (·.1)).Nodup
  parts : ∀ c ∈ changes, KeysDiffer c.2

instance (changes : Fields) : Decidable (AreDistinct changes) :=
  decidable_of_iff ((changes.map (·.1)).Nodup ∧ ∀ c ∈ changes, KeysDiffer c.2)
    ⟨fun ⟨keys, parts⟩ => ⟨keys, parts⟩, fun ⟨keys, parts⟩ => ⟨keys, parts⟩⟩

end Intake

open Intake

def Position.Follows (changes : Fields) (old new : Position) : Prop :=
  Intake.Follows finite "x" changes old.x new.x ∧ Intake.Follows finite "y" changes old.y new.y ∧
    Intake.Follows finite "z" changes old.z new.z

def Orientation.Follows (changes : Fields) (old new : Orientation) : Prop :=
  Intake.Follows finite "yaw" changes old.yaw new.yaw ∧
    Intake.Follows finite "pitch" changes old.pitch new.pitch ∧
      Intake.Follows finite "roll" changes old.roll new.roll

structure Device.Follows (changes : Fields) (old new : Device) : Prop where
  name : new.name = old.name
  visible : Intake.Follows bool "visible" changes old.visible new.visible
  position : FollowsPart Position.Follows ⟨0.0, 0.0, 0.0⟩ "position" changes old.position
    new.position
  orientation : FollowsPart Orientation.Follows ⟨0.0, 0.0, 0.0⟩ "orientation" changes
    old.orientation new.orientation
  kind : Intake.Follows (optional text) "device_type" changes old.kind new.kind

section Merging

/-- Entries that are written one after another come before those that were there. -/
theorem lookupField_foldl_putField {α : Type} {given : List (String × α)}
    (distinct : (given.map (·.1)).Nodup) (key : String) (held : List (String × α)) :
    lookupField key (given.foldl (fun held c => putField c.1 c.2 held) held) =
      (lookupField key given).or (lookupField key held) := by
  induction given generalizing held with
  | nil => rfl
  | cons c rest ih =>
    obtain ⟨apart, distinct⟩ := List.nodup_cons.mp distinct
    rw [List.foldl_cons, ih distinct]
    by_cases same : c.1 = key
    · have absent : lookupField key rest = none := lookupField_eq_none.mpr (same ▸ apart)
      simp [absent, lookupField, same, lookupField_putField_self]
    · simp only [lookupField, same, if_false, lookupField_putField_of_ne (Ne.symm same)]

namespace Registry

def merged (held : Option Value) (value : Value) : Value :=
  match value, held with
  | .object part, some (.object fields) =>
    .object (part.foldl (fun fields c => putField c.1 c.2 fields) fields)
  | _, _ => value

theorem mergeChange_eq (entries : Fields) (key : String) (value : Value) :
    mergeChange entries key value =
      putField key (merged (lookupField key entries) value) entries := by
  unfold mergeChange merged
  cases value with
  | object part =>
    cases lookupField key entries with
    | none => rfl
    | some held => cases held <;> rfl
  | _ => rfl

theorem merged_into_whole {held : Option Value} (whole : ∀ fields, held ≠ some (.object fields))
    (value : Value) : merged held value = value := by
  unfold merged
  split
  · exact absurd rfl (whole _)
  · rfl

theorem merged_whole {value : Value} (whole : ∀ part, value ≠ .object part)
    (held : Option Value) : merged held value = value := by
  unfold merged
  split
  · exact absurd rfl (whole _)
  · rfl

/-- Each key that is mentioned is merged once, and all others keep their entries. -/
theorem lookupField_foldl_mergeChange {changes : Fields} (distinct : (changes.map (·.1)).Nodup)
    (key : String) (entries : Fields) :
    lookupField key (changes.foldl (fun entries c => mergeChange entries c.1 c.2) entries) =
      match lookupField key changes with
      | some v => some (merged (lookupField key entries) v)
      | none => lookupField key entries := by
  -- keys differ, so the change to a key finds the entry as it was before all changes
  induction changes generalizing entries with
  | nil => rfl
  | cons c rest ih =>
    obtain ⟨apart, distinct⟩ := List.nodup_cons.mp distinct
    rw [List.foldl_cons, ih distinct, mergeChange_eq]
    by_cases same : c.1 = key
    · have absent : lookupField key rest = none := lookupField_eq_none.mpr (same ▸ apart)
      simp [absent, lookupField, same, lookupField_putField_self]
    · simp only [lookupField, same, if_false, lookupField_putField_of_ne (Ne.symm same)]

theorem name_patchedEntries (d : Device) {changes : Fields}
    (distinct : (changes.map (·.1)).Nodup) (unnamed : lookupField "name" changes = none) :
    lookupField "name" (patchedEntries d changes) = some (.text d.name) := by
  unfold patchedEntries
  rw [lookupField_foldl_mergeChange distinct, unnamed]
  rfl

end Registry

end Merging

namespace Intake

section Reading

variable {α : Type} {key : String} {read : Value → Checked α} {fields : Fields}

theorem entry_eq_accepted {default a : α} :
    entry key read default fields = .accepted a ↔ Follows read key fields default a := by
  unfold entry Follows
  cases lookupField key fields with
  | none => simp [eq_comm]
  | some v => exact under_eq_accepted

theorem required_eq_accepted {a : α} :
    required key read fields = .accepted a ↔
      ∃ v, lookupField key fields = some v ∧ read v = .accepted a := by
  unfold required
  rw [under_eq_accepted]
  cases lookupField key fields with
  | none => simp [Checked.fault]
  | some v => simp

theorem position_eq_accepted {p : Position} :
    position (.object fields) = .accepted p ↔ Position.Follows fields ⟨0.0, 0.0, 0.0⟩ p := by
  simp only [position, record, seq_eq_accepted, map_eq_accepted, entry_eq_accepted]
  constructor
  · rintro ⟨_, z, ⟨_, y, ⟨x, read_x, rfl⟩, read_y, rfl⟩, read_z, rfl⟩
    exact ⟨read_x, read_y, read_z⟩
  · rintro ⟨read_x, read_y, read_z⟩
    exact ⟨_, p.z, ⟨_, p.y, ⟨p.x, read_x, rfl⟩, read_y, rfl⟩, read_z, rfl⟩

theorem orientation_eq_accepted {o : Orientation} :
    orientation (.object fields) = .accepted o ↔
      Orientation.Follows fields ⟨0.0, 0.0, 0.0⟩ o := by
  simp only [orientation, record, seq_eq_accepted, map_eq_accepted, entry_eq_accepted]
  constructor
  · rintro ⟨_, roll, ⟨_, pitch, ⟨yaw, read_yaw, rfl⟩, read_pitch, rfl⟩, read_roll, rfl⟩
    exact ⟨read_yaw, read_pitch, read_roll⟩
  · rintro ⟨read_yaw, read_pitch, read_roll⟩
    exact ⟨_, o.roll, ⟨_, o.pitch, ⟨o.yaw, read_yaw, rfl⟩, read_pitch, rfl⟩, read_roll, rfl⟩

theorem device_eq_accepted {d : Device} :
    device (.object fields) = .accepted d ↔
      (∃ v, lookupField "name" fields = some v ∧ text v = .accepted d.name) ∧
        Follows bool "visible" fields true d.visible ∧
        Follows (optional position) "position" fields none d.position ∧
        Follows (optional orientation) "orientation" fields none d.orientation ∧
        Follows (optional text) "device_type" fields none d.kind := by
  simp only [device, record, seq_eq_accepted, map_eq_accepted, entry_eq_accepted,
    required_eq_accepted]
  constructor
  · rintro ⟨_, kind, ⟨_, o, ⟨_, p, ⟨_, visible, ⟨name, read_name, rfl⟩, read_visible, rfl⟩, read_p,
      rfl⟩, read_o, rfl⟩, read_kind, rfl⟩
    exact ⟨read_name, read_visible, read_p, read_o, read_kind⟩
  · rintro ⟨read_name, read_visible, read_p, read_o, read_kind⟩
    exact ⟨_, d.kind, ⟨_, d.orientation, ⟨_, d.position, ⟨_, d.visible, ⟨d.name, read_name, rfl⟩,
      read_visible, rfl⟩, read_p, rfl⟩, read_o, rfl⟩, read_kind, rfl⟩

/-- An optional record is unknown where null stands, and is read where an object stands. -/
theorem optional_eq_accepted {v : Value} {a? : Option α} :
    optional read v = .accepted a? ↔
      v.kind = .null ∧ a? = none ∨ v.kind ≠ .null ∧ ∃ a, read v = .accepted a ∧ a? = some a := by
  cases v with
  | null => simp [optional, Value.kind, eq_comm]
  | _ =>
    simp only [optional, Value.kind, ne_eq, reduceCtorEq, not_false_eq_true, true_and, false_and,
      false_or]
    exact map_eq_accepted.trans (by simp only [eq_comm])

end Reading

section Patched

variable {changes : Fields} (distinct : (changes.map (·.1)).Nodup)

include distinct

/-- A finite number that was written out follows what is written over it. -/
theorem follows_over {key : String} {fields : Fields} {old new default : Float}
    (bounded : old.isFinite = true) (found : lookupField key fields = some (.float old)) :
    Follows finite key (changes.foldl (fun fields c => putField c.1 c.2 fields) fields) default
        new ↔ Follows finite key changes old new := by
  unfold Follows
  rw [lookupField_foldl_putField distinct, found]
  cases lookupField key changes with
  | none => simp [finite_float bounded, eq_comm]
  | some v => rfl

theorem position_over {old new : Position} (bounded : ∀ x ∈ old.coordinates, x.isFinite = true) :
    position (Registry.merged (some old.toValue) (.object changes)) = .accepted new ↔
      Position.Follows changes old new := by
  simp only [Position.coordinates, List.forall_mem_cons] at bounded
  obtain ⟨x, y, z, _⟩ := bounded
  unfold Registry.merged Position.toValue
  rw [position_eq_accepted]
  unfold Position.Follows
  rw [follows_over distinct x rfl, follows_over distinct y rfl, follows_over distinct z rfl]

theorem orientation_over {old new : Orientation}
    (bounded : ∀ x ∈ old.angles, x.isFinite = true) :
    orientation (Registry.merged (some old.toValue) (.object changes)) = .accepted new ↔
      Orientation.Follows changes old new := by
  simp only [Orientation.angles, List.forall_mem_cons] at bounded
  obtain ⟨yaw, pitch, roll, _⟩ := bounded
  unfold Registry.merged Orientation.toValue
  rw [orientation_eq_accepted]
  unfold Orientation.Follows
  rw [follows_over distinct yaw rfl, follows_over distinct pitch rfl,
    follows_over distinct roll rfl]

/-- What is read of an entry after all changes are merged. -/
theorem follows_merged {α : Type} {key : String} {read : Value → Checked α} {fields : Fields}
    {held : Value} {default new : α} (found : lookupField key fields = some held) :
    Follows read key (changes.foldl (fun fields c => Registry.mergeChange fields c.1 c.2) fields)
        default new ↔
      match lookupField key changes with
      | some v => read (Registry.merged (some held) v) = .accepted new
      | none => read held = .accepted new := by
  unfold Follows
  rw [Registry.lookupField_foldl_mergeChange distinct, found]
  cases lookupField key changes with
  | none => rfl
  | some v => rfl

/-- An entry that is no object is kept or replaced as a whole. -/
theorem follows_replaced {α : Type} {key : String} {read : Value → Checked α} {fields : Fields}
    {held : Value} {default old new : α} (found : lookupField key fields = some held)
    (whole : ∀ part, held ≠ .object part) (itself : read held = .accepted old) :
    Follows read key (changes.foldl (fun fields c => Registry.mergeChange fields c.1 c.2) fields)
      default new ↔ Follows read key changes old new := by
  rw [follows_merged distinct found]
  unfold Follows
  cases lookupField key changes with
  | none => simp [itself, eq_comm]
  | some v =>
    have unmerged : Registry.merged (some held) v = v :=
      Registry.merged_into_whole (fun part same => whole part (Option.some.inj same)) v
    simp only [unmerged]

/-- A part that is an object is merged into, and one that is unknown is made anew. -/
theorem followsPart_merged {α : Type} {key : String} {read : Value → Checked α}
    {numbers : α → Fields} {follows : Fields → α → α → Prop} {zeros : α} {fields : Fields}
    {old new : Option α}
    (found : lookupField key fields = some (.ofOption (fun a => .object (numbers a)) old))
    (part_distinct : ∀ part, lookupField key changes = some (.object part) →
      (part.map (·.1)).Nodup)
    (only_objects : ∀ v a, read v = .accepted a → ∃ part, v = .object part)
    (itself : ∀ a, old = some a → read (.object (numbers a)) = .accepted a)
    (anew : ∀ part b, read (.object part) = .accepted b ↔ follows part zeros b)
    (merges : ∀ a, old = some a → ∀ part, (part.map (·.1)).Nodup → ∀ b,
      read (Registry.merged (some (.object (numbers a))) (.object part)) = .accepted b ↔
        follows part a b) :
    Follows (optional read) key
        (changes.foldl (fun fields c => Registry.mergeChange fields c.1 c.2) fields) none new ↔
      FollowsPart follows zeros key changes old new := by
  have read_object : ∀ part, optional read (.object part) = .accepted new ↔
      ∃ b, new = some b ∧ read (.object part) = .accepted b := by
    intro part
    simp [optional_eq_accepted, Value.kind, and_comm]
  rw [follows_merged distinct found]
  unfold FollowsPart
  cases given : lookupField key changes with
  | none =>
    cases old with
    | none => simp [Value.ofOption, optional, eq_comm]
    | some a =>
      simp only [Value.ofOption, read_object, itself a rfl, Checked.accepted.injEq]
      constructor
      · rintro ⟨b, new_b, rfl⟩
        exact new_b
      · exact fun new_a => ⟨a, new_a, rfl⟩
  | some v =>
    have replaced : (∀ part, v ≠ .object part) → ∀ held, Registry.merged held v = v :=
      Registry.merged_whole
    have refused : (∀ part, v ≠ .object part) → ∀ a, read v ≠ .accepted a := by
      intro whole a accepted
      obtain ⟨part, same⟩ := only_objects v a accepted
      exact whole part same
    cases v with
    | null => simp [replaced (by simp), optional, eq_comm]
    | object part =>
      cases old with
      | none =>
        have unmerged : Registry.merged (some .null) (.object part) = .object part := rfl
        simp only [Value.ofOption, unmerged, read_object, anew, Option.getD_none]
      | some a =>
        simp only [← merges a rfl part (part_distinct part given), Value.ofOption,
          Option.getD_some]
        exact read_object _
    | _ => simp [replaced (by simp), optional_eq_accepted, Value.kind, refused (by simp)]

end Patched

/-- A patch to a finite device is accepted as the device that follows the changes. -/
theorem device_patchedEntries {d : Device} (bounded : d.IsFinite) {changes : Fields}
    (distinct : AreDistinct changes) (unnamed : lookupField "name" changes = none) (new : Device) :
    device (.object (Registry.patchedEntries d changes)) = .accepted new ↔
      d.Follows changes new := by
  have parts : ∀ key part, lookupField key changes = some (.object part) →
      (part.map (·.1)).Nodup :=
    fun _ _ given => distinct.parts _ (mem_of_lookupField given)
  have only_objects : ∀ {α : Type} {schema : Schema} {read : Fields → Checked α} (v : Value)
      (a : α), record schema read v = .accepted a → ∃ part, v = .object part := by
    intro α schema read v a accepted
    obtain ⟨part, same, _⟩ := record_eq_accepted.mp accepted
    exact ⟨part, same⟩
  let patched := Registry.patchedEntries d changes
  have name : (∃ v, lookupField "name" patched = some v ∧ text v = .accepted new.name) ↔
      new.name = d.name := by
    simp [patched, Registry.name_patchedEntries d distinct.keys unnamed, text, eq_comm]
  have visible : Follows bool "visible" patched true new.visible ↔
      Follows bool "visible" changes d.visible new.visible :=
    follows_replaced distinct.keys
      (show lookupField "visible" d.entries = some (.bool d.visible) from rfl) nofun rfl
  have kind : Follows (optional text) "device_type" patched none new.kind ↔
      Follows (optional text) "device_type" changes d.kind new.kind :=
    follows_replaced distinct.keys
      (show lookupField "device_type" d.entries = some (.ofOption .text d.kind) from rfl)
      (by cases d.kind <;> exact nofun) (by cases d.kind <;> rfl)
  have position : Follows (optional Intake.position) "position" patched none new.position ↔
      FollowsPart Position.Follows ⟨0.0, 0.0, 0.0⟩ "position" changes d.position new.position :=
    followsPart_merged distinct.keys
      (show lookupField "position" d.entries = some (.ofOption Position.toValue d.position)
        from rfl)
      (parts _) only_objects (fun p known => position_toValue (bounded.1 p known))
      (fun _ _ => position_eq_accepted)
      fun p known _ distinct _ => position_over distinct (bounded.1 p known)
  have orientation :
      Follows (optional Intake.orientation) "orientation" patched none new.orientation ↔
        FollowsPart Orientation.Follows ⟨0.0, 0.0, 0.0⟩ "orientation" changes d.orientation
          new.orientation :=
    followsPart_merged distinct.keys
      (show lookupField "orientation" d.entries =
        some (.ofOption Orientation.toValue d.orientation) from rfl)
      (parts _) only_objects (fun o known => orientation_toValue (bounded.2 o known))
      (fun _ _ => orientation_eq_accepted)
      fun o known _ distinct _ => orientation_over distinct (bounded.2 o known)
  rw [device_eq_accepted, name, visible, position, orientation, kind]
  constructor
  · rintro ⟨name, visible, position, orientation, kind⟩
    exact ⟨name, visible, position, orientation, kind⟩
  · rintro ⟨name, visible, position, orientation, kind⟩
    exact ⟨name, visible, position, orientation, kind⟩

end Intake

end FleetMap
