import FleetMap.Proofs.Intake.Patch

set_option autoImplicit false

namespace FleetMap

open Intake

/-- A place in a device that a patch can touch: an entry that is one value, or one number of an
entry that has several. -/
structure Leaf where
  key : String
  number : Option String
  deriving DecidableEq, Repr

namespace Leaf

def ofPart (key : String) (numbers : List String) : List Leaf :=
  numbers.map fun number => ⟨key, some number⟩

def all : List Leaf :=
  [⟨"visible", none⟩, ⟨"device_type", none⟩] ++ ofPart "position" ["x", "y", "z"] ++
    ofPart "orientation" ["yaw", "pitch", "roll"]

/-- An object touches the numbers that it names, and any other value all that is under its key. -/
def isTouchedBy (leaf : Leaf) (changes : Fields) : Bool :=
  match lookupField leaf.key changes, leaf.number with
  | none, _ => false
  | some (.object part), some number => (lookupField number part).isSome
  | some _, _ => true

end Leaf

/-- Changes that touch no leaf in common. -/
def AreApart (a b : Fields) : Prop :=
  ∀ leaf ∈ Leaf.all, leaf.isTouchedBy a = true → leaf.isTouchedBy b = false

instance (a b : Fields) : Decidable (AreApart a b) := by
  unfold AreApart
  infer_instance

/-- The first changes forget a part, and the second ones merge an object into it. -/
def Forgets (a b : Fields) (key : String) : Prop :=
  (lookupField key a).map Value.kind = some .null ∧
    (lookupField key b).map Value.kind = some .object

instance (a b : Fields) (key : String) : Decidable (Forgets a b key) := by
  unfold Forgets
  infer_instance

/-- Changes that touch nothing in common, and neither of which forgets what the other one makes
anew. -/
structure AreIndependent (a b : Fields) : Prop where
  apart : AreApart a b
  unforgotten : ∀ key ∈ ["position", "orientation"], ¬ Forgets a b key ∧ ¬ Forgets b a key

instance (a b : Fields) : Decidable (AreIndependent a b) :=
  decidable_of_iff (AreApart a b ∧ ∀ key ∈ ["position", "orientation"],
      ¬ Forgets a b key ∧ ¬ Forgets b a key)
    ⟨fun ⟨apart, unforgotten⟩ => ⟨apart, unforgotten⟩,
      fun ⟨apart, unforgotten⟩ => ⟨apart, unforgotten⟩⟩

section Leaves

variable {a b : Fields} {key : String}

/-- An entry that is one value is mentioned on one side at most. -/
theorem AreApart.absent_of_entry (apart : AreApart a b) (leaf : ⟨key, none⟩ ∈ Leaf.all) :
    lookupField key a = none ∨ lookupField key b = none := by
  have touched := apart _ leaf
  unfold Leaf.isTouchedBy at touched
  cases in_a : lookupField key a with
  | none => exact .inl rfl
  | some v =>
    right
    simp only [in_a] at touched
    cases in_b : lookupField key b with
    | none => rfl
    | some u => simp [in_b] at touched

/-- A number of a part is named on one side at most, where both sides merge an object. -/
theorem AreApart.absent_of_part (apart : AreApart a b) {numbers : List String}
    (leaves : ∀ leaf ∈ Leaf.ofPart key numbers, leaf ∈ Leaf.all) {p q : Fields}
    (in_a : lookupField key a = some (.object p)) (in_b : lookupField key b = some (.object q)) :
    ∀ number ∈ numbers, lookupField number p = none ∨ lookupField number q = none := by
  intro number member
  have touched := apart _ (leaves ⟨key, some number⟩ (List.mem_map_of_mem member))
  simp only [Leaf.isTouchedBy, in_a, in_b] at touched
  cases in_p : lookupField number p with
  | none => exact .inl rfl
  | some v =>
    right
    simpa [in_p] using touched

end Leaves

namespace Intake

section Entry

variable {α : Type} {read : Value → Checked α} {key : String} {changes a b : Fields}
  {old new other : α}

theorem Follows.unique (follows : Follows read key changes old new)
    (follows' : Follows read key changes old other) : new = other := by
  unfold Follows at follows follows'
  cases given : lookupField key changes with
  | none =>
    simp only [given] at follows follows'
    rw [follows, follows']
  | some v =>
    simp only [given] at follows follows'
    exact Checked.accepted.inj (follows.symm.trans follows')

/-- What is accepted in place of one value is accepted in place of any other. -/
theorem Follows.elsewhere (follows : Follows read key changes old new) (other : α) :
    ∃ made, Follows read key changes other made := by
  unfold Follows at follows ⊢
  cases given : lookupField key changes with
  | none => exact ⟨other, rfl⟩
  | some v =>
    simp only [given] at follows
    exact ⟨new, follows⟩

/-- Changes to an entry that only one side mentions can be made in either order. -/
theorem Follows.comm (absent : lookupField key a = none ∨ lookupField key b = none)
    {first second ab ba : α} (first_a : Follows read key a old first)
    (then_b : Follows read key b first ab) (first_b : Follows read key b old second)
    (then_a : Follows read key a second ba) : ab = ba := by
  rcases absent with absent | absent
  · simp only [Follows, absent] at first_a then_a
    rw [first_a] at then_b
    rw [then_a]
    exact then_b.unique first_b
  · simp only [Follows, absent] at first_b then_b
    rw [first_b] at then_a
    rw [then_b]
    exact first_a.unique then_a

end Entry

/-- A record follows changes number by number: there is one record at most that does, it is there
for every old one or for none, and changes that name different numbers can be made in either
order. -/
structure IsNumberwise {α : Type} (follows : Fields → α → α → Prop) (numbers : List String) :
    Prop where
  unique : ∀ {changes old new other}, follows changes old new → follows changes old other →
    new = other
  elsewhere : ∀ {changes old new}, follows changes old new → ∀ other,
    ∃ made, follows changes other made
  comm : ∀ {p q old first second pq qp},
    (∀ number ∈ numbers, lookupField number p = none ∨ lookupField number q = none) →
      follows p old first → follows q first pq → follows q old second → follows p second qp →
        pq = qp

theorem isNumberwise_position : IsNumberwise Position.Follows ["x", "y", "z"] where
  unique := by
    rintro changes old ⟨x, y, z⟩ ⟨x', y', z'⟩ ⟨on_x, on_y, on_z⟩ ⟨on_x', on_y', on_z'⟩
    rw [Position.mk.injEq]
    exact ⟨on_x.unique on_x', on_y.unique on_y', on_z.unique on_z'⟩
  elsewhere := by
    rintro changes old new ⟨on_x, on_y, on_z⟩ other
    obtain ⟨x, on_x⟩ := on_x.elsewhere other.x
    obtain ⟨y, on_y⟩ := on_y.elsewhere other.y
    obtain ⟨z, on_z⟩ := on_z.elsewhere other.z
    exact ⟨⟨x, y, z⟩, on_x, on_y, on_z⟩
  comm := by
    rintro p q old first second ⟨x, y, z⟩ ⟨x', y', z'⟩ absent first_p then_q first_q then_p
    simp only [List.forall_mem_cons] at absent
    obtain ⟨at_x, at_y, at_z, _⟩ := absent
    rw [Position.mk.injEq]
    exact ⟨Follows.comm at_x first_p.1 then_q.1 first_q.1 then_p.1,
      Follows.comm at_y first_p.2.1 then_q.2.1 first_q.2.1 then_p.2.1,
      Follows.comm at_z first_p.2.2 then_q.2.2 first_q.2.2 then_p.2.2⟩

theorem isNumberwise_orientation :
    IsNumberwise Orientation.Follows ["yaw", "pitch", "roll"] where
  unique := by
    rintro changes old ⟨yaw, pitch, roll⟩ ⟨yaw', pitch', roll'⟩ ⟨on_yaw, on_pitch, on_roll⟩
      ⟨on_yaw', on_pitch', on_roll'⟩
    rw [Orientation.mk.injEq]
    exact ⟨on_yaw.unique on_yaw', on_pitch.unique on_pitch', on_roll.unique on_roll'⟩
  elsewhere := by
    rintro changes old new ⟨on_yaw, on_pitch, on_roll⟩ other
    obtain ⟨yaw, on_yaw⟩ := on_yaw.elsewhere other.yaw
    obtain ⟨pitch, on_pitch⟩ := on_pitch.elsewhere other.pitch
    obtain ⟨roll, on_roll⟩ := on_roll.elsewhere other.roll
    exact ⟨⟨yaw, pitch, roll⟩, on_yaw, on_pitch, on_roll⟩
  comm := by
    rintro p q old first second ⟨yaw, pitch, roll⟩ ⟨yaw', pitch', roll'⟩ absent first_p then_q
      first_q then_p
    simp only [List.forall_mem_cons] at absent
    obtain ⟨at_yaw, at_pitch, at_roll, _⟩ := absent
    rw [Orientation.mk.injEq]
    exact ⟨Follows.comm at_yaw first_p.1 then_q.1 first_q.1 then_p.1,
      Follows.comm at_pitch first_p.2.1 then_q.2.1 first_q.2.1 then_p.2.1,
      Follows.comm at_roll first_p.2.2 then_q.2.2 first_q.2.2 then_p.2.2⟩

section Part

variable {α : Type} {follows : Fields → α → α → Prop} {zeros : α} {numbers : List String}
  (numberwise : IsNumberwise follows numbers) {key : String} {changes a b : Fields}
  {old new other : Option α}

include numberwise

theorem FollowsPart.unique (follows_new : FollowsPart follows zeros key changes old new)
    (follows_other : FollowsPart follows zeros key changes old other) : new = other := by
  cases given : lookupField key changes with
  | none =>
    simp only [FollowsPart, given] at follows_new follows_other
    rw [follows_new, follows_other]
  | some v =>
    cases v with
    | null =>
      simp only [FollowsPart, given] at follows_new follows_other
      rw [follows_new, follows_other]
    | object part =>
      simp only [FollowsPart, given] at follows_new follows_other
      obtain ⟨made, rfl, follows_new⟩ := follows_new
      obtain ⟨made', rfl, follows_other⟩ := follows_other
      rw [numberwise.unique follows_new follows_other]
    | _ => simp only [FollowsPart, given] at follows_new

theorem FollowsPart.elsewhere (follows_new : FollowsPart follows zeros key changes old new)
    (other : Option α) : ∃ made, FollowsPart follows zeros key changes other made := by
  unfold FollowsPart at follows_new ⊢
  split at follows_new
  · exact ⟨other, rfl⟩
  · exact ⟨none, rfl⟩
  · obtain ⟨_, _, follows_new⟩ := follows_new
    obtain ⟨made, follows_made⟩ := numberwise.elsewhere follows_new (other.getD zeros)
    exact ⟨some made, made, rfl, follows_made⟩
  · exact follows_new.elim

/-- The object that is merged second finds the part that the first one made, from zeros if need
be. -/
theorem FollowsPart.comm (independent : AreIndependent a b)
    (part : key ∈ ["position", "orientation"])
    (leaves : ∀ leaf ∈ Leaf.ofPart key numbers, leaf ∈ Leaf.all)
    {first second ab ba : Option α} (first_a : FollowsPart follows zeros key a old first)
    (then_b : FollowsPart follows zeros key b first ab)
    (first_b : FollowsPart follows zeros key b old second)
    (then_a : FollowsPart follows zeros key a second ba) : ab = ba := by
  obtain ⟨apart, unforgotten⟩ := independent
  obtain ⟨kept_a, kept_b⟩ := unforgotten key part
  cases in_a : lookupField key a with
  | none =>
    simp only [FollowsPart, in_a] at first_a then_a
    rw [first_a] at then_b
    rw [then_a]
    exact FollowsPart.unique numberwise then_b first_b
  | some v =>
    cases in_b : lookupField key b with
    | none =>
      simp only [FollowsPart, in_b] at first_b then_b
      rw [first_b] at then_a
      rw [then_b]
      exact FollowsPart.unique numberwise first_a then_a
    | some u =>
      simp only [Forgets, in_a, in_b, Option.map_some, Option.some.injEq] at kept_a kept_b
      cases v with
      | object p =>
        cases u with
        | object q =>
          have absent := apart.absent_of_part leaves in_a in_b
          simp only [FollowsPart, in_a, in_b] at first_a then_b first_b then_a
          obtain ⟨made, rfl, first_a⟩ := first_a
          obtain ⟨ab, rfl, then_b⟩ := then_b
          obtain ⟨made', rfl, first_b⟩ := first_b
          obtain ⟨ba, rfl, then_a⟩ := then_a
          rw [numberwise.comm absent first_a then_b first_b then_a]
        | null => exact absurd ⟨rfl, rfl⟩ kept_b
        | _ => simp only [FollowsPart, in_b] at first_b
      | null =>
        cases u with
        | object q => exact absurd ⟨rfl, rfl⟩ kept_a
        | null =>
          simp only [FollowsPart, in_a, in_b] at then_b then_a
          rw [then_b, then_a]
        | _ => simp only [FollowsPart, in_b] at first_b
      | _ => simp only [FollowsPart, in_a] at first_a

end Part

end Intake

namespace Device

variable {d e new : Device} {changes a b : Fields}

/-- Whether a patch is accepted does not depend on the device. -/
theorem Follows.elsewhere (follows : d.Follows changes new) (e : Device) :
    ∃ made, e.Follows changes made := by
  obtain ⟨visible, on_visible⟩ := follows.visible.elsewhere e.visible
  obtain ⟨position, on_position⟩ :=
    follows.position.elsewhere isNumberwise_position e.position
  obtain ⟨orientation, on_orientation⟩ :=
    follows.orientation.elsewhere isNumberwise_orientation e.orientation
  obtain ⟨kind, on_kind⟩ := follows.kind.elsewhere e.kind
  exact ⟨⟨e.name, visible, position, orientation, kind⟩, rfl, on_visible, on_position,
    on_orientation, on_kind⟩

/-- Independent patches give the same device in either order. -/
theorem Follows.comm (independent : AreIndependent a b) {first second ab ba : Device}
    (first_a : d.Follows a first) (then_b : first.Follows b ab) (first_b : d.Follows b second)
    (then_a : second.Follows a ba) : ab = ba := by
  have apart := independent.apart
  have name : ab.name = ba.name := by
    rw [then_b.name, first_a.name, then_a.name, first_b.name]
  have visible := Intake.Follows.comm (apart.absent_of_entry (by decide)) first_a.visible
    then_b.visible first_b.visible then_a.visible
  have position := FollowsPart.comm isNumberwise_position independent (by decide) (by decide)
    first_a.position then_b.position first_b.position then_a.position
  have orientation := FollowsPart.comm isNumberwise_orientation independent (by decide)
    (by decide) first_a.orientation then_b.orientation first_b.orientation then_a.orientation
  have kind := Intake.Follows.comm (apart.absent_of_entry (by decide)) first_a.kind then_b.kind
    first_b.kind then_a.kind
  cases ab
  cases ba
  rw [Device.mk.injEq]
  exact ⟨name, visible, position, orientation, kind⟩

end Device

end FleetMap
