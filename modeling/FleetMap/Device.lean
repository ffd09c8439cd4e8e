import FleetMap.Value

/-!
Devices: what the simulation publishes about each thing on the map. Position and orientation may be
unknown; such a device travels with the others but is not drawn.
-/

set_option autoImplicit false

namespace FleetMap

/-- A place in simulation units. -/
structure Position where
  x : Float
  y : Float
  z : Float
  deriving DecidableEq

/-- Three angles in degrees. -/
structure Orientation where
  yaw : Float
  pitch : Float
  roll : Float
  deriving DecidableEq

structure Device where
  name : String
  visible : Bool
  position : Option Position
  orientation : Option Orientation
  /-- What kind of device it is, in the producer's words. -/
  kind : Option String
  deriving DecidableEq

namespace Position

def coordinates (p : Position) : List Float := [p.x, p.y, p.z]

def toValue (p : Position) : Value :=
  .object [("x", .float p.x), ("y", .float p.y), ("z", .float p.z)]

def same (p q : Position) : Bool := sameFloat p.x q.x && sameFloat p.y q.y && sameFloat p.z q.z

end Position

namespace Orientation

def angles (o : Orientation) : List Float := [o.yaw, o.pitch, o.roll]

def toValue (o : Orientation) : Value :=
  .object [("yaw", .float o.yaw), ("pitch", .float o.pitch), ("roll", .float o.roll)]

def same (p q : Orientation) : Bool :=
  sameFloat p.yaw q.yaw && sameFloat p.pitch q.pitch && sameFloat p.roll q.roll

end Orientation

/-- Both absent, or both present and related. -/
def sameOption {α : Type} (same : α → α → Bool) : Option α → Option α → Bool
  | none, none => true
  | some a, some b => same a b
  | _, _ => false

/-- Equal length and related entry by entry. -/
def sameList {α : Type} (same : α → α → Bool) : List α → List α → Bool
  | [], [] => true
  | a :: as, b :: bs => same a b && sameList same as bs
  | _, _ => false

/-- A value as an optional entry. -/
def Value.ofOption {α : Type} (toValue : α → Value) : Option α → Value
  | some a => toValue a
  | none => .null

namespace Device

/-- Every number it carries is finite. -/
def IsFinite (d : Device) : Prop :=
  (∀ p, d.position = some p → ∀ v ∈ p.coordinates, v.isFinite = true) ∧
    ∀ o, d.orientation = some o → ∀ v ∈ o.angles, v.isFinite = true

/-- All entries of a device, the unknown ones as null. -/
def entries (d : Device) : List (String × Value) :=
  [("name", .text d.name), ("visible", .bool d.visible),
    ("position", .ofOption Position.toValue d.position),
    ("orientation", .ofOption Orientation.toValue d.orientation),
    ("device_type", .ofOption .text d.kind)]

def toValue (d : Device) : Value := .object d.entries

/-- A device without its unknown entries, as recordings hold it. -/
def toSparseValue (d : Device) : Value :=
  .object (d.entries.filter fun entry => entry.2.kind != .null)

/-- Equal in every entry, numbers by value. -/
def same (a b : Device) : Bool :=
  a.name == b.name && a.visible == b.visible && sameOption Position.same a.position b.position &&
    sameOption Orientation.same a.orientation b.orientation && a.kind == b.kind

end Device

/-- A cell that is assigned a value equal to the one it holds keeps what it holds. -/
def keepIfSame {α : Type} (same : α → α → Bool) (held given : α) : α :=
  if same held given then held else given

end FleetMap
