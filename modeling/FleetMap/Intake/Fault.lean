import FleetMap.Value

/-!
Faults in submitted records. Checking a record collects every fault with the place where it is, its
cause and the value that was given; a `Rejection` is the whole of them for one record. `Checked` is
the applicative of such checks: it goes on after a fault.
-/

set_option autoImplicit false

namespace FleetMap

/-- The sorts of record that are checked. -/
inductive Schema where
  | position
  | orientation
  | device
  | settings
  | stance
  | backdrop
  | sprite
  | scene
  deriving DecidableEq, Repr

/-- The published name of a sort of record. -/
def Schema.title : Schema → String
  | .position => "Position"
  | .orientation => "Orientation"
  | .device => "Device"
  | .settings => "MapConfig"
  | .stance => "ViewState"
  | .backdrop => "ContainerTransform"
  | .sprite => "SpriteDescriptor"
  | .scene => "RenderDescription"

/-- Why a value is not accepted. -/
inductive Cause where
  | missing
  | notRecord (schema : Schema)
  | notText
  | badUnicode
  | unclearBool
  | notBool
  | unclearFloat
  | notFloat
  | notFinite
  | unclearInt
  | fractionalInt
  | hugeInt
  | notInt
  | notPositive
  | below (bound : Nat)
  | notList
  | emptyList
  | blankColor
  deriving DecidableEq, Repr

namespace Cause

/-- The published code of a cause. -/
def code : Cause → String
  | missing => "missing"
  | notRecord _ => "model_type"
  | notText => "string_type"
  | badUnicode => "string_unicode"
  | unclearBool => "bool_parsing"
  | notBool => "bool_type"
  | unclearFloat => "float_parsing"
  | notFloat => "float_type"
  | notFinite => "finite_number"
  | unclearInt => "int_parsing"
  | fractionalInt => "int_from_float"
  | hugeInt => "int_parsing_size"
  | notInt => "int_type"
  | notPositive => "greater_than"
  | below _ => "greater_than_equal"
  | notList => "list_type"
  | emptyList => "too_short"
  | blankColor => "value_error"

def message : Cause → String
  | missing => "Field required"
  | notRecord s => "Input should be a valid dictionary or instance of " ++ s.title
  | notText => "Input should be a valid string"
  | badUnicode => "Input should be a valid string, unable to parse raw data as a unicode string"
  | unclearBool => "Input should be a valid boolean, unable to interpret input"
  | notBool => "Input should be a valid boolean"
  | unclearFloat => "Input should be a valid number, unable to parse string as a number"
  | notFloat => "Input should be a valid number"
  | notFinite => "Input should be a finite number"
  | unclearInt => "Input should be a valid integer, unable to parse string as an integer"
  | fractionalInt => "Input should be a valid integer, got a number with a fractional part"
  | hugeInt => "Unable to parse input string as an integer, exceeded maximum size"
  | notInt => "Input should be a valid integer"
  | notPositive => "Input should be greater than 0"
  | below bound => "Input should be greater than or equal to " ++ decimalOfInt bound
  | notList => "Input should be a valid list"
  | emptyList => "List should have at least 1 item after validation, not 0"
  | blankColor => "Value error, palette entries must be non-empty color names"

end Cause

/-- One step from a record into its parts. -/
inductive Segment where
  | key (name : String)
  | index (position : Nat)
  deriving DecidableEq, Repr

def Segment.text : Segment → String
  | key name => name
  | index position => decimalOfInt position

structure Fault where
  path : List Segment
  cause : Cause
  /-- The value that was given there. -/
  given : Value

/-- Either a result or at least one fault. -/
inductive Checked (α : Type) where
  | accepted (value : α)
  | faulty (first : Fault) (others : List Fault)

namespace Checked

variable {α β : Type}

def fault (cause : Cause) (given : Value) : Checked α := .faulty ⟨[], cause, given⟩ []

def map (f : α → β) : Checked α → Checked β
  | accepted a => accepted (f a)
  | faulty first others => faulty first others

/-- Faults on both sides are all kept, the left ones first. -/
def ap : Checked (α → β) → Checked α → Checked β
  | accepted f, accepted a => accepted (f a)
  | accepted _, faulty first others => faulty first others
  | faulty first others, accepted _ => faulty first others
  | faulty first others, faulty next more => faulty first (others ++ next :: more)

instance : Applicative Checked where
  pure := accepted
  map := map
  seq f x := ap f (x ())

/-- A further check on an accepted value. -/
def andThen (x : Checked α) (f : α → Checked β) : Checked β :=
  match x with
  | accepted a => f a
  | faulty first others => faulty first others

/-- Places the faults of a part under the part's segment. -/
def under (segment : Segment) : Checked α → Checked α
  | accepted a => accepted a
  | faulty first others =>
    let place (f : Fault) : Fault := ⟨segment :: f.path, f.cause, f.given⟩
    faulty (place first) (others.map place)

/-- Reads the items of a list, each under its index. -/
def items (read : Value → Checked α) : Nat → List Value → Checked (List α)
  | _, [] => accepted []
  | index, v :: rest =>
    ap (map List.cons ((read v).under (.index index))) (items read (index + 1) rest)

end Checked

/-- A record that was not accepted, with all its faults. -/
structure Rejection where
  schema : Schema
  first : Fault
  others : List Fault

namespace Rejection

def faults (r : Rejection) : List Fault := r.first :: r.others

/-- The first line of the report. -/
def headline (r : Rejection) : String :=
  match r.others.length with
  | 0 => "1 validation error for " ++ r.schema.title
  | more => decimalOfInt (more + 1) ++ " validation errors for " ++ r.schema.title

end Rejection

/-- The outcome of a check as that of a whole record. -/
def Checked.conclude {α : Type} (schema : Schema) : Checked α → Except Rejection α
  | accepted a => .ok a
  | faulty first others => .error ⟨schema, first, others⟩

end FleetMap
