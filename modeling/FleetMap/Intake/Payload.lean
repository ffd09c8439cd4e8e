import FleetMap.Intake.Record
import FleetMap.Intake.Report
import FleetMap.Note

/-!
Published payloads. A payload is a sequence of items, each raw data or a finished device; raw data
that is no array may still be walked through: text by characters, an object by keys. Items that are
no devices are dropped, with their index and the report on them.
-/

set_option autoImplicit false

namespace FleetMap

/-- One item of a payload. -/
inductive Item where
  | raw (v : Value)
  /-- A device that is taken as it is. -/
  | device (d : Device)

/-- A sequence as it is handed over: an array, or other data in its place. -/
inductive Feed (α : Type) where
  | entries (items : List α)
  | other (v : Value)

abbrev Payload := Feed Item

/-- A recording as it is handed over: one payload per frame. -/
abbrev Recording := Feed Payload

/-- The parts that are met when a value is walked through; none if it has no parts. -/
def Value.parts? : Value → Option (List Value)
  | .list items => some items
  | .object fields => some (fields.map fun entry => .text entry.1)
  | .text s => some (s.toList.map fun c => .text (String.ofList [c]))
  | .garbled units => some (units.map fun n => .garbled [n])
  | _ => none

namespace Feed

variable {α : Type}

/-- The items in order, or the sort of data that has none. -/
def items (ofValue : Value → α) : Feed α → Except Kind (List α)
  | entries items => .ok items
  | other v =>
    match v.parts? with
    | some parts => .ok (parts.map ofValue)
    | none => .error v.kind

/-- Nothing was given, or what was given is empty. -/
def isVoid : Feed α → Bool
  | entries items => items.isEmpty
  | other v => v.isVoid

/-- How many items there are at most. -/
def bound (f : Feed α) : Nat :=
  match f with
  | entries items => items.length
  | other v => (v.parts?.getD []).length

end Feed

def Payload.ofValue : Value → Payload
  | .list items => .entries (items.map .raw)
  | v => .other v

/-- An item as a device. -/
def Item.check : Item → Checked Device
  | .raw v => Intake.device v
  | .device d => .accepted d

/-- What came of a payload: the devices in order and the items that were dropped. -/
structure Reception where
  devices : List Device
  dropped : List (Nat × Rejection)

namespace Reception

/-- Receives items, the first of which has the given index. -/
def ofItemsFrom (index : Nat) : List Item → Reception
  | [] => ⟨[], []⟩
  | item :: rest =>
    let others := ofItemsFrom (index + 1) rest
    match item.check.conclude .device with
    | .ok d => ⟨d :: others.devices, others.dropped⟩
    | .error r => ⟨others.devices, (index, r) :: others.dropped⟩

def ofItems (items : List Item) : Reception := ofItemsFrom 0 items

/-- A note on each item that was dropped. -/
def notes (r : Reception) : List Note :=
  r.dropped.map fun (index, rejection) =>
    ⟨.warning, .devices,
      "Dropping invalid device record #" ++ decimalOfInt index ++ ": " ++ rejection.report⟩

end Reception

/-- Devices that are required to be devices, one and all: the first that is none is reported. -/
def requireDevices : List Item → Except Rejection (List Device)
  | [] => .ok []
  | item :: rest => do
    let d ← item.check.conclude .device
    let others ← requireDevices rest
    return d :: others

end FleetMap
