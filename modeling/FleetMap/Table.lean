import FleetMap.Projection

/-!
The table of devices: one row per device, hidden ones included, with the color in which the device
is drawn. A number that is missing is shown as nothing if its whole column is, and as NaN otherwise.
-/

set_option autoImplicit false

namespace FleetMap

/-- One device and its color. -/
structure Row where
  device : Device
  color : Option String
  deriving DecidableEq

namespace Row

/-- Coordinates and angles, each known or not. -/
def numbers (r : Row) : List (Option Float) :=
  let p := r.device.position
  let o := r.device.orientation
  [p.map (·.x), p.map (·.y), p.map (·.z), o.map (·.yaw), o.map (·.pitch), o.map (·.roll)]

end Row

namespace Table

def textColumns : List String := ["name", "device_type", "visible"]

def numberColumns : List String := ["x", "y", "z", "yaw", "pitch", "roll"]

def columns : List String := textColumns ++ numberColumns ++ ["color"]

def rows (s : Settings) (ds : List Device) : List Row := List.zipWith Row.mk ds (assignColors s ds)

/-- What stands for a missing number in each of the number columns. -/
def gaps (rows : List Row) : List Value :=
  (List.range numberColumns.length).map fun column =>
    if rows.all fun r => (r.numbers[column]?.getD none).isNone then .null else .float (0.0 / 0.0)

/-- The cells of a row, with the given values for missing numbers. -/
def cells (gaps : List Value) (r : Row) : List Value :=
  [.text r.device.name, .ofOption .text r.device.kind, .bool r.device.visible] ++
    List.zipWith (fun number gap => (number.map Value.float).getD gap) r.numbers gaps ++
    [.ofOption .text r.color]

end Table

/-- A row by column name, with null for all that is missing. -/
def Row.entries (r : Row) : List (String × Value) :=
  Table.columns.zip (Table.cells (Table.numberColumns.map fun _ => .null) r)

/-- The text of a cell. -/
def Table.cellText : Value → String
  | .float x => if x.isNaN then "NaN" else plainFloat x
  | v => v.plain?.getD ""

/-- The cells of a whole table. -/
def Table.grid (s : Settings) (ds : List Device) : List (List Value) :=
  let rows := Table.rows s ds
  rows.map (Table.cells (Table.gaps rows))

end FleetMap
