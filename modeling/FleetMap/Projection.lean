import FleetMap.Device
import FleetMap.Note
import FleetMap.Number.Layout
import FleetMap.Scene
import FleetMap.Settings.Basic

/-!
From devices to a scene. Hidden devices leave no trace. Every visible device takes the next color of
the palette; one whose geometry is unknown or not finite once scaled is skipped but still takes it.
-/

set_option autoImplicit false

namespace FleetMap

/-- Why a number has no nearest integer. -/
inductive RoundFault where
  | nan
  | infinite
  /-- An integer that is too large to become a double. -/
  | tooLarge
  deriving DecidableEq, Repr

def RoundFault.message : RoundFault → String
  | .nan => "cannot convert float NaN to integer"
  | .infinite => "cannot convert float infinity to integer"
  | .tooLarge => "int too large to convert to float"

/-- The floor of the double sum with one half, so that halves go up. -/
def roundHalfUp (x : Float) : Except RoundFault Int :=
  let sum := x + 0.5
  match BinaryFloat.ofFloat? sum with
  | some d => .ok d.floor
  | none => .error (if sum.isNaN then .nan else .infinite)

/-- An integer as a double, if its size allows. -/
def floatOfInt (n : Int) : Except RoundFault Float :=
  let x := Float.ofInt n
  if x.isFinite then .ok x else .error .tooLarge

/-- An angle as it is spoken: whole angles without a fraction. -/
def angleText (x : Float) : String :=
  match wholeOfFloat? x with
  | some n => decimalOfInt n
  | none => plainFloat x

/-- A number of any sort rounded: integers and truth values are taken as doubles. -/
def Value.roundHalfUp : Value → Except RoundFault Int
  | .float x => FleetMap.roundHalfUp x
  | .int n => floatOfInt n >>= FleetMap.roundHalfUp
  | .bool b => .ok (if b then 1 else 0) >>= floatOfInt >>= FleetMap.roundHalfUp
  | _ => .error .nan

/-- An angle of any sort as it is spoken; an integer has to be small enough for a double. -/
def Value.angleText : Value → Except RoundFault String
  | .float x => .ok (FleetMap.angleText x)
  | .int n => (floatOfInt n).map fun _ => decimalOfInt n
  | .bool b => .ok (decimalOfInt (if b then 1 else 0))
  | _ => .error .nan

/-- Why a device cannot be placed on the map. -/
inductive Misfit where
  /-- The position, the orientation or both are unknown; true for what is. -/
  | missing (name : String) (position orientation : Bool)
  | unbounded (name : String)
  deriving DecidableEq, Repr

namespace Misfit

def name : Misfit → String
  | missing name _ _ => name
  | unbounded name => name

def message : Misfit → String
  | missing name position orientation =>
    let parts := (if position then ["position"] else []) ++
      (if orientation then ["orientation"] else [])
    "Device '" ++ name ++ "' is missing " ++ ", ".intercalate parts
  | unbounded name => "Device '" ++ name ++ "' has a non-finite screen position or angle"

/-- The note on a device that is left out of a scene. -/
def note (m : Misfit) : Note := ⟨.warning, .projection, "Skipping device: " ++ m.message⟩

end Misfit

/-- Where and how a device stands on the screen. -/
structure Placement where
  left : Float
  top : Float
  depth : Float
  yaw : Float
  pitch : Float
  roll : Float
  deriving DecidableEq

namespace Placement

def numbers (p : Placement) : List Float := [p.left, p.top, p.depth, p.yaw, p.pitch, p.roll]

def ofGeometry (scale : Float) (p : Position) (o : Orientation) : Placement :=
  ⟨scale * p.x, scale * p.y, scale * p.z, o.yaw, o.pitch, o.roll⟩

end Placement

/-- The screen geometry of a device; a finite coordinate may be infinite once scaled. -/
def Device.place (s : Settings) (d : Device) : Except Misfit Placement :=
  match d.position, d.orientation with
  | some p, some o =>
    let placement := Placement.ofGeometry s.scale p o
    if placement.numbers.all Float.isFinite then .ok placement else .error (.unbounded d.name)
  | p, o => .error (.missing d.name p.isNone o.isNone)

/-- The words on a device at its place, with the nearest integers of its pixels. -/
def Placement.words (name : String) (p : Placement) (left top depth : Int) : String :=
  name ++ " on Device Map, Position: " ++ decimalOfInt left ++ ", " ++ decimalOfInt top ++ ", " ++
    decimalOfInt depth ++ ", Orientation: yaw: " ++ angleText p.yaw ++ ", pitch: " ++
    angleText p.pitch ++ ", roll: " ++ angleText p.roll

/-- The spoken description of a device at its place. -/
def Placement.describe (name : String) (p : Placement) : Except Misfit String :=
  match roundHalfUp p.left, roundHalfUp p.top, roundHalfUp p.depth with
  | .ok left, .ok top, .ok depth => .ok (p.words name left top depth)
  | _, _, _ => .error (.unbounded name)

def Device.describe (s : Settings) (d : Device) : Except Misfit String := do
  let placement ← d.place s
  placement.describe d.name

namespace Settings

/-- The color of the visible device with an index; the palette repeats in both directions. -/
def colorAt (s : Settings) (index : Int) : String :=
  s.palette.getD (index % s.palette.length).toNat ""

def isometricTransform : String :=
  "perspective(200rem) rotateX(60deg) rotateY(0deg) rotateZ(0deg) scale3d(0.8,0.8,0.8)"

def flatTransform : String := "none"

/-- The backdrop for a pattern index, taken modulo the number of patterns; none if the number of the
pattern is too long to be written. -/
def backdrop (s : Settings) (isometric : Bool) (patternIndex : Int) : Option Backdrop :=
  (writeInt? (patternIndex % s.patternCount)).map fun number =>
    { transform := if isometric then isometricTransform else flatTransform
      top := if isometric then s.isometricTop else 0
      pattern := "pattern" ++ number }

end Settings

/-- The sprite of a device that takes the color with the given index. -/
def Device.sprite (s : Settings) (index : Int) (d : Device) : Except Misfit Sprite := do
  let p ← d.place s
  let label ← p.describe d.name
  return { name := d.name, color := s.colorAt index, size := s.spriteSize, left := p.left,
           top := p.top, depth := p.depth, yaw := p.yaw, pitch := p.pitch, roll := p.roll,
           label := label }

namespace Projection

/-- Sprites or misfits of visible devices, the first of which takes the color `index`. -/
def attemptsFrom (s : Settings) (index : Nat) : List Device → List (Except Misfit Sprite)
  | [] => []
  | d :: rest =>
    if d.visible then d.sprite s index :: attemptsFrom s (index + 1) rest
    else attemptsFrom s index rest

/-- What becomes of each visible device. -/
def attempts (s : Settings) (ds : List Device) : List (Except Misfit Sprite) := attemptsFrom s 0 ds

def sprites : List (Except Misfit Sprite) → List Sprite
  | [] => []
  | .ok sprite :: rest => sprite :: sprites rest
  | .error _ :: rest => sprites rest

def misfits : List (Except Misfit Sprite) → List Misfit
  | [] => []
  | .ok _ :: rest => misfits rest
  | .error m :: rest => m :: misfits rest

end Projection

def projectSprites (s : Settings) (ds : List Device) : List Sprite :=
  Projection.sprites (Projection.attempts s ds)

/-- The visible devices that are left out, with the reasons. -/
def projectMisfits (s : Settings) (ds : List Device) : List Misfit :=
  Projection.misfits (Projection.attempts s ds)

/-- The scene of a list of devices; none if it has no backdrop. -/
def project (s : Settings) (stance : Stance) (ds : List Device) : Option Scene :=
  (s.backdrop stance.isometric stance.patternIndex).map fun backdrop =>
    { backdrop := backdrop
      sprites := projectSprites s ds
      skipped := (projectMisfits s ds).map Misfit.name }

/-- Colors of devices, the first visible of which takes the color `index`; none for a device that
is not drawn. -/
def colorsFrom (s : Settings) (index : Nat) : List Device → List (Option String)
  | [] => []
  | d :: rest =>
    if d.visible then
      (match d.place s with
        | .ok _ => some (s.colorAt index)
        | .error _ => none) :: colorsFrom s (index + 1) rest
    else none :: colorsFrom s index rest

/-- The color of each device on the map. -/
def assignColors (s : Settings) (ds : List Device) : List (Option String) := colorsFrom s 0 ds

theorem length_colorsFrom (s : Settings) (index : Nat) (ds : List Device) :
    (colorsFrom s index ds).length = ds.length := by
  induction ds generalizing index with
  | nil => rfl
  | cons d rest ih =>
    unfold colorsFrom
    split <;> simp [ih]

end FleetMap
