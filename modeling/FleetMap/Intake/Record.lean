import FleetMap.Device
import FleetMap.Intake.Scalar
import FleetMap.Scene
import FleetMap.Settings.Basic

/-!
Whole records out of submitted data. Entries are checked in the order of the record, unknown keys
are ignored, and every fault is reported. What a reader accepts obeys the law of its record.
-/

set_option autoImplicit false

namespace FleetMap.Intake

open Checked (fault)

abbrev Fields := List (String × Value)

/-- An entry that has to be there. -/
def required {α : Type} (key : String) (read : Value → Checked α) (fields : Fields) : Checked α :=
  (match lookupField key fields with
    | some v => read v
    | none => fault .missing (.object fields)).under (.key key)

/-- An entry with a default; the default is not checked. -/
def entry {α : Type} (key : String) (read : Value → Checked α) (default : α) (fields : Fields) :
    Checked α :=
  match lookupField key fields with
  | some v => (read v).under (.key key)
  | none => .accepted default

/-- Applies a reader of entries to an object; nothing else is a record. -/
def record {α : Type} (schema : Schema) (read : Fields → Checked α) : Value → Checked α
  | .object fields => read fields
  | v => fault (.notRecord schema) v

def position : Value → Checked Position :=
  record .position fun fields =>
    Position.mk <$> entry "x" finite 0.0 fields <*> entry "y" finite 0.0 fields <*>
      entry "z" finite 0.0 fields

def orientation : Value → Checked Orientation :=
  record .orientation fun fields =>
    Orientation.mk <$> entry "yaw" finite 0.0 fields <*> entry "pitch" finite 0.0 fields <*>
      entry "roll" finite 0.0 fields

def device : Value → Checked Device :=
  record .device fun fields =>
    Device.mk <$> required "name" text fields <*> entry "visible" bool true fields <*>
      entry "position" (optional position) none fields <*>
      entry "orientation" (optional orientation) none fields <*>
      entry "device_type" (optional text) none fields

/-- A list of colors, none of them blank and one at least. -/
def palette (v : Value) : Checked (List String) :=
  (list text v).andThen fun colors =>
    if colors = [] then fault .emptyList v
    else if ∃ color ∈ colors, IsBlankText color then fault .blankColor v
    else .accepted colors

/-- The entries of a record of settings. -/
def settingsFields (fields : Fields) : Checked Settings :=
  let standard := Settings.standard
  Settings.mk <$> entry "name" text standard.name fields <*>
    entry "scale" positive standard.scale fields <*>
    entry "palette" palette standard.palette fields <*>
    entry "sprite_size" text standard.spriteSize fields <*>
    entry "pattern_count" (atLeast 1) standard.patternCount fields <*>
    entry "isometric_top_px" (atLeast 0) standard.isometricTop fields <*>
    entry "playback_interval" positive standard.playbackInterval fields

def settings : Value → Checked Settings := record .settings settingsFields

def stance : Value → Checked Stance :=
  record .stance fun fields =>
    Stance.mk <$> entry "pattern_index" (atLeast 0) 0 fields <*>
      entry "isometric" bool false fields

def backdrop : Value → Checked Backdrop :=
  record .backdrop fun fields =>
    Backdrop.mk <$> required "transform" text fields <*> required "top_px" int fields <*>
      required "pattern_class" text fields

/-- The numbers of a sprite may be infinite or NaN. -/
def sprite : Value → Checked Sprite :=
  record .sprite fun fields =>
    Sprite.mk <$> required "name" text fields <*> required "color" text fields <*>
      required "size" text fields <*> required "left_px" float fields <*>
      required "top_px" float fields <*> required "pos_z" float fields <*>
      required "yaw" float fields <*> required "pitch" float fields <*>
      required "roll" float fields <*> required "aria_label" text fields

def scene : Value → Checked Scene :=
  record .scene fun fields =>
    Scene.mk <$> required "container" backdrop fields <*>
      entry "sprites" (list sprite) [] fields <*> entry "skipped" (list text) [] fields

end FleetMap.Intake
