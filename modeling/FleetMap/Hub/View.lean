import FleetMap.Projection

/-!
A view is one map on the screen: the devices it was last told of, its stance and its settings. Its
revision counts the renderings that were asked for.
-/

set_option autoImplicit false

namespace FleetMap

structure View where
  /-- The name of the bus whose signals it follows while active. -/
  bus : String
  settings : Settings
  /-- The script that is handed every scene. -/
  hook : Option String
  active : Bool
  devices : List Device
  stance : Stance
  revision : Nat

namespace View

/-- A view that has seen nothing yet. -/
def fresh (bus : String) (settings : Settings) (hook : Option String) : View where
  bus := bus
  settings := settings
  hook := hook
  active := false
  devices := []
  stance := .initial
  revision := 0

/-- What the view shows now, if it can be drawn. -/
def scene (v : View) : Option Scene := project v.settings v.stance v.devices

def sprites (v : View) : List Sprite := projectSprites v.settings v.devices

/-- Names of the devices that the view leaves out. -/
def skipped (v : View) : List String := (projectMisfits v.settings v.devices).map Misfit.name

/-- Replaces the devices; a list equal to the one held changes nothing. -/
def tell (v : View) (ds : List Device) : View :=
  { v with devices := keepIfSame (sameList Device.same) v.devices ds }

/-- The next background pattern. -/
def cycled (v : View) : View :=
  { v with stance.patternIndex := (v.stance.patternIndex + 1) % v.settings.patternCount }

/-- Tilted if it was flat and flat if it was tilted. -/
def toggled (v : View) : View := { v with stance.isometric := !v.stance.isometric }

end View

end FleetMap
