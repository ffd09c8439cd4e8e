import FleetMap.Value

/-!
A scene is all that is needed to draw one state of the map: the backdrop, the sprites in drawing
order and the names of the devices that had to be left out.
-/

set_option autoImplicit false

namespace FleetMap

/-- The one transform of the whole map. -/
structure Backdrop where
  /-- In the words of a style sheet. -/
  transform : String
  /-- Vertical offset in pixels. -/
  top : Int
  /-- Style class of the background pattern. -/
  pattern : String
  deriving DecidableEq

/-- One device as it is drawn. -/
structure Sprite where
  name : String
  color : String
  size : String
  left : Float
  top : Float
  depth : Float
  yaw : Float
  pitch : Float
  roll : Float
  /-- The spoken description. -/
  label : String
  deriving DecidableEq

/-- Equal in every entry, numbers by value. -/
def Sprite.same (a b : Sprite) : Bool :=
  a.name == b.name && a.color == b.color && a.size == b.size && sameFloat a.left b.left &&
    sameFloat a.top b.top && sameFloat a.depth b.depth && sameFloat a.yaw b.yaw &&
    sameFloat a.pitch b.pitch && sameFloat a.roll b.roll && a.label == b.label

structure Scene where
  backdrop : Backdrop
  sprites : List Sprite
  /-- Names of visible devices that could not be placed. -/
  skipped : List String
  deriving DecidableEq

def Backdrop.entries (b : Backdrop) : List (String × Value) :=
  [("transform", .text b.transform), ("top_px", .int b.top), ("pattern_class", .text b.pattern)]

def Sprite.entries (s : Sprite) : List (String × Value) :=
  [("name", .text s.name), ("color", .text s.color), ("size", .text s.size),
    ("left_px", .float s.left), ("top_px", .float s.top), ("pos_z", .float s.depth),
    ("yaw", .float s.yaw), ("pitch", .float s.pitch), ("roll", .float s.roll),
    ("aria_label", .text s.label)]

def Scene.entries (s : Scene) : List (String × Value) :=
  [("container", .object s.backdrop.entries),
    ("sprites", .list (s.sprites.map fun sprite => .object sprite.entries)),
    ("skipped", .list (s.skipped.map .text))]

end FleetMap
