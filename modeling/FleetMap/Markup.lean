import FleetMap.Projection
import FleetMap.Text.Entity

/-!
A scene as HTML: the classes and the style of the map itself and one pair of nested elements for
each sprite. Names and labels are escaped; numbers have six significant digits.
-/

set_option autoImplicit false

namespace FleetMap

namespace Backdrop

def classes (b : Backdrop) : List String := ["dropzone", "box", b.pattern]

/-- There is no style if the offset is too long to be written. -/
def style (b : Backdrop) : Option String :=
  (writeInt? b.top).map fun top => "transform: " ++ b.transform ++ "; top: " ++ top ++ "px;"

end Backdrop

namespace Sprite

/-- Depth comes first, then the three turns. -/
def transform (s : Sprite) : String :=
  "translateZ(" ++ styleFloat s.depth ++ "px) rotateZ(" ++ styleFloat s.yaw ++ "deg) rotateX(" ++
    styleFloat s.pitch ++ "deg) rotateY(" ++ styleFloat s.roll ++ "deg)"

def markup (s : Sprite) : String :=
  "<div class=\"device-dragzone\" style=\"position: absolute; left: " ++ styleFloat s.left ++
    "px; top: " ++ styleFloat s.top ++ "px;\"><div class=\"cube-sprite\" id=\"" ++
    Entity.escape s.name ++
    "\" role=\"widget\" tabindex=\"1\" aria-live=\"polite\" aria-label=\"" ++
    Entity.escape s.label ++ "\" style=\"width: " ++ s.size ++ "; height: " ++ s.size ++
    "; background-color: " ++ s.color ++ "; transform: " ++ s.transform ++ ";\"></div></div>"

end Sprite

end FleetMap
