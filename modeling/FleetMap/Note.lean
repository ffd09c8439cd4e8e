/-!
Notes that the parts of the program leave for its operator.
-/

set_option autoImplicit false

namespace FleetMap

inductive Level where
  | info
  | warning
  | error
  deriving DecidableEq, Repr

/-- The part of the program a note comes from. -/
inductive Origin where
  | devices
  | projection
  | registry
  | bus
  | player
  | settings
  deriving DecidableEq, Repr

structure Note where
  level : Level
  origin : Origin
  text : String
  deriving DecidableEq, Repr

end FleetMap
