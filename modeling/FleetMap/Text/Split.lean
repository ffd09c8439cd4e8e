/-!
Splitting a text at a separator. There is always one part more than there are separators.
-/

set_option autoImplicit false

namespace FleetMap

/-- The parts between the separators, empty ones included. -/
def splitAtChar (separator : Char) : List Char → List (List Char)
  | [] => [[]]
  | c :: rest =>
    if c = separator then [] :: splitAtChar separator rest
    else
      match splitAtChar separator rest with
      | part :: parts => (c :: part) :: parts
      | [] => [[c]]

/-- The parts of a text between the separators. -/
def splitText (separator : Char) (s : String) : List String :=
  (splitAtChar separator s.toList).map String.ofList

end FleetMap
