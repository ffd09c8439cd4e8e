import FleetMap.Intake.Fault

/-!
The full report on a rejected record: the headline, then for each fault its place, what is wrong
with an excerpt of the value, and where to read more.
-/

set_option autoImplicit false

namespace FleetMap

/-- Bytes of the characters of a text. -/
def utf8Length (cs : List Char) : Nat := cs.foldl (fun bytes c => bytes + c.utf8Size) 0

/-- The longest start of a text that has at most `bytes` bytes. -/
def startWithin (bytes : Nat) : List Char → List Char
  | [] => []
  | c :: rest => if c.utf8Size ≤ bytes then c :: startWithin (bytes - c.utf8Size) rest else []

/-- A text of more than fifty bytes is shown by its first 25 and its last 24 bytes. -/
def excerpt (s : String) : String :=
  let cs := s.toList
  if utf8Length cs ≤ 50 then s
  else
    String.ofList (startWithin 25 cs ++ ['.', '.', '.'] ++ (startWithin 24 cs.reverse).reverse)

def Fault.place (f : Fault) : String := ".".intercalate (f.path.map Segment.text)

/-- The three lines on one fault. -/
def Fault.report (f : Fault) : List String :=
  [f.place,
    "  " ++ f.cause.message ++ " [type=" ++ f.cause.code ++ ", input_value=" ++
      excerpt f.given.reported ++ ", input_type=" ++ f.given.kind.name ++ "]",
    "    For further information visit https://errors.pydantic.dev/2.14/v/" ++ f.cause.code]

def Rejection.report (r : Rejection) : String :=
  "\n".intercalate (r.headline :: r.faults.flatMap Fault.report)

end FleetMap
