import FleetMap.Failure
import FleetMap.Intake.Payload
import FleetMap.Text.Split

/-!
Settings as text in input fields: `FieldText.write` gives the text that is shown for a value and
`FieldText.read` the value of a typed text. Lists are written with commas, whole numbers without a
fraction.
-/

set_option autoImplicit false

namespace FleetMap

/-- What is typed into an input field. -/
inductive FieldSort where
  | list
  | int
  | float
  | text
  deriving DecidableEq, Repr

/-- What is typed into a field, by its published format and type; the format decides on lists. -/
def FieldSort.ofHints (format type : String) : FieldSort :=
  if format = "list" then .list
  else if type = "int" then .int
  else if type = "float" then .float
  else .text

namespace FieldText

/-- The texts in a list; the first item that is no text is at fault. -/
def texts (index : Nat) : List Value → Except Failure (List String)
  | [] => .ok []
  | .text s :: rest => (texts (index + 1) rest).map (s :: ·)
  | v :: _ => .error (.notJoinableItem index v.kind)

/-- The text shown for a value in a field for lists or in any other field; integers have one up to
the limit of digits. -/
def write (asList : Bool) (v : Value) : Except Failure String :=
  match v with
  | .null => .ok ""
  | v =>
    if asList then
      match v.parts? with
      | some parts => (texts 0 parts).map ", ".intercalate
      | none => .error .notJoinable
    else
      match v with
      | .int n =>
        if digitLimit < (Nat.toDigits 10 n.natAbs).length then .error (.longInteger none)
        else .ok (decimalOfInt n)
      | .float x =>
        .ok (match wholeOfFloat? x with
          | some n => decimalOfInt n
          | none => plainFloat x)
      | v =>
        match v.plain? with
        | some text => .ok text
        | none => .error (.longInteger none)

/-- The entries of a typed list: what stands between commas, trimmed, unless nothing is left. -/
def listEntries (typed : String) : List String :=
  ((splitText ',' typed).map trimBlank).filter (· ≠ "")

/-- The value of a typed text. -/
def read (sort : FieldSort) (typed : String) : Except Failure Value :=
  match sort with
  | .list => .ok (.list ((listEntries typed).map .text))
  | .int =>
    match Numeral.typedInt? typed with
    | .ok n => .ok (.int n)
    | .error .malformed => .error (.noInteger typed)
    | .error (.tooLong digits) => .error (.longInteger (some digits))
  | .float =>
    match Numeral.typedFloat? typed with
    | some x => .ok (.float x)
    | none => .error (.noNumber typed)
  | .text => .ok (.text (trimBlank typed))

end FieldText

end FleetMap
