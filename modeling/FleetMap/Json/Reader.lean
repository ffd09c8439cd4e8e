import FleetMap.Number.Numeral
import FleetMap.Value

/-!
JSON text into values. Besides the standard it admits `NaN`, `Infinity` and `-Infinity`; of a key
that occurs twice the last value counts. A fault names what was wrong and carries the text that was
left at that place, from which line and column follow.
-/

set_option autoImplicit false

namespace FleetMap.Json

/-- What a text lacks to be JSON. -/
inductive Complaint where
  | value
  | name
  | colon
  | comma
  | extra
  | unterminated
  | control
  | escape
  | unicodeEscape
  | byteOrderMark
  deriving DecidableEq, Repr

def Complaint.message : Complaint → String
  | .value => "Expecting value"
  | .name => "Expecting property name enclosed in double quotes"
  | .colon => "Expecting ':' delimiter"
  | .comma => "Expecting ',' delimiter"
  | .extra => "Extra data"
  | .unterminated => "Unterminated string starting at"
  | .control => "Invalid control character at"
  | .escape => "Invalid \\escape"
  | .unicodeEscape => "Invalid \\uXXXX escape"
  | .byteOrderMark => "Unexpected UTF-8 BOM (decode using utf-8-sig)"

inductive Fault where
  /-- The text is no JSON; `rest` is what follows the place of the complaint. -/
  | broken (complaint : Complaint) (rest : List Char)
  /-- An integer has more digits than are read. -/
  | tooLong (digits : Nat)
  /-- Arrays and objects are nested too deeply; the one that was too much is an array or not. -/
  | tooDeep (array : Bool)

/-- Levels of arrays and objects that are read. The number is an assumption: what a limit of a
thousand nested calls leaves to the reader, which depends on where it is called from. -/
def depthLimit : Nat := 985

def isSpace (c : Char) : Bool := c == ' ' || c == '\t' || c == '\n' || c == '\r'

def skipSpace (cs : List Char) : List Char := cs.dropWhile isSpace

def hexValue? (c : Char) : Option Nat :=
  if c.isDigit then some (c.toNat - '0'.toNat)
  else if 'a' ≤ c ∧ c ≤ 'f' then some (c.toNat - 'a'.toNat + 10)
  else if 'A' ≤ c ∧ c ≤ 'F' then some (c.toNat - 'A'.toNat + 10)
  else none

/-- Four hexadecimal digits. -/
def hexQuad? (a b c d : Char) : Option Nat := do
  let a ← hexValue? a
  let b ← hexValue? b
  let c ← hexValue? c
  let d ← hexValue? d
  return ((a * 16 + b) * 16 + c) * 16 + d

/-- The character that a backslash and one letter stand for. -/
def simpleEscape? : Char → Option Char
  | '"' => some '"'
  | '\\' => some '\\'
  | '/' => some '/'
  | 'b' => some '\x08'
  | 'f' => some '\x0c'
  | 'n' => some '\n'
  | 'r' => some '\r'
  | 't' => some '\t'
  | _ => none

/-- Reads up to the closing quote into code units; `opening` is the text from the first quote on. -/
def readUnits (opening : List Char) : List Char → Except Fault (List Nat × List Char)
  | [] => .error (.broken .unterminated opening)
  | '"' :: rest => .ok ([], rest)
  | ['\\'] => .error (.broken .unterminated opening)
  | '\\' :: 'u' :: a :: b :: c :: d :: next :: rest =>
    match hexQuad? a b c d with
    | some n => (readUnits opening (next :: rest)).map fun (units, left) => (n :: units, left)
    | none => .error (.broken .unicodeEscape ('u' :: a :: b :: c :: d :: next :: rest))
  | '\\' :: 'u' :: rest => .error (.broken .unicodeEscape ('u' :: rest))
  | '\\' :: e :: rest =>
    match simpleEscape? e with
    | some c => (readUnits opening rest).map fun (units, left) => (c.toNat :: units, left)
    | none => .error (.broken .escape ('\\' :: e :: rest))
  | c :: rest =>
    if c.toNat < 0x20 then .error (.broken .control (c :: rest))
    else (readUnits opening rest).map fun (units, left) => (c.toNat :: units, left)

def isHighSurrogate (n : Nat) : Bool := 0xD800 ≤ n && n < 0xDC00

def isLowSurrogate (n : Nat) : Bool := 0xDC00 ≤ n && n < 0xE000

/-- A high surrogate and a low one next to it are one code point. -/
def joinSurrogates : List Nat → List Nat
  | high :: low :: rest =>
    if isHighSurrogate high ∧ isLowSurrogate low then
      (0x10000 + (high - 0xD800) * 0x400 + (low - 0xDC00)) :: joinSurrogates rest
    else high :: joinSurrogates (low :: rest)
  | units => units

/-- Code points as text, if each of them is a character. -/
def textOfUnits? (units : List Nat) : Option String :=
  (units.mapM fun (n : Nat) => if h : n.isValidChar then some (Char.ofNatAux n h) else none).map
    String.ofList

/-- Text, or what cannot be text because a surrogate stands alone. -/
def valueOfUnits (units : List Nat) : Value :=
  match textOfUnits? units with
  | some s => .text s
  | none => .garbled units

/-- A key; a lone surrogate in it becomes the replacement character. -/
def keyOfUnits (units : List Nat) : String :=
  String.ofList (units.map fun n => if h : n.isValidChar then Char.ofNatAux n h else '\uFFFD')

/-- Reads the rest of a string whose opening quote heads `opening`. -/
def readString (opening rest : List Char) : Except Fault (List Nat × List Char) :=
  (readUnits opening rest).map fun (units, left) => (joinSurrogates units, left)

/-- A fraction is a point and at least one digit; anything else is left unread. -/
def readFraction (cs : List Char) : Option (List Char) × List Char :=
  match cs with
  | '.' :: more =>
    let (ds, rest) := Numeral.digits more
    if ds = [] then (none, cs) else (some ds, rest)
  | _ => (none, cs)

/-- An exponent has at least one digit; anything else is left unread. -/
def readExponent (cs : List Char) : Option Int × List Char :=
  match cs with
  | e :: more =>
    if e = 'e' ∨ e = 'E' then
      let (negative, body) := Numeral.sign more
      let (ds, rest) := Numeral.digits body
      if ds = [] then (none, cs) else (some (Numeral.signedValue negative ds), rest)
    else (none, cs)
  | [] => (none, cs)

/-- The whole part of a number: a zero stands alone. -/
def readWhole : List Char → List Char × List Char
  | '0' :: rest => (['0'], rest)
  | cs => Numeral.digits cs

/-- A number; with a fraction or an exponent it is a double, without both an integer. -/
def readNumber (cs : List Char) : Except Fault (Value × List Char) :=
  let (negative, body) := match cs with
    | '-' :: more => (true, more)
    | _ => (false, cs)
  let (whole, rest) := readWhole body
  if whole = [] then .error (.broken .value cs)
  else
    let (fraction, rest) := readFraction rest
    let (exponent, rest) := readExponent rest
    match fraction, exponent with
    | none, none =>
      if digitLimit < whole.length then .error (.tooLong whole.length)
      else .ok (.int (Numeral.signedValue negative whole), rest)
    | _, _ =>
      let ds := fraction.getD []
      .ok (.float (Numeral.nearest negative (Nat.ofDigitChars 10 (whole ++ ds) 0)
        (exponent.getD 0 - ds.length)), rest)

/-- Words and numbers, the values without parts. -/
def readScalar : List Char → Except Fault (Value × List Char)
  | 'n' :: 'u' :: 'l' :: 'l' :: rest => .ok (.null, rest)
  | 't' :: 'r' :: 'u' :: 'e' :: rest => .ok (.bool true, rest)
  | 'f' :: 'a' :: 'l' :: 's' :: 'e' :: rest => .ok (.bool false, rest)
  | 'N' :: 'a' :: 'N' :: rest => .ok (.float (0.0 / 0.0), rest)
  | 'I' :: 'n' :: 'f' :: 'i' :: 'n' :: 'i' :: 't' :: 'y' :: rest => .ok (.float (1.0 / 0.0), rest)
  | '-' :: 'I' :: 'n' :: 'f' :: 'i' :: 'n' :: 'i' :: 't' :: 'y' :: rest =>
    .ok (.float (-1.0 / 0.0), rest)
  | '"' :: rest =>
    (readString ('"' :: rest) rest).map fun (units, left) => (valueOfUnits units, left)
  | cs => readNumber cs

/-- The items of an array after the opening bracket or a comma. -/
def readItems (readValue : List Char → Except Fault (Value × List Char)) :
    Nat → List Char → Except Fault (List Value × List Char)
  | 0, cs => .error (.broken .value cs)
  | fuel + 1, cs => do
    let (v, rest) ← readValue cs
    match skipSpace rest with
    | ']' :: rest => return ([v], rest)
    | ',' :: rest =>
      let (vs, rest) ← readItems readValue fuel (skipSpace rest)
      return (v :: vs, rest)
    | rest => .error (.broken .comma rest)

/-- The entries of an object after the opening brace or a comma, added to those before them. -/
def readEntries (readValue : List Char → Except Fault (Value × List Char)) :
    Nat → List (String × Value) → List Char → Except Fault (List (String × Value) × List Char)
  | 0, _, cs => .error (.broken .name cs)
  | fuel + 1, before, cs =>
    match cs with
    | '"' :: afterQuote => do
      let (units, rest) ← readString cs afterQuote
      match skipSpace rest with
      | ':' :: rest =>
        let (v, rest) ← readValue (skipSpace rest)
        let fields := putField (keyOfUnits units) v before
        match skipSpace rest with
        | '}' :: rest => return (fields, rest)
        | ',' :: rest => readEntries readValue fuel fields (skipSpace rest)
        | rest => .error (.broken .comma rest)
      | rest => .error (.broken .colon rest)
    | _ => .error (.broken .name cs)

/-- A value with at most `depth` levels of arrays and objects. -/
def readValue : Nat → List Char → Except Fault (Value × List Char)
  | 0, cs =>
    match cs with
    | '[' :: _ => .error (.tooDeep true)
    | '{' :: _ => .error (.tooDeep false)
    | _ => readScalar cs
  | depth + 1, cs =>
    match cs with
    | '[' :: rest =>
      match skipSpace rest with
      | ']' :: rest => .ok (.list [], rest)
      | rest => (readItems (readValue depth) (rest.length + 1) rest).map
          fun (items, left) => (.list items, left)
    | '{' :: rest =>
      match skipSpace rest with
      | '}' :: rest => .ok (.object [], rest)
      | rest => (readEntries (readValue depth) (rest.length + 1) [] rest).map
          fun (fields, left) => (.object fields, left)
    | _ => readScalar cs

/-- The one value that a text holds. -/
def read (cs : List Char) : Except Fault Value :=
  if cs.head? = some '\uFEFF' then .error (.broken .byteOrderMark cs)
  else do
    let (v, rest) ← readValue depthLimit (skipSpace cs)
    match skipSpace rest with
    | [] => return v
    | rest => .error (.broken .extra rest)

/-- Line, column and offset of the place where `rest` begins in a text. -/
def placeOf (text rest : List Char) : Nat × Nat × Nat :=
  let before := text.take (text.length - rest.length)
  (before.count '\n' + 1, (before.reverse.takeWhile (· ≠ '\n')).length + 1, before.length)

end FleetMap.Json
