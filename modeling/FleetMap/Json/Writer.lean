import FleetMap.Text.Quoted
import FleetMap.Value

/-!
Values into JSON text. A `Style` says how numbers are written, which characters are escaped and
whether parts stand on lines of their own. Recordings, saved settings and single lines each have a
style.
-/

set_option autoImplicit false

namespace FleetMap.Json

/-- The decisions of one JSON spelling. -/
structure Style where
  /-- Whether every character beyond printable ASCII is escaped. -/
  ascii : Bool
  /-- Whether each part stands on a line of its own, indented by two spaces a level. -/
  spread : Bool
  number : Float → String

namespace Style

/-- Spelling of recordings. -/
def recording : Style := ⟨true, true, storedFloat⟩

/-- Spelling of saved settings. -/
def settings : Style := ⟨false, true, savedFloat⟩

/-- Everything on one line, in ASCII. -/
def line : Style := ⟨true, false, storedFloat⟩

/-- The start of a new line at a level. -/
def lineBreak (s : Style) (level : Nat) : List Char :=
  if s.spread then '\n' :: List.replicate (2 * level) ' ' else []

end Style

/-- A code unit by number. -/
def unicodeEscape (n : Nat) : List Char := '\\' :: 'u' :: hexDigits 4 n

/-- A code point in UTF-16 units, each by number. -/
def utf16Escape (n : Nat) : List Char :=
  if n < 0x10000 then unicodeEscape n
  else
    let offset := n - 0x10000
    unicodeEscape (0xD800 + offset / 0x400) ++ unicodeEscape (0xDC00 + offset % 0x400)

/-- One character inside a string. -/
def writeChar (ascii : Bool) (c : Char) : List Char :=
  if c = '"' then ['\\', '"']
  else if c = '\\' then ['\\', '\\']
  else if c = '\n' then ['\\', 'n']
  else if c = '\r' then ['\\', 'r']
  else if c = '\t' then ['\\', 't']
  else if c = '\x0c' then ['\\', 'f']
  else if c = '\x08' then ['\\', 'b']
  else if c.toNat < 0x20 then unicodeEscape c.toNat
  else if ascii && 0x7E < c.toNat then utf16Escape c.toNat
  else [c]

def writeString (ascii : Bool) (s : String) : List Char :=
  '"' :: (s.toList.flatMap (writeChar ascii) ++ ['"'])

/-- A run of code points; those that are no characters are written by number. -/
def writeUnits (ascii : Bool) (units : List Nat) : List Char :=
  let one (n : Nat) : List Char :=
    if h : n.isValidChar then writeChar ascii (Char.ofNatAux n h) else unicodeEscape n
  '"' :: (units.flatMap one ++ ['"'])

mutual

/-- A value whose parts stand at the given level. -/
def write (s : Style) (level : Nat) : Value → List Char
  | .null => ['n', 'u', 'l', 'l']
  | .bool true => ['t', 'r', 'u', 'e']
  | .bool false => ['f', 'a', 'l', 's', 'e']
  | .int n => (decimalOfInt n).toList
  | .float x => (s.number x).toList
  | .text t => writeString s.ascii t
  | .garbled units => writeUnits s.ascii units
  | .list [] => ['[', ']']
  | .list (v :: rest) =>
    '[' :: (s.lineBreak level ++ write s (level + 1) v ++ writeItems s level rest ++
      s.lineBreak (level - 1) ++ [']'])
  | .object [] => ['{', '}']
  | .object ((key, v) :: rest) =>
    '{' :: (s.lineBreak level ++ writeString s.ascii key ++ [':', ' '] ++ write s (level + 1) v ++
      writeEntries s level rest ++ s.lineBreak (level - 1) ++ ['}'])

/-- The items after the first. -/
def writeItems (s : Style) (level : Nat) : List Value → List Char
  | [] => []
  | v :: rest => ',' :: (s.lineBreak level ++ write s (level + 1) v ++ writeItems s level rest)

/-- The entries after the first. -/
def writeEntries (s : Style) (level : Nat) : List (String × Value) → List Char
  | [] => []
  | (key, v) :: rest =>
    ',' :: (s.lineBreak level ++ writeString s.ascii key ++ [':', ' '] ++ write s (level + 1) v ++
      writeEntries s level rest)

end

/-- The text of a value. -/
def text (s : Style) (v : Value) : List Char := write s 1 v

end FleetMap.Json
