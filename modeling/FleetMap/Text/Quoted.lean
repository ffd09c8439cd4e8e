import FleetMap.Text.Printable

/-!
Quoted text in messages. The quote mark is the apostrophe, unless the text has an apostrophe and no
double quote. Characters that are not printable are written by number, with two, four or eight
hexadecimal digits.
-/

set_option autoImplicit false

namespace FleetMap

/-- Lower-case hexadecimal digits, padded with zeros to a width. -/
def hexDigits (width n : Nat) : List Char :=
  let digits := Nat.toDigits 16 n
  List.replicate (width - digits.length) '0' ++ digits

/-- A code point by number, in the shortest of the three forms that holds it. -/
def numberedEscape (n : Nat) : List Char :=
  if n < 0x100 then '\\' :: 'x' :: hexDigits 2 n
  else if n < 0x10000 then '\\' :: 'u' :: hexDigits 4 n
  else '\\' :: 'U' :: hexDigits 8 n

/-- One character inside quotes. -/
def quotedChar (quote c : Char) : List Char :=
  if c = quote ∨ c = '\\' then ['\\', c]
  else if c = '\n' then ['\\', 'n']
  else if c = '\r' then ['\\', 'r']
  else if c = '\t' then ['\\', 't']
  else if isPrintable c then [c]
  else numberedEscape c.toNat

/-- The mark that needs the fewest escapes; the apostrophe where both need some or none. -/
def quoteMark (cs : List Char) : Char :=
  if '\'' ∈ cs ∧ '"' ∉ cs then '"' else '\''

def quoted (s : String) : String :=
  let mark := quoteMark s.toList
  String.ofList (mark :: (s.toList.flatMap (quotedChar mark) ++ [mark]))

/-- Quotes a run of code points that may hold lone surrogates, which are written by number. -/
def quotedUnits (units : List Nat) : String :=
  let chars := units.filterMap fun n => if h : n.isValidChar then some (Char.ofNatAux n h) else none
  let mark := quoteMark chars
  let body := units.flatMap fun n =>
    if h : n.isValidChar then quotedChar mark (Char.ofNatAux n h) else numberedEscape n
  String.ofList (mark :: (body ++ [mark]))

end FleetMap
