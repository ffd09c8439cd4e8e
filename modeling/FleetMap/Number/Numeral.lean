import FleetMap.Text.Blank
import FleetMap.Text.Digit
import FleetMap.Text.Quoted
import FleetMap.Number.Layout

/-!
Numbers read from text. A numeral may have a sign, digits grouped by single underscores, a fraction
and an exponent; `inf`, `infinity` and `nan` are read in any case. Two dialects share the grammar:
typed text allows the digits of every script, submitted text the ASCII digits alone.
-/

set_option autoImplicit false

namespace FleetMap

namespace Numeral

/-- A leading sign; true for minus. -/
def sign : List Char → Bool × List Char
  | '-' :: rest => (true, rest)
  | '+' :: rest => (false, rest)
  | cs => (false, cs)

/-- Digits without their grouping: a `_` is allowed between two digits only. -/
def ungrouped? : List Char → Option (List Char)
  | [] => none
  | [d] => if d.isDigit then some [d] else none
  | d :: '_' :: rest => if d.isDigit then (ungrouped? rest).map (d :: ·) else none
  | d :: rest => if d.isDigit then (ungrouped? rest).map (d :: ·) else none

/-- Removes underscores that stand between two digits; any other one spoils the text. -/
def withoutGrouping? : Option Char → List Char → Option (List Char)
  | _, [] => some []
  | previous, '_' :: rest =>
    if (previous.any Char.isDigit) && rest.head?.any Char.isDigit then withoutGrouping? none rest
    else none
  | _, c :: rest => (withoutGrouping? (some c) rest).map (c :: ·)

/-- The digits at the start of a text and what follows them. -/
def digits (cs : List Char) : List Char × List Char :=
  (cs.takeWhile Char.isDigit, cs.dropWhile Char.isDigit)

/-- The double nearest to `± coefficient * 10 ^ exponent`. -/
def nearest (negative : Bool) (coefficient : Nat) (exponent : Int) : Float :=
  let x := Float.ofScientific coefficient (decide (exponent < 0)) exponent.natAbs
  if negative then -x else x

/-- The signed value of a run of digits. -/
def signedValue (negative : Bool) (ds : List Char) : Int :=
  let n : Int := Nat.ofDigitChars 10 ds 0
  if negative then -n else n

/-- An exponent part up to the end of the text; no part counts as zero. -/
def exponent? : List Char → Option Int
  | [] => some 0
  | e :: rest =>
    if e = 'e' ∨ e = 'E' then
      let (negative, ds) := sign rest
      if ds ≠ [] ∧ ds.all Char.isDigit then some (signedValue negative ds) else none
    else none

/-- Digits with an optional point among or beside them, then an optional exponent. -/
def magnitude? (negative : Bool) (cs : List Char) : Option Float :=
  let (whole, rest) := digits cs
  let (fraction, rest) := match rest with
    | '.' :: more => digits more
    | _ => ([], rest)
  if whole = [] ∧ fraction = [] then none
  else
    (exponent? rest).map fun e =>
      nearest negative (Nat.ofDigitChars 10 (whole ++ fraction) 0) (e - fraction.length)

/-- A trimmed and ungrouped numeral as a double. -/
def float? (cs : List Char) : Option Float :=
  let (negative, body) := sign cs
  let word := String.ofList (body.map Char.toLower)
  let signed (x : Float) : Float := if negative then -x else x
  if word = "inf" ∨ word = "infinity" then some (signed (1.0 / 0.0))
  else if word = "nan" then some (0.0 / 0.0)
  else magnitude? negative body

/-- A numeral with ASCII digits, white space around it allowed. -/
def submittedFloat? (s : String) : Option Float :=
  (withoutGrouping? none (trimChars isWhite s.toList)).bind float?

/-- Why an integer could not be read. -/
inductive IntFault where
  | malformed
  | tooLong (digits : Nat)
  deriving DecidableEq, Repr

/-- An integer whose fraction, if there is one, is a point and zeros. -/
def submittedInt? (s : String) : Except IntFault Int :=
  let (negative, body) := sign (trimChars isWhite s.toList)
  let whole := body.takeWhile (· ≠ '.')
  let fraction := body.dropWhile (· ≠ '.')
  let zeros := match fraction with
    | [] => true
    | _ :: more => more ≠ [] && more.all (· == '0')
  match ungrouped? whole with
  | some ds =>
    if !zeros then .error .malformed
    else if digitLimit < ds.length then .error (.tooLong ds.length)
    else .ok (signedValue negative ds)
  | none => .error .malformed

/-- Typed text with every decimal digit as an ASCII one and without white space around it. -/
def typed (s : String) : List Char := trimChars isWhite (s.toList.map asciiDigit)

/-- A numeral with the digits of any script. -/
def typedFloat? (s : String) : Option Float := (withoutGrouping? none (typed s)).bind float?

/-- An integer with the digits of any script; its length is checked before what follows it. -/
def typedInt? (s : String) : Except IntFault Int :=
  let (negative, body) := sign (typed s)
  let inRun (c : Char) : Bool := c.isDigit || c == '_'
  match ungrouped? (body.takeWhile inRun) with
  | some ds =>
    if digitLimit < ds.length then .error (.tooLong ds.length)
    else if body.dropWhile inRun ≠ [] then .error .malformed
    else .ok (signedValue negative ds)
  | none => .error .malformed

end Numeral

end FleetMap
