import FleetMap.Number.Shortest

/-!
How numbers are written. The digits come from `Significant`; a `Layout` says where positional
notation ends and what an exponent looks like. Three layouts are in use: the one for people and
recordings, the one of saved settings, and the six-digit one of style sheets.
-/

set_option autoImplicit false

namespace FleetMap

/-- An integer in decimal digits. -/
def decimalOfInt : Int → String
  | .ofNat n => String.ofList (Nat.toDigits 10 n)
  | .negSucc n => String.ofList ('-' :: Nat.toDigits 10 (n + 1))

/-- Longest integer, in digits, that is read or written. -/
def digitLimit : Nat := 4300

/-- An integer in decimal digits, unless these are too many. -/
def writeInt? (n : Int) : Option String :=
  if (Nat.toDigits 10 n.natAbs).length ≤ digitLimit then some (decimalOfInt n) else none

/-- The decisions of one notation for finite numbers. -/
structure Layout where
  /-- The least exponent that is written positionally. -/
  least : Int
  /-- The first exponent above the positional ones. -/
  bound : Int
  /-- Whether a whole number in positional notation ends in `.0`. -/
  markWhole : Bool
  /-- Least number of digits of a written exponent. -/
  exponentWidth : Nat

namespace Layout

/-- Digits with the point after `whole + 1` of them. -/
def positional (l : Layout) (digits : List Char) (exponent : Int) : List Char :=
  if exponent < 0 then
    '0' :: '.' :: (List.replicate (-exponent - 1).toNat '0' ++ digits)
  else
    let before := exponent.toNat + 1
    if digits.length ≤ before then
      digits ++ List.replicate (before - digits.length) '0' ++
        (if l.markWhole then ['.', '0'] else [])
    else digits.take before ++ '.' :: digits.drop before

/-- One digit before the point, then the signed exponent. -/
def scientific (l : Layout) (digits : List Char) (exponent : Int) : List Char :=
  let mantissa := match digits with
    | [] => []
    | [d] => [d]
    | d :: more => d :: '.' :: more
  let size := Nat.toDigits 10 exponent.natAbs
  mantissa ++ 'e' :: (if exponent < 0 then '-' else '+') ::
    (List.replicate (l.exponentWidth - size.length) '0' ++ size)

def write (l : Layout) (negative : Bool) (s : Significant) : List Char :=
  let body :=
    if l.least ≤ s.exponent ∧ s.exponent < l.bound then l.positional s.digits s.exponent
    else l.scientific s.digits s.exponent
  if negative then '-' :: body else body

/-- Positional from `0.0001` to below `10 ^ 16`; exponents have two digits at least. -/
def plain : Layout := ⟨-4, 16, true, 2⟩

/-- Positional from `0.00001` to below `10 ^ 16`; exponents are not padded. -/
def saved : Layout := ⟨-5, 16, true, 1⟩

/-- Positional from `0.0001` to below a million, whole numbers without a point. -/
def general : Layout := ⟨-4, 6, false, 2⟩

end Layout

/-- How a notation spells the doubles that are no numbers. -/
structure Unbounded where
  nan : String
  infinity : String
  negativeInfinity : String

/-- Spelling for people. -/
def Unbounded.spoken : Unbounded := ⟨"nan", "inf", "-inf"⟩

/-- Spelling in recordings. -/
def Unbounded.stored : Unbounded := ⟨"NaN", "Infinity", "-Infinity"⟩

/-- A double with the given digits and layout. -/
def writeFloat (digits : BinaryFloat → Significant) (l : Layout) (u : Unbounded) (x : Float) :
    String :=
  match BinaryFloat.ofFloat? x with
  | some d => String.ofList (l.write d.negative (digits d))
  | none => if x.isNaN then u.nan else if x < 0 then u.negativeInfinity else u.infinity

/-- The shortest text that reads back as the double. -/
def plainFloat : Float → String := writeFloat Significant.shortest .plain .spoken

/-- A double in a recording. -/
def storedFloat : Float → String := writeFloat Significant.shortest .plain .stored

/-- A double in saved settings. -/
def savedFloat : Float → String := writeFloat Significant.shortest .saved .stored

/-- A double in a style sheet: six significant digits. -/
def styleFloat : Float → String := writeFloat (Significant.rounded 6) .general .spoken

end FleetMap
