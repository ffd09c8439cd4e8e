import FleetMap.Number.BinaryFloat

/-!
The digits of a double. `shortest` gives the fewest significant digits that read back as the same
double, the nearest of those to it; `rounded` gives a fixed number of significant digits, a half
going to the even neighbour. Both work on exact natural numbers.
-/

set_option autoImplicit false

namespace FleetMap

/-- Significant digits `d₁ d₂ … dₙ` standing for `d₁.d₂…dₙ * 10 ^ exponent`. -/
structure Significant where
  digits : List Char
  exponent : Int
  deriving DecidableEq, Repr

/-- A positive rational number as a quotient. -/
structure Ratio where
  numerator : Nat
  denominator : Nat

namespace Ratio

/-- `n * 2 ^ e` as a quotient. -/
def ofBinary (n : Nat) (e : Int) : Ratio := ⟨n * Nat.pow 2 e.toNat, Nat.pow 2 (-e).toNat⟩

/-- `n * 10 ^ e` as a quotient. -/
def ofDecimal (n : Nat) (e : Int) : Ratio := ⟨n * Nat.pow 10 e.toNat, Nat.pow 10 (-e).toNat⟩

def le (a b : Ratio) : Bool := a.numerator * b.denominator ≤ b.numerator * a.denominator

def lt (a b : Ratio) : Bool := a.numerator * b.denominator < b.numerator * a.denominator

/-- The power of ten of the leading digit of a positive number. -/
def magnitude (r : Ratio) : Int :=
  if r.denominator ≤ r.numerator then
    ((Nat.toDigits 10 (r.numerator / r.denominator)).length : Int) - 1
  else
    let places := (Nat.toDigits 10 (r.denominator / r.numerator)).length
    if r.denominator ≤ r.numerator * Nat.pow 10 (places - 1) then -((places : Int) - 1)
    else -(places : Int)

/-- The number measured in units of `10 ^ grid`, as a whole part and twice the remainder against
the denominator: less, equal or greater than half a unit. -/
def onGrid (r : Ratio) (grid : Int) : Nat × Ordering :=
  let top := r.numerator * Nat.pow 10 (-grid).toNat
  let bottom := r.denominator * Nat.pow 10 grid.toNat
  (top / bottom, compare (2 * (top % bottom)) bottom)

/-- The nearest whole number of units of `10 ^ grid`, a half going to the even one. -/
def nearest (r : Ratio) (grid : Int) : Nat :=
  match r.onGrid grid with
  | (below, .lt) => below
  | (below, .gt) => below + 1
  | (below, .eq) => below + below % 2

end Ratio

/-- The rational numbers that are read as one double: an interval whose ends belong to it exactly
when the significand is even. -/
structure Neighbourhood where
  value : Ratio
  low : Ratio
  high : Ratio
  closed : Bool

namespace Neighbourhood

/-- Below a power of two the doubles lie twice as dense. -/
def ofFloat (d : BinaryFloat) : Neighbourhood where
  value := .ofBinary d.significand d.exponent
  low :=
    if d.significand = Nat.pow 2 52 ∧ -1074 < d.exponent then
      .ofBinary (4 * d.significand - 1) (d.exponent - 2)
    else .ofBinary (2 * d.significand - 1) (d.exponent - 1)
  high := .ofBinary (2 * d.significand + 1) (d.exponent - 1)
  closed := d.significand % 2 == 0

def contains (s : Neighbourhood) (r : Ratio) : Bool :=
  if s.closed then s.low.le r && r.le s.high else s.low.lt r && r.lt s.high

/-- The multiple of `10 ^ grid` nearest to the value among its two neighbours that read back. -/
def onGrid? (s : Neighbourhood) (grid : Int) : Option Nat :=
  let near := s.value.nearest grid
  let below := (s.value.onGrid grid).1
  let far := if near = below then below + 1 else below
  if s.contains (.ofDecimal near grid) then some near
  else if s.contains (.ofDecimal far grid) then some far
  else none

end Neighbourhood

namespace Significant

/-- Digits of a multiple of `10 ^ grid`; zeros at the end say nothing and are left out. -/
def ofMultiple (n : Nat) (grid : Int) : Significant :=
  let digits := Nat.toDigits 10 n
  { digits := (digits.reverse.dropWhile (· == '0')).reverse
    exponent := grid + (digits.length : Int) - 1 }

def zero : Significant := ⟨['0'], 0⟩

/-- Tries coarser grids before finer ones; `count` digits are tried when `left` grids remain. -/
def search (s : Neighbourhood) (magnitude : Int) : Nat → Nat → Significant
  | 0, count => .ofMultiple (s.value.nearest (magnitude - count)) (magnitude - count)
  | left + 1, count =>
    match s.onGrid? (magnitude - count) with
    | some n => .ofMultiple n (magnitude - count)
    | none => search s magnitude left (count + 1)

/-- The fewest digits that read back as the double, of those the nearest to it. -/
def shortest (d : BinaryFloat) : Significant :=
  if d.significand = 0 then zero
  else
    let s := Neighbourhood.ofFloat d
    search s s.value.magnitude 16 0

/-- `places` significant digits, rounded once from the exact value. -/
def rounded (places : Nat) (d : BinaryFloat) : Significant :=
  if d.significand = 0 then zero
  else
    let value := Ratio.ofBinary d.significand d.exponent
    let grid := value.magnitude - (places - 1 : Nat)
    .ofMultiple (value.nearest grid) grid

end Significant

end FleetMap
