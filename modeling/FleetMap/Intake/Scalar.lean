import FleetMap.Intake.Fault
import FleetMap.Number.Numeral

/-!
Single values out of submitted data. Each reader accepts its own sort and the neighbouring sorts
that stand for one of its values: numbers and words for truth values, numerals for numbers.
-/

set_option autoImplicit false

namespace FleetMap.Intake

open Checked (fault)

def text : Value → Checked String
  | .text s => .accepted s
  | .garbled units => fault .badUnicode (.garbled units)
  | v => fault .notText v

def falseWords : List String := ["0", "off", "f", "false", "n", "no"]

def trueWords : List String := ["1", "on", "t", "true", "y", "yes"]

/-- A word for a truth value, in any case. -/
def boolOfWord? (s : String) : Option Bool :=
  let word := s.map Char.toLower
  if word ∈ falseWords then some false else if word ∈ trueWords then some true else none

/-- Integers that fit into a signed 64-bit word. -/
def fitsWord (n : Int) : Bool := -(Nat.pow 2 63 : Int) ≤ n && n < Nat.pow 2 63

/-- A whole double strictly between the bounds of a signed 64-bit word. -/
def wordOfFloat? (x : Float) : Option Int :=
  (wholeOfFloat? x).filter fun n => -(Nat.pow 2 63 : Int) < n && n < Nat.pow 2 63

def boolOfInt? (n : Int) : Option Bool :=
  if n = 0 then some false else if n = 1 then some true else none

def bool (v : Value) : Checked Bool :=
  let clear (b : Option Bool) : Checked Bool :=
    match b with
    | some b => .accepted b
    | none => fault .unclearBool v
  match v with
  | .bool b => .accepted b
  | .int n => if fitsWord n then clear (boolOfInt? n) else fault .notBool v
  | .float x =>
    match wordOfFloat? x with
    | some n => clear (boolOfInt? n)
    | none => fault .notBool v
  | .text s => clear (boolOfWord? s)
  | .garbled _ => fault .badUnicode v
  | _ => fault .notBool v

/-- A double, finite or not. -/
def float (v : Value) : Checked Float :=
  match v with
  | .float x => .accepted x
  | .int n =>
    let x := Float.ofInt n
    if x.isFinite then .accepted x else fault .notFloat v
  | .bool b => .accepted (if b then 1.0 else 0.0)
  | .text s =>
    match Numeral.submittedFloat? s with
    | some x => .accepted x
    | none => fault .unclearFloat v
  | .garbled _ => fault .badUnicode v
  | _ => fault .notFloat v

def finite (v : Value) : Checked Float :=
  (float v).andThen fun x => if x.isFinite then .accepted x else fault .notFinite v

/-- A finite number above zero. -/
def positive (v : Value) : Checked Float :=
  (finite v).andThen fun x => if 0 < x then .accepted x else fault .notPositive v

def int (v : Value) : Checked Int :=
  match v with
  | .int n => .accepted n
  | .bool b => .accepted (if b then 1 else 0)
  | .float x =>
    if !x.isFinite then fault .notFinite v
    else if (wholeOfFloat? x).isNone then fault .fractionalInt v
    else
      match wordOfFloat? x with
      | some n => .accepted n
      | none => fault .hugeInt v
  | .text s =>
    match Numeral.submittedInt? s with
    | .ok n => .accepted n
    | .error .malformed => fault .unclearInt v
    | .error (.tooLong _) => fault .hugeInt v
  | .garbled _ => fault .badUnicode v
  | _ => fault .notInt v

/-- An integer that is not below a bound. -/
def atLeast (bound : Nat) (v : Value) : Checked Nat :=
  (int v).andThen fun n =>
    if (bound : Int) ≤ n then .accepted n.toNat else fault (.below bound) v

def list {α : Type} (read : Value → Checked α) : Value → Checked (List α)
  | .list items => Checked.items read 0 items
  | v => fault .notList v

/-- Null for a value that is not known. -/
def optional {α : Type} (read : Value → Checked α) : Value → Checked (Option α)
  | .null => .accepted none
  | v => (read v).map some

end FleetMap.Intake
