import FleetMap.Number.Layout
import FleetMap.Text.Quoted

/-!
Raw data as it arrives: from recordings, settings files and input fields, before anything is known
of its shape. `Value.inspect?` writes a value the way messages show it, and `Value.same` says when a
new value changes nothing.
-/

set_option autoImplicit false

namespace FleetMap

/-- Unchecked data. Text with lone surrogates is no text and is kept as its code points. -/
inductive Value where
  | null
  | bool (b : Bool)
  | int (n : Int)
  | float (x : Float)
  | text (s : String)
  | garbled (units : List Nat)
  | list (items : List Value)
  | object (fields : List (String × Value))
  deriving Inhabited

/-- The seven sorts of raw data. -/
inductive Kind where
  | null
  | bool
  | int
  | float
  | text
  | list
  | object
  deriving DecidableEq, Repr

/-- The word for a sort of data in messages. -/
def Kind.name : Kind → String
  | .null => "NoneType"
  | .bool => "bool"
  | .int => "int"
  | .float => "float"
  | .text => "str"
  | .list => "list"
  | .object => "dict"

/-- Two doubles that no reader can tell apart by value; unlike `==`, it holds of every NaN. -/
def sameFloat (x y : Float) : Bool := x == y || (x.isNaN && y.isNaN)

/-- The first entry of a key. -/
def lookupField {α : Type} (key : String) : List (String × α) → Option α
  | [] => none
  | entry :: rest => if entry.1 = key then some entry.2 else lookupField key rest

/-- Writes an entry: a known key keeps its place, a new one goes to the end. -/
def putField {α : Type} (key : String) (value : α) : List (String × α) → List (String × α)
  | [] => [(key, value)]
  | entry :: rest =>
    if entry.1 = key then (key, value) :: rest else entry :: putField key value rest

theorem mem_of_lookupField {α : Type} {key : String} {value : α} {fields : List (String × α)}
    (found : lookupField key fields = some value) : (key, value) ∈ fields := by
  induction fields with
  | nil => exact nomatch found
  | cons entry rest ih =>
    unfold lookupField at found
    split at found
    · rename_i same
      obtain rfl := Option.some.inj found
      rw [← same]
      exact List.mem_cons_self
    · exact List.mem_cons_of_mem _ (ih found)

theorem lookupField_putField_self {α : Type} (key : String) (value : α)
    (fields : List (String × α)) : lookupField key (putField key value fields) = some value := by
  induction fields with
  | nil => simp [lookupField, putField]
  | cons entry rest ih =>
    unfold putField
    split
    next => simp [lookupField]
    next different => simp [lookupField, different, ih]

theorem lookupField_putField_of_ne {α : Type} {key other : String} (different : other ≠ key)
    (value : α) (fields : List (String × α)) :
    lookupField other (putField key value fields) = lookupField other fields := by
  induction fields with
  | nil => simp [lookupField, putField, different.symm]
  | cons entry rest ih =>
    unfold putField
    split
    next same => simp [lookupField, same, different.symm]
    next => simp only [lookupField, ih]

theorem lookupField_filter_ne {α : Type} (key : String) (fields : List (String × α)) :
    lookupField key (fields.filter (·.1 != key)) = none := by
  induction fields with
  | nil => rfl
  | cons entry rest ih =>
    by_cases same : entry.1 = key <;> simp [same, lookupField, ih]

theorem lookupField_filter_of_ne {α : Type} {key other : String} (different : other ≠ key)
    (fields : List (String × α)) :
    lookupField other (fields.filter (·.1 != key)) = lookupField other fields := by
  induction fields with
  | nil => rfl
  | cons entry rest ih =>
    by_cases same : entry.1 = key
    · simp [same, lookupField, ih, different.symm]
    · simp only [List.filter_cons, bne_iff_ne, ne_eq, same, not_false_eq_true, if_true,
        lookupField, ih]

namespace Value

def kind : Value → Kind
  | null => .null
  | bool _ => .bool
  | int _ => .int
  | float _ => .float
  | text _ => .text
  | garbled _ => .text
  | list _ => .list
  | object _ => .object

mutual

/-- A value as messages show it: text is quoted, lists and objects show their parts. There is no
such text if an integer in it is too long to be written. -/
def inspect? : Value → Option String
  | null => some "None"
  | bool b => some (if b then "True" else "False")
  | int n => writeInt? n
  | float x => some (plainFloat x)
  | text s => some (quoted s)
  | garbled units => some (quotedUnits units)
  | list items => (inspectItems? items).map fun parts => "[" ++ ", ".intercalate parts ++ "]"
  | object fields =>
    (inspectFields? fields).map fun parts => "\x7b" ++ ", ".intercalate parts ++ "\x7d"

def inspectItems? : List Value → Option (List String)
  | [] => some []
  | v :: rest => do
    let first ← inspect? v
    let others ← inspectItems? rest
    return first :: others

def inspectFields? : List (String × Value) → Option (List String)
  | [] => some []
  | (key, v) :: rest => do
    let first ← inspect? v
    let others ← inspectFields? rest
    return (quoted key ++ ": " ++ first) :: others

end

mutual

/-- How deep the lists and objects of a value are nested. -/
def nesting : Value → Nat
  | list items => nestingItems items + 1
  | object fields => nestingFields fields + 1
  | _ => 0

def nestingItems : List Value → Nat
  | [] => 0
  | v :: rest => max (nesting v) (nestingItems rest)

def nestingFields : List (String × Value) → Nat
  | [] => 0
  | (_, v) :: rest => max (nesting v) (nestingFields rest)

end

/-- A value as plain text: as `inspect?` shows it, but text stands for itself. -/
def plain? : Value → Option String
  | text s => some s
  | v => v.inspect?

/-- A value as a report shows it, which does without the text if there is none. -/
def reported (v : Value) : String :=
  v.inspect?.getD ("<unprintable " ++ v.kind.name ++ " object>")

/-- Null, zero, false and whatever is empty count as nothing given. -/
def isVoid : Value → Bool
  | null => true
  | bool b => !b
  | int n => n == 0
  | float x => x == 0
  | text s => s.isEmpty
  | garbled units => units.isEmpty
  | list items => items.isEmpty
  | object fields => fields.isEmpty

mutual

/-- Same sort and equal, part by part; objects are compared key by key in any order. -/
def same : Value → Value → Bool
  | null, null => true
  | bool a, bool b => a == b
  | int a, int b => a == b
  | float a, float b => sameFloat a b
  | text a, text b => a == b
  | garbled a, garbled b => a == b
  | list a, list b => sameItems a b
  | object a, object b => a.length == b.length && sameFields a b
  | _, _ => false

def sameItems : List Value → List Value → Bool
  | [], [] => true
  | a :: as, b :: bs => same a b && sameItems as bs
  | _, _ => false

/-- Every entry on the left has a counterpart on the right. -/
def sameFields : List (String × Value) → List (String × Value) → Bool
  | [], _ => true
  | (key, a) :: rest, fields =>
    (match lookupField key fields with
      | some b => same a b
      | none => false) && sameFields rest fields

end

end Value

end FleetMap
