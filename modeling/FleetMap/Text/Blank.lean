/-!
White space. Two sets are in use: `isWhite`, the Unicode property White_Space, around numbers, and
`isBlank`, which also has the four information separators, around typed text and palette entries.
-/

set_option autoImplicit false

namespace FleetMap

/-- The characters with the property White_Space. -/
def isWhite (c : Char) : Bool :=
  let n := c.toNat
  (9 ≤ n && n ≤ 13) || n == 32 || n == 0x85 || n == 0xA0 || n == 0x1680 ||
    (0x2000 ≤ n && n ≤ 0x200A) || n == 0x2028 || n == 0x2029 || n == 0x202F ||
    n == 0x205F || n == 0x3000

/-- White space or an information separator. -/
def isBlank (c : Char) : Bool := isWhite c || (0x1C ≤ c.toNat && c.toNat ≤ 0x1F)

/-- What is left between the first and the last character that do not satisfy `p`. -/
def trimChars (p : Char → Bool) (cs : List Char) : List Char :=
  ((cs.dropWhile p).reverse.dropWhile p).reverse

/-- A text without the blanks at its ends. -/
def trimBlank (s : String) : String := String.ofList (trimChars isBlank s.toList)

/-- A text of blanks alone, the empty text included. -/
def IsBlankText (s : String) : Prop := ∀ c ∈ s.toList, isBlank c = true

instance (s : String) : Decidable (IsBlankText s) :=
  List.decidableBAll (fun c => isBlank c = true) s.toList

end FleetMap
