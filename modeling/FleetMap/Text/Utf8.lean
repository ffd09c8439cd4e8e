/-!
UTF-8. `decode` reads bytes into characters and names the first fault by its place, its length and
its reason; overlong forms, surrogates and code points beyond the last plane are refused at the
first byte that rules them out.
-/

set_option autoImplicit false

namespace FleetMap.Utf8

inductive Reason where
  | start
  | continuation
  | cut
  deriving DecidableEq, Repr

def Reason.message : Reason → String
  | .start => "invalid start byte"
  | .continuation => "invalid continuation byte"
  | .cut => "unexpected end of data"

/-- The bytes at fault: where they begin, the first of them, how many there are. -/
structure Fault where
  position : Nat
  byte : UInt8
  length : Nat
  reason : Reason
  deriving DecidableEq, Repr

/-- A character of which the first `seen` bytes are read. -/
structure Open where
  lead : UInt8
  seen : Nat
  /-- Bytes still owed, at least one. -/
  owed : Nat
  /-- Least and greatest byte that may come next. -/
  least : UInt8
  most : UInt8
  /-- The bits read so far. -/
  bits : Nat

/-- What a first byte announces; `none` if no character starts with it. -/
def Open.ofLead? (b : UInt8) : Option Open :=
  let opened (owed : Nat) (least most : UInt8) (bits : Nat) : Open :=
    ⟨b, 1, owed, least, most, bits⟩
  if 0xC2 ≤ b ∧ b ≤ 0xDF then some (opened 1 0x80 0xBF (b.toNat - 0xC0))
  else if b = 0xE0 then some (opened 2 0xA0 0xBF 0)
  else if b = 0xED then some (opened 2 0x80 0x9F 0xD)
  else if 0xE1 ≤ b ∧ b ≤ 0xEF then some (opened 2 0x80 0xBF (b.toNat - 0xE0))
  else if b = 0xF0 then some (opened 3 0x90 0xBF 0)
  else if b = 0xF4 then some (opened 3 0x80 0x8F 4)
  else if 0xF1 ≤ b ∧ b ≤ 0xF3 then some (opened 3 0x80 0xBF (b.toNat - 0xF0))
  else none

/-- `position` is where the open character, or else the next byte, begins. -/
def decodeFrom (position : Nat) : Option Open → List UInt8 → Except Fault (List Char)
  | none, [] => .ok []
  | some o, [] => .error ⟨position, o.lead, o.seen, .cut⟩
  | none, b :: rest =>
    if b < 0x80 then (decodeFrom (position + 1) none rest).map (Char.ofNat b.toNat :: ·)
    else
      match Open.ofLead? b with
      | some o => decodeFrom position (some o) rest
      | none => .error ⟨position, b, 1, .start⟩
  | some o, b :: rest =>
    if o.least ≤ b ∧ b ≤ o.most then
      let bits := o.bits * 64 + (b.toNat - 0x80)
      if o.owed = 1 then
        (decodeFrom (position + o.seen + 1) none rest).map (Char.ofNat bits :: ·)
      else decodeFrom position (some ⟨o.lead, o.seen + 1, o.owed - 1, 0x80, 0xBF, bits⟩) rest
    else .error ⟨position, o.lead, o.seen, .continuation⟩

def decode (bytes : List UInt8) : Except Fault (List Char) := decodeFrom 0 none bytes

def encode (cs : List Char) : List UInt8 := cs.flatMap String.utf8EncodeChar

end FleetMap.Utf8
