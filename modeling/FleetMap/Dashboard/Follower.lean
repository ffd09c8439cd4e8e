/-!
A follower is an input that shows what the user last put in, until the value behind it changes; then
it shows that value.
-/

set_option autoImplicit false

namespace FleetMap

structure Follower (α : Type) where
  behind : α
  shown : α
  deriving DecidableEq, Repr

namespace Follower

variable {α : Type}

def ofValue (a : α) : Follower α := ⟨a, a⟩

/-- What the user puts in is shown. -/
def enter (f : Follower α) (a : α) : Follower α := { f with shown := a }

/-- The value behind the input is now `a`. -/
def follow [DecidableEq α] (f : Follower α) (a : α) : Follower α :=
  if f.behind = a then f else ofValue a

theorem behind_follow [DecidableEq α] (f : Follower α) (a : α) : (f.follow a).behind = a := by
  unfold follow ofValue
  split <;> simp_all

end Follower

end FleetMap
