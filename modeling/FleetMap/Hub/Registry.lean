import FleetMap.Hub.Listener
import FleetMap.Intake.Payload

/-!
The registry holds the current devices and the observers in the order in which they registered. No
observer that can be told apart is listed twice.
-/

set_option autoImplicit false

namespace FleetMap

structure Registry where
  devices : List Device
  observers : List Listener

/-- What comes of a patch to one device. -/
inductive Patched where
  | unmatched
  | rejected (r : Rejection)
  | stored (devices : List Device)

namespace Registry

def empty : Registry := ⟨[], []⟩

def isRegistered (r : Registry) (l : Listener) : Bool := r.observers.any fun o => o.identical l

/-- Adds an observer at the end, unless it is registered. -/
def register (r : Registry) (l : Listener) : Registry :=
  if r.isRegistered l then r else { r with observers := r.observers ++ [l] }

theorem isRegistered_register (r : Registry) {l : Listener} (itself : l.identical l = true) :
    (r.register l).isRegistered l = true := by
  unfold register
  split
  next held => exact held
  next => simp [isRegistered, itself]

@[simp] theorem devices_register (r : Registry) (l : Listener) :
    (r.register l).devices = r.devices := by
  unfold register
  split
  · rfl
  · rfl

/-- Removes an observer, if it is registered. -/
def remove (r : Registry) (l : Listener) : Registry :=
  { r with observers := r.observers.eraseP fun o => o.identical l }

/-- One change to the entries of a device: an object is merged into an object, anything else
replaces what was there. -/
def mergeChange (entries : List (String × Value)) (key : String) (value : Value) :
    List (String × Value) :=
  match value, lookupField key entries with
  | .object changes, some (.object held) =>
    putField key (.object (changes.foldl (fun held c => putField c.1 c.2 held) held)) entries
  | _, _ => putField key value entries

/-- The entries of a device after all changes. -/
def patchedEntries (d : Device) (changes : List (String × Value)) : List (String × Value) :=
  changes.foldl (fun entries c => mergeChange entries c.1 c.2) d.entries

/-- Patches the first device of a name; the patched record is checked as a whole. -/
def patch (name : String) (changes : List (String × Value)) : List Device → Patched
  | [] => .unmatched
  | d :: rest =>
    if d.name = name then
      match (Intake.device (.object (patchedEntries d changes))).conclude .device with
      | .ok d => .stored (d :: rest)
      | .error r => .rejected r
    else
      match patch name changes rest with
      | .stored devices => .stored (d :: devices)
      | outcome => outcome

end Registry

end FleetMap
