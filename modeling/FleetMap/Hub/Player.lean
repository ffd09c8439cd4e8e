import FleetMap.Intake.Payload

/-!
A player holds a recording and how many of its frames are played. It plays no further than the last
frame, and playing on from there starts over.
-/

set_option autoImplicit false

namespace FleetMap

structure Player where
  frames : List Payload
  index : Nat
  playing : Bool
  name : Option String

namespace Player

def ofFrames (frames : List Payload) : Player := ⟨frames, 0, false, none⟩

def finished (p : Player) : Bool := p.frames.length ≤ p.index

/-- Stopped at the first frame. -/
def rewound (p : Player) : Player := { p with playing := false, index := 0 }

def loaded (p : Player) (frames : List Payload) (name : Option String) : Player :=
  { p with frames := frames, name := name }.rewound

/-- Playing, from the start if all frames are played; without frames there is nothing to play. -/
def started (p : Player) : Player :=
  let p := if p.finished then p.rewound else p
  { p with playing := !p.frames.isEmpty }

def paused (p : Player) : Player := { p with playing := false }

/-- The frames of a recording; nothing given is a recording without frames. -/
def framesOf (r : Recording) : Except Kind (List Payload) :=
  if r.isVoid then .ok [] else r.items Payload.ofValue

end Player

end FleetMap
