import FleetMap.Hub.World

/-!
Acts change the state of the hub and may stop early: with an error, which fan-outs contain as long
as they can put it into words, or by cancellation, which passes through everything. What was done
before the stop stays done.
-/

set_option autoImplicit false

namespace FleetMap

abbrev Act := EStateM Stop World

namespace Act

def fail {α : Type} (f : Failure) : Act α := throw (.failed f)

/-- A record that was accepted; a rejection fails. -/
def accept {α : Type} : Except Rejection α → Act α
  | .ok a => pure a
  | .error r => fail (.rejected r)

/-- The world that is left, however an act ended. -/
def leaves {α : Type} : EStateM.Result Stop World α → World
  | .ok _ v => v
  | .error _ v => v

/-- The world that an act leaves. -/
def after {α : Type} (x : Act α) (w : World) : World := leaves (x.run w)

/-- An error as a result; cancellation is no error. -/
def attempt {α : Type} (x : Act α) : Act (Except Stop α) := fun w =>
  match x.run w with
  | .ok a w => .ok (.ok a) w
  | .error .cancelled w => .error .cancelled w
  | .error stop w => .ok (.error stop) w

/-- Goes on with what was found, or stops. -/
def orStop {α : Type} : Except Stop α → Act α
  | .ok a => pure a
  | .error stop => throw stop

def enter (e : Entry) : Act Unit := modify (·.enter e)

def note (level : Level) (origin : Origin) (text : String) : Act Unit :=
  modify (·.note level origin text)

def modifyView (number : Nat) (f : View → View) : Act Unit := modify (·.modifyView number f)

def modifyPlayer (number : Nat) (f : Player → Player) : Act Unit := modify (·.modifyPlayer number f)

def view? (number : Nat) : Act (Option View) := do return (← get).views[number]?

def player? (number : Nat) : Act (Option Player) := do return (← get).players[number]?

/-- The number of the view that a name stands for. -/
def viewNamed (id : String) : Act Nat := do
  match lookupField id (← get).viewNames with
  | some number => return number
  | none => fail (.unknownName id)

/-- The number of the player in use, which is asked to do something. -/
def playerInUse (request : String) : Act Nat := do
  match (← get).players.length with
  | 0 => fail (.missingMember "NoneType" request)
  | count + 1 => return count

/-- Makes sure that a bus is there. -/
def openBus (name : String) : Act Unit := modify fun w => w.setBus name (w.bus name)

def modifyBus (name : String) (f : Bus → Bus) : Act Unit :=
  modify fun w => w.setBus name (f (w.bus name))

variable (w : World)

@[simp] theorem run_fail {α : Type} (f : Failure) :
    (fail f : Act α).run w = .error (.failed f) w := rfl

@[simp] theorem run_enter (e : Entry) : (enter e).run w = .ok () (w.enter e) := rfl

@[simp] theorem run_note (level : Level) (origin : Origin) (text : String) :
    (note level origin text).run w = .ok () (w.note level origin text) := rfl

@[simp] theorem run_modifyView (number : Nat) (f : View → View) :
    (modifyView number f).run w = .ok () (w.modifyView number f) := rfl

@[simp] theorem run_modifyPlayer (number : Nat) (f : Player → Player) :
    (modifyPlayer number f).run w = .ok () (w.modifyPlayer number f) := rfl

@[simp] theorem run_view? (number : Nat) : (view? number).run w = .ok w.views[number]? w := rfl

@[simp] theorem run_player? (number : Nat) :
    (player? number).run w = .ok w.players[number]? w := rfl

@[simp] theorem run_openBus (name : String) :
    (openBus name).run w = .ok () (w.setBus name (w.bus name)) := rfl

@[simp] theorem run_modifyBus (name : String) (f : Bus → Bus) :
    (modifyBus name f).run w = .ok () (w.setBus name (f (w.bus name))) := rfl

@[simp] theorem run_attempt {α : Type} (x : Act α) :
    (attempt x).run w =
      match x.run w with
      | .ok a v => .ok (.ok a) v
      | .error .cancelled v => .error .cancelled v
      | .error stop v => .ok (.error stop) v := rfl

@[simp] theorem run_orStop_ok {α : Type} (a : α) : (orStop (.ok a)).run w = .ok a w := rfl

@[simp] theorem run_orStop_error {α : Type} (stop : Stop) :
    (orStop (.error stop : Except Stop α)).run w = .error stop w := rfl

theorem run_map {α β : Type} (f : α → β) (x : Act α) :
    (f <$> x).run w =
      match x.run w with
      | .ok a v => .ok (f a) v
      | .error stop v => .error stop v := by
  rw [map_eq_pure_bind, EStateM.run_bind]
  cases x.run w with
  | ok a v => rfl
  | error stop v => rfl

theorem run_discard {α : Type} (x : Act α) :
    (discard x).run w =
      match x.run w with
      | .ok _ v => .ok () v
      | .error stop v => .error stop v :=
  run_map w (fun _ => ()) x

/-- Acts one after the other succeed if both do. -/
theorem run_bind_ok {α β : Type} {x : Act α} {f : α → Act β} {b : β} {w v : World}
    (run : (x >>= f).run w = .ok b v) :
    ∃ a u, x.run w = .ok a u ∧ (f a).run u = .ok b v := by
  rw [EStateM.run_bind] at run
  split at run
  · rename_i a u first
    exact ⟨a, u, first, run⟩
  · exact nomatch run

theorem run_viewNamed_ok {id : String} {number : Nat} {w v : World}
    (run : (viewNamed id).run w = .ok number v) :
    lookupField id w.viewNames = some number ∧ v = w := by
  simp only [viewNamed, EStateM.run_bind, EStateM.run_get] at run
  cases found : lookupField id w.viewNames with
  | none =>
    rw [found] at run
    exact nomatch run
  | some n =>
    rw [found] at run
    obtain ⟨rfl, rfl⟩ := EStateM.Result.ok.inj run
    exact ⟨rfl, rfl⟩

/-- What is made of the result does not change the world. -/
theorem after_map {α β : Type} (f : α → β) (x : Act α) : (f <$> x).after w = x.after w := by
  unfold after
  rw [run_map]
  cases x.run w with
  | ok a v => rfl
  | error stop v => rfl

end Act

/-- How a fan-out words what it notes on a listener, from the text of the error. It may be unable to
name the listener. -/
abbrev Complaint := Listener → Except Failure (String → Note)

/-- The note on a listener that raised an error, or what comes of wording it. -/
def Complaint.word (complaint : Complaint) (who : Listener) (stop : Stop) : Except Stop Note := do
  let note ← (complaint who).mapError .failed
  return note (← stop.text)

/-- Calls the listeners of one fan-out in turn and counts those that raised no error; an error is
noted and the next listener is called. An error that cannot be noted ends the fan-out. -/
def serve (fanOut : Nat) (signal : Signal) (call : Listener → Act Unit) (complaint : Complaint) :
    List Listener → Act Nat
  | [] => pure 0
  | who :: rest => do
    Act.enter (.called fanOut who signal)
    match ← Act.attempt (call who) with
    | .ok _ =>
      Act.enter (.settled fanOut who true)
      let others ← serve fanOut signal call complaint rest
      return others + 1
    | .error stop =>
      Act.enter (.noted (← Act.orStop (complaint.word who stop)))
      Act.enter (.settled fanOut who false)
      serve fanOut signal call complaint rest

/-- One fan-out to the listeners that are listed when it starts. -/
def fanOut (listeners : List Listener) (signal : Signal) (call : Listener → Act Unit)
    (complaint : Complaint) : Act Nat := do
  let number := (← get).fanOuts
  modify fun w => { w with fanOuts := number + 1 }
  serve number signal call complaint listeners

end FleetMap
