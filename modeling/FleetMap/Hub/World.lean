import FleetMap.Hub.Bus
import FleetMap.Hub.Player
import FleetMap.Hub.Registry
import FleetMap.Hub.Script
import FleetMap.Hub.View
import FleetMap.Note

/-!
The state of the hub. The journal tells, the newest entry first, all that happened: notes, firings
of scripts, collections that were stored, every single call of every fan-out, every scene that was
or could not be drawn and every view whose settings or stance were replaced.
-/

set_option autoImplicit false

namespace FleetMap

/-- What a listener is called with. -/
inductive Signal where
  | notice (devices : List Device)
  | trigger
  | scene (scene : Scene)
  deriving DecidableEq

/-- A notice whose list was emptied; other signals have nothing to empty. -/
def Signal.emptied : Signal → Signal
  | .notice _ => .notice []
  | signal => signal

inductive Entry where
  | noted (note : Note)
  /-- A script was fired. -/
  | fired (name : String) (signal : Signal)
  /-- The registry stored a new collection. -/
  | stored (devices : List Device)
  /-- The fan-out with this number called a listener. -/
  | called (fanOut : Nat) (who : Listener) (signal : Signal)
  /-- That call ended; true if without an error. -/
  | settled (fanOut : Nat) (who : Listener) (cleanly : Bool)
  /-- The hook of a view was handed a scene. -/
  | drawn (view : Nat) (scene : Scene)
  /-- There was no scene to hand to the hook of a view. -/
  | undrawn (view : Nat)
  /-- The settings or the stance of a view were replaced. -/
  | replaced (view : Nat)
  deriving DecidableEq

structure World where
  registry : Registry
  buses : List (String × Bus)
  /-- All views that were ever made; a view is known by its number here. -/
  views : List View
  /-- The view that a name stands for now. -/
  viewNames : List (String × Nat)
  /-- All players that were ever made; the last one is in use. -/
  players : List Player
  scripts : List (String × Script)
  /-- How often each script was fired. -/
  firings : List (String × Nat)
  /-- What each table was last told. -/
  inboxes : List (List Device)
  /-- Whether a playback loop is under way. -/
  looping : Bool
  /-- Fan-outs begun so far. -/
  fanOuts : Nat
  journal : List Entry

namespace World

def empty : World where
  registry := .empty
  buses := []
  views := []
  viewNames := []
  players := []
  scripts := []
  firings := []
  inboxes := []
  looping := false
  fanOuts := 0
  journal := []

def bus (w : World) (name : String) : Bus := (lookupField name w.buses).getD .empty

def setBus (w : World) (name : String) (b : Bus) : World :=
  { w with buses := putField name b w.buses }

def modifyView (w : World) (number : Nat) (f : View → View) : World :=
  { w with views := w.views.modify number f }

def modifyPlayer (w : World) (number : Nat) (f : Player → Player) : World :=
  { w with players := w.players.modify number f }

def enter (w : World) (e : Entry) : World := { w with journal := e :: w.journal }

def note (w : World) (level : Level) (origin : Origin) (text : String) : World :=
  w.enter (.noted ⟨level, origin, text⟩)

def firingsOf (w : World) (name : String) : Nat := (lookupField name w.firings).getD 0

/-- How a listener is shown in notes, or what comes of asking. -/
def shown (w : World) : Listener → Except Failure String
  | .script name =>
    match (lookupField name w.scripts).bind (·.nameless) with
    | some f => .error f
    | none => .ok (Listener.script name).shown
  | who => .ok who.shown

/-- Firings on which scripts may still carry out their commands. -/
def actsLeft (w : World) : Nat :=
  w.scripts.foldr (fun s others => s.2.times - w.firingsOf s.1 + others) 0

/-- Frames of the longest recording that is loaded or can be loaded by a script. -/
def longestRecording (w : World) : Nat :=
  let loaded := w.players.map fun p => p.frames.length
  let loadable := w.scripts.flatMap fun s => s.2.acts.map Command.frameBound
  (loaded ++ loadable).foldl max 0

end World

end FleetMap
