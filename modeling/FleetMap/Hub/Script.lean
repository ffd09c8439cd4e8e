import FleetMap.Hub.Listener
import FleetMap.Intake.Payload

/-!
Commands to the hub and scripts of callbacks. A script is called as an observer, as a handler or as
the hook of a view; on its first firings it carries out commands of its own, and it ends by
returning, by raising an error or by cancelling all that is under way. An error may have no text,
and a script no name to be shown by.
-/

set_option autoImplicit false

namespace FleetMap

/-- How a listener is named in a command. -/
inductive Mention where
  | inert
  | named (name : String)
  | gesture (g : Gesture) (view : String)
  deriving DecidableEq, Repr

inductive Command where
  | update (payload : Payload)
  | updateDevice (name : String) (changes : List (String × Value))
  | clear
  | devices
  /-- Notifies of the given devices, or of the stored ones. -/
  | notify (items : Option (List Item))
  | register (who : Mention)
  | remove (who : Mention)
  | isRegistered (who : Mention)
  | subscribe (bus topic : String) (who : Mention)
  | unsubscribe (bus topic : String) (who : Mention)
  | emit (bus topic : String)
  | listenerCount (bus topic : String)
  | view (id bus : String) (settings : Option Value) (hook : Option String)
  | gesture (g : Gesture) (id : String)
  | tell (id : String) (items : List Item)
  | setSettings (id : String) (settings : Option Value)
  | setStance (id : String) (stance : Option Value)
  | player (frames : Recording)
  | load (frames : Recording) (name : Option String)
  | step
  | play
  | pause
  | reset
  | playLoop

/-- How a firing ends. -/
inductive Ending where
  | returns
  | raises (text : String)
  /-- It raises an error without text. -/
  | raisesMute (asking : Stop)
  | cancels

namespace Ending

/-- A firing that ends like this can break off the fan-out that called the script. -/
def breaks : Ending → Bool
  | returns => false
  | raises _ => false
  | raisesMute _ => true
  | cancels => true

/-- Deepest nesting of a value that an error can show: an assumption, as it depends on how much of
the stack is in use when the text is asked for. -/
def nestingLimit : Nat := 400

/-- A script raises an error that carries a value. -/
def raising (v : Value) : Ending :=
  if nestingLimit < v.nesting then .raisesMute (.failed .deepValue)
  else
    match v.plain? with
    | some text => .raises text
    | none => .raisesMute (.failed (.longInteger none))

end Ending

structure Script where
  /-- Whether it empties the list of devices it is handed. -/
  empties : Bool
  /-- On how many firings it carries out its commands. -/
  times : Nat
  acts : List Command
  ending : Ending
  /-- What comes of asking for its name, if it has none. -/
  nameless : Option Failure

/-- Frames of the longest recording that a command can bring. -/
def Command.frameBound : Command → Nat
  | player frames => frames.bound
  | load frames _ => frames.bound
  | _ => 0

end FleetMap
