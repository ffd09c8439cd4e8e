import FleetMap.Failure

/-!
Who may listen: to the registry as an observer, to a bus as a handler. A gesture is one of the
things that a view can be made to do; as a listener it stands for doing that thing.
-/

set_option autoImplicit false

namespace FleetMap

/-- What a view can be made to do. -/
inductive Gesture where
  | cyclePattern
  | toggleIsometric
  | requestRender
  | activate
  | deactivate
  | render
  | receive
  deriving DecidableEq, Repr

/-- The public word for a gesture. -/
def Gesture.word : Gesture → String
  | .cyclePattern => "cycle_pattern"
  | .toggleIsometric => "toggle_isometric"
  | .requestRender => "request_render"
  | .activate => "activate"
  | .deactivate => "deactivate"
  | .render => "render"
  | .receive => "on_notify"

def Gesture.all : List Gesture :=
  [.cyclePattern, .toggleIsometric, .requestRender, .activate, .deactivate, .render, .receive]

inductive Listener where
  /-- A scripted callback. -/
  | script (name : String)
  /-- A view, by its number. -/
  | view (number : Nat)
  | gesture (g : Gesture) (view : Nat)
  /-- A table that keeps the devices it was last told of. -/
  | inbox (number : Nat)
  /-- Something that can be registered but not notified. -/
  | inert
  deriving DecidableEq, Repr

namespace Listener

/-- Whether two mentions are one and the same thing. A gesture is made anew at each mention. -/
def identical : Listener → Listener → Bool
  | gesture _ _, _ => false
  | a, b => a == b

/-- How a listener is shown in notes. -/
def shown : Listener → String
  | script name => "Callback(" ++ name ++ ")"
  | view _ => "<DeviceMapView>"
  | gesture g _ => "<bound method DeviceMapView." ++ g.word ++ " of <DeviceMapView>>"
  | inbox _ => "<DeviceTable>"
  | inert => "NotAnObserver"

end Listener

end FleetMap
