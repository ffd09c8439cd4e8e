import FleetMap.Hub.Act

/-!
What the hub does. Every operation may end up calling scripts, which may call any operation again;
so each takes the way in which a script is fired as an argument, and says nothing about it.
-/

set_option autoImplicit false

namespace FleetMap

/-- The way in which a script is fired. -/
abbrev Fire := String → Signal → Act Unit

/-- Where there are no scripts, no name is known. -/
def noScripts : Fire := fun name _ => Act.fail (.unknownName name)

namespace Hub

open Act

/-- Notes the devices that are left out of a scene. -/
def noteMisfits (misfits : List Misfit) : Act Unit :=
  misfits.forM fun m => enter (.noted m.note)

/-- The scene of a view. -/
def render (number : Nat) : Act Scene := do
  match ← view? number with
  | some v =>
    noteMisfits (projectMisfits v.settings v.devices)
    match v.scene with
    | some scene => return scene
    | none => fail (.longInteger none)
  | none => fail (.unknownName (decimalOfInt number))

/-- The scene of a view for its hook. -/
def draw (number : Nat) (v : View) : Act Scene := do
  noteMisfits (projectMisfits v.settings v.devices)
  match v.scene with
  | some scene =>
    enter (.drawn number scene)
    return scene
  | none =>
    enter (.undrawn number)
    fail (.longInteger none)

/-- Replaces the settings of a view, which is not drawn anew. -/
def restyle (number : Nat) (settings : Settings) : Act Unit := do
  modifyView number fun v => { v with settings := settings }
  enter (.replaced number)

/-- Replaces the stance of a view, which is not drawn anew. -/
def pose (number : Nat) (stance : Stance) : Act Unit := do
  modifyView number fun v => { v with stance := stance }
  enter (.replaced number)

section

variable (fire : Fire)

/-- Counts a rendering and hands the scene to the hook, if there is one. -/
def requestRender (number : Nat) : Act Unit := do
  modifyView number fun v => { v with revision := v.revision + 1 }
  match ← view? number with
  | some v =>
    match v.hook with
    | some hook => fire hook (.scene (← draw number v))
    | none => return
  | none => return

/-- Tells a view of devices; an inactive view does not listen. -/
def tellView (number : Nat) (ds : List Device) : Act Unit := do
  match ← view? number with
  | some v =>
    if v.active then
      modifyView number (·.tell ds)
      requestRender fire number
  | none => return

def cyclePattern (number : Nat) : Act Unit := do
  modifyView number View.cycled
  requestRender fire number

def toggleIsometric (number : Nat) : Act Unit := do
  modifyView number View.toggled
  requestRender fire number

/-- Enters a view into the registry and the two topics of its bus, then shows the stored devices. -/
def activate (number : Nat) : Act Unit := do
  match ← view? number with
  | some v =>
    if !v.active then
      modify fun w => { w with registry := w.registry.register (.view number) }
      modifyBus v.bus (·.subscribe Bus.cycleTopic (.gesture .cyclePattern number))
      modifyBus v.bus (·.subscribe Bus.toggleTopic (.gesture .toggleIsometric number))
      modifyView number fun v => { v with active := true }
      let stored := (← get).registry.devices
      modifyView number (·.tell stored)
      requestRender fire number
  | none => return

/-- Takes a view out of both topics, then out of the registry. -/
def deactivate (number : Nat) : Act Unit := do
  match ← view? number with
  | some v =>
    if v.active then
      modifyBus v.bus (·.unsubscribe Bus.toggleTopic (.gesture .toggleIsometric number))
      modifyBus v.bus (·.unsubscribe Bus.cycleTopic (.gesture .cyclePattern number))
      modify fun w => { w with registry := w.registry.remove (.view number) }
      modifyView number fun v => { v with active := false }
  | none => return

/-- Makes a view do something. -/
def perform (g : Gesture) (number : Nat) : Act Unit :=
  match g with
  | .cyclePattern => cyclePattern fire number
  | .toggleIsometric => toggleIsometric fire number
  | .requestRender => requestRender fire number
  | .activate => activate fire number
  | .deactivate => deactivate number
  | .render => discard (render number)
  | .receive => fail (.missingArgument "DeviceMapView.on_notify" "devices")

/-- Tells a table of devices; a list equal to the one it holds changes nothing. -/
def tellInbox (number : Nat) (ds : List Device) : Act Unit :=
  modify fun w =>
    { w with inboxes := w.inboxes.modify number (keepIfSame (sameList Device.same) · ds) }

/-- Hands a collection to an observer. -/
def deliver (ds : List Device) (who : Listener) : Act Unit :=
  match who with
  | .script name => fire name (.notice ds)
  | .view number => tellView fire number ds
  | .inbox number => tellInbox number ds
  | .gesture _ _ => fail (.missingMember "function" "on_notify")
  | .inert => fail (.missingMember "NotAnObserver" "on_notify")

/-- Calls a handler. -/
def trigger (who : Listener) : Act Unit :=
  match who with
  | .script name => fire name .trigger
  | .gesture g number => perform fire g number
  | .view _ => fail (.notCallable "DeviceMapView")
  | .inbox _ => fail (.notCallable "DeviceTable")
  | .inert => fail (.notCallable "NotAnObserver")

/-- What is noted on an observer that failed; it is named before the text of its error is formed. -/
def observerComplaint (w : World) : Complaint := fun who => do
  let name ← w.shown who
  return fun text => ⟨.error, .registry, "Observer " ++ name ++ " failed on notify: " ++ text⟩

/-- What is noted on a handler that failed, which does without its name. -/
def handlerComplaint (topic : String) : Complaint := fun _ =>
  .ok fun text => ⟨.error, .bus, "Handler for '" ++ topic ++ "' failed: " ++ text⟩

/-- Delivers a collection, or else the stored one, to every observer; the number of those that
took it without an error. -/
def notify (given : Option (List Device)) : Act Nat := do
  let w ← get
  let ds := given.getD w.registry.devices
  fanOut w.registry.observers (.notice ds) (deliver fire ds) (observerComplaint w)

/-- Fires a topic; the number of handlers that ran without an error. -/
def emit (bus topic : String) : Act Nat := do
  openBus bus
  let handlers := ((← get).bus bus).handlers topic
  fanOut handlers .trigger (trigger fire) (handlerComplaint topic)

/-- The devices of a payload; items that are no devices are noted and dropped. -/
def receive (payload : Payload) : Act (List Device) := do
  match payload.items .raw with
  | .error kind => fail (.notIterable kind)
  | .ok items =>
    let reception := Reception.ofItems items
    reception.notes.forM fun n => enter (.noted n)
    return reception.devices

/-- Replaces the stored collection. -/
def store (ds : List Device) : Act Unit := do
  modify fun w => { w with registry.devices := ds }
  enter (.stored ds)

/-- Stores a collection and delivers it. -/
def publish (ds : List Device) : Act Nat := do
  store ds
  notify fire none

def update (payload : Payload) : Act Nat := do
  let ds ← receive payload
  publish fire ds

/-- Patches the first device of a name; false if there is none or the patch is not accepted. -/
def updateDevice (name : String) (changes : List (String × Value)) : Act Bool := do
  match ["name", "self"].find? fun key => (lookupField key changes).isSome with
  | some key => fail (.reservedChange key)
  | none =>
    match Registry.patch name changes (← get).registry.devices with
    | .unmatched =>
      note .warning .registry ("update_device: no device named '" ++ name ++ "'")
      return false
    | .rejected r =>
      note .warning .registry
        ("update_device: rejected changes for '" ++ name ++ "': " ++ r.report)
      return false
    | .stored ds =>
      discard (publish fire ds)
      return true

def clear : Act Unit := discard (publish fire [])

/-- Publishes the next frame of a player; false if none is left. The frame counts as played once
it is delivered, whatever happened to the player meanwhile. -/
def stepPlayer (number : Nat) : Act Bool := do
  match ← player? number with
  | some p =>
    match p.frames[p.index]? with
    | some frame =>
      discard (update fire frame)
      modifyPlayer number fun q => { q with index := p.index + 1 }
      return true
    | none => return false
  | none => return false

def stopPlayer (number : Nat) : Act Unit := modifyPlayer number Player.paused

/-- Publishes frames until the player is stopped, runs out of frames or fails. An error without text
leaves the player as it is. -/
def playFrames (number : Nat) : Nat → Act Unit
  | 0 => return
  | fuel + 1 => do
    if (← player? number).any (·.playing) then
      match ← attempt (stepPlayer fire number) with
      | .ok true => playFrames number fuel
      | .ok false =>
        note .info .player "Recording finished"
        stopPlayer number
      | .error stop =>
        note .error .player ("Error in playback loop: " ++ (← orStop stop.text))
        stopPlayer number

/-- Steps that a playback loop can take: between two firings of a script with commands the index
only grows. -/
def loopBound (w : World) : Nat := (w.actsLeft + 1) * (w.longestRecording + 2) + 2

/-- Marks that a playback loop is under way for as long as the act runs, however it ends. -/
def whileLooping (x : Act Unit) : Act Unit := fun w =>
  match x.run { w with looping := true } with
  | .ok a w => .ok a { w with looping := false }
  | .error stop w => .error stop { w with looping := false }

def playLoop (number : Nat) : Act Unit := do
  let w ← get
  if w.looping then fail .nestedLoop
  else
    whileLooping do
      if (← player? number).any (·.playing) then
        note .info .player "Playback loop started"
        playFrames fire number (loopBound w)

end

/-- Loads a recording into a player and rewinds it. -/
def load (number : Nat) (recording : Recording) (name : Option String) : Act Unit := do
  match recording.items Payload.ofValue with
  | .error kind => fail (.notIterable kind)
  | .ok frames =>
    modifyPlayer number fun p => p.loaded frames name
    let title := match name with
      | some name => if name.isEmpty then "<unnamed>" else name
      | none => "<unnamed>"
    note .info .player
      ("Loaded recording " ++ title ++ ": " ++ decimalOfInt frames.length ++ " frames")

end Hub

end FleetMap
