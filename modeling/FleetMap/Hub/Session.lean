import FleetMap.Hub.Operations

/-!
Sessions: commands carried out one after another, with scripts that may carry out commands while
they are called. A script carries out commands on a limited number of firings only, so the depth to
which commands nest is bounded by the sum of these numbers.
-/

set_option autoImplicit false

namespace FleetMap

/-- What a command answers. -/
inductive Answer where
  | nothing
  | number (n : Nat)
  | flag (b : Bool)
  | devices (ds : List Device)
  | scene (s : Scene)

namespace Hub

open Act

/-- The listener that a mention stands for. -/
def resolve : Mention → Act Listener
  | .inert => return .inert
  | .gesture g id => do return .gesture g (← viewNamed id)
  | .named name => do
    if (lookupField name (← get).scripts).isSome then return .script name
    else return .view (← viewNamed name)

/-- Settings that are given with a command, or the standard ones. -/
def givenSettings : Option Value → Act Settings
  | none => return .standard
  | some v => accept ((Intake.settings v).conclude .settings)

def givenStance : Option Value → Act Stance
  | none => return .initial
  | some v => accept ((Intake.stance v).conclude .stance)

def givenDevices (items : List Item) : Act (List Device) :=
  accept (requireDevices items)

/-- What is registered or removed is mentioned by name once that is done. -/
def mention (l : Listener) : Act Unit := do
  match (← get).shown l with
  | .ok _ => return
  | .error f => fail f

/-- Carries out a command. -/
def command (fire : Fire) : Command → Act Answer
  | .update payload => .number <$> update fire payload
  | .updateDevice name changes => .flag <$> updateDevice fire name changes
  | .clear => do
    clear fire
    return .nothing
  | .devices => return .devices (← get).registry.devices
  | .notify none => .number <$> notify fire none
  | .notify (some items) => do
    let ds ← givenDevices items
    .number <$> notify fire (some ds)
  | .register who => do
    let l ← resolve who
    modify fun w => { w with registry := w.registry.register l }
    mention l
    return .nothing
  | .remove who => do
    let l ← resolve who
    modify fun w => { w with registry := w.registry.remove l }
    mention l
    return .nothing
  | .isRegistered who => do
    let l ← resolve who
    return .flag ((← get).registry.isRegistered l)
  | .subscribe bus topic who => do
    openBus bus
    let l ← resolve who
    modifyBus bus (·.subscribe topic l)
    return .nothing
  | .unsubscribe bus topic who => do
    openBus bus
    let l ← resolve who
    modifyBus bus (·.unsubscribe topic l)
    return .nothing
  | .emit bus topic => .number <$> emit fire bus topic
  | .listenerCount bus topic => do
    openBus bus
    return .number (((← get).bus bus).handlers topic).length
  | .view id bus settings hook => do
    openBus bus
    let settings ← givenSettings settings
    modify fun w =>
      { w with
        views := w.views ++ [View.fresh bus settings hook]
        viewNames := putField id w.views.length w.viewNames }
    return .nothing
  | .gesture .render id => do
    let number ← viewNamed id
    .scene <$> render number
  | .gesture g id => do
    let number ← viewNamed id
    perform fire g number
    return .nothing
  | .tell id items => do
    let number ← viewNamed id
    let ds ← givenDevices items
    tellView fire number ds
    return .nothing
  | .setSettings id settings => do
    let number ← viewNamed id
    let settings ← givenSettings settings
    restyle number settings
    return .nothing
  | .setStance id stance => do
    let number ← viewNamed id
    let stance ← givenStance stance
    pose number stance
    return .nothing
  | .player recording =>
    match Player.framesOf recording with
    | .error kind => fail (.notIterable kind)
    | .ok frames => do
      modify fun w => { w with players := w.players ++ [Player.ofFrames frames] }
      return .nothing
  | .load recording name => do
    let number ← playerInUse "load"
    load number recording name
    return .nothing
  | .step => do
    let number ← playerInUse "step"
    .flag <$> stepPlayer fire number
  | .play => do
    let number ← playerInUse "play"
    modifyPlayer number Player.started
    return .nothing
  | .pause => do
    let number ← playerInUse "pause"
    stopPlayer number
    return .nothing
  | .reset => do
    let number ← playerInUse "reset"
    modifyPlayer number Player.rewound
    return .nothing
  | .playLoop => do
    let number ← playerInUse "play_loop"
    playLoop fire number
    return .nothing

/-- Carries out commands in turn until one fails; the answers are dropped. -/
def commands (fire : Fire) : List Command → Act Unit
  | [] => return
  | c :: rest => do
    discard (command fire c)
    commands fire rest

/-- Enters a firing into the books; the script, and whether it carries out its commands. -/
def beginFiring (name : String) (script : Script) (signal : Signal) : Act Bool := do
  let before := (← get).firingsOf name
  enter (.fired name (if script.empties then signal.emptied else signal))
  modify fun w => { w with firings := putField name (before + 1) w.firings }
  return before < script.times

def finish : Ending → Act Unit
  | .returns => return
  | .raises text => fail (.scripted text)
  | .raisesMute asking => throw (.mute asking)
  | .cancels => throw .cancelled

/-- Calls a script. On its first firings its commands are carried out in the given way. -/
def callScript (perform : List Command → Act Unit) : Fire := fun name signal => do
  match lookupField name (← get).scripts with
  | none => fail (.unknownName name)
  | some script =>
    if ← beginFiring name script signal then perform script.acts
    finish script.ending

/-- Fires a script when at most `depth` firings with commands are left. -/
def fireAt : Nat → Fire
  | 0 => callScript fun _ => pure ()
  | depth + 1 => callScript (commands (fireAt depth))

/-- Firings with commands that the scripts can have altogether. -/
def scriptDepth (scripts : List (String × Script)) : Nat :=
  scripts.foldr (fun s others => s.2.times + others) 0

/-- Carries out one command of a session. -/
def carryOut (c : Command) : Act Answer := fun w =>
  (command (fireAt (scriptDepth w.scripts)) c).run w

theorem run_carryOut (c : Command) (w : World) :
    (carryOut c).run w = (command (fireAt (scriptDepth w.scripts)) c).run w := rfl

/-- The world after the steps of a session; a step that fails does not end the session. -/
def carryOutAll (w : World) (steps : List Command) : World :=
  steps.foldl (fun w c => (carryOut c).after w) w

/-- The state in which a session starts; notes on the first collection are not kept. -/
def start (initial : Payload) (scripts : List (String × Script)) : Except Failure World :=
  if initial.isVoid then .ok { World.empty with scripts := scripts }
  else
    match initial.items .raw with
    | .error kind => .error (.notIterable kind)
    | .ok items =>
      .ok { World.empty with
        registry := ⟨(Reception.ofItems items).devices, []⟩
        scripts := scripts }

end Hub

end FleetMap
