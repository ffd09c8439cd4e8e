import FleetMap.Dashboard.Basic
import FleetMap.Hub.Session

/-!
What a user can do with the dashboard. Loading a file that is missing or whose data are at fault
leaves a message in the widget; any other failure is the answer of the command.
-/

set_option autoImplicit false

namespace FleetMap

inductive WidgetSort where
  | settings
  | map
  | table
  | controls
  | playback
  deriving DecidableEq, Repr

inductive Button where
  | refresh
  | reset
  | play
  | pause
  | step
  | changeMap
  | isometric
  deriving DecidableEq, Repr

namespace Dashboard

inductive Command where
  | mount (id : String) (sort : WidgetSort) (settings : Option Value)
  | unmount (id : String)
  | click (id : String) (button : Button)
  | choose (id name : String)
  | edit (id label typed : String)
  | fields
  | update (payload : Payload)
  | updateDevice (name : String) (changes : List (String × Value))
  | clear
  | emit (topic : String)
  | put (path : String) (node : Node)

/-- What a command answers. -/
inductive Reply where
  | nothing
  /-- The button that was clicked is disabled. -/
  | disabled
  | number (n : Nat)
  | flag (b : Bool)
  /-- Labels and texts of the settings form. -/
  | fields (entries : List (String × String))

abbrev Result := Except Failure (Reply × Dashboard)

def settingsForm (d : Dashboard) : SettingsForm where
  options := Library.settingsNames d.files
  picker := .ofValue none
  alert := none
  inputs := d.draft.texts.map .ofValue

def playbackPanel (d : Dashboard) : PlaybackPanel :=
  let options := Library.recordingNames d.files
  { options := options
    picker := .ofValue d.player.name
    alert := none
    face := ⟨d.watch options none, d.player.frames.length⟩ }

/-- A map takes its settings before it is activated. -/
def mountMap (d : Dashboard) (id : String) (own : Option Settings) : Result := do
  let number := d.hub.views.length
  let view := View.fresh sharedBus (d.settingsFor own) none
  let ((), d) ← { d with hub.views := d.hub.views ++ [view] }.act (Hub.activate noScripts number)
  return (.nothing, d.setWidget id (.map number own))

def mountTable (d : Dashboard) (id : String) (own : Option Settings) : Dashboard :=
  let number := d.hub.inboxes.length
  { d with
    hub.inboxes := d.hub.inboxes ++ [d.hub.registry.devices]
    hub.registry := d.hub.registry.register (.inbox number) }.setWidget id (.table number own)

def mount (d : Dashboard) (id : String) (sort : WidgetSort) (settings : Option Value) :
    Result := do
  let own ← match settings with
    | none => pure none
    | some v => (((Intake.settings v).conclude .settings).mapError Failure.rejected).map some
  match sort with
  | .settings => return (.nothing, d.setWidget id (.settings d.settingsForm))
  | .map => d.mountMap id own
  | .table => return (.nothing, d.mountTable id own)
  | .controls => return (.nothing, d.setWidget id .controls)
  | .playback => return (.nothing, d.setWidget id (.playback d.playbackPanel))

def unmount (d : Dashboard) (id : String) : Result := do
  let widget ← d.widget id
  let d := { d with widgets := d.widgets.filter (·.1 != id) }
  match widget with
  | .map view _ =>
    let ((), d) ← d.act (Hub.deactivate view)
    return (.nothing, d)
  | .table inbox _ =>
    return (.nothing, { d with hub.registry := d.hub.registry.remove (.inbox inbox) })
  | _ => return (.nothing, d)

/-- Runs an act for a button that can be clicked. -/
def press {α : Type} (d : Dashboard) (enabled : Bool) (x : Act α) : Result :=
  if enabled then (d.act x).map fun (_, d) => (.nothing, d) else .ok (.disabled, d)

def emit (d : Dashboard) (topic : String) : Except Failure (Nat × Dashboard) :=
  d.act (Hub.emit noScripts sharedBus topic)

def clickSettings (d : Dashboard) (id : String) (form : SettingsForm) : Button → Dashboard
  | .refresh => d.setWidget id (.settings { form with options := Library.settingsNames d.files })
  | .reset => { d with draft := d.draft.load .standard }
  | _ => d

def clickPlayback (d : Dashboard) (id : String) (panel : PlaybackPanel) : Button → Result
  | .refresh =>
    let panel := { panel with options := Library.recordingNames d.files }
    .ok (.nothing, d.setWidget id (.playback panel))
  | .play => d.press panel.face.canPlay (Act.modifyPlayer 0 Player.started)
  | .pause => d.press panel.face.canPause (Hub.stopPlayer 0)
  | .step => d.press panel.face.canStep (Hub.stepPlayer noScripts 0)
  | _ => .ok (.nothing, d)

def click (d : Dashboard) (id : String) (button : Button) : Result := do
  match ← d.widget id with
  | .settings form => return (.nothing, d.clickSettings id form button)
  | .playback panel => d.clickPlayback id panel button
  | .controls =>
    match button with
    | .changeMap => (d.emit Bus.cycleTopic).map fun (_, d) => (.nothing, d)
    | .isometric => (d.emit Bus.toggleTopic).map fun (_, d) => (.nothing, d)
    | _ => return (.nothing, d)
  | _ => return (.nothing, d)

/-- The failure becomes a message where it is shown; it passes through otherwise. -/
def contained (f : Failure) : Except Failure String :=
  if f.isDataFault || f.isMissingFile then .ok f.message else .error f

/-- Loads settings from the file that was chosen; on failure only the message changes. -/
def chooseSettings (d : Dashboard) (id name : String) (form : SettingsForm) :
    Except Failure Dashboard :=
  let form := { form with picker := form.picker.enter (some name) }
  if name = "" then .ok (d.setWidget id (.settings form))
  else
    match Library.loadSettings d.files name with
    | .ok s =>
      let form := { form with picker := form.picker.follow (some name), alert := none }
      .ok ({ d with draft := d.draft.load s }.setWidget id (.settings form))
    | .error f =>
      (contained f).map fun text => d.setWidget id (.settings { form with alert := some text })

/-- Loads the recording that was chosen into the player. -/
def choosePlayback (d : Dashboard) (id name : String) (panel : PlaybackPanel) :
    Except Failure Dashboard :=
  let panel := { panel with picker := panel.picker.enter (some name) }
  if name = "" then .ok (d.setWidget id (.playback panel))
  else
    match Library.loadRecording d.files name with
    | .ok receptions =>
      let frames := receptions.map fun r => Feed.entries (r.devices.map Item.device)
      let d := { d with hub := d.hub.modifyPlayer 0 (·.loaded frames (some name)) }
      .ok (d.setWidget id (.playback { panel with alert := none }))
    | .error f =>
      (contained f).map fun text => d.setWidget id (.playback { panel with alert := some text })

/-- Choosing what is shown already does nothing. -/
def choose (d : Dashboard) (id name : String) : Except Failure Dashboard := do
  match ← d.widget id with
  | .settings form =>
    if form.picker.shown = some name then return d else d.chooseSettings id name form
  | .playback panel =>
    if panel.picker.shown = some name then return d else d.choosePlayback id name panel
  | _ => return d

/-- Types into the field with a label; typing what is shown already does nothing. -/
def edit (d : Dashboard) (id label typed : String) : Except Failure Dashboard := do
  match ← d.widget id with
  | .settings form =>
    let index := Field.form.findIdx (·.label == label)
    match Field.form[index]?, form.inputs[index]? with
    | some f, some input =>
      if input.shown = typed then return d
      else
        let form := { form with inputs := form.inputs.set index (input.enter typed) }
        return { d with draft := f.enter typed d.draft }.setWidget id (.settings form)
    | _, _ => return d
  | _ => return d

/-- Carries out a command; the widgets are not yet brought up to date. -/
def carryOut (d : Dashboard) : Command → Result
  | .mount id sort settings => d.mount id sort settings
  | .unmount id => d.unmount id
  | .click id button => d.click id button
  | .choose id name => (d.choose id name).map fun d => (.nothing, d)
  | .edit id label typed => (d.edit id label typed).map fun d => (.nothing, d)
  | .fields => .ok (.fields ((Field.form.map (·.label)).zip d.draft.texts), d)
  | .update payload =>
    (d.act (Hub.update noScripts payload)).map fun (n, d) => (.number n, d)
  | .updateDevice name changes =>
    (d.act (Hub.updateDevice noScripts name changes)).map fun (b, d) => (.flag b, d)
  | .clear => (d.act (Hub.clear noScripts)).map fun (_, d) => (.nothing, d)
  | .emit topic => (d.emit topic).map fun (n, d) => (.number n, d)
  | .put path node => (d.files.place path node).map fun t => (.nothing, { d with files := t })

/-- Carries out a command and brings everything up to date. -/
def step (d : Dashboard) (c : Command) : Result :=
  (d.carryOut c).map fun (reply, d) => (reply, d.refreshed)

end Dashboard

end FleetMap
