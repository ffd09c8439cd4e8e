import FleetMap.Dashboard.Widget

/-!
The dashboard: widgets over one registry, one bus, one player and one draft of settings. After every
command each widget is brought up to date with what it follows.
-/

set_option autoImplicit false

namespace FleetMap

structure Dashboard where
  files : Tree
  hub : World
  draft : Draft
  widgets : List (String × Widget)

namespace Dashboard

/-- The bus that the controls and the maps share. -/
def sharedBus : String := "main"

/-- A dashboard without widgets: no devices, no recording, standard settings. -/
def start (files : Tree) : Dashboard where
  files := files
  hub := { World.empty with buses := [(sharedBus, .empty)], players := [.ofFrames []] }
  draft := .ofSettings .standard
  widgets := []

def bus (d : Dashboard) : Bus := d.hub.bus sharedBus

def player (d : Dashboard) : Player := d.hub.players.headD (.ofFrames [])

/-- What a playback widget with the given options and message watches. -/
def watch (d : Dashboard) (options : List String) (alert : Option String) : PlaybackWatch :=
  ⟨options, alert, d.player.name, d.player.index, d.player.playing⟩

/-- The settings of a widget: its own, or those in effect. -/
def settingsFor (d : Dashboard) (own : Option Settings) : Settings := own.getD d.draft.settle.1

/-- A widget brought up to date. -/
def updateWidget (d : Dashboard) : Widget → Widget
  | .settings form =>
    .settings { form with inputs := List.zipWith Follower.follow form.inputs d.draft.texts }
  | .playback panel =>
    .playback { panel with
      picker := panel.picker.follow d.player.name
      face := panel.face.redraw (d.watch panel.options panel.alert) d.player.frames.length }
  | widget => widget

/-- A map on the screen works with the settings that are in effect for it. -/
def applySettings (d : Dashboard) (w : World) : Widget → World
  | .map view own => w.modifyView view fun v => { v with settings := d.settingsFor own }
  | _ => w

/-- The dashboard with all that follows something brought up to date. Only a widget that follows
the draft has it checked. -/
def refreshed (d : Dashboard) : Dashboard :=
  let hub := d.widgets.foldl (fun w entry => d.applySettings w entry.2) d.hub
  let draft := if d.widgets.any (·.2.followsDraft) then d.draft.settle.2 else d.draft
  { d with
    hub := hub
    draft := draft
    widgets := d.widgets.map fun (id, widget) => (id, d.updateWidget widget) }

/-- Runs an act on the hub; the notes it leaves are not kept. -/
def act {α : Type} (d : Dashboard) (x : Act α) : Except Failure (α × Dashboard) :=
  match x d.hub with
  | .ok a w => .ok (a, { d with hub := { w with journal := [] } })
  | .error (.failed f) _ => .error f
  | .error _ _ => .error (.scripted "broken off")

def widget (d : Dashboard) (id : String) : Except Failure Widget :=
  match lookupField id d.widgets with
  | some widget => .ok widget
  | none => .error (.unknownName id)

def setWidget (d : Dashboard) (id : String) (widget : Widget) : Dashboard :=
  { d with widgets := putField id widget d.widgets }

end Dashboard

end FleetMap
