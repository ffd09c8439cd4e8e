import FleetMap.Dashboard.Follower
import FleetMap.Files.Library
import FleetMap.Hub.Operations
import FleetMap.Markup
import FleetMap.Settings.Field
import FleetMap.Table

/-!
The widgets of the dashboard and what each of them shows. A map and a table may have settings of
their own and follow the draft otherwise. The playback widget is drawn anew only when something it
watches changes; the number of frames is not among these things.
-/

set_option autoImplicit false

namespace FleetMap

/-- What the playback widget watches. -/
structure PlaybackWatch where
  options : List String
  alert : Option String
  name : Option String
  index : Nat
  playing : Bool
  deriving DecidableEq

/-- The playback widget as it was last drawn. -/
structure PlaybackFace where
  watch : PlaybackWatch
  /-- Number of frames at that time. -/
  count : Nat
  deriving DecidableEq

namespace PlaybackFace

def text (f : PlaybackFace) : String :=
  "Frame " ++ decimalOfInt f.watch.index ++ " / " ++ decimalOfInt f.count

def canPlay (f : PlaybackFace) : Bool := !f.watch.playing && f.count != 0

def canPause (f : PlaybackFace) : Bool := f.watch.playing

def canStep (f : PlaybackFace) : Bool := !f.watch.playing && f.watch.index < f.count

/-- Drawn anew if what it watches has changed. -/
def redraw (f : PlaybackFace) (watch : PlaybackWatch) (count : Nat) : PlaybackFace :=
  if f.watch = watch then f else ⟨watch, count⟩

end PlaybackFace

/-- The settings form: a picker of files, a message, one input for each field. -/
structure SettingsForm where
  options : List String
  picker : Follower (Option String)
  alert : Option String
  inputs : List (Follower String)
  deriving DecidableEq

structure PlaybackPanel where
  options : List String
  picker : Follower (Option String)
  alert : Option String
  face : PlaybackFace
  deriving DecidableEq

inductive Widget where
  | settings (form : SettingsForm)
  | map (view : Nat) (own : Option Settings)
  | table (inbox : Nat) (own : Option Settings)
  | controls
  | playback (panel : PlaybackPanel)
  deriving DecidableEq

namespace Widget

/-- Whether what it shows depends on the draft. -/
def followsDraft : Widget → Bool
  | map _ own => own.isNone
  | table _ own => own.isNone
  | _ => false

end Widget

/-- Texts of the fields of the form for a draft. -/
def Draft.texts (d : Draft) : List String :=
  Field.form.map fun f => (f.text d).toOption.getD ""

/-- The message under a map on devices that it does not show. -/
def Scene.warning? (s : Scene) : Option String :=
  if s.skipped.isEmpty then none
  else
    some (decimalOfInt s.skipped.length ++
      " device(s) without a usable position or orientation not shown: " ++
      ", ".intercalate s.skipped)

namespace Table

/-- How many rows a table shows at once. -/
def pageSize : Nat := 20

/-- What a table says that has no rows. -/
def emptyText : String := "No devices published yet."

/-- The texts of the rows on the first page. -/
def page (s : Settings) (ds : List Device) : List (List String) :=
  ((grid s ds).take pageSize).map fun cells => cells.map cellText

end Table

end FleetMap
