import FleetMap.Settings.Draft
import FleetMap.Settings.FieldText
import FleetMap.Settings.Group

/-!
The form for settings: which entries can be edited, how each is labelled and what is typed into it.
-/

set_option autoImplicit false

namespace FleetMap

/-- One input field of the settings form. -/
structure Field where
  key : String
  group : String
  label : String
  /-- The published format: a hint at what the text stands for. -/
  format : String
  sort : FieldSort
  deriving DecidableEq, Repr

namespace Field

/-- The fields in the order of the record. -/
def all : List Field :=
  [⟨"scale", "Projection", "Scale (px/unit)", "float", .float⟩,
    ⟨"palette", "Projection", "Palette", "list", .list⟩,
    ⟨"sprite_size", "Projection", "Sprite Size", "px", .text⟩,
    ⟨"pattern_count", "Background", "Patterns", "int", .int⟩,
    ⟨"isometric_top_px", "Projection", "Isometric Offset", "px", .int⟩,
    ⟨"playback_interval", "Playback", "Frame Interval (s)", "float", .float⟩]

/-- The fields in the order of the form. -/
def form : List Field :=
  (groupFields preferredGroups (fun f => some f.group) all).flatMap (·.2)

/-- The published hints on a field. -/
def hints (f : Field) : List (String × Value) :=
  [("ui_group", .text f.group), ("ui_label", .text f.label), ("ui_format", .text f.format)]

/-- The text that a field shows. -/
def text (f : Field) (d : Draft) : Except Failure String :=
  FieldText.write (f.sort = .list) (d.get f.key)

/-- The draft after a text was typed into a field; a text without a value is ignored. -/
def enter (f : Field) (typed : String) (d : Draft) : Draft :=
  match FieldText.read f.sort typed with
  | .ok v => d.set f.key v
  | .error _ => d

end Field

end FleetMap
