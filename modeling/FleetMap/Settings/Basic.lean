import FleetMap.Text.Blank
import FleetMap.Value

/-!
Settings of the map: how device coordinates become pixels, which colors and background patterns are
used and how fast recordings are played. `Settings.Valid` is the law every accepted record obeys.
-/

set_option autoImplicit false

namespace FleetMap

structure Settings where
  name : String
  /-- Pixels per simulation unit. -/
  scale : Float
  /-- Colors in the order in which visible devices take them. -/
  palette : List String
  /-- Size of a sprite in the words of a style sheet. -/
  spriteSize : String
  patternCount : Nat
  /-- How far the tilted map is moved down, in pixels. -/
  isometricTop : Nat
  /-- Seconds between the frames of a recording. -/
  playbackInterval : Float
  deriving DecidableEq

namespace Settings

/-- A finite number above zero. -/
def IsPositive (x : Float) : Prop := x.isFinite = true ∧ 0 < x

structure Valid (s : Settings) : Prop where
  scale_positive : IsPositive s.scale
  palette_nonempty : s.palette ≠ []
  palette_not_blank : ∀ color ∈ s.palette, ¬ IsBlankText color
  patternCount_pos : 1 ≤ s.patternCount
  interval_positive : IsPositive s.playbackInterval

def standard : Settings where
  name := "Default"
  scale := 100.0
  palette := ["red", "orange", "yellow", "green", "blue", "indigo", "purple"]
  spriteSize := "30px"
  patternCount := 3
  isometricTop := 250
  playbackInterval := 0.5

instance : Inhabited Settings := ⟨standard⟩

theorem standard_valid : standard.Valid where
  scale_positive := ⟨by decide +kernel, by decide +kernel⟩
  palette_nonempty := by decide
  palette_not_blank := by decide +kernel
  patternCount_pos := by decide
  interval_positive := ⟨by decide +kernel, by decide +kernel⟩

/-- The entries of a record of settings, in the order in which they are checked and saved. -/
def entries (s : Settings) : List (String × Value) :=
  [("name", .text s.name), ("scale", .float s.scale), ("palette", .list (s.palette.map .text)),
    ("sprite_size", .text s.spriteSize), ("pattern_count", .int s.patternCount),
    ("isometric_top_px", .int s.isometricTop), ("playback_interval", .float s.playbackInterval)]

def toValue (s : Settings) : Value := .object s.entries

end Settings

/-- What a single map shows: the chosen background pattern and whether the map is tilted. -/
structure Stance where
  patternIndex : Nat
  isometric : Bool
  deriving DecidableEq

namespace Stance

def initial : Stance := ⟨0, false⟩

instance : Inhabited Stance := ⟨initial⟩

def entries (s : Stance) : List (String × Value) :=
  [("pattern_index", .int s.patternIndex), ("isometric", .bool s.isometric)]

def toValue (s : Stance) : Value := .object s.entries

end Stance

end FleetMap
