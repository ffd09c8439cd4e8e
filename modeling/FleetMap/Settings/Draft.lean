import FleetMap.Device
import FleetMap.Intake.Report
import FleetMap.Intake.Record
import FleetMap.Note

/-!
Settings while they are edited. A draft holds raw values, valid or not, and the last settings that
were valid; `settle` gives the settings in effect.
-/

set_option autoImplicit false

namespace FleetMap

structure Draft where
  /-- The raw value of each entry. -/
  entries : List (String × Value)
  lastValid : Settings

namespace Draft

def ofSettings (s : Settings) : Draft := ⟨s.entries, s⟩

/-- The raw value of an entry. -/
def get (d : Draft) (key : String) : Value := (lookupField key d.entries).getD .null

/-- Assigns a raw value; one that equals the value held changes nothing. -/
def set (d : Draft) (key : String) (v : Value) : Draft :=
  { d with entries := putField key (keepIfSame Value.same (d.get key) v) d.entries }

/-- Assigns all entries of valid settings. -/
def load (d : Draft) (s : Settings) : Draft :=
  { s.entries.foldl (fun d entry => d.set entry.1 entry.2) d with lastValid := s }

/-- The raw values as a record of settings. -/
def check (d : Draft) : Except Rejection Settings :=
  (Intake.settingsFields d.entries).conclude .settings

/-- The settings in effect: the raw values if they are valid, and else the last valid ones. -/
def settle (d : Draft) : Settings × Draft :=
  match d.check with
  | .ok s => (s, { d with lastValid := s })
  | .error _ => (d.lastValid, d)

/-- The note on raw values that are not valid. -/
def notes (d : Draft) : List Note :=
  match d.check with
  | .ok _ => []
  | .error r =>
    [⟨.warning, .settings, "Invalid map settings, keeping previous config: " ++ r.report⟩]

end Draft

end FleetMap
