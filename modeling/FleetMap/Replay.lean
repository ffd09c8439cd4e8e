import FleetMap.Files.Library
import FleetMap.Hub.Session

/-!
Replaying recordings as text. Each recording is played through a hub of its own with one view; after
every frame the view's scene is printed.
-/

set_option autoImplicit false

namespace FleetMap.Replay

/-- What a replay leaves: the printed text, the notes and how it ended. -/
structure Outcome where
  printed : String
  notes : List Note
  /-- The exit status, or the failure that was not contained. -/
  result : Except Failure Nat

/-- A text filled up with blanks on the right. -/
def padded (width : Nat) (s : String) : String :=
  s ++ String.ofList (List.replicate (width - s.length) ' ')

/-- A scene in lines: its mode, its sprites, the devices left out. -/
def sceneLines (s : Scene) : List String :=
  let mode := if s.backdrop.transform = Settings.flatTransform then "flat" else "isometric"
  ("  [" ++ mode ++ ", " ++ s.backdrop.pattern ++ "] " ++ decimalOfInt s.sprites.length ++
      " devices") ::
    (s.sprites.map fun sprite => "    " ++ padded 7 sprite.color ++ " " ++ sprite.label) ++
    s.skipped.map fun name => "    (skipped malformed device '" ++ name ++ "')"

/-- The first line on a recording. -/
def headline (name : String) (frames : Nat) : String :=
  "--- Replaying " ++ name ++ ": " ++ decimalOfInt frames ++ " frames ---"

/-- Plays at most so many frames and prints the view after each. -/
def playFrames (player view : Nat) : Nat → Act (List String)
  | 0 => return []
  | fuel + 1 => do
    if ← Hub.stepPlayer noScripts player then
      let index := ((← Act.player? player).map (·.index)).getD 0
      let scene ← Hub.render view
      let others ← playFrames player view fuel
      return ("Frame " ++ decimalOfInt index ++ ":") :: sceneLines scene ++ others
    else return []

/-- The lines on a recording, which is played through a view with the given settings. -/
def recording (name : String) (frames : List (List Device)) (s : Settings) : Act (List String) := do
  modify fun w =>
    { w with
      views := [View.fresh "main" s none]
      players := [Player.ofFrames (frames.map fun ds => .entries (ds.map .device))] }
  Hub.activate noScripts 0
  let lines ← playFrames 0 0 (frames.length + 1)
  Hub.deactivate 0
  return headline name frames.length :: lines ++ ["", ""]

def notesOf (w : World) : List Note :=
  w.journal.reverse.filterMap fun
    | .noted n => some n
    | _ => none

/-- Lines as text, each with its line end. -/
def ofLines (lines : List String) : String := String.join (lines.map (· ++ "\n"))

/-- Replays recordings in turn; one whose data are at fault is skipped with a line on it. -/
def recordings (t : Tree) (s : Settings) : List String → Outcome
  | [] => ⟨"", [], .ok 0⟩
  | name :: rest =>
    match Library.loadRecording t name with
    | .error f =>
      if f.isDataFault then
        let others := recordings t s rest
        { others with
          printed := ofLines ["Skipping " ++ name ++ ": " ++ f.message] ++ others.printed }
      else ⟨"", [], .error f⟩
    | .ok receptions =>
      let noted := receptions.flatMap Reception.notes
      match (recording name (receptions.map (·.devices)) s).run World.empty with
      | .ok lines w =>
        let others := recordings t s rest
        { others with
          printed := ofLines lines ++ others.printed
          notes := noted ++ notesOf w ++ others.notes }
      | .error (.failed f) w => ⟨"", noted ++ notesOf w, .error f⟩
      | .error _ w => ⟨"", noted ++ notesOf w, .ok 1⟩

/-- The file of settings that is used if it is there. -/
def defaultName : String := "default.json"

/-- Replays all recordings of a tree with the default settings, its own or the standard ones. -/
def all (t : Tree) : Outcome :=
  let loaded :=
    if defaultName ∈ Library.settingsNames t then Library.loadSettings t defaultName
    else .ok .standard
  match loaded with
  | .error (.rejected r) => ⟨ofLines ["Invalid map config: " ++ r.report], [], .ok 1⟩
  | .error f => ⟨"", [], .error f⟩
  | .ok s =>
    match Library.recordingNames t with
    | [] => ⟨ofLines ["No recordings found."], [], .ok 0⟩
    | names => recordings t s names

end FleetMap.Replay
