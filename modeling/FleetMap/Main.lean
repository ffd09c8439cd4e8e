import FleetMap.Replay

/-!
The command line. Its arguments name recordings in the folder of recordings; they are replayed as
text with the default settings if there are any. Notes go to the error stream.
-/

set_option autoImplicit false

namespace FleetMap

/-- Adds a file to a tree, if it can be read. -/
def collectFile (t : Tree) (written : String) : IO Tree := do
  try
    let bytes ← IO.FS.readBinFile written
    match t.place written (.file bytes.toList) with
    | .ok t => return t
    | .error _ => return t
  catch _ => return t

/-- How a note is printed. -/
def Note.line (n : Note) : String :=
  let level := match n.level with
    | .info => "INFO"
    | .warning => "WARNING"
    | .error => "ERROR"
  "[" ++ level ++ "] " ++ n.text

/-- Replays the named recordings and returns the exit status. -/
def replayNamed (names : List String) : IO UInt32 := do
  let settings := "/".intercalate (Library.settingsFolder ++ [Replay.defaultName])
  let mut tree ← collectFile (.empty ".") settings
  for name in names do
    tree ← collectFile tree ("/".intercalate (Library.recordingsFolder ++ [name]))
  let outcome := Replay.all tree
  IO.print outcome.printed
  for n in outcome.notes do
    IO.eprintln n.line
  match outcome.result with
  | .ok status => return UInt32.ofNat status
  | .error f =>
    IO.eprintln f.message
    return 1

end FleetMap

def main (arguments : List String) : IO UInt32 := FleetMap.replayNamed arguments
