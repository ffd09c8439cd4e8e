import FleetMap.Files.Tree
import FleetMap.Intake.Payload
import FleetMap.Json.Writer
import FleetMap.Text.Lines

/-!
The library of settings and recordings on file. Both are JSON; settings are checked as a whole,
recordings device by device, and a device that is none is dropped from its frame.
-/

set_option autoImplicit false

namespace FleetMap.Library

def settingsFolder : Path := ["scenarios"]

def recordingsFolder : Path := ["frames"]

def isJsonName (name : String) : Bool := name.endsWith ".json"

/-- Names of the files of a folder that end in `.json`, in the order of their characters. -/
def list (t : Tree) (folder : Path) : List String :=
  match t.locate [] ("/".intercalate folder) with
  | .present p .directory => ((t.entries p).filter isJsonName).mergeSort fun a b => !decide (b < a)
  | _ => []

def settingsNames (t : Tree) : List String := list t settingsFolder

def recordingNames (t : Tree) : List String := list t recordingsFolder

/-- Text as it is read from a file. -/
def textOfBytes (bytes : List UInt8) : Except Failure (List Char) :=
  match Utf8.decode bytes with
  | .ok cs => .ok (unifyLineEnds cs)
  | .error f => .error (.brokenText f)

/-- The JSON value in a file. -/
def valueOfBytes (bytes : List UInt8) : Except Failure Value := do
  let text ← textOfBytes bytes
  (Json.read text).mapError (Json.Fault.toFailure text)

/-- The text of a file. -/
def readText (t : Tree) (written : String) : Except Failure String := do
  let bytes ← t.read [] written
  String.ofList <$> textOfBytes bytes

/-- The value in a file that has to be there; `absent` says how its absence is reported. -/
def loadValue (t : Tree) (folder : Path) (name : String) (absent : String → Failure) :
    Except Failure Value :=
  match t.locate folder name with
  | .present _ (.file bytes) => valueOfBytes bytes
  | .present _ .directory => .error (.isDirectory (t.shown folder name))
  | _ => .error (absent (t.shown folder name))

/-- Settings out of the value in a file. -/
def settingsOfValue : Value → Except Failure Settings
  | .object fields => ((Intake.settingsFields fields).conclude .settings).mapError .rejected
  | v => .error (.notMapping v.kind)

def loadSettings (t : Tree) (name : String) : Except Failure Settings := do
  let v ← loadValue t settingsFolder name .missingSettings
  settingsOfValue v

/-- The items of each frame, if the value is a list of lists. -/
def framesOfValue? : Value → Option (List (List Value))
  | .list frames =>
    frames.mapM fun
      | .list items => some items
      | _ => none
  | _ => none

/-- What came of each frame of a recording. -/
def loadRecording (t : Tree) (name : String) : Except Failure (List Reception) := do
  let v ← loadValue t recordingsFolder name .missingRecording
  match framesOfValue? v with
  | some frames => return frames.map fun items => Reception.ofItems (items.map .raw)
  | none => .error (.notFrames name)

/-- Writes a file into a folder, which is made if need be, also if the file cannot be written. -/
def save (t : Tree) (folder : Path) (name : String) (text : List Char) :
    Except Failure Unit × Tree :=
  match t.makeDirectories [] folder with
  | .error f => (.error f, t)
  | .ok t =>
    match t.write folder name (Utf8.encode text) with
    | .error f => (.error f, t)
    | .ok t => (.ok (), t)

def settingsText (s : Settings) : List Char := Json.text .settings s.toValue

def recordingText (frames : List (List Device)) : List Char :=
  Json.text .recording (.list (frames.map fun ds => .list (ds.map Device.toSparseValue)))

def saveSettings (t : Tree) (s : Settings) (name : String) : Except Failure Unit × Tree :=
  save t settingsFolder name (settingsText s)

def saveRecording (t : Tree) (frames : List (List Device)) (name : String) :
    Except Failure Unit × Tree :=
  save t recordingsFolder name (recordingText frames)

end FleetMap.Library
