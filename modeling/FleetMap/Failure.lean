import FleetMap.Intake.Report
import FleetMap.Json.Reader
import FleetMap.Projection
import FleetMap.Text.Utf8

/-!
Everything that can go wrong, by cause, with its wording. `IsDataFault` singles out the causes that
lie in the data alone: those are caught where data is loaded, and all others pass through.
-/

set_option autoImplicit false

namespace FleetMap

inductive Failure where
  /-- A record was not accepted. -/
  | rejected (r : Rejection)
  /-- Data that has no items was handed over as a sequence. -/
  | notIterable (kind : Kind)
  /-- A patch tries to set an argument that is already given. -/
  | reservedChange (key : String)
  | unplaceable (m : Misfit)
  | unroundable (f : RoundFault)
  /-- A scripted callback raised an error. -/
  | scripted (text : String)
  /-- An error carries a value that is nested too deep to be shown. -/
  | deepValue
  | missingMember (object member : String)
  | notCallable (object : String)
  | missingArgument (method argument : String)
  /-- A playback loop was started inside of another one. -/
  | nestedLoop
  | unknownName (name : String)
  | noInteger (text : String)
  | noNumber (text : String)
  /-- An integer with too many digits, which are counted if it is read and not if it is written. -/
  | longInteger (digits : Option Nat)
  | brokenJson (complaint : Json.Complaint) (line column offset : Nat)
  | deepJson (array : Bool)
  | brokenText (fault : Utf8.Fault)
  | missingSettings (path : String)
  | missingRecording (path : String)
  | missingFile (path : String)
  | isDirectory (path : String)
  | notDirectory (path : String)
  | alreadyExists (path : String)
  /-- The settings in a file are no record. -/
  | notMapping (kind : Kind)
  /-- The recording in a file is no list of lists. -/
  | notFrames (file : String)
  | notJoinable
  | notJoinableItem (index : Nat) (kind : Kind)

namespace Failure

def message : Failure → String
  | rejected r => r.report
  | notIterable kind => "'" ++ kind.name ++ "' object is not iterable"
  | reservedChange key =>
    "SimulationStateRegistry.update_device() got multiple values for argument '" ++ key ++ "'"
  | unplaceable m => m.message
  | unroundable f => f.message
  | scripted text => text
  | deepValue => "maximum recursion depth exceeded while getting the repr of an object"
  | missingMember object member => "'" ++ object ++ "' object has no attribute '" ++ member ++ "'"
  | notCallable object => "'" ++ object ++ "' object is not callable"
  | missingArgument method argument =>
    method ++ "() missing 1 required positional argument: '" ++ argument ++ "'"
  | nestedLoop => "asyncio.run() cannot be called from a running event loop"
  | unknownName name => quoted name
  | noInteger text =>
    "invalid literal for int() with base 10: " ++ String.ofList ((quoted text).toList.take 200)
  | noNumber text => "could not convert string to float: " ++ quoted text
  | longInteger digits =>
    let count :=
      match digits with
      | some n => ": value has " ++ decimalOfInt n ++ " digits"
      | none => ""
    "Exceeds the limit (" ++ decimalOfInt digitLimit ++
      " digits) for integer string conversion" ++ count ++
      "; use sys.set_int_max_str_digits() to increase the limit"
  | brokenJson complaint line column offset =>
    complaint.message ++ ": line " ++ decimalOfInt line ++ " column " ++ decimalOfInt column ++
      " (char " ++ decimalOfInt offset ++ ")"
  | deepJson array =>
    "maximum recursion depth exceeded while decoding a JSON " ++
      (if array then "array" else "object") ++ " from a unicode string"
  | brokenText f =>
    let place :=
      if f.length = 1 then
        "byte 0x" ++ String.ofList (hexDigits 2 f.byte.toNat) ++ " in position " ++
          decimalOfInt f.position
      else
        "bytes in position " ++ decimalOfInt f.position ++ "-" ++
          decimalOfInt (f.position + f.length - 1 : Nat)
    "'utf-8' codec can't decode " ++ place ++ ": " ++ f.reason.message
  | missingSettings path => "Config file not found: " ++ path
  | missingRecording path => "Recording not found: " ++ path
  | missingFile path => "[Errno 2] No such file or directory: " ++ quoted path
  | isDirectory path => "[Errno 21] Is a directory: " ++ quoted path
  | notDirectory path => "[Errno 20] Not a directory: " ++ quoted path
  | alreadyExists path => "[Errno 17] File exists: " ++ quoted path
  | notMapping kind =>
    "device_map_sim.schemas.config.MapConfig() argument after ** must be a mapping, not " ++
      kind.name
  | notFrames file => file ++ ": expected a list of device lists"
  | notJoinable => "can only join an iterable"
  | notJoinableItem index kind =>
    "sequence item " ++ decimalOfInt index ++ ": expected str instance, " ++ kind.name ++ " found"

/-- The fault lies in the text, the numbers or the records of the data that was read. -/
def isDataFault : Failure → Bool
  | rejected _ => true
  | unplaceable _ => true
  | unroundable .nan => true
  | noInteger _ => true
  | noNumber _ => true
  | longInteger _ => true
  | brokenJson .. => true
  | brokenText _ => true
  | notFrames _ => true
  | _ => false

/-- The file that was asked for is not there. -/
def isMissingFile : Failure → Bool
  | missingSettings _ => true
  | missingRecording _ => true
  | missingFile _ => true
  | _ => false

end Failure

/-- How something stops before its end. -/
inductive Stop where
  | failed (f : Failure)
  /-- An error without text: who asks for its text is stopped, too. -/
  | mute (asking : Stop)
  | cancelled

namespace Stop

/-- The text of an error, or what comes of asking for it. -/
def text : Stop → Except Stop String
  | failed f => .ok f.message
  | mute asking => .error asking
  | cancelled => .error .cancelled

/-- A stop that can break off a fan-out: it has no text. -/
def breaks : Stop → Bool
  | failed _ => false
  | mute _ => true
  | cancelled => true

end Stop

/-- A fault in JSON text, with its place in the text. -/
def Json.Fault.toFailure (text : List Char) : Json.Fault → Failure
  | .broken complaint rest =>
    let (line, column, offset) := placeOf text rest
    .brokenJson complaint line column offset
  | .tooLong digits => .longInteger (some digits)
  | .tooDeep array => .deepJson array

end FleetMap
