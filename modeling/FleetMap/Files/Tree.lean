import FleetMap.Failure
import FleetMap.Text.Split

/-!
A tree of files. Nodes are known by their path from the root; the root itself is always there. A
path is walked step by step, and where it cannot be walked the reason says what stood in the way.
-/

set_option autoImplicit false

namespace FleetMap

abbrev Path := List String

inductive Node where
  | file (bytes : List UInt8)
  | directory
  deriving DecidableEq

structure Tree where
  /-- How the root is shown in messages. -/
  root : String
  nodes : List (Path × Node)

/-- Where a path leads. -/
inductive Spot where
  | present (path : Path) (node : Node)
  /-- The last step leads to nothing, but all before it are directories. -/
  | vacant (path : Path)
  | lost
  /-- A step before the last leads to a file. -/
  | blocked
  deriving DecidableEq

namespace Tree

def empty (root : String) : Tree := ⟨root, []⟩

def node? (t : Tree) (p : Path) : Option Node :=
  if p = [] then some .directory else (t.nodes.find? (·.1 == p)).map (·.2)

/-- Puts a node at a path, in place of what is there. -/
def put (t : Tree) (p : Path) (n : Node) : Tree :=
  { t with nodes := t.nodes.filter (·.1 != p) ++ [(p, n)] }

/-- Walks on from a directory; `..` leads back by one step. -/
def walk (t : Tree) (here : Path) : List String → Spot
  | [] => .present here .directory
  | step :: rest =>
    if step = ".." then
      if here = [] then .lost else walk t here.dropLast rest
    else
      let there := here ++ [step]
      match t.node? there, rest with
      | some .directory, _ => walk t there rest
      | some (.file bytes), [] => .present there (.file bytes)
      | some (.file _), _ => .blocked
      | none, [] => .vacant there
      | none, _ => .lost

/-- The steps of a written path; empty steps and single points say nothing. -/
def steps (written : String) : List String :=
  (splitText '/' written).filter fun step => step != "" && step != "."

/-- A path under a folder of the root as messages show it. -/
def shown (t : Tree) (folder : List String) (written : String) : String :=
  if written.startsWith "/" then "/" ++ "/".intercalate (steps written)
  else "/".intercalate (t.root :: (folder ++ steps written))

/-- Where a path under a folder leads; one that starts at the very top leads out of the tree. -/
def locate (t : Tree) (folder : List String) (written : String) : Spot :=
  if written.startsWith "/" then .lost else t.walk [] (folder ++ steps written)

/-- Names of the direct entries of a directory. -/
def entries (t : Tree) (folder : Path) : List String :=
  t.nodes.filterMap fun (p, _) =>
    if p.dropLast = folder then p.getLast? else none

/-- The bytes of a file; `shown` is the path for messages. -/
def read (t : Tree) (folder : List String) (written : String) : Except Failure (List UInt8) :=
  match t.locate folder written with
  | .present _ (.file bytes) => .ok bytes
  | .present _ .directory => .error (.isDirectory (t.shown folder written))
  | .blocked => .error (.notDirectory (t.shown folder written))
  | _ => .error (.missingFile (t.shown folder written))

/-- Writes a file into a directory that is there. -/
def write (t : Tree) (folder : List String) (written : String) (bytes : List UInt8) :
    Except Failure Tree :=
  match t.locate folder written with
  | .present p (.file _) => .ok (t.put p (.file bytes))
  | .vacant p => .ok (t.put p (.file bytes))
  | .present _ .directory => .error (.isDirectory (t.shown folder written))
  | .blocked => .error (.notDirectory (t.shown folder written))
  | .lost => .error (.missingFile (t.shown folder written))

/-- Makes the directories of a path one after another, those that are not there yet. -/
def makeDirectories (t : Tree) (here : Path) : List String → Except Failure Tree
  | [] => .ok t
  | step :: rest =>
    let there := here ++ [step]
    match t.node? there, rest with
    | some .directory, _ => makeDirectories t there rest
    | some (.file _), [] => .error (.alreadyExists (t.shown [] ("/".intercalate there)))
    | some (.file _), _ => .error (.notDirectory (t.shown [] ("/".intercalate (there ++ rest))))
    | none, _ => makeDirectories (t.put there .directory) there rest

/-- Puts a node at a written path and makes the directories on the way. -/
def place (t : Tree) (written : String) (n : Node) : Except Failure Tree :=
  let path := steps written
  match n with
  | .directory => t.makeDirectories [] path
  | .file bytes => do
    let t ← t.makeDirectories [] path.dropLast
    t.write [] written bytes

end Tree

end FleetMap
