import GridRobot.Files
import GridRobot.Program.Stack
import GridRobot.Settings.Basic
import GridRobot.Settings.Table

/-!
# Settings files

Where settings are looked for, and how a file is read.
-/

namespace GridRobot.Settings

/-- The names of settings files, in the order in which they are looked for. -/
def fileNames : List String :=
  ["robolang.json", "robolang.toml"]

/-- The settings file of a directory. -/
def find {m : Type → Type} [Monad m] (lookUp : String → m FileEntry) (directory : String) :
    m (Option String) := do
  for name in fileNames do
    let path := joinPath directory name
    if (← lookUp path).isFile then return some path
  return none

/-- Why a settings file cannot be used. -/
inductive LoadFault where
  | file (fault : FileFault)
  | data (failure : Json.Failure) (text : String)
  | table
  | notTable (path : String)

/-- The wording of a fault. -/
def LoadFault.message : LoadFault → String
  | .file fault => fault.message
  | .data failure text => failure.message text.toList
  | .table => "the file is not a table of settings"
  | .notTable path => "Config file " ++ path ++ " must contain a table of settings"

/-- The data of a settings file. The ending of its path tells the form. -/
def readData (path : String) (text : String) : Except LoadFault Json :=
  if path.endsWith ".toml" then
    match readTable? text.toList with
    | some table => .ok table
    | none => .error .table
  else
    match Document.boundedDecode Stack.usual.data text with
    | .ok value => .ok value
    | .error failure => .error (.data failure text)

/-- The table of settings in the data of a file: the data itself, or the table named after the
program inside it. -/
def tableOf (path : String) (data : Json) : Except LoadFault (List (Text × Json)) :=
  match data with
  | .obj fields =>
      match Json.field? fields "robolang" with
      | some (.obj inner) => .ok inner
      | _ => .ok fields
  | _ => .error (.notTable path)

/-- Settings that were loaded, with what was noted on the way. -/
structure Loaded where
  settings : Settings := {}
  records : List Log.Record := []

/-- The settings of the text of a file. -/
def ofText (path : String) (text : String) : Except LoadFault Loaded := do
  let data ← readData path text
  let table ← tableOf path data
  let found : Log.Record := ⟨.debug, "config", .ofString ("Loaded config " ++ path)⟩
  return ⟨ofTable table, found :: tableRecords table⟩

/-- Loads the settings file with a given path, or the one of the current directory if none is
given. Without a file the settings are the usual ones. -/
def load {m : Type → Type} [Monad m] (lookUp : String → m FileEntry) (given : Option String) :
    m (Except LoadFault Loaded) := do
  let path ←
    match given with
    | some path => if path = "" then find lookUp "." else pure (some path)
    | none => find lookUp "."
  match path with
  | none => return .ok {}
  | some path =>
      let entry ← lookUp path
      match entry.text path .utf8 with
      | .error fault => return .error (.file fault)
      | .ok text => return ofText path text

end GridRobot.Settings
