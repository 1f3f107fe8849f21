import GridRobot.Text.Encoding

/-!
# Files

What is found under a path, and how its text is read. How paths are looked up is left to the caller;
a store of files is one way.
-/

namespace GridRobot

/-- What is found under a path. A path that goes on after a file leads nowhere, and neither does one
with a name that is too long. -/
inductive FileEntry where
  | missing
  | directory
  | beyondFile
  | tooLong
  | contents (bytes : List UInt8)
  deriving DecidableEq, Repr

/-- Why a file has no text. -/
inductive FileFault where
  | missing (path : String)
  | directory (path : String)
  | beyondFile (path : String)
  | tooLong (path : String)
  | nullInPath
  | undecodable (fault : Text.DecodeFault)
  deriving DecidableEq, Repr

/-- The wording of a fault. -/
def FileFault.message : FileFault → String
  | .missing path => "[Errno 2] No such file or directory: " ++ Text.quoted path
  | .directory path => "[Errno 21] Is a directory: " ++ Text.quoted path
  | .beyondFile path => "[Errno 20] Not a directory: " ++ Text.quoted path
  | .tooLong path => "[Errno 36] File name too long: " ++ Text.quoted path
  | .nullInPath => "embedded null byte"
  | .undecodable fault => fault.message

namespace FileEntry

/-- The text of what is found under a path. -/
def text (path : String) (encoding : Text.Encoding) (entry : FileEntry) :
    Except FileFault String :=
  if path.toList.contains '\x00' then .error .nullInPath
  else
    match entry with
    | .missing => .error (.missing path)
    | .directory => .error (.directory path)
    | .beyondFile => .error (.beyondFile path)
    | .tooLong => .error (.tooLong path)
    | .contents bytes => (Text.decode encoding bytes).mapError .undecodable

/-- Whether a path leads to a file. -/
def isFile : FileEntry → Bool
  | .contents _ => true
  | _ => false

end FileEntry

/-- A path in its shortest form: repeated slashes and steps to the same place are left out. -/
def plainPath (path : String) : String :=
  let parts := (path.splitOn "/").filter fun part => part != "" && part != "."
  let joined := "/".intercalate parts
  if path.startsWith "/" then "/" ++ joined else if joined = "" then "." else joined

/-- The path of a name in a directory. -/
def joinPath (directory name : String) : String :=
  if directory = "" ∨ directory.endsWith "/" then directory ++ name
  else directory ++ "/" ++ name

/-- A store of files: their places, from the directory in which paths start, and their bytes. -/
structure FileStore where
  files : List (List String × List UInt8)

namespace FileStore

/-- The store of files with given paths. -/
def ofList (files : List (String × List UInt8)) : FileStore :=
  ⟨files.map fun (path, bytes) =>
    ((path.splitOn "/").filter fun part => part != "" && part != ".", bytes)⟩

/-- What stands in a place. Directories are there as far as files need them. -/
def entryAt (store : FileStore) (place : List String) : FileEntry :=
  match store.files.find? fun (other, _) => other == place with
  | some (_, bytes) => .contents bytes
  | none =>
      if place.isEmpty || store.files.any fun (other, _) => place.isPrefixOf other then .directory
      else .missing

/-- The longest name that a file may have, in bytes. -/
def nameLimit : Nat := 255

/-- The longest path, in bytes. -/
def pathLimit : Nat := 4095

/-- Follows the parts of a path from a place. Above the start nothing is known but directories. -/
def follow (store : FileStore) : (place : Option (List String)) → List String → FileEntry
  | none, [] => .directory
  | some place, [] => store.entryAt place
  | none, part :: rest =>
      if part = "" ∨ part = "." ∨ part = ".." then store.follow none rest else .missing
  | some place, part :: rest =>
      match store.entryAt place with
      | .directory =>
          if part = "" ∨ part = "." then store.follow (some place) rest
          else if part = ".." then
            store.follow (if place.isEmpty then none else some place.dropLast) rest
          else if nameLimit < part.utf8ByteSize then .tooLong
          else store.follow (some (place ++ [part])) rest
      | .contents _ => .beyondFile
      | other => other

/-- What is found under a path. -/
def lookUp (store : FileStore) (path : String) : FileEntry :=
  if path = "" then .missing
  else if pathLimit < path.utf8ByteSize then .tooLong
  else
    store.follow (if path.startsWith "/" then none else some []) (path.splitOn "/")

end FileStore

end GridRobot
