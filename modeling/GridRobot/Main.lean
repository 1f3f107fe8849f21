import GridRobot.CommandLine.Outcome

/-!
# The program

Looks up files, prints what an invocation prints, and ends with its status.
-/

namespace GridRobot

/-- What is found under a path on disk. What is there but cannot be read is a directory. A failure
that names the file is about the way to it. -/
def lookUpOnDisk (path : String) : IO FileEntry := do
  try
    let bytes ← IO.FS.readBinFile path
    return .contents bytes.data.toList
  catch error =>
    match error with
    | .noFileOrDirectory .. => return .missing
    | .inappropriateType (some _) _ _ => return .beyondFile
    | .invalidArgument .. => return .tooLong
    | _ => return .directory

end GridRobot

open GridRobot in
/-- The entry point. -/
def main (arguments : List String) : IO UInt32 := do
  let outcome ← CommandLine.outcome lookUpOnDisk arguments
  IO.print outcome.output
  IO.eprint outcome.errors.printable
  match outcome.ending with
  | .exit status => return status.toUInt32
  | .escape cause =>
      IO.eprintln cause.message.printable
      return 1
