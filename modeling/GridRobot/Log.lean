import GridRobot.Text.Basic

/-!
# Log records

What the parts of the toolchain note while they work. Only warnings are shown unless the user asks
for more.
-/

namespace GridRobot.Log

/-- How much a record matters. -/
inductive Level where
  | debug
  | info
  | warning
  deriving DecidableEq, Repr

/-- The name of a level. -/
def Level.name : Level → String
  | .debug => "DEBUG"
  | .info => "INFO"
  | .warning => "WARNING"

/-- A record: its level, the part of the toolchain that wrote it, and its text. -/
structure Record where
  level : Level
  part : String
  text : Text
  deriving DecidableEq, Repr

namespace Record

/-- A record as a line of output. -/
def render (record : Record) : Text :=
  record.level.name ++ " robolang." ++ record.part ++ ": " ++ record.text

/-- Whether a record is shown. -/
def shown (verbose : Bool) (record : Record) : Bool :=
  verbose || record.level == .warning

end Record

/-- The texts of the warnings among records, in order. -/
def warnings (records : List Record) : List Text :=
  (records.filter fun record => record.level == .warning).map Record.text

end GridRobot.Log
