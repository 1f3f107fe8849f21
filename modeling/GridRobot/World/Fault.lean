import GridRobot.Diagnostic
import GridRobot.Text.Quoted

/-!
# Faults of a running program

An action can fail in the world, a run can use up its budget, and a program that was put together
by hand can hold names or parts that mean nothing.
-/

namespace GridRobot

/-- Why a program stopped before its end. -/
inductive Fault where
  | moveBlocked
  | noBeeperHere
  | noBeeperInBag
  | stepLimit (limit : Int)
  | instructionLimit (limit : Int)
  | unknownName (name : String)
  | notCondition (shown : String)
  | notCompilable (kind : String)
  | notExecutable (kind : String)
  deriving DecidableEq, Repr

namespace Fault

/-- The wording for a limit of steps that is reached. -/
def stepLimitMessage (limit : Text) : Text :=
  "Step limit of " ++ limit ++ " reached"

/-- The wording for a limit of instructions that is reached. -/
def instructionLimitMessage (limit : Text) : Text :=
  "Instruction limit of " ++ limit ++ " reached"

/-- The wording of a fault. -/
def message : Fault → Text
  | .moveBlocked => "Move blocked"
  | .noBeeperHere => "No beeper here"
  | .noBeeperInBag => "No beeper in bag"
  | .stepLimit limit => stepLimitMessage (toString limit)
  | .instructionLimit limit => instructionLimitMessage (toString limit)
  | .unknownName name => Text.quoted name
  | .notCondition shown => "Not a condition: " ++ shown
  | .notCompilable kind => "Cannot compile " ++ kind
  | .notExecutable kind => "No visit method for " ++ kind

/-- The category and code of a fault that a checked program can meet. -/
def classification? : Fault → Option (Category × String)
  | .moveBlocked => some (.action, "MOVE_BLOCKED")
  | .noBeeperHere => some (.action, "NO_BEEPER_HERE")
  | .noBeeperInBag => some (.action, "NO_BEEPER_IN_BAG")
  | .stepLimit _ => some (.limit, "STEP_LIMIT")
  | .instructionLimit _ => some (.limit, "INSTRUCTION_LIMIT")
  | .unknownName _ | .notCondition _ | .notCompilable _ | .notExecutable _ => none

end Fault

/-- A fault and the source line it is blamed on. -/
structure Failure where
  fault : Fault
  line : Option Int := none
  deriving DecidableEq, Repr

/-- The report of a failure. Faults of programs put together by hand have none. -/
def Failure.report? (failure : Failure) : Option Report :=
  failure.fault.classification?.map fun (category, code) =>
    { category, code, message := failure.fault.message, line := failure.line }

end GridRobot
