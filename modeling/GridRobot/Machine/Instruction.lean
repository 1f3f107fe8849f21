import GridRobot.Program.Statement
import GridRobot.Text.Align

/-!
# Instructions

A program is run as a flat list of instructions. Targets of jumps are places in that list, counted
from zero. A choice is a test, its statements, a jump to its end, and its other part; a loop is a
test, its statements, and a jump back to the test.
-/

namespace GridRobot

/-- An instruction. A test goes on with the next instruction if its condition holds, and with its
target otherwise. -/
inductive Instr where
  | act (name : String) (line : Int)
  | jump (target : Int) (line : Int)
  | test (condition : Condition) (target : Int) (line : Int)
  deriving DecidableEq, Repr

namespace Instr

/-- The source line of an instruction. -/
def line : Instr → Int
  | .act _ line | .jump _ line | .test _ _ line => line

/-- The operation and its operands. -/
def operation : Instr → String
  | .act name _ => "ACT " ++ name
  | .jump target _ => "JUMP " ++ toString target
  | .test condition target _ =>
      "JUMP_IF_FALSE " ++ condition.text ++ " -> " ++ toString target

/-- The instruction as nested constructors, for debugging output. -/
def construction : Instr → String
  | .act name line => "Act(action=" ++ Text.quoted name ++ ", line=" ++ toString line ++ ")"
  | .jump target line => "Jump(target=" ++ toString target ++ ", line=" ++ toString line ++ ")"
  | .test condition target line =>
      "BranchIfFalse(condition=" ++ condition.construction ++ ", target=" ++ toString target ++
        ", line=" ++ toString line ++ ")"

/-- The first part of an instruction's condition that is no condition. -/
def stray? : Instr → Option Stray
  | .act _ _ | .jump _ _ => none
  | .test condition _ _ => condition.stray?

end Instr

namespace Code

mutual

/-- The instructions of a statement that start at a place. -/
def assembleOne (base : Nat) : Stmt → List Instr
  | .action name line => [.act name line]
  | .choice condition yes no line =>
      let first := assemble (base + 1) yes
      let middle := base + 1 + first.length + 1
      let second := assembleOther middle no
      .test condition middle line :: first ++ .jump (middle + second.length) line :: second
  | .loop condition body line =>
      let inner := assemble (base + 1) body
      .test condition (base + 1 + inner.length + 1) line :: inner ++ [.jump base line]
  | .stray _ => []

/-- The instructions of a list of statements that start at a place. -/
def assemble (base : Nat) : List Stmt → List Instr
  | [] => []
  | statement :: rest =>
      let first := assembleOne base statement
      first ++ assemble (base + first.length) rest

/-- The instructions of the other part of a choice that start at a place. -/
def assembleOther (base : Nat) : Option (List Stmt) → List Instr
  | none => []
  | some statements => assemble base statements

end

/-- One line of a listing: place, source line and operation. -/
def listingLine (place : Nat) (instr : Instr) : String :=
  Text.alignRight 4 (toString place) ++ "  line " ++ Text.alignLeft 4 (toString instr.line) ++
    " " ++ instr.operation

/-- The listing of a list of instructions. -/
def listing (code : List Instr) : String :=
  "\n".intercalate ((code.zipIdx 0).map fun (instr, place) => listingLine place instr)

/-- The first part of the conditions of a list of instructions that is no condition. -/
def stray? (code : List Instr) : Option Stray :=
  code.findSome? Instr.stray?

end Code

end GridRobot
