import GridRobot.Program.Condition
import GridRobot.Text.Blank

/-!
# Condition expressions

The short form of a condition inside a data document: names, each with at most one `!` in front,
joined by `&&` and `||`. There are no parentheses and no precedence; the operators apply from left
to right. Blanks may stand anywhere between tokens.
-/

namespace GridRobot

/-- A letter or underscore, which can start a name. -/
def isNameStart (char : Char) : Bool :=
  ('a' ≤ char && char ≤ 'z') || ('A' ≤ char && char ≤ 'Z') || char == '_'

/-- A letter, digit or underscore, which can continue a name. -/
def isNamePart (char : Char) : Bool :=
  isNameStart char || ('0' ≤ char && char ≤ '9')

namespace Expression

/-- A token of a condition expression. -/
inductive Token where
  | and
  | or
  | not
  | name (text : String)
  deriving DecidableEq, Repr

/-- What is wrong with a condition expression. -/
inductive Fault where
  | malformed
  | empty
  | unknown (name : String)
  deriving DecidableEq, Repr

/-- The token at the front of a text and how many characters it has. -/
def token? : List Char → Option (Token × Nat)
  | '&' :: '&' :: _ => some (.and, 2)
  | '|' :: '|' :: _ => some (.or, 2)
  | '!' :: _ => some (.not, 1)
  | char :: rest =>
      if isNameStart char then
        let name := char :: rest.takeWhile isNamePart
        some (.name (String.ofList name), name.length)
      else none
  | [] => none

/-- The tokens of a text. `skip` counts characters of the token just read. -/
def tokens? : (skip : Nat) → List Char → Option (List Token)
  | _, [] => some []
  | skip + 1, _ :: rest => tokens? skip rest
  | 0, char :: rest =>
      if Text.isBlank char then tokens? 0 rest
      else
        match token? (char :: rest) with
        | some (token, size) => (tokens? (size - 1) rest).map (token :: ·)
        | none => none

/-- The condition for a name, which must belong to a sensor. -/
def operand (name : String) : Except Fault Condition :=
  match Sensor.ofName? name with
  | some _ => .ok (.atom name)
  | none => .error (.unknown name)

/-- Extends a condition by the operators and operands that follow it. -/
def extend (left : Condition) : List Token → Except Fault Condition
  | [] => .ok left
  | .and :: .name name :: rest => do
      let right ← operand name
      extend (.and left right) rest
  | .and :: .not :: .name name :: rest => do
      let right ← operand name
      extend (.and left (.not right)) rest
  | .or :: .name name :: rest => do
      let right ← operand name
      extend (.or left right) rest
  | .or :: .not :: .name name :: rest => do
      let right ← operand name
      extend (.or left (.not right)) rest
  | _ => .error .malformed

/-- The condition that a token list stands for. -/
def fold : List Token → Except Fault Condition
  | [] => .error .empty
  | .name name :: rest => do
      let first ← operand name
      extend first rest
  | .not :: .name name :: rest => do
      let first ← operand name
      extend (.not first) rest
  | _ => .error .malformed

/-- Reads a condition expression. -/
def read (text : String) : Except Fault Condition :=
  match tokens? 0 text.toList with
  | some tokens => fold tokens
  | none => .error .malformed

end Expression

end GridRobot
