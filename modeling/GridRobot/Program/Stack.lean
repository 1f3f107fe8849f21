import GridRobot.Program.Document
import GridRobot.Program.Parse.File

/-!
# Stacks

Reading and compiling go down whatever is nested, on a stack that ends somewhere. A stack says what
it does not hold, so that it is given up. It may look at the whole input, and nothing is assumed
about it: the readers themselves go down as far as it takes, and a stack only takes away from what
they read.

`Stack.usual` estimates what a stack of a thousand calls holds, from the calls that are open at a
time in a straightforward reader.
-/

namespace GridRobot

/-- What is given up because it is nested too deeply. -/
structure Stack where
  /-- The place among the lexemes of a program text at which the text is given up. -/
  text : List Lexeme → Option Nat := fun _ => none
  /-- Whether the text of a data document is given up. -/
  data : String → Bool := fun _ => false
  /-- Whether a data document is given up. -/
  document : Json → Bool := fun _ => false
  /-- Whether a program is given up when it is compiled. -/
  program : List Stmt → Bool := fun _ => false

/-- The stack that holds everything. -/
def Stack.unbounded : Stack := {}

/-! ## Program text -/

namespace Parse

/-- The place of the first lexeme at which a stack is full. It fills up with the braces and
parentheses that are open and with the `!` that stand directly before the place. -/
def tooDeep? (full : Nat → Nat → Bool) (opened negations : Nat) : List Lexeme → Option Nat
  | [] => none
  | lexeme :: rest =>
      if full opened negations then some 0
      else
        (match lexeme with
        | .leftBrace | .leftParen => tooDeep? full (opened + 1) 0 rest
        | .rightBrace | .rightParen => tooDeep? full (opened - 1) 0 rest
        | .not => tooDeep? full opened (negations + 1) rest
        | _ => tooDeep? full opened 0 rest).map (· + 1)

/-- Whether a stack is full at none of some lexemes. -/
def Shallow (full : Nat → Nat → Bool) (opened negations : Nat) : List Lexeme → Prop
  | [] => True
  | lexeme :: rest =>
      full opened negations = false ∧
        match lexeme with
        | .leftBrace | .leftParen => Shallow full (opened + 1) 0 rest
        | .rightBrace | .rightParen => Shallow full (opened - 1) 0 rest
        | .not => Shallow full opened (negations + 1) rest
        | _ => Shallow full opened 0 rest

theorem tooDeep?_eq_none_iff {full : Nat → Nat → Bool} {opened negations : Nat}
    {lexemes : List Lexeme} :
    tooDeep? full opened negations lexemes = none ↔ Shallow full opened negations lexemes := by
  induction lexemes generalizing opened negations with
  | nil => exact iff_of_true rfl trivial
  | cons lexeme rest ih =>
      cases filled : full opened negations with
      | true => simp [tooDeep?, Shallow, filled]
      | false => cases lexeme <;> simp [tooDeep?, Shallow, filled, ih]

end Parse

/-! ## Data documents -/

namespace Document

/-- How many calls lie between an object and the parts under one of its keys, if these parts are
read at all. -/
def callsUnder? (key : Text) (listed : Bool) : Option Nat :=
  if key = "body" then some 2
  else if key = "then" then some 3
  else if key = "else" then some (if listed then 4 else 2)
  else if key = "cond" ∨ key = "condition" then some 1
  else if key = "elseIfs" ∨ key = "inner" ∨ key = "left" ∨ key = "right" then some 0
  else none

/-- Whether a value is a list. -/
def isList : Json → Bool
  | .arr _ => true
  | _ => false

mutual

/-- How many calls are open at a time while a part of a document is read. -/
def calls : Json → Nat
  | .arr items => callsOfItems items
  | .obj fields => callsOfFields fields + 1
  | .null | .bool _ | .int _ | .float _ | .str _ => 1

/-- How many calls are open at a time while the items of a list are read. -/
def callsOfItems : List Json → Nat
  | [] => 0
  | item :: rest => max (calls item) (callsOfItems rest)

/-- How many calls are open at a time while the fields of an object are read. -/
def callsOfFields : List (Text × Json) → Nat
  | [] => 0
  | (key, value) :: rest =>
      match callsUnder? key (isList value) with
      | some between => max (between + calls value) (callsOfFields rest)
      | none => callsOfFields rest

end

/-- Whether more calls than a limit are open at a time while the steps of a document are read. -/
def takesMoreCalls (limit : Nat) (document : Json) : Bool :=
  match body document with
  | .ok steps => limit < calls steps
  | .error _ => false

/-- Whether the values of a document text are nested beyond a limit, as far as the text can be
read. -/
def nestsDeeper (limit : Nat) (text : String) : Bool :=
  match Json.read limit text.toList with
  | .error ⟨.depth, _⟩ => true
  | _ => false

end Document

/-! ## Programs -/

namespace Stmt

mutual

/-- How many statements stand inside one another in a statement, itself counted. -/
def levelsOf : Stmt → Nat
  | .choice _ yes no _ => max (levels yes) (levelsOfOther no) + 1
  | .loop _ body _ => levels body + 1
  | .action _ _ | .stray _ => 1

/-- How many statements stand inside one another in a program. -/
def levels : List Stmt → Nat
  | [] => 0
  | statement :: rest => max statement.levelsOf (levels rest)

/-- How many statements stand inside one another in the other part of a choice. -/
def levelsOfOther : Option (List Stmt) → Nat
  | none => 0
  | some statements => levels statements

end

end Stmt

/-- A stack for a thousand calls, of which some are open before reading starts. -/
def Stack.usual : Stack where
  -- A brace or parenthesis takes about four calls.
  text := Parse.tooDeep? (fun opened negations => 960 < 4 * opened + negations) 0 0
  data := Document.nestsDeeper 980
  document := Document.takesMoreCalls 980
  -- Compiling takes two calls for each level.
  program := fun program => 980 < 2 * Stmt.levels program

theorem Stack.shallow_of_usual {lexemes : List Lexeme} (held : Stack.usual.text lexemes = none) :
    Parse.Shallow (fun opened negations => 960 < 4 * opened + negations) 0 0 lexemes :=
  Parse.tooDeep?_eq_none_iff.mp held

end GridRobot
