import GridRobot.Json.Printer
import GridRobot.Json.Reader
import GridRobot.Program.Expression
import GridRobot.Program.Statement

/-!
# Programs as data documents

A document is a list of steps, an object with `steps`, or an object with named `programs` and the
name of the `active` one. A step is the name of an action or an object with a `type`. Statements are
numbered in document order, from one; an object with a positive whole `line` has that line instead,
and still takes a number.

Reading goes down the document, and `room` says how far. A document is never deeper than its own
levels, so with room for these nothing is left unread. Which documents are given up all the same is
a parameter.
-/

namespace GridRobot

/-- What is wrong with a document. Every cause but the last quotes the part it is about. -/
inductive DocumentCause where
  | unreadable (cause : Json.Cause)
  | unknownRoot (part : Json)
  | programsNotObject (part : Json)
  | activeNotName (part : Json)
  | unknownActive (name : Text)
  | stepsNotList (part : Json)
  | stepMalformed (part : Json)
  | unknownStep (kind : Json) (part : Json)
  | unknownAction (name : Json) (part : Json)
  | missing (key : String) (part : Json)
  | emptyLoop (part : Json)
  | emptyChoice (part : Json)
  | emptyClause (part : Json)
  | clausesNotList (part : Json)
  | clauseNotObject (part : Json)
  | conditionMalformed (part : Json)
  | unknownCondition (name : Json) (part : Json)
  | missingInner (part : Json)
  | missingSides (kind : String) (part : Json)
  | unknownConditionType (kind : Json) (part : Json)
  | expressionMalformed (part : Json)
  | expressionEmpty (part : Json)
  | nestedTooDeeply

namespace DocumentCause

/-- The part of the document that a cause quotes. -/
def part? : DocumentCause → Option Json
  | .unreadable _ | .unknownActive _ | .nestedTooDeeply => none
  | .unknownRoot part | .programsNotObject part | .activeNotName part | .stepsNotList part
  | .stepMalformed part | .unknownStep _ part | .unknownAction _ part | .missing _ part
  | .emptyLoop part | .emptyChoice part | .emptyClause part | .clausesNotList part
  | .clauseNotObject part | .conditionMalformed part | .unknownCondition _ part
  | .missingInner part | .missingSides _ part | .unknownConditionType _ part
  | .expressionMalformed part | .expressionEmpty part => some part

/-- The wording of a cause, without the part it quotes. -/
def summary : DocumentCause → Text
  | .unreadable cause => "Malformed document: " ++ cause.message
  | .unknownRoot _ => "Unrecognized document root"
  | .programsNotObject _ => "'programs' must be an object of named step lists"
  | .activeNotName _ => "'active' must name one of the programs"
  | .unknownActive name => "Unknown active program '" ++ name ++ "'"
  | .stepsNotList _ => "Expected a list of steps"
  | .stepMalformed _ => "Statement must be an action name or an object"
  | .unknownStep kind _ => "Unknown statement type " ++ kind.display
  | .unknownAction name _ => "Unknown action " ++ name.display
  | .missing key _ => "Missing '" ++ key ++ "'"
  | .emptyLoop _ => "while body must not be empty"
  | .emptyChoice _ => "if branch must not be empty"
  | .emptyClause _ => "else-if branch must not be empty"
  | .clausesNotList _ => "'elseIfs' must be a list"
  | .clauseNotObject _ => "elseIfs entries must be objects"
  | .conditionMalformed _ => "Condition must be a string or an object"
  | .unknownCondition name _ => "Unknown condition " ++ name.display
  | .missingInner _ => "'not' needs 'inner'"
  | .missingSides kind _ => "'" ++ kind ++ "' needs 'left' and 'right'"
  | .unknownConditionType kind _ => "Unknown condition type " ++ kind.display
  | .expressionMalformed _ => "Malformed condition expression"
  | .expressionEmpty _ => "Empty condition expression"
  | .nestedTooDeeply => "Document is nested too deeply"

/-- The quotation that goes with a cause. -/
def fragment (cause : DocumentCause) : String :=
  (cause.part?.map Json.fragment).getD ""

/-- The full wording of a cause. -/
def message (cause : DocumentCause) : Text :=
  match cause.part? with
  | some part => cause.summary ++ ": " ++ part.fragment
  | none => cause.summary

/-- The code of a cause. -/
def code : DocumentCause → String
  | .unreadable _ => "INVALID_DOCUMENT"
  | .unknownRoot _ | .programsNotObject _ | .activeNotName _ => "UNKNOWN_ROOT"
  | .unknownActive _ => "UNKNOWN_ACTIVE_PROGRAM"
  | .unknownStep _ _ => "UNKNOWN_STATEMENT"
  | .unknownAction _ _ => "UNKNOWN_ACTION"
  | .unknownCondition _ _ => "UNKNOWN_CONDITION"
  | .conditionMalformed _ | .missingInner _ | .missingSides _ _ | .unknownConditionType _ _
  | .expressionMalformed _ | .expressionEmpty _ => "MALFORMED_CONDITION"
  | .stepsNotList _ | .stepMalformed _ | .missing _ _ | .emptyLoop _ | .emptyChoice _
  | .emptyClause _ | .clausesNotList _ | .clauseNotObject _ | .nestedTooDeeply =>
      "MALFORMED_STATEMENT"

/-- The category of a cause. Only a name that no program has is a matter of meaning. -/
def category : DocumentCause → Category
  | .unknownActive _ => .meaning
  | _ => .schema

end DocumentCause

/-- A fault in a document. Only a document that cannot be read at all has a line. -/
structure DocumentFault where
  cause : DocumentCause
  line : Option Nat := none

/-- The report of a fault in a document. -/
def DocumentFault.report (fault : DocumentFault) : Report :=
  { category := fault.cause.category
    code := fault.cause.code
    message := fault.cause.message
    line := fault.line.map Int.ofNat }

namespace Document

/-- What a reader returns, unless it meets a fault. -/
abbrev Read := Except DocumentCause

/-- The line of a statement: its own, if it has a positive one, and its number otherwise. -/
def lineFor (number : Nat) (fields : List (Text × Json)) : Int :=
  match Json.field? fields "line" with
  | some (.int line) => if 0 < line then line else number
  | _ => number

/-- Reads a condition expression. A lone half of a surrogate pair belongs to no token. -/
def expression (text : Text) : Read Condition :=
  match (text.toString?.map Expression.read).getD (.error .malformed) with
  | .ok condition => .ok condition
  | .error .malformed => .error (.expressionMalformed (.str text))
  | .error .empty => .error (.expressionEmpty (.str text))
  | .error (.unknown name) => .error (.unknownCondition (.str name) (.str text))

/-- Reads a condition whose connectives are nested less than `room` deep. -/
def condition (room : Nat) (node : Json) : Read Condition :=
  match room with
  | 0 => .error .nestedTooDeeply
  | room + 1 =>
      match node with
      | .str text => expression text
      | .obj fields =>
          let kind := Json.field? fields "type"
          match kind.bind Json.string? with
          | some "atom" =>
              let name := Json.field? fields "name"
              match name.bind Json.string? with
              | some known =>
                  match Sensor.ofName? known with
                  | some _ => .ok (.atom known)
                  | none => .error (.unknownCondition (.str known) node)
              | none => .error (.unknownCondition (name.getD .null) node)
          | some "not" =>
              match Json.field? fields "inner" with
              | some inner => do
                  let read ← condition room inner
                  return .not read
              | none => .error (.missingInner node)
          | some "and" =>
              match Json.field? fields "left", Json.field? fields "right" with
              | some left, some right => do
                  let first ← condition room left
                  let second ← condition room right
                  return .and first second
              | _, _ => .error (.missingSides "and" node)
          | some "or" =>
              match Json.field? fields "left", Json.field? fields "right" with
              | some left, some right => do
                  let first ← condition room left
                  let second ← condition room right
                  return .or first second
              | _, _ => .error (.missingSides "or" node)
          | _ => .error (.unknownConditionType (kind.getD .null) node)
      | _ => .error (.conditionMalformed node)

/-- The condition of a choice, a clause or a loop. -/
def test (room : Nat) (fields : List (Text × Json)) : Read Condition :=
  match Json.field? fields "cond" <|> Json.field? fields "condition" with
  | some node => condition room node
  | none => .error (.missing "cond" (.obj fields))

/-- A field that must be there. -/
def required (key : String) (fields : List (Text × Json)) : Read Json :=
  match Json.field? fields key with
  | some node => .ok node
  | none => .error (.missing key (.obj fields))

/-- A reader of one statement: from the next free number and a part of the document to the
statement and the next free number after it. -/
abbrev StepReader := Nat → Json → Read (Stmt × Nat)

/-- Reads a list of steps with a reader of one step. -/
def stepList (step : StepReader) (number : Nat) : List Json → Read (List Stmt × Nat)
  | [] => .ok ([], number)
  | node :: rest => do
      let (first, next) ← step number node
      let (others, last) ← stepList step next rest
      return (first :: others, last)

/-- Reads a part that must be a list of steps. -/
def steps (step : StepReader) (number : Nat) (node : Json) : Read (List Stmt × Nat) :=
  match node with
  | .arr nodes => stepList step number nodes
  | _ => .error (.stepsNotList node)

/-- Reads the action with a given name. -/
def action (name : Json) (node : Json) (line : Int) : Read Stmt :=
  match name.string? with
  | some known =>
      match Action.ofName? known with
      | some _ => .ok (.action known line)
      | none => .error (.unknownAction name node)
  | none => .error (.unknownAction name node)

/-- A further test of a choice with the statements for it. -/
structure Clause where
  condition : Condition
  yes : List Stmt
  line : Int

/-- Reads the further tests of a choice. -/
def clauses (room : Nat) (step : StepReader) (number : Nat) :
    List Json → Read (List Clause × Nat)
  | [] => .ok ([], number)
  | .obj fields :: rest => do
      let line := lineFor number fields
      let condition ← test room fields
      let body ← required "then" fields
      let (yes, next) ← steps step (number + 1) body
      if yes.isEmpty then .error (.emptyClause (.obj fields))
      else do
        let (others, last) ← clauses room step next rest
        return (⟨condition, yes, line⟩ :: others, last)
  | other :: _ => .error (.clauseNotObject other)

/-- The further tests of a choice as the list they must be. A value that counts as nothing stands
for no tests. -/
def clauseList (fields : List (Text × Json)) : Read (List Json) :=
  match (Json.field? fields "elseIfs").getD .null with
  | .arr nodes => .ok nodes
  | other => if other.isBare then .ok [] else .error (.clausesNotList (.obj fields))

/-- The other part of a choice: each further test is the other part of the one before. -/
def chain (last : Option (List Stmt)) : List Clause → Option (List Stmt)
  | [] => last
  | clause :: rest =>
      some [.choice clause.condition clause.yes (chain last rest) clause.line]

/-- Reads the part after `else`: a list of steps or a single step. -/
def other (step : StepReader) (number : Nat) (fields : List (Text × Json)) :
    Read (Option (List Stmt) × Nat) :=
  match Json.field? fields "else" with
  | none => .ok (none, number)
  | some (.arr nodes) => do
      let (statements, next) ← stepList step number nodes
      return (some statements, next)
  | some node => do
      let (statement, next) ← step number node
      return (some [statement], next)

/-- Reads a choice. -/
def choice (room : Nat) (step : StepReader) (number : Nat) (fields : List (Text × Json)) :
    Read (Stmt × Nat) := do
  let line := lineFor number fields
  let condition ← test room fields
  let body ← required "then" fields
  let (yes, afterYes) ← steps step (number + 1) body
  if yes.isEmpty then .error (.emptyChoice (.obj fields))
  else do
    let nodes ← clauseList fields
    let (further, afterClauses) ← clauses room step afterYes nodes
    let (last, next) ← other step afterClauses fields
    return (.choice condition yes (chain last further) line, next)

/-- Reads a loop. -/
def loop (room : Nat) (step : StepReader) (number : Nat) (fields : List (Text × Json)) :
    Read (Stmt × Nat) := do
  let line := lineFor number fields
  let nodes ← required "body" fields
  let (body, next) ← steps step (number + 1) nodes
  if body.isEmpty then .error (.emptyLoop (.obj fields))
  else do
    let condition ← test room fields
    return (.loop condition body line, next)

/-- Reads one step whose statements and conditions are nested less than `room` deep. -/
def step (room : Nat) (number : Nat) (node : Json) : Read (Stmt × Nat) :=
  match room with
  | 0 => .error .nestedTooDeeply
  | room + 1 =>
      match node with
      | .str _ => do
          let read ← action node node number
          return (read, number + 1)
      | .obj fields =>
          let kind := Json.field? fields "type"
          match kind.bind Json.string? with
          | some "action" => do
              let name := (Json.field? fields "name").getD .null
              let read ← action name node (lineFor number fields)
              return (read, number + 1)
          | some "if" => choice room (step room) number fields
          | some "while" => loop room (step room) number fields
          | _ => .error (.unknownStep (kind.getD .null) node)
      | _ => .error (.stepMalformed node)

/-- A program in a document that names its programs, and how many programs the document has. -/
structure Named where
  count : Nat
  active : Text
  body : Json

/-- The active program of a document that names its programs. -/
def named (fields : List (Text × Json)) : Read Named :=
  match Json.field? fields "programs" with
  | some (.obj programs) =>
      match Json.field? fields "active" with
      | some (.str active) =>
          match Json.field? programs active with
          | some (.obj inner) =>
              .ok ⟨programs.length, active, (Json.field? inner "steps").getD (.obj inner)⟩
          | some body => .ok ⟨programs.length, active, body⟩
          | none => .error (.unknownActive active)
      | _ => .error (.activeNotName (.obj fields))
  | _ => .error (.programsNotObject (.obj fields))

/-- Whether an object names its programs. -/
def namesPrograms (fields : List (Text × Json)) : Bool :=
  (Json.field? fields "programs").isSome || (Json.field? fields "active").isSome

/-- The part of a document that holds the steps of its program. -/
def body (document : Json) : Read Json :=
  match document with
  | .arr _ => .ok document
  | .obj fields =>
      if namesPrograms fields then do
        let active ← named fields
        return active.body
      else
        match Json.field? fields "steps" with
        | some nodes => .ok nodes
        | none => .error (.unknownRoot document)
  | _ => .error (.unknownRoot document)

/-- The program of a document whose statements and conditions are nested less than `room` deep. -/
def programWithin (room : Nat) (document : Json) : Read (List Stmt) := do
  let nodes ← body document
  let (statements, _) ← steps (step room) 1 nodes
  return statements

/-- The program of a document, however deep it is nested. -/
def program (document : Json) : Read (List Stmt) :=
  programWithin document.levels document

/-- The program of a document, unless the document is given up. -/
def boundedProgram (tooDeep : Json → Bool) (document : Json) : Read (List Stmt) :=
  if tooDeep document then .error .nestedTooDeeply else program document

theorem boundedProgram_eq_ok_iff {tooDeep : Json → Bool} {document : Json} {result : List Stmt} :
    boundedProgram tooDeep document = .ok result ↔
      tooDeep document = false ∧ program document = .ok result := by
  cases deep : tooDeep document <;> simp [boundedProgram, deep]

/-- The value of a document text. No text is nested deeper than it is long. -/
def decode (text : String) : Except Json.Failure Json :=
  Json.read (text.length + 1) text.toList

/-- The value of a document text, unless the text is given up. -/
def boundedDecode (tooDeep : String → Bool) (text : String) : Except Json.Failure Json :=
  if tooDeep text then .error ⟨.depth, 0⟩ else decode text

theorem boundedDecode_eq_ok_iff {tooDeep : String → Bool} {text : String} {document : Json} :
    boundedDecode tooDeep text = .ok document ↔
      tooDeep text = false ∧ decode text = .ok document := by
  cases deep : tooDeep text <;> simp [boundedDecode, deep]

/-- The fault of a document text that cannot be read. Nesting has no line to blame. -/
def unreadable (text : String) (failure : Json.Failure) : DocumentFault :=
  if failure.cause = .depth then ⟨.unreadable .depth, none⟩
  else ⟨.unreadable failure.cause, some (failure.line text.toList)⟩

end Document

end GridRobot
