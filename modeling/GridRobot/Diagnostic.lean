import GridRobot.Text.Align
import GridRobot.Text.Basic
import GridRobot.Text.Lines

/-!
# Diagnostics

Every failure that a user can see becomes a report: a category, a code that selects a hint, a
message, and a source line where there is one. With the source at hand, a report is shown with the
lines around its own.
-/

namespace GridRobot

/-- The broad kinds of failure. -/
inductive Category where
  | general
  | lexical
  | grammar
  | schema
  | meaning
  | action
  | limit
  deriving DecidableEq, Repr

namespace Category

/-- The heading of a report. -/
def title : Category → String
  | .general => "RoboError"
  | .lexical => "LexicalError"
  | .grammar => "ParseError"
  | .schema => "SchemaError"
  | .meaning => "SemanticError"
  | .action => "RuntimeActionError"
  | .limit => "RuntimeLimitError"

/-- The short name of a category. -/
def kind : Category → String
  | .general => "error"
  | .lexical => "lexical"
  | .grammar => "syntax"
  | .schema => "schema"
  | .meaning => "semantic"
  | .action => "runtime"
  | .limit => "limit"

/-- All categories. -/
def all : List Category :=
  [.general, .lexical, .grammar, .schema, .meaning, .action, .limit]

/-- The category with a given heading. -/
def ofTitle? (title : String) : Option Category :=
  all.find? fun category => category.title == title

end Category

/-- A failure as it is shown to a user. -/
structure Report where
  category : Category
  code : String
  message : Text
  line : Option Int := none
  deriving DecidableEq, Repr

/-- The advice for a code. -/
def hint? (code : String) : Option String :=
  hints.lookup code
where
  /-- The advice for each known code. -/
  hints : List (String × String) := [
    ("UNEXPECTED_CHARACTER",
      "Only identifiers, \x7b \x7d ( ) = ; . ! && || and // comments are allowed."),
    ("EXPECTED_SYMBOL", "Check for a missing bracket, \"=\" or terminator near this line."),
    ("EXPECTED_KEYWORD",
      "A file is a list of \"program NAME \x7b ... \x7d\" blocks followed by \"active = NAME.\""),
    ("EXPECTED_IDENTIFIER", "Program and active declarations need a name."),
    ("EXPECTED_STATEMENT",
      "Statements are if, while or one of the actions forward, turnLeft, turnRight, pick, put."),
    ("EXPECTED_CONDITION", "Conditions combine atoms with !, && and || and may use parentheses."),
    ("EMPTY_CONDITION", "Write a condition such as obstacleAhead or !beepersHere."),
    ("EMPTY_BLOCK", "if and while blocks need at least one statement."),
    ("UNTERMINATED_BLOCK", "A \"\x7b\" is missing its closing \"\x7d\"."),
    ("UNTERMINATED_PROGRAM",
      "Close every program with \"\x7d\" (brace form) or \";\" (legacy form)."),
    ("MISSING_ACTIVE", "Add \"active = NAME.\" at the end of the file to select a program."),
    ("TRAILING_CONTENT", "Nothing may follow the active declaration."),
    ("UNKNOWN_ACTION", "Known actions: forward, turnLeft, turnRight, pick, put."),
    ("UNKNOWN_CONDITION",
      "Known conditions: obstacleAhead, obstacleLeft, obstacleRight, beepersHere, " ++
        "beeperInBag, won, notAtLine8, winReachable."),
    ("UNKNOWN_ACTIVE_PROGRAM", "The active declaration must name a program declared above it."),
    ("INVALID_DOCUMENT", "The document is not valid JSON."),
    ("UNKNOWN_ROOT",
      "Use \x7b\"active\": ..., \"programs\": \x7b...\x7d\x7d, \x7b\"steps\": [...]\x7d " ++
        "or a bare list of steps."),
    ("UNKNOWN_STATEMENT", "Statement nodes need \"type\" set to action, if or while."),
    ("MALFORMED_CONDITION",
      "Conditions are strings like \"a && !b\" or nodes with type atom/not/and/or."),
    ("MALFORMED_STATEMENT", "Check the required fields of this statement node."),
    ("MOVE_BLOCKED",
      "There is a wall or the edge of the grid ahead. Test obstacleAhead or turn first."),
    ("NO_BEEPER_HERE", "There is no beeper in this cell. Test beepersHere before pick."),
    ("NO_BEEPER_IN_BAG", "The bag is empty. pick a beeper first or start with a filled bag."),
    ("STEP_LIMIT", "Your while loop probably never ends or needs too many steps."),
    ("INSTRUCTION_LIMIT", "A loop keeps testing conditions without ever running an action.")]

/-- A source line shown beside a report. -/
structure ExcerptLine where
  number : Nat
  marked : Bool
  text : List Char
  deriving DecidableEq, Repr

/-- A source line with its number and, for the line of the report, a mark. -/
def ExcerptLine.render (shown : ExcerptLine) : String :=
  (if shown.marked then ">" else " ") ++ " " ++ Text.alignRight 4 (toString shown.number) ++
    " | " ++ String.ofList shown.text

/-- The line of a report and up to two lines on each side of it, as far as the source has them. A
line number below one counts as one. -/
def excerpt (lines : List (List Char)) (line : Int) : List ExcerptLine :=
  let centre := max 1 line
  (lines.zipIdx 1).filterMap fun (text, number) =>
    if centre - 2 ≤ (number : Int) ∧ (number : Int) ≤ centre + 2 then
      some ⟨number, (number : Int) = centre, text⟩
    else none

namespace Report

/-- The message, with its line where there is one. -/
def text (report : Report) : Text :=
  match report.line with
  | some line => report.message ++ " (line " ++ toString line ++ ")"
  | none => report.message

/-- The advice for a report. -/
def hint? (report : Report) : Option String :=
  GridRobot.hint? report.code

/-- The full text of a report: heading and message, the source around its line, and advice. -/
def render (report : Report) (source : Option String) : Text :=
  let heading := report.category.title ++ ": " ++ report.text
  let around :=
    match source, report.line with
    | some source, some line =>
        "\n" ++ "\n".intercalate ((excerpt (Text.lines source.toList) line).map ExcerptLine.render)
    | _, _ => ""
  let advice :=
    match report.hint? with
    | some hint => "\nHint: " ++ hint
    | none => ""
  heading ++ around ++ advice

end Report

end GridRobot
