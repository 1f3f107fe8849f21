import GridRobot.Program.Token

/-!
# Faults in program text

What can be wrong with the tokens of a program file. A fault that was met at some token remembers
what was found there; nothing found means the end of the text.
-/

namespace GridRobot

/-- Statements that own a block. -/
inductive BlockOwner where
  | ifBlock
  | elseBlock
  | whileBlock
  deriving DecidableEq, Repr

/-- The word for the owner of a block. -/
def BlockOwner.word : BlockOwner → String
  | .ifBlock => "if"
  | .elseBlock => "else"
  | .whileBlock => "while"

/-- What closes a condition: the brace of its block, or the parenthesis it stands in. -/
inductive Closer where
  | brace
  | paren
  deriving DecidableEq, Repr

/-- The lexeme that closes a condition. -/
def Closer.lexeme : Closer → Lexeme
  | .brace => .leftBrace
  | .paren => .rightParen

/-- What is wrong with a program file. -/
inductive GrammarCause where
  | expectedDeclaration (found : Option Lexeme)
  | expectedProgramName (found : Option Lexeme)
  | expectedBody (found : Option Lexeme)
  | unclosedProgram (name : String)
  | unterminatedProgram (name : String)
  | missingActive
  | expectedActiveName (found : Option Lexeme)
  | expectedDot (found : Option Lexeme)
  | unknownActive (name : String)
  | trailingContent (found : Option Lexeme)
  | expectedStatement (found : Option Lexeme)
  | unknownAction (name : String)
  | expectedBlock (owner : BlockOwner) (found : Option Lexeme)
  | unclosedBlock (openLine : Nat)
  | emptyBlock (owner : BlockOwner)
  | expectedCondition (found : Option Lexeme)
  | emptyCondition (closer : Closer)
  | expectedParen (found : Option Lexeme)
  | unknownCondition (name : String)
  | nestedTooDeeply
  deriving DecidableEq, Repr

/-- What was found at a token, as messages put it. -/
def Lexeme.describe : Option Lexeme → String
  | none => "end of input"
  | some .newline => "line break"
  | some lexeme => "'" ++ lexeme.text ++ "'"

namespace GrammarCause

/-- The code of a cause. -/
def code : GrammarCause → String
  | .expectedDeclaration _ => "EXPECTED_KEYWORD"
  | .expectedProgramName _ | .expectedActiveName _ => "EXPECTED_IDENTIFIER"
  | .expectedBody _ | .expectedDot _ | .expectedBlock _ _ | .expectedParen _ => "EXPECTED_SYMBOL"
  | .unclosedProgram _ | .unterminatedProgram _ => "UNTERMINATED_PROGRAM"
  | .missingActive => "MISSING_ACTIVE"
  | .unknownActive _ => "UNKNOWN_ACTIVE_PROGRAM"
  | .trailingContent _ => "TRAILING_CONTENT"
  | .expectedStatement _ => "EXPECTED_STATEMENT"
  | .unknownAction _ => "UNKNOWN_ACTION"
  | .unclosedBlock _ => "UNTERMINATED_BLOCK"
  | .emptyBlock _ => "EMPTY_BLOCK"
  | .expectedCondition _ | .nestedTooDeeply => "EXPECTED_CONDITION"
  | .emptyCondition _ => "EMPTY_CONDITION"
  | .unknownCondition _ => "UNKNOWN_CONDITION"

/-- The wording of a cause. -/
def message : GrammarCause → String
  | .expectedDeclaration found => "Expected 'program' or 'active', got " ++ Lexeme.describe found
  | .expectedProgramName found => "Expected program name, got " ++ Lexeme.describe found
  | .expectedBody found =>
      "Expected '\x7b' or '=' after program name, got " ++ Lexeme.describe found
  | .unclosedProgram name => "Program '" ++ name ++ "' is not closed with '\x7d'"
  | .unterminatedProgram name => "Program '" ++ name ++ "' is not terminated with ';'"
  | .missingActive => "No active declaration found"
  | .expectedActiveName found =>
      "Expected program name after 'active', got " ++ Lexeme.describe found
  | .expectedDot found => "Expected '.' after active program name, got " ++ Lexeme.describe found
  | .unknownActive name => "Unknown active program '" ++ name ++ "'"
  | .trailingContent found => "Unexpected " ++ Lexeme.describe found ++ " after active declaration"
  | .expectedStatement found => "Expected statement, got " ++ Lexeme.describe found
  | .unknownAction name => "Unknown action '" ++ name ++ "'"
  | .expectedBlock owner found =>
      "Expected '\x7b' after " ++ owner.word ++ ", got " ++ Lexeme.describe found
  | .unclosedBlock openLine =>
      "Block opened on line " ++ toString openLine ++ " is not closed (missing '\x7d')"
  | .emptyBlock owner => "Empty " ++ owner.word ++ " block"
  | .expectedCondition found => "Expected condition, got " ++ Lexeme.describe found
  | .emptyCondition closer => "Empty condition before '" ++ closer.lexeme.text ++ "'"
  | .expectedParen found => "Expected ')' after condition, got " ++ Lexeme.describe found
  | .unknownCondition name => "Unknown condition '" ++ name ++ "'"
  | .nestedTooDeeply => "Condition is nested too deeply"

/-- The category of a cause. Only a name that no declaration has is a matter of meaning. -/
def category : GrammarCause → Category
  | .unknownActive _ => .meaning
  | _ => .grammar

end GrammarCause

/-- A fault in program text: what is wrong and the line it is blamed on. -/
structure GrammarFault where
  cause : GrammarCause
  line : Nat
  deriving DecidableEq, Repr

/-- The report of a fault in program text. -/
def GrammarFault.report (fault : GrammarFault) : Report :=
  { category := fault.cause.category
    code := fault.cause.code
    message := fault.cause.message
    line := some fault.line }

end GridRobot
