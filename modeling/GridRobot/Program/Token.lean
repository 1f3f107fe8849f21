import GridRobot.Program.Expression

/-!
# Tokens of program text

A token is a lexeme with the place where it starts. Between tokens there may be spaces, tabs,
carriage returns, and comments from `//` to the end of the line.
-/

namespace GridRobot

/-- The smallest units of program text. -/
inductive Lexeme where
  | word (text : String)
  | and
  | or
  | not
  | assign
  | semicolon
  | dot
  | leftParen
  | rightParen
  | leftBrace
  | rightBrace
  | newline
  deriving DecidableEq, Repr

namespace Lexeme

/-- The lexeme as it is written. -/
def text : Lexeme → String
  | .word text => text
  | .and => "&&"
  | .or => "||"
  | .not => "!"
  | .assign => "="
  | .semicolon => ";"
  | .dot => "."
  | .leftParen => "("
  | .rightParen => ")"
  | .leftBrace => "\x7b"
  | .rightBrace => "\x7d"
  | .newline => "\n"

/-- The name of a kind of lexeme in token listings. -/
def kindName : Lexeme → String
  | .word _ => "IDENTIFIER"
  | .and => "AND"
  | .or => "OR"
  | .not => "NOT"
  | .assign => "ASSIGN"
  | .semicolon => "SEMICOLON"
  | .dot => "DOT"
  | .leftParen => "LEFT_PAREN"
  | .rightParen => "RIGHT_PAREN"
  | .leftBrace => "LEFT_BRACE"
  | .rightBrace => "RIGHT_BRACE"
  | .newline => "NEWLINE"

/-- The lexeme of a character that stands for itself. -/
def ofChar? (char : Char) : Option Lexeme :=
  match char with
  | '!' => some .not
  | '=' => some .assign
  | ';' => some .semicolon
  | '.' => some .dot
  | '(' => some .leftParen
  | ')' => some .rightParen
  | '\x7b' => some .leftBrace
  | '\x7d' => some .rightBrace
  | '\n' => some .newline
  | _ => none

end Lexeme

/-- A place in a text: its line and column, both counted from one. -/
structure Position where
  line : Nat := 1
  column : Nat := 1
  deriving DecidableEq, Repr

/-- The place after a character. -/
def Position.after (position : Position) (char : Char) : Position :=
  if char = '\n' then ⟨position.line + 1, 1⟩ else ⟨position.line, position.column + 1⟩

/-- A lexeme and where it starts. -/
structure Token where
  lexeme : Lexeme
  position : Position
  deriving DecidableEq, Repr

/-- The line on which a token starts. -/
def Token.line (token : Token) : Nat :=
  token.position.line

/-- The tokens of a text and the place of its end. -/
structure TokenList where
  tokens : List Token
  stop : Position
  deriving DecidableEq, Repr

/-- A character that starts no token. -/
structure LexicalFault where
  char : Char
  line : Nat
  deriving DecidableEq, Repr

/-- The report of a character that starts no token. -/
def LexicalFault.report (fault : LexicalFault) : Report :=
  { category := .lexical
    code := "UNEXPECTED_CHARACTER"
    message := "Unexpected character " ++ Text.quoted (String.ofList [fault.char])
    line := some fault.line }

/-- What stands at the front of a text. -/
inductive Piece where
  | gap (size : Nat)
  | lexeme (lexeme : Lexeme) (size : Nat)
  deriving DecidableEq, Repr

/-- A space, tab or carriage return. -/
def isGap (char : Char) : Bool :=
  char == ' ' || char == '\t' || char == '\r'

/-- What a text starts with, if it can start so. Names are as long as possible. -/
def Piece.first? : List Char → Option Piece
  | [] => none
  | '/' :: '/' :: rest => some (.gap ((rest.takeWhile (· != '\n')).length + 2))
  | '&' :: '&' :: _ => some (.lexeme .and 2)
  | '|' :: '|' :: _ => some (.lexeme .or 2)
  | char :: rest =>
      if isGap char then some (.gap 1)
      else if isNameStart char then
        let name := char :: rest.takeWhile isNamePart
        some (.lexeme (.word (String.ofList name)) name.length)
      else (Lexeme.ofChar? char).map (.lexeme · 1)

/-- The tokens of a text that starts at a position. `skip` counts characters of the piece just
met. -/
def TokenList.scan : (skip : Nat) → Position → List Char → Except LexicalFault TokenList
  | _, position, [] => .ok ⟨[], position⟩
  | skip + 1, position, char :: rest => scan skip (position.after char) rest
  | 0, position, char :: rest =>
      match Piece.first? (char :: rest) with
      | none => .error ⟨char, position.line⟩
      | some (.gap size) => scan (size - 1) (position.after char) rest
      | some (.lexeme lexeme size) =>
          match scan (size - 1) (position.after char) rest with
          | .ok others => .ok ⟨⟨lexeme, position⟩ :: others.tokens, others.stop⟩
          | .error fault => .error fault

/-- The tokens of a text. -/
def TokenList.ofText (text : String) : Except LexicalFault TokenList :=
  scan 0 {} text.toList

end GridRobot
