import GridRobot.Program.Parse.Condition
import GridRobot.Program.Statement

/-!
# Statements in program text

Statements may be separated by single semicolons. Line breaks may stand around statements and their
separators, after `if`, `while` and `else`, before a block and before `else`.
-/

namespace GridRobot.Parse

/-- The tokens after line breaks. -/
def skipBreaks : List Token → List Token
  | ⟨.newline, _⟩ :: rest => skipBreaks rest
  | tokens => tokens

/-- The tokens after a semicolon, if there is one. -/
def skipSemicolon : List Token → List Token
  | ⟨.semicolon, _⟩ :: rest => rest
  | tokens => tokens

/-- Whether a declaration starts at the front, or nothing is left. -/
def atDeclaration : List Token → Bool
  | [] => true
  | ⟨.word name, _⟩ :: _ => name == "program" || name == "active"
  | _ => false

mutual

/-- Reads a statement. -/
def statement (fuel stop : Nat) (tokens : List Token) : Read (Stmt × List Token) :=
  match fuel with
  | 0 => failAt stop tokens .nestedTooDeeply
  | fuel + 1 =>
      match skipBreaks tokens with
      | ⟨.word name, position⟩ :: rest =>
          if name = "if" then choice fuel stop position.line rest
          else if name = "while" then do
            let (test, afterTest) ← blockCondition stop (skipBreaks rest)
            let (body, next) ← block fuel stop .whileBlock afterTest
            return (.loop test body position.line, next)
          else
            match Action.ofName? name with
            | some _ => .ok (.action name position.line, rest)
            | none => .error ⟨.unknownAction name, position.line⟩
      | other => failAt stop other (.expectedStatement (found other))

/-- Reads a choice after its `if`, which stands on a given line. -/
def choice (fuel stop line : Nat) (tokens : List Token) : Read (Stmt × List Token) :=
  match fuel with
  | 0 => failAt stop tokens .nestedTooDeeply
  | fuel + 1 => do
      let (test, afterTest) ← blockCondition stop (skipBreaks tokens)
      let (yes, afterYes) ← block fuel stop .ifBlock afterTest
      match skipBreaks afterYes with
      | ⟨.word "else", _⟩ :: afterElse =>
          match skipBreaks afterElse with
          | ⟨.word "if", position⟩ :: rest =>
              let (nested, next) ← choice fuel stop position.line rest
              return (.choice test yes (some [nested]) line, next)
          | other =>
              let (no, next) ← block fuel stop .elseBlock other
              return (.choice test yes (some no) line, next)
      | other => return (.choice test yes none line, other)

/-- Reads a block. Only the block of an `else` may be empty. -/
def block (fuel stop : Nat) (owner : BlockOwner) (tokens : List Token) :
    Read (List Stmt × List Token) :=
  match fuel with
  | 0 => failAt stop tokens .nestedTooDeeply
  | fuel + 1 =>
      match skipBreaks tokens with
      | ⟨.leftBrace, position⟩ :: rest => do
          let (body, next) ←
            statements fuel stop ⟨.unclosedBlock position.line, position.line⟩ rest
          if body.isEmpty && owner != .elseBlock then
            .error ⟨.emptyBlock owner, position.line⟩
          else return (body, next)
      | other => failAt stop other (.expectedBlock owner (found other))

/-- Reads statements up to and with the closing brace. A missing brace is the given fault. -/
def statements (fuel stop : Nat) (unclosed : GrammarFault) (tokens : List Token) :
    Read (List Stmt × List Token) :=
  match fuel with
  | 0 => failAt stop tokens .nestedTooDeeply
  | fuel + 1 =>
      match skipBreaks tokens with
      | ⟨.rightBrace, _⟩ :: rest => .ok ([], rest)
      | other =>
          if atDeclaration other then .error unclosed
          else do
            let (first, next) ← statement fuel stop other
            let (others, last) ←
              statements fuel stop unclosed (skipSemicolon (skipBreaks next))
            return (first :: others, last)

end

/-- Enough fuel to read any statement from a token list. -/
def statementFuel (tokens : List Token) : Nat :=
  4 * tokens.length + 4

/-- Reads the statements of a program in the older form, which a semicolon closes. A semicolon
after a statement closes the program only if a declaration or the end follows; otherwise it
separates statements. -/
def olderBody (fuel stop : Nat) (name : String) (start : Nat) (tokens : List Token) :
    Read (List Stmt × List Token) :=
  match fuel with
  | 0 => failAt stop tokens .nestedTooDeeply
  | fuel + 1 =>
      match skipBreaks tokens with
      | ⟨.semicolon, _⟩ :: rest => .ok ([], rest)
      | other =>
          if atDeclaration other then .error ⟨.unterminatedProgram name, start⟩
          else do
            let (first, next) ← statement (statementFuel other) stop other
            match skipBreaks next with
            | ⟨.semicolon, _⟩ :: afterSemicolon =>
                let rest := skipBreaks afterSemicolon
                if atDeclaration rest then return ([first], rest)
                else
                  let (others, last) ← olderBody fuel stop name start rest
                  return (first :: others, last)
            | rest =>
                let (others, last) ← olderBody fuel stop name start rest
                return (first :: others, last)

end GridRobot.Parse
