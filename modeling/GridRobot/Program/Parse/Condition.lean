import GridRobot.Program.Parse.Fault

/-!
# Conditions in program text

`||` binds weaker than `&&`, and `&&` weaker than `!`. Both connectives group to the left. Line
breaks are not allowed inside a condition.

Each reader takes the line of the end of the text, for faults met there, and returns what it read
and the tokens after it. `fuel` bounds the recursion; running out of it counts as too deep nesting,
which twice the number of tokens rules out.
-/

namespace GridRobot.Parse

/-- What a reader returns, unless it meets a fault. -/
abbrev Read := Except GrammarFault

/-- The lexeme at the front. -/
def found (tokens : List Token) : Option Lexeme :=
  tokens.head?.map Token.lexeme

/-- The line at the front, which is that of the end when no token is left. -/
def lineAt (stop : Nat) : List Token → Nat
  | [] => stop
  | token :: _ => token.line

/-- A fault blamed on the line at the front. -/
def failAt {α : Type} (stop : Nat) (tokens : List Token) (cause : GrammarCause) : Read α :=
  .error ⟨cause, lineAt stop tokens⟩

/-- Joins a conjunction to the alternatives on its left. -/
def joinOr : Option Condition → Condition → Condition
  | none, last => last
  | some left, last => .or left last

mutual

/-- Reads an operand: a name, a negated operand, or a condition in parentheses. -/
def operand (fuel stop : Nat) (closer : Closer) (tokens : List Token) :
    Read (Condition × List Token) :=
  match fuel with
  | 0 => failAt stop tokens .nestedTooDeeply
  | fuel + 1 =>
      match tokens with
      | ⟨.not, _⟩ :: rest => do
          let (inner, next) ← operand fuel stop closer rest
          return (.not inner, next)
      | ⟨.leftParen, _⟩ :: rest => do
          let (inner, next) ← condition fuel stop .paren rest
          match next with
          | ⟨.rightParen, _⟩ :: others => return (inner, others)
          | _ => failAt stop next (.expectedParen (found next))
      | ⟨.word name, position⟩ :: rest =>
          match Sensor.ofName? name with
          | some _ => .ok (.atom name, rest)
          | none => .error ⟨.unknownCondition name, position.line⟩
      | _ =>
          if found tokens = some closer.lexeme then failAt stop tokens (.emptyCondition closer)
          else failAt stop tokens (.expectedCondition (found tokens))

/-- Reads the connectives and operands after `last`. `left` holds the alternatives that are
complete, and `last` the conjunction that may still grow. -/
def connectives (fuel stop : Nat) (closer : Closer) (left : Option Condition)
    (last : Condition) (tokens : List Token) : Read (Condition × List Token) :=
  match fuel with
  | 0 => failAt stop tokens .nestedTooDeeply
  | fuel + 1 =>
      match tokens with
      | ⟨.and, _⟩ :: rest => do
          let (right, next) ← operand fuel stop closer rest
          connectives fuel stop closer left (.and last right) next
      | ⟨.or, _⟩ :: rest => do
          let (right, next) ← operand fuel stop closer rest
          connectives fuel stop closer (some (joinOr left last)) right next
      | _ => .ok (joinOr left last, tokens)

/-- Reads a condition. -/
def condition (fuel stop : Nat) (closer : Closer) (tokens : List Token) :
    Read (Condition × List Token) :=
  match fuel with
  | 0 => failAt stop tokens .nestedTooDeeply
  | fuel + 1 => do
      let (first, next) ← operand fuel stop closer tokens
      connectives fuel stop closer none first next

end

/-- Enough fuel to read any condition from a token list. -/
def conditionFuel (tokens : List Token) : Nat :=
  2 * tokens.length + 2

/-- Reads the condition of a choice or loop. -/
def blockCondition (stop : Nat) (tokens : List Token) : Read (Condition × List Token) :=
  condition (conditionFuel tokens) stop .brace tokens

end GridRobot.Parse
