import GridRobot.Program.Parse.Statement

/-!
# Program files

A program file declares programs and then names the active one. A program has a body in braces, or
in the older form a body after `=` that a semicolon closes. When a name is declared twice, the last
declaration counts.
-/

namespace GridRobot

/-- A declared program. -/
structure Declaration where
  name : String
  body : List Stmt

namespace Parse

/-- Reads a declaration after its `program`, which stands on a given line. -/
def declaration (stop line : Nat) (tokens : List Token) : Read (Declaration × List Token) :=
  match tokens with
  | ⟨.word name, _⟩ :: afterName =>
      match skipBreaks afterName with
      | ⟨.leftBrace, _⟩ :: rest => do
          let (body, next) ←
            statements (statementFuel rest) stop ⟨.unclosedProgram name, line⟩ rest
          return (⟨name, body⟩, skipSemicolon (skipBreaks next))
      | ⟨.assign, _⟩ :: rest => do
          let (body, next) ← olderBody (rest.length + 1) stop name line rest
          return (⟨name, body⟩, next)
      | other => failAt stop other (.expectedBody (found other))
  | other => failAt stop other (.expectedProgramName (found other))

/-- What was read of the declarations of a file: those that were complete, and the tokens after
them or the fault that ended the reading. -/
structure Declarations where
  complete : List Declaration
  rest : Except GrammarFault (List Token)

/-- Reads declarations as long as another one starts. -/
def declarations (fuel stop : Nat) (tokens : List Token) : Declarations :=
  match fuel with
  | 0 => ⟨[], failAt stop tokens .nestedTooDeeply⟩
  | fuel + 1 =>
      match skipBreaks tokens with
      | ⟨.word "program", position⟩ :: rest =>
          match declaration stop position.line rest with
          | .error fault => ⟨[], .error fault⟩
          | .ok (first, next) =>
              let others := declarations fuel stop next
              ⟨first :: others.complete, others.rest⟩
      | other => ⟨[], .ok other⟩

/-- Reads the name of the active program, after `active`. -/
def activeName (stop : Nat) (tokens : List Token) : Read (String × List Token) :=
  let start :=
    match skipBreaks tokens with
    | ⟨.assign, _⟩ :: rest => skipBreaks rest
    | other => other
  match start with
  | ⟨.word name, _⟩ :: afterName =>
      match skipBreaks afterName with
      | ⟨.dot, _⟩ :: rest => .ok (name, rest)
      | ⟨.semicolon, _⟩ :: rest => .ok (name, rest)
      | other => failAt stop other (.expectedDot (found other))
  | other => failAt stop other (.expectedActiveName (found other))

/-- The body of the last declaration with a given name. -/
def lastBody? (name : String) (declared : List Declaration) : Option (List Stmt) :=
  (declared.reverse.find? fun declaration => declaration.name == name).map Declaration.body

/-- A program file as it was read: its declarations, and the active program with its statements. -/
structure File where
  declared : List Declaration
  active : String
  program : List Stmt

/-- Reads what follows the declarations of a file. -/
def afterDeclarations (stop : Nat) (declared : List Declaration) (tokens : List Token) :
    Except GrammarFault File :=
  match tokens with
  | ⟨.word "active", position⟩ :: rest => do
      let (active, next) ← activeName stop rest
      match lastBody? active declared with
      | none => .error ⟨.unknownActive active, position.line⟩
      | some program =>
          match skipBreaks next with
          | [] => return ⟨declared, active, program⟩
          | other => failAt stop other (.trailingContent (found other))
  | [] => .error ⟨.missingActive, stop⟩
  | other => failAt stop other (.expectedDeclaration (found other))

/-- What was read of a file, with the names declared before any fault. -/
structure FileReading where
  names : List String
  outcome : Except GrammarFault File

/-- Reads a program file. -/
def file (source : TokenList) : FileReading :=
  let read := declarations (source.tokens.length + 1) source.stop.line source.tokens
  { names := read.complete.map Declaration.name
    outcome := do
      let rest ← read.rest
      afterDeclarations source.stop.line read.complete rest }

/-- Reads a program file, unless it is given up at one of its lexemes. -/
def boundedFile (tooDeep? : List Lexeme → Option Nat) (source : TokenList) : FileReading :=
  match tooDeep? (source.tokens.map Token.lexeme) with
  | some place =>
      ⟨[], failAt source.stop.line (source.tokens.drop place) .nestedTooDeeply⟩
  | none => file source

theorem boundedFile_eq_file {tooDeep? : List Lexeme → Option Nat} {source : TokenList}
    {result : File} (read : (boundedFile tooDeep? source).outcome = .ok result) :
    tooDeep? (source.tokens.map Token.lexeme) = none ∧
      boundedFile tooDeep? source = file source := by
  unfold boundedFile at read ⊢
  split at read
  · cases read
  · next bounded => exact ⟨bounded, rfl⟩

/-- The names in a list that stand in it before as well, once for each repetition. -/
def repeated (names : List String) : List String :=
  go [] names
where
  /-- The repetitions among the names that follow the names already seen. -/
  go (seen : List String) : List String → List String
    | [] => []
    | name :: rest =>
        if seen.contains name then name :: go seen rest else go (name :: seen) rest

end Parse

end GridRobot
