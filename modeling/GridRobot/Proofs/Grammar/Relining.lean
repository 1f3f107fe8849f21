import GridRobot.Proofs.Grammar.Sound
import GridRobot.Proofs.Lines

/-!
# Readers carry lines along

The readers of program text carry the lines of tokens into statements and faults. They do nothing
else with them, and they look at no columns. So reading tokens on other lines gives what reading
the tokens gives, on the other lines, whatever the columns are.

It follows that every line of what is read is a line of the tokens: a change of lines that leaves
only these leaves what is read.
-/

namespace GridRobot

/-! ## Changes of lines -/

/-- A change of lines. The lines of tokens are natural numbers and those of trees are integers, and
a line of both is changed in the same way. -/
structure Relining where
  token : Nat → Nat
  tree : Int → Int
  tree_natCast : ∀ line : Nat, tree line = token line

namespace Relining

/-- The change that leaves every line. -/
def keep : Relining where
  token := id
  tree := id
  tree_natCast _ := rfl

/-- The change that leaves the given lines and no others. -/
def keepOnly (lines : List Nat) : Relining where
  token line := if line ∈ lines then line else line + 1
  tree line := if ∃ kept ∈ lines, (kept : Int) = line then line else line + 1
  tree_natCast line := by
    have among : (∃ kept ∈ lines, (kept : Int) = line) ↔ line ∈ lines := by
      simp only [Int.natCast_inj, exists_eq_right]
    simp only [among]
    split <;> rfl

variable {lines : List Nat}

theorem keepOnly_token_eq_iff {line : Nat} : (keepOnly lines).token line = line ↔ line ∈ lines := by
  simp [keepOnly]

theorem keepOnly_tree_eq_iff {line : Int} :
    (keepOnly lines).tree line = line ↔ ∃ kept ∈ lines, (kept : Int) = line := by
  unfold keepOnly
  dsimp only
  split
  · next among => exact iff_of_true rfl among
  · next missing => exact iff_of_false (by omega) missing

end Relining

variable (relining : Relining)

/-- A token on another line, in the first column. -/
def Token.reline (token : Token) : Token :=
  ⟨token.lexeme, ⟨relining.token token.line, 1⟩⟩

/-- A token list on other lines, with everything in the first column. -/
def TokenList.reline (list : TokenList) : TokenList :=
  ⟨list.tokens.map (Token.reline relining), ⟨relining.token list.stop.line, 1⟩⟩

/-- A cause with another line. -/
def GrammarCause.reline : GrammarCause → GrammarCause
  | .unclosedBlock openLine => .unclosedBlock (relining.token openLine)
  | cause => cause

/-- A fault on another line. -/
def GrammarFault.reline (fault : GrammarFault) : GrammarFault :=
  ⟨fault.cause.reline relining, relining.token fault.line⟩

/-- A declaration on other lines. -/
def Declaration.reline (declaration : Declaration) : Declaration :=
  ⟨declaration.name, Stmt.mapLinesAll relining.tree declaration.body⟩

/-- Tokens start with a lexeme or they do not, on their lines and on other lines. Where they do not,
a reader that looks for the lexeme takes its last case on both. -/
theorem Token.front_cases (lexeme : Lexeme) (tokens : List Token) :
    (∃ position rest, tokens = ⟨lexeme, position⟩ :: rest) ∨
      (∀ position rest, tokens = ⟨lexeme, position⟩ :: rest → False) ∧
        ∀ position rest, tokens.map (reline relining) = ⟨lexeme, position⟩ :: rest → False := by
  by_cases front : ∃ position rest, tokens = ⟨lexeme, position⟩ :: rest
  · exact .inl front
  · right
    constructor
    · intro position rest starts
      exact front ⟨position, rest, starts⟩
    · intro position rest starts
      obtain ⟨⟨first, place⟩, others, rfl, same, -⟩ := List.map_eq_cons_iff.mp starts
      cases same
      exact front ⟨place, others, rfl⟩

namespace Parse

/-- A file on other lines. -/
def File.reline (file : File) : File where
  declared := file.declared.map (Declaration.reline relining)
  active := file.active
  program := Stmt.mapLinesAll relining.tree file.program

/-- A file or a fault, on other lines. -/
def relinedFile : Read File → Read File
  | .error fault => .error (fault.reline relining)
  | .ok file => .ok (file.reline relining)

/-- What was read of a file, on other lines. -/
def FileReading.reline (reading : FileReading) : FileReading where
  names := reading.names
  outcome := relinedFile relining reading.outcome

/-! ## Readers -/

/-- What a reader returns, on other lines, if the tree is changed by the given function. -/
def relined {α : Type} (change : α → α) : Read (α × List Token) → Read (α × List Token)
  | .error fault => .error (fault.reline relining)
  | .ok (tree, rest) => .ok (change tree, rest.map (Token.reline relining))

section Parts

variable {α β : Type} (stop : Nat) (tokens : List Token)

theorem pure_reline (change : α → α) (tree : α) :
    relined relining change (pure (tree, tokens)) =
      pure (change tree, tokens.map (Token.reline relining)) :=
  rfl

theorem lineAt_reline :
    lineAt (relining.token stop) (tokens.map (Token.reline relining)) =
      relining.token (lineAt stop tokens) := by
  cases tokens <;> rfl

theorem skipBreaks_reline :
    skipBreaks (tokens.map (Token.reline relining)) =
      (skipBreaks tokens).map (Token.reline relining) := by
  fun_induction skipBreaks tokens with
  | case1 position rest ih => exact ih
  | case2 tokens other =>
      cases tokens with
      | nil => rfl
      | cons token rest =>
          obtain ⟨lexeme, position⟩ := token
          cases lexeme with
          | newline => exact (other position rest rfl).elim
          | _ => rfl

theorem skipSemicolon_reline :
    skipSemicolon (tokens.map (Token.reline relining)) =
      (skipSemicolon tokens).map (Token.reline relining) := by
  cases tokens with
  | nil => rfl
  | cons token rest =>
      obtain ⟨lexeme, position⟩ := token
      cases lexeme <;> rfl

theorem atDeclaration_reline :
    atDeclaration (tokens.map (Token.reline relining)) = atDeclaration tokens := by
  cases tokens with
  | nil => rfl
  | cons token rest =>
      obtain ⟨lexeme, position⟩ := token
      cases lexeme <;> rfl

variable {relining stop tokens}

theorem failAt_reline {change : α → α} {cause : GrammarCause}
    (lineless : cause.reline relining = cause) :
    failAt (relining.token stop) (tokens.map (Token.reline relining)) cause =
      relined relining change (failAt stop tokens cause) := by
  rw [failAt, lineAt_reline, failAt, relined, GrammarFault.reline, lineless]

/-- Reading in two parts carries lines along if both parts do. -/
theorem bind_reline {first other : Read (α × List Token)} {change : α → α} {further : β → β}
    {next nextOther : α × List Token → Read (β × List Token)}
    (same : other = relined relining change first)
    (nextSame : ∀ tree rest, nextOther (change tree, rest.map (Token.reline relining)) =
      relined relining further (next (tree, rest))) :
    (other >>= nextOther) = relined relining further (first >>= next) := by
  rw [same]
  cases first with
  | error fault => rfl
  | ok result => exact nextSame result.1 result.2

end Parts

/-! ## Conditions -/

/-- The readers of conditions, with some fuel, carry lines along. -/
structure ConditionsCarry (fuel : Nat) : Prop where
  operand : ∀ stop closer tokens,
    operand fuel (relining.token stop) closer (tokens.map (Token.reline relining)) =
      relined relining id (operand fuel stop closer tokens)
  connectives : ∀ stop closer left last tokens,
    connectives fuel (relining.token stop) closer left last (tokens.map (Token.reline relining)) =
      relined relining id (connectives fuel stop closer left last tokens)
  condition : ∀ stop closer tokens,
    condition fuel (relining.token stop) closer (tokens.map (Token.reline relining)) =
      relined relining id (condition fuel stop closer tokens)

namespace ConditionsCarry

variable {relining} {fuel : Nat}

theorem operand_succ (known : ConditionsCarry relining fuel) (stop : Nat) (closer : Closer)
    (tokens : List Token) :
    Parse.operand (fuel + 1) (relining.token stop) closer (tokens.map (Token.reline relining)) =
      relined relining id (Parse.operand (fuel + 1) stop closer tokens) := by
  unfold Parse.operand
  cases tokens with
  | nil => rfl
  | cons token rest =>
      obtain ⟨lexeme, position⟩ := token
      cases lexeme with
      | not =>
          apply bind_reline (known.operand stop closer rest)
          intro tree next
          rfl
      | leftParen =>
          apply bind_reline (known.condition stop .paren rest)
          intro tree next
          cases next with
          | nil => rfl
          | cons closing others =>
              obtain ⟨lexeme, position⟩ := closing
              cases lexeme <;> rfl
      | word name =>
          simp only [List.map_cons, Token.reline]
          split <;> rfl
      | _ => cases closer <;> rfl

theorem connectives_succ (known : ConditionsCarry relining fuel) (stop : Nat) (closer : Closer)
    (left : Option Condition) (last : Condition) (tokens : List Token) :
    Parse.connectives (fuel + 1) (relining.token stop) closer left last
        (tokens.map (Token.reline relining)) =
      relined relining id (Parse.connectives (fuel + 1) stop closer left last tokens) := by
  unfold Parse.connectives
  cases tokens with
  | nil => rfl
  | cons token rest =>
      obtain ⟨lexeme, position⟩ := token
      cases lexeme with
      | and | or =>
          apply bind_reline (known.operand stop closer rest)
          intro tree next
          exact known.connectives ..
      | _ => rfl

theorem condition_succ (known : ConditionsCarry relining fuel) (stop : Nat) (closer : Closer)
    (tokens : List Token) :
    Parse.condition (fuel + 1) (relining.token stop) closer (tokens.map (Token.reline relining)) =
      relined relining id (Parse.condition (fuel + 1) stop closer tokens) := by
  unfold Parse.condition
  apply bind_reline (known.operand stop closer tokens)
  intro tree next
  exact known.connectives ..

end ConditionsCarry

theorem conditions_carry (fuel : Nat) : ConditionsCarry relining fuel := by
  -- Without fuel every reader fails with a cause that has no line of its own.
  induction fuel with
  | zero =>
      constructor
      · intro stop closer tokens
        exact failAt_reline rfl
      · intro stop closer left last tokens
        exact failAt_reline rfl
      · intro stop closer tokens
        exact failAt_reline rfl
  | succ fuel ih => exact ⟨ih.operand_succ, ih.connectives_succ, ih.condition_succ⟩

theorem blockCondition_reline (stop : Nat) (tokens : List Token) :
    blockCondition (relining.token stop) (tokens.map (Token.reline relining)) =
      relined relining id (blockCondition stop tokens) := by
  rw [blockCondition, conditionFuel, List.length_map]
  exact (conditions_carry relining _).condition stop .brace tokens

/-! ## Statements -/

/-- The readers of statements, with some fuel, carry lines along. -/
structure StatementsCarry (fuel : Nat) : Prop where
  statement : ∀ stop tokens,
    statement fuel (relining.token stop) (tokens.map (Token.reline relining)) =
      relined relining (Stmt.mapLines relining.tree) (statement fuel stop tokens)
  choice : ∀ stop line tokens,
    choice fuel (relining.token stop) (relining.token line) (tokens.map (Token.reline relining)) =
      relined relining (Stmt.mapLines relining.tree) (choice fuel stop line tokens)
  block : ∀ stop owner tokens,
    block fuel (relining.token stop) owner (tokens.map (Token.reline relining)) =
      relined relining (Stmt.mapLinesAll relining.tree) (block fuel stop owner tokens)
  statements : ∀ stop unclosed tokens,
    statements fuel (relining.token stop) (unclosed.reline relining)
        (tokens.map (Token.reline relining)) =
      relined relining (Stmt.mapLinesAll relining.tree) (statements fuel stop unclosed tokens)

namespace StatementsCarry

variable {relining} {fuel : Nat}

theorem statement_succ (known : StatementsCarry relining fuel) (stop : Nat)
    (tokens : List Token) :
    Parse.statement (fuel + 1) (relining.token stop) (tokens.map (Token.reline relining)) =
      relined relining (Stmt.mapLines relining.tree)
        (Parse.statement (fuel + 1) stop tokens) := by
  unfold Parse.statement
  dsimp only
  rw [skipBreaks_reline]
  cases skipBreaks tokens with
  | nil => rfl
  | cons token rest =>
      obtain ⟨lexeme, position⟩ := token
      cases lexeme with
      | word name =>
          simp only [List.map_cons, Token.reline, Token.line]
          split
          · exact known.choice stop position.line rest
          · split
            · rw [skipBreaks_reline]
              apply bind_reline (blockCondition_reline relining stop _)
              intro test afterTest
              apply bind_reline (known.block stop .whileBlock afterTest)
              intro body next
              rw [pure_reline, Stmt.mapLines, relining.tree_natCast]
              rfl
            · split
              · simp only [relined, Stmt.mapLines, relining.tree_natCast]
              · rfl
      | _ => rfl

theorem choice_succ (known : StatementsCarry relining fuel) (stop line : Nat)
    (tokens : List Token) :
    Parse.choice (fuel + 1) (relining.token stop) (relining.token line)
        (tokens.map (Token.reline relining)) =
      relined relining (Stmt.mapLines relining.tree)
        (Parse.choice (fuel + 1) stop line tokens) := by
  unfold Parse.choice
  dsimp only
  rw [skipBreaks_reline]
  apply bind_reline (blockCondition_reline relining stop _)
  intro test afterTest
  apply bind_reline (known.block stop .ifBlock afterTest)
  intro yes afterYes
  dsimp only
  rw [skipBreaks_reline]
  have ended (no : Option (List Stmt)) (rest : List Token) :
      (pure (.choice (id test) (Stmt.mapLinesAll relining.tree yes)
          (Stmt.mapLinesOther relining.tree no) (relining.token line),
            rest.map (Token.reline relining)) : Read (Stmt × List Token)) =
        relined relining (Stmt.mapLines relining.tree) (pure (.choice test yes no line, rest)) := by
    rw [pure_reline, Stmt.mapLines, relining.tree_natCast]
    rfl
  generalize skipBreaks afterYes = afterBlock
  rcases Token.front_cases relining (.word "else") afterBlock with
    ⟨position, afterElse, rfl⟩ | ⟨_, _⟩
  · simp only [List.map_cons, Token.reline, skipBreaks_reline]
    generalize skipBreaks afterElse = other
    rcases Token.front_cases relining (.word "if") other with ⟨place, rest, rfl⟩ | ⟨_, _⟩
    · apply bind_reline (known.choice stop place.line rest)
      exact fun nested next => ended (some [nested]) next
    · -- No nested choice follows, so both readers go on with a block.
      simp only
      apply bind_reline (known.block stop .elseBlock other)
      exact fun no next => ended (some no) next
  · simp only
    exact ended none afterBlock

theorem block_succ (known : StatementsCarry relining fuel) (stop : Nat) (owner : BlockOwner)
    (tokens : List Token) :
    Parse.block (fuel + 1) (relining.token stop) owner (tokens.map (Token.reline relining)) =
      relined relining (Stmt.mapLinesAll relining.tree)
        (Parse.block (fuel + 1) stop owner tokens) := by
  unfold Parse.block
  dsimp only
  rw [skipBreaks_reline]
  cases skipBreaks tokens with
  | nil => rfl
  | cons token rest =>
      obtain ⟨lexeme, position⟩ := token
      cases lexeme with
      | leftBrace =>
          let unclosed : GrammarFault := ⟨.unclosedBlock position.line, position.line⟩
          apply bind_reline (known.statements stop unclosed rest)
          intro body next
          dsimp only
          have same : (Stmt.mapLinesAll relining.tree body).isEmpty = body.isEmpty := by
            cases body <;> rfl
          rw [same]
          split <;> rfl
      | _ => rfl

theorem statements_succ (known : StatementsCarry relining fuel) (stop : Nat)
    (unclosed : GrammarFault) (tokens : List Token) :
    Parse.statements (fuel + 1) (relining.token stop) (unclosed.reline relining)
        (tokens.map (Token.reline relining)) =
      relined relining (Stmt.mapLinesAll relining.tree)
        (Parse.statements (fuel + 1) stop unclosed tokens) := by
  unfold Parse.statements
  dsimp only
  rw [skipBreaks_reline]
  generalize skipBreaks tokens = other
  rcases Token.front_cases relining .rightBrace other with ⟨position, rest, rfl⟩ | ⟨_, _⟩
  · rfl
  · simp only [atDeclaration_reline]
    split
    · rfl
    · apply bind_reline (known.statement stop other)
      intro first next
      dsimp only
      rw [skipBreaks_reline, skipSemicolon_reline]
      apply bind_reline (known.statements stop unclosed _)
      intro others last
      rfl

end StatementsCarry

theorem statements_carry (fuel : Nat) : StatementsCarry relining fuel := by
  induction fuel with
  | zero =>
      constructor
      · intro stop tokens
        exact failAt_reline rfl
      · intro stop line tokens
        exact failAt_reline rfl
      · intro stop owner tokens
        exact failAt_reline rfl
      · intro stop unclosed tokens
        exact failAt_reline rfl
  | succ fuel ih =>
      exact ⟨ih.statement_succ, ih.choice_succ, ih.block_succ, ih.statements_succ⟩

/-! ## Files -/

theorem olderBody_reline (fuel stop : Nat) (name : String) (start : Nat) (tokens : List Token) :
    olderBody fuel (relining.token stop) name (relining.token start)
        (tokens.map (Token.reline relining)) =
      relined relining (Stmt.mapLinesAll relining.tree)
        (olderBody fuel stop name start tokens) := by
  induction fuel generalizing tokens with
  | zero => exact failAt_reline rfl
  | succ fuel ih =>
      unfold olderBody
      dsimp only
      rw [skipBreaks_reline]
      generalize skipBreaks tokens = other
      rcases Token.front_cases relining .semicolon other with ⟨position, rest, rfl⟩ | ⟨_, _⟩
      · rfl
      · simp only [atDeclaration_reline, statementFuel, List.length_map]
        split
        · rfl
        · apply bind_reline ((statements_carry relining _).statement stop other)
          intro first next
          dsimp only
          rw [skipBreaks_reline]
          generalize skipBreaks next = afterFirst
          rcases Token.front_cases relining .semicolon afterFirst with ⟨place, rest, rfl⟩ | ⟨_, _⟩
          · simp only [List.map_cons, Token.reline, skipBreaks_reline, atDeclaration_reline]
            split
            · rfl
            · apply bind_reline (ih _)
              intro others last
              rfl
          · simp only
            apply bind_reline (ih afterFirst)
            intro others last
            rfl

theorem declaration_reline (stop line : Nat) (tokens : List Token) :
    declaration (relining.token stop) (relining.token line) (tokens.map (Token.reline relining)) =
      relined relining (Declaration.reline relining) (declaration stop line tokens) := by
  unfold declaration
  cases tokens with
  | nil => rfl
  | cons token afterName =>
      obtain ⟨lexeme, position⟩ := token
      cases lexeme with
      | word name =>
          simp only [List.map_cons, Token.reline, skipBreaks_reline]
          cases skipBreaks afterName with
          | nil => rfl
          | cons token rest =>
              obtain ⟨lexeme, position⟩ := token
              cases lexeme with
              | leftBrace =>
                  simp only [List.map_cons, Token.reline, statementFuel, List.length_map]
                  let unclosed : GrammarFault := ⟨.unclosedProgram name, line⟩
                  apply bind_reline ((statements_carry relining _).statements stop unclosed rest)
                  intro body next
                  simp only [skipBreaks_reline, skipSemicolon_reline]
                  rfl
              | assign =>
                  simp only [List.map_cons, Token.reline, List.length_map]
                  apply bind_reline (olderBody_reline relining _ stop name line rest)
                  intro body next
                  rfl
              | _ => rfl
      | _ => rfl

/-- What was read of the declarations of a file, on other lines. -/
def Declarations.reline (read : Declarations) : Declarations where
  complete := read.complete.map (Declaration.reline relining)
  rest :=
    match read.rest with
    | .error fault => .error (fault.reline relining)
    | .ok rest => .ok (rest.map (Token.reline relining))

theorem declarations_reline (fuel stop : Nat) (tokens : List Token) :
    declarations fuel (relining.token stop) (tokens.map (Token.reline relining)) =
      (declarations fuel stop tokens).reline relining := by
  induction fuel generalizing tokens with
  | zero =>
      rw [declarations, declarations, failAt, lineAt_reline]
      rfl
  | succ fuel ih =>
      rw [declarations, declarations, skipBreaks_reline]
      generalize skipBreaks tokens = other
      rcases Token.front_cases relining (.word "program") other with ⟨position, rest, rfl⟩ | ⟨_, _⟩
      · simp only [List.map_cons, Token.reline, Token.line, declaration_reline]
        cases declaration stop position.line rest with
        | error fault => rfl
        | ok result =>
            obtain ⟨first, next⟩ := result
            simp only [relined, ih, Declarations.reline]
            rfl
      · simp only
        rfl

theorem activeName_word_reline (stop : Nat) (name : String) (position : Position)
    (afterName : List Token) :
    activeName (relining.token stop)
        ((⟨.word name, position⟩ :: afterName).map (Token.reline relining)) =
      relined relining id (activeName stop (⟨.word name, position⟩ :: afterName)) := by
  simp only [activeName, List.map_cons, Token.reline, skipBreaks]
  rw [skipBreaks_reline]
  cases skipBreaks afterName with
  | nil => rfl
  | cons token rest =>
      obtain ⟨lexeme, position⟩ := token
      cases lexeme <;> rfl

theorem activeName_reline (stop : Nat) (tokens : List Token) :
    activeName (relining.token stop) (tokens.map (Token.reline relining)) =
      relined relining id (activeName stop tokens) := by
  unfold activeName
  dsimp only
  rw [skipBreaks_reline]
  cases skipBreaks tokens with
  | nil => rfl
  | cons token rest =>
      obtain ⟨lexeme, position⟩ := token
      cases lexeme with
      | word name => exact activeName_word_reline relining stop name position rest
      | assign =>
          simp only [List.map_cons, Token.reline, skipBreaks_reline]
          cases skipBreaks rest with
          | nil => rfl
          | cons token afterName =>
              obtain ⟨lexeme, position⟩ := token
              cases lexeme with
              | word name => exact activeName_word_reline relining stop name position afterName
              | _ => rfl
      | _ => rfl

theorem lastBody?_reline (name : String) (declared : List Declaration) :
    lastBody? name (declared.map (Declaration.reline relining)) =
      (lastBody? name declared).map (Stmt.mapLinesAll relining.tree) := by
  unfold lastBody?
  rw [← List.map_reverse, List.find?_map, Option.map_map, Option.map_map]
  rfl

theorem afterDeclarations_reline (stop : Nat) (declared : List Declaration)
    (tokens : List Token) :
    afterDeclarations (relining.token stop) (declared.map (Declaration.reline relining))
        (tokens.map (Token.reline relining)) =
      relinedFile relining (afterDeclarations stop declared tokens) := by
  unfold afterDeclarations
  rcases Token.front_cases relining (.word "active") tokens with ⟨position, rest, rfl⟩ | ⟨_, moved⟩
  · simp only [List.map_cons, Token.reline, Token.line, activeName_reline]
    cases activeName stop rest with
    | error fault => rfl
    | ok result =>
        obtain ⟨active, next⟩ := result
        simp only [relined, ok_bind, id, lastBody?_reline, skipBreaks_reline]
        cases lastBody? active declared with
        | none => rfl
        | some program => cases skipBreaks next <;> rfl
  · cases tokens with
    | nil => rfl
    | cons token rest =>
        rw [List.map_cons] at moved
        simp only [List.map_cons]
        rfl

/-- Whether a reader of files carries lines along. -/
def CarriesLines (reading : TokenList → FileReading) : Prop :=
  ∀ relining source, reading (source.reline relining) = (reading source).reline relining

theorem file_carriesLines : CarriesLines file := by
  intro relining source
  have names (declared : List Declaration) :
      (declared.map (Declaration.reline relining)).map Declaration.name =
        declared.map Declaration.name := by
    rw [List.map_map]
    rfl
  simp only [file, TokenList.reline, List.length_map, declarations_reline, Declarations.reline,
    FileReading.reline, names]
  cases (declarations (source.tokens.length + 1) source.stop.line source.tokens).rest with
  | error fault => rfl
  | ok rest => exact congrArg _ (afterDeclarations_reline relining _ _ rest)

/-- Where a file is given up depends on its lexemes only. -/
theorem boundedFile_carriesLines (tooDeep? : List Lexeme → Option Nat) :
    CarriesLines (boundedFile tooDeep?) := by
  intro relining source
  have lexemes : (source.reline relining).tokens.map Token.lexeme =
      source.tokens.map Token.lexeme := by
    rw [TokenList.reline, List.map_map]
    rfl
  unfold boundedFile
  rw [lexemes]
  cases tooDeep? (source.tokens.map Token.lexeme) with
  | none => exact file_carriesLines relining source
  | some place =>
      simp only [TokenList.reline, failAt, ← List.map_drop, lineAt_reline]
      rfl

end Parse

/-! ## Columns -/

theorem Stmt.mapLinesAll_id (program : List Stmt) : mapLinesAll id program = program := by
  induction program using listInduction with
  | nil => rfl
  | action name line rest ih => rw [mapLinesAll, mapLines, ih, id]
  | choice condition yes line rest yesIH restIH =>
      rw [mapLinesAll, mapLines, mapLinesOther, yesIH, restIH, id]
  | choiceElse condition yes no line rest yesIH noIH restIH =>
      rw [mapLinesAll, mapLines, mapLinesOther, yesIH, noIH, restIH, id]
  | loop condition body line rest bodyIH restIH => rw [mapLinesAll, mapLines, bodyIH, restIH, id]
  | stray part rest ih => rw [mapLinesAll, mapLines, ih]

theorem Declaration.reline_keep (declaration : Declaration) :
    declaration.reline .keep = declaration := by
  obtain ⟨name, body⟩ := declaration
  rw [reline, Declaration.mk.injEq]
  exact ⟨rfl, Stmt.mapLinesAll_id body⟩

theorem GrammarFault.reline_keep (fault : GrammarFault) : fault.reline .keep = fault := by
  obtain ⟨cause, line⟩ := fault
  cases cause <;> rfl

theorem Parse.FileReading.reline_keep (reading : FileReading) :
    reading.reline .keep = reading := by
  obtain ⟨names, outcome⟩ := reading
  rw [reline, FileReading.mk.injEq]
  refine ⟨rfl, ?_⟩
  cases outcome with
  | error fault => exact congrArg Except.error fault.reline_keep
  | ok file =>
      obtain ⟨declared, active, program⟩ := file
      have kept : declared.map (Declaration.reline .keep) = declared := by
        rw [funext Declaration.reline_keep, List.map_id']
      rw [relinedFile, Except.ok.injEq, File.reline, File.mk.injEq]
      exact ⟨kept, rfl, Stmt.mapLinesAll_id program⟩

namespace TokenList

/-- A token list with everything in the first column of its line. -/
def withoutColumns (list : TokenList) : TokenList :=
  ⟨list.tokens.map fun token => ⟨token.lexeme, ⟨token.line, 1⟩⟩, ⟨list.stop.line, 1⟩⟩

theorem reline_keep (list : TokenList) : list.reline .keep = list.withoutColumns :=
  rfl

/-- The lines of the tokens of a list and of its end. -/
def lines (list : TokenList) : List Nat :=
  list.stop.line :: list.tokens.map Token.line

theorem reline_keepOnly (list : TokenList) :
    list.reline (.keepOnly list.lines) = list.withoutColumns := by
  have stop : (Relining.keepOnly list.lines).token list.stop.line = list.stop.line :=
    Relining.keepOnly_token_eq_iff.mpr List.mem_cons_self
  rw [reline, stop, withoutColumns]
  congr 1
  apply List.map_congr_left
  intro token among
  have line : (Relining.keepOnly list.lines).token token.line = token.line :=
    Relining.keepOnly_token_eq_iff.mpr (List.mem_cons_of_mem _ (List.mem_map_of_mem among))
  rw [Token.reline, line]

end TokenList

namespace Parse

namespace CarriesLines

variable {reading : TokenList → FileReading} {source : TokenList}

theorem withoutColumns (carries : CarriesLines reading) (source : TokenList) :
    reading source.withoutColumns = reading source := by
  rw [← TokenList.reline_keep, carries, FileReading.reline_keep]

/-! ## Lines of what is read -/

/-- What is read has no lines but those of the tokens, so it is left by a change that leaves
these. -/
theorem keepOnly (carries : CarriesLines reading) (source : TokenList) :
    (reading source).reline (.keepOnly source.lines) = reading source := by
  rw [← carries, TokenList.reline_keepOnly, carries.withoutColumns]

theorem line_mem (carries : CarriesLines reading) {fault : GrammarFault}
    (failed : (reading source).outcome = .error fault) : fault.line ∈ source.lines := by
  have kept := congrArg FileReading.outcome (carries.keepOnly source)
  rw [FileReading.reline, failed] at kept
  have line := congrArg GrammarFault.line (Except.error.inj kept)
  exact Relining.keepOnly_token_eq_iff.mp line

/-- Every instruction of the program of a file has a line of the file. -/
theorem exists_line_of_mem_assemble (carries : CarriesLines reading) {result : File}
    (read : (reading source).outcome = .ok result) {instr : Instr}
    (among : instr ∈ Code.assemble 0 result.program) :
    ∃ line ∈ source.lines, (line : Int) = instr.line := by
  have kept := congrArg FileReading.outcome (carries.keepOnly source)
  rw [FileReading.reline, read] at kept
  have program := congrArg File.program (Except.ok.inj kept)
  have code := Code.assemble_mapLines (Relining.keepOnly source.lines).tree result.program 0
  rw [show Stmt.mapLinesAll _ result.program = result.program from program] at code
  have same : instr.mapLine (Relining.keepOnly source.lines).tree = instr :=
    List.map_inj_left.mp (code.symm.trans (List.map_id _).symm) instr among
  have line := congrArg Instr.line same
  apply Relining.keepOnly_tree_eq_iff.mp
  cases instr <;> exact line

end CarriesLines

end Parse

end GridRobot
