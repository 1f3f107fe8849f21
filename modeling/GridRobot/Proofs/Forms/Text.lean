import GridRobot.Proofs.Forms.Document
import GridRobot.Proofs.Forms.Spelling
import GridRobot.Proofs.Grammar.Complete
import GridRobot.Proofs.Lines

/-!
# Programs written as text

A program is written on one line of text, with every operator of a condition in parentheses and
every block in braces. Reading the text gives the program back with all its statements on line one,
unless the text is given up. It is cut into the lexemes that were meant, these derive the program by
the rules of the grammar, and the readers follow the grammar.
-/

namespace GridRobot

/-! ## Writing -/

namespace Stmt

mutual

/-- A statement on a line of text. -/
def lineOne : Stmt → String
  | .action name _ => name
  | .choice condition yes no _ =>
      "if " ++ condition.text ++ " \x7b " ++ line yes ++ "\x7d" ++ lineOther no
  | .loop condition body _ => "while " ++ condition.text ++ " \x7b " ++ line body ++ "\x7d"
  | .stray _ => ""

/-- Statements on a line of text, with a space after each of them. -/
def line : List Stmt → String
  | [] => ""
  | statement :: rest => statement.lineOne ++ " " ++ line rest

/-- The other part of a choice on a line of text. -/
def lineOther : Option (List Stmt) → String
  | none => ""
  | some statements => " else \x7b " ++ line statements ++ "\x7d"

end

end Stmt

/-- A text on one line with one program, which is active, from the text of its statements. -/
def Source.around (body : String) : String :=
  "program main \x7b " ++ body ++ "\x7d active main."

/-- A program as one line of text. -/
def Stmt.source (program : List Stmt) : String :=
  Source.around (line program)

/-- The lexemes of a condition that is written as text. -/
def Condition.lexemes : Condition → List Lexeme
  | .atom name => [.word name]
  | .not inner => .not :: .leftParen :: inner.lexemes ++ [.rightParen]
  | .and left right => .leftParen :: left.lexemes ++ .and :: right.lexemes ++ [.rightParen]
  | .or left right => .leftParen :: left.lexemes ++ .or :: right.lexemes ++ [.rightParen]
  | .stray _ => []

namespace Stmt

mutual

/-- The lexemes of a statement that is written as text. -/
def lexemesOne : Stmt → List Lexeme
  | .action name _ => [.word name]
  | .choice condition yes no _ =>
      .word "if" :: condition.lexemes ++ .leftBrace :: lexemes yes ++ .rightBrace ::
        lexemesOther no
  | .loop condition body _ =>
      .word "while" :: condition.lexemes ++ .leftBrace :: lexemes body ++ [.rightBrace]
  | .stray _ => []

/-- The lexemes of statements that are written as text. -/
def lexemes : List Stmt → List Lexeme
  | [] => []
  | statement :: rest => statement.lexemesOne ++ lexemes rest

/-- The lexemes of the other part of a choice that is written as text. -/
def lexemesOther : Option (List Stmt) → List Lexeme
  | none => []
  | some statements => .word "else" :: .leftBrace :: lexemes statements ++ [.rightBrace]

end

end Stmt

/-! ## Spelling -/

theorem Sensor.isName_name (sensor : Sensor) : isName sensor.name = true := by
  cases sensor <;> decide

theorem Action.isName_name (action : Action) : isName action.name = true := by
  cases action <;> decide

theorem Condition.spells {condition : Condition} (known : condition.Known) :
    SpellsBefore condition.text.toList condition.lexemes := by
  induction condition with
  | atom name =>
      obtain ⟨sensor, rfl⟩ := known
      intro text others ends spells
      exact .name sensor.isName_name ends spells
  | not inner ih =>
      intro text others ends spells
      have inside := (ih known).parentheses ends spells
      have whole : Spells ('!' :: _) _ := .mark .not trivial inside
      simpa [Condition.text, Condition.lexemes] using whole
  | and left right leftIH rightIH =>
      have whole := ((leftIH known.1).connective (rightIH known.2) .and trivial).parentheses
      simpa [Condition.text, Condition.lexemes, Lexeme.text] using whole
  | or left right leftIH rightIH =>
      have whole := ((leftIH known.1).connective (rightIH known.2) .or trivial).parentheses
      simpa [Condition.text, Condition.lexemes, Lexeme.text] using whole
  | stray part => exact known.elim

theorem Stmt.spells_line {program : List Stmt} (known : AllKnown program) :
    SpellsFront (line program).toList (lexemes program) := by
  have isIf : isName "if" = true := by decide
  have isElse : isName "else" = true := by decide
  have isWhile : isName "while" = true := by decide
  induction program using listInduction with
  | nil =>
      intro text others spells
      exact spells
  | action name line rest ih =>
      intro text others spells
      obtain ⟨⟨action, rfl⟩, restKnown⟩ := known
      have whole := Spells.word action.isName_name (.space (ih restKnown spells))
      simpa [Stmt.line, lineOne, lexemes, lexemesOne] using whole
  | choice condition yes line rest yesIH restIH =>
      intro text others spells
      obtain ⟨⟨conditionKnown, yesKnown, -⟩, restKnown⟩ := known
      have block := (yesIH yesKnown).block (.space (restIH restKnown spells))
      have test := Condition.spells conditionKnown (endsName_cons _ (by decide)) block
      have whole := Spells.word isIf (.space test)
      simpa [Stmt.line, lineOne, lineOther, lexemes, lexemesOne, lexemesOther] using whole
  | choiceElse condition yes no line rest yesIH noIH restIH =>
      intro text others spells
      obtain ⟨⟨conditionKnown, yesKnown, noKnown⟩, restKnown⟩ := known
      have other := (noIH noKnown).block (.space (restIH restKnown spells))
      have block := (yesIH yesKnown).block (.space (Spells.word isElse other))
      have test := Condition.spells conditionKnown (endsName_cons _ (by decide)) block
      have whole := Spells.word isIf (.space test)
      simpa [Stmt.line, lineOne, lineOther, lexemes, lexemesOne, lexemesOther] using whole
  | loop condition body line rest bodyIH restIH =>
      intro text others spells
      obtain ⟨⟨conditionKnown, bodyKnown⟩, restKnown⟩ := known
      have block := (bodyIH bodyKnown).block (.space (restIH restKnown spells))
      have test := Condition.spells conditionKnown (endsName_cons _ (by decide)) block
      have whole := Spells.word isWhile (.space test)
      simpa [Stmt.line, lineOne, lexemes, lexemesOne] using whole
  | stray part rest ih => exact known.1.elim

/-- The lexemes of a text with one program, from the lexemes of its statements. -/
def Source.lexemesAround (body : List Lexeme) : List Lexeme :=
  .word "program" :: .word "main" :: .leftBrace :: body ++
    [.rightBrace, .word "active", .word "main", .dot]

/-- The lexemes of a program that is written as one line of text. -/
def Stmt.sourceLexemes (program : List Stmt) : List Lexeme :=
  Source.lexemesAround (lexemes program)

namespace Source

theorem toList_around (body : String) :
    (around body).toList = "program".toList ++ ' ' :: ("main".toList ++
      ' ' :: '\x7b' :: ' ' :: (body.toList ++ '\x7d' :: ' ' :: ("active".toList ++
        ' ' :: ("main".toList ++ ['.'])))) := by
  change ("program main \x7b " ++ body ++ "\x7d active main.").toList = _
  simp only [String.toList_append, List.append_assoc]
  rfl

theorem spells_around {body : String} {lexemes : List Lexeme}
    (inside : SpellsFront body.toList lexemes) :
    Spells (around body).toList (lexemesAround lexemes) := by
  have isProgram : isName "program" = true := by decide
  have isMain : isName "main" = true := by decide
  have isActive : isName "active" = true := by decide
  have dot : Spells ['.'] [.dot] := .mark .dot trivial .nil
  have named := Spells.name isMain (endsName_cons [] (by decide)) dot
  have active := Spells.space (Spells.word isActive (.space named))
  have block := inside.block active
  have whole := Spells.word isProgram (.space (Spells.word isMain block))
  rw [toList_around]
  simpa only [lexemesAround, List.cons_append] using whole

end Source

/-! ## Deriving -/

open Grammar

/-- Whether all tokens of a list stand on line one. -/
def Token.OnLineOne (tokens : List Token) : Prop :=
  ∀ token ∈ tokens, token.line = 1

theorem Token.OnLineOne.of_suffix {tokens rest : List Token} (onLine : OnLineOne tokens)
    (suffix : rest <:+ tokens) : OnLineOne rest := by
  intro token among
  exact onLine token (suffix.subset among)

theorem Token.map_eq_cons {tokens : List Token} {lexeme : Lexeme} {others : List Lexeme}
    (written : tokens.map Token.lexeme = lexeme :: others) :
    ∃ position rest, tokens = ⟨lexeme, position⟩ :: rest ∧ rest.map Token.lexeme = others := by
  obtain ⟨⟨_, position⟩, rest, rfl, rfl, tail⟩ := List.map_eq_cons_iff.mp written
  exact ⟨position, rest, rfl, tail⟩

/-- A suffix that has the lexemes of another suffix is that suffix. -/
theorem Token.eq_of_suffix {tokens rest after : List Token} (suffix : after <:+ tokens ++ rest)
    (same : after.map Token.lexeme = rest.map Token.lexeme) : after = rest := by
  have lengths : after.length = rest.length := by
    simpa using congrArg List.length same
  have inside : after <:+ rest :=
    List.suffix_of_suffix_length_le suffix (List.suffix_append tokens rest) (Nat.le_of_eq lengths)
  exact inside.eq_of_length lengths

/-- Whether tokens that spell a condition derive it as an operand. -/
def Condition.DerivesOperand (condition : Condition) : Prop :=
  ∀ ⦃tokens : List Token⦄ ⦃others : List Lexeme⦄,
    tokens.map Token.lexeme = condition.lexemes ++ others →
      ∃ rest, Derives (.operand condition) tokens rest ∧ rest.map Token.lexeme = others

/-- Both sides of a connective in parentheses. -/
theorem Condition.DerivesOperand.sides {left right : Condition} (leftDerives : left.DerivesOperand)
    (rightDerives : right.DerivesOperand) {connective : Lexeme} {tokens : List Token}
    {others : List Lexeme}
    (written : tokens.map Token.lexeme =
      .leftParen :: (left.lexemes ++ connective :: (right.lexemes ++ .rightParen :: others))) :
    ∃ opened position closed start middle rest, tokens = ⟨.leftParen, opened⟩ :: start ∧
      Derives (.operand left) start (⟨connective, position⟩ :: middle) ∧
        Derives (.operand right) middle (⟨.rightParen, closed⟩ :: rest) ∧
          rest.map Token.lexeme = others := by
  obtain ⟨opened, start, rfl, inside⟩ := Token.map_eq_cons written
  obtain ⟨next, first, afterLeft⟩ := leftDerives inside
  obtain ⟨position, middle, rfl, atRight⟩ := Token.map_eq_cons afterLeft
  obtain ⟨after, second, afterRight⟩ := rightDerives atRight
  obtain ⟨closed, rest, rfl, tail⟩ := Token.map_eq_cons afterRight
  exact ⟨opened, position, closed, start, middle, rest, rfl, first, second, tail⟩

/-- A condition that is written as text derives as an operand, since its operators stand in
parentheses. -/
theorem Condition.derivesOperand {condition : Condition} (known : condition.Known) :
    condition.DerivesOperand := by
  induction condition with
  | atom name =>
      intro tokens others written
      obtain ⟨sensor, rfl⟩ := known
      obtain ⟨position, rest, rfl, tail⟩ := Token.map_eq_cons written
      exact ⟨rest, .sensor sensor position rest, tail⟩
  | not inner ih =>
      intro tokens others written
      simp only [lexemes, List.cons_append, List.append_assoc, List.nil_append] at written
      obtain ⟨_, afterNot, rfl, negated⟩ := Token.map_eq_cons written
      obtain ⟨_, start, rfl, inside⟩ := Token.map_eq_cons negated
      obtain ⟨next, derives, afterInner⟩ := ih known inside
      obtain ⟨_, rest, rfl, tail⟩ := Token.map_eq_cons afterInner
      have grouped := Derives.singleConjunction (.singleOperand derives)
      exact ⟨rest, .negation (.parentheses grouped), tail⟩
  | and left right leftIH rightIH =>
      intro tokens others written
      simp only [lexemes, List.cons_append, List.append_assoc, List.nil_append] at written
      obtain ⟨_, _, _, _, _, rest, rfl, first, second, tail⟩ :=
        (leftIH known.1).sides (rightIH known.2) written
      have joined := Derives.and (.singleOperand first) second
      exact ⟨rest, .parentheses (.singleConjunction joined), tail⟩
  | or left right leftIH rightIH =>
      intro tokens others written
      simp only [lexemes, List.cons_append, List.append_assoc, List.nil_append] at written
      obtain ⟨_, _, _, _, _, rest, rfl, first, second, tail⟩ :=
        (leftIH known.1).sides (rightIH known.2) written
      have grouped := Derives.singleConjunction (.singleOperand first)
      exact ⟨rest, .parentheses (.or grouped (.singleOperand second)), tail⟩
  | stray part => exact known.elim

namespace Stmt

/-- A program with all its statements on line one. -/
def onLineOne (program : List Stmt) : List Stmt :=
  mapLinesAll (fun _ => 1) program

/-- Whether tokens with some lexemes derive statements up to a closing brace, if they stand on line
one. -/
def DerivesBody (written : List Lexeme) (body : List Stmt) : Prop :=
  ∀ ⦃tokens : List Token⦄ ⦃others : List Lexeme⦄, Token.OnLineOne tokens →
    tokens.map Token.lexeme = written ++ .rightBrace :: others →
      ∃ closed rest, Derives (.body body) tokens (⟨.rightBrace, closed⟩ :: rest) ∧
        rest.map Token.lexeme = others

/-- Whether tokens with some lexemes derive a statement, if they stand on line one. -/
def DerivesStatement (written : List Lexeme) (statement : Stmt) : Prop :=
  ∀ ⦃tokens : List Token⦄ ⦃others : List Lexeme⦄, Token.OnLineOne tokens →
    tokens.map Token.lexeme = written ++ others →
      ∃ rest, Derives (.statement statement) tokens rest ∧ rest.map Token.lexeme = others

/-- Whether tokens with some lexemes derive the other part of a choice, if they stand on line
one. -/
def DerivesOther (written : List Lexeme) (no : Option (List Stmt)) : Prop :=
  ∀ ⦃tokens : List Token⦄ ⦃others : List Lexeme⦄, Token.OnLineOne tokens →
    tokens.map Token.lexeme = written ++ others →
      ∃ rest, Derives (.other no) tokens rest ∧ rest.map Token.lexeme = others

section Statements

variable {written : List Lexeme} {body : List Stmt}

theorem DerivesBody.block (inside : DerivesBody written body) {tokens : List Token}
    {others : List Lexeme} (onLine : Token.OnLineOne tokens)
    (same : tokens.map Token.lexeme = .leftBrace :: (written ++ .rightBrace :: others)) :
    ∃ rest, Derives (.block body) tokens rest ∧ rest.map Token.lexeme = others := by
  obtain ⟨opened, inner, rfl, tail⟩ := Token.map_eq_cons same
  obtain ⟨closed, rest, derives, tail⟩ := inside (onLine.of_suffix (List.suffix_cons _ _)) tail
  exact ⟨rest, .block (.none _) derives, tail⟩

theorem derivesBody_nil : DerivesBody [] [] := by
  intro tokens others onLine same
  obtain ⟨closed, rest, rfl, tail⟩ := Token.map_eq_cons same
  exact ⟨closed, rest, .emptyBody (.none _), tail⟩

theorem DerivesStatement.cons {first : List Lexeme} {statement : Stmt}
    (derives : DerivesStatement first statement) (further : DerivesBody written body) :
    DerivesBody (first ++ written) (statement :: body) := by
  intro tokens others onLine same
  rw [List.append_assoc] at same
  obtain ⟨next, firstDerives, behind⟩ := derives onLine same
  obtain ⟨closed, last, restDerives, tail⟩ :=
    further (onLine.of_suffix firstDerives.suffix) behind
  exact ⟨closed, last, .statements (.none tokens) firstDerives (.absent next) restDerives, tail⟩

theorem derivesStatement_action (action : Action) :
    DerivesStatement [.word action.name] (.action action.name 1) := by
  intro tokens others onLine same
  obtain ⟨position, next, rfl, tail⟩ := Token.map_eq_cons same
  have one : position.line = 1 := onLine _ List.mem_cons_self
  have derives := Derives.action action position next
  rw [one] at derives
  exact ⟨next, derives, tail⟩

/-- The test and the block of a choice or a loop, after its keyword. -/
theorem derives_test_block {condition : Condition} (known : condition.Known)
    (inside : DerivesBody written body) {tokens : List Token} {others : List Lexeme}
    (onLine : Token.OnLineOne tokens)
    (same : tokens.map Token.lexeme =
      condition.lexemes ++ .leftBrace :: (written ++ .rightBrace :: others)) :
    ∃ middle rest, Derives (.condition condition) tokens middle ∧
      Derives (.block body) middle rest ∧ rest.map Token.lexeme = others := by
  obtain ⟨middle, derives, afterTest⟩ := condition.derivesOperand known same
  obtain ⟨rest, block, tail⟩ := inside.block (onLine.of_suffix derives.suffix) afterTest
  exact ⟨middle, rest, .singleConjunction (.singleOperand derives), block, tail⟩

theorem derivesStatement_loop {condition : Condition} (known : condition.Known)
    (filled : body ≠ []) (inside : DerivesBody written body) :
    DerivesStatement (.word "while" :: condition.lexemes ++ .leftBrace :: written ++ [.rightBrace])
      (.loop condition body 1) := by
  intro tokens others onLine same
  simp only [List.cons_append, List.append_assoc, List.nil_append] at same
  obtain ⟨position, start, rfl, atTest⟩ := Token.map_eq_cons same
  have one : position.line = 1 := onLine _ List.mem_cons_self
  obtain ⟨middle, rest, test, block, tail⟩ :=
    derives_test_block known inside (onLine.of_suffix (List.suffix_cons _ _)) atTest
  have derives : Derives (.statement (.loop condition body position.line))
      (⟨.word "while", position⟩ :: start) rest :=
    .loop (.none start) test block filled
  rw [one] at derives
  exact ⟨rest, derives, tail⟩

theorem derivesStatement_choice {condition : Condition} {writtenOther : List Lexeme}
    {no : Option (List Stmt)} (known : condition.Known) (filled : body ≠ [])
    (inside : DerivesBody written body) (further : DerivesOther writtenOther no) :
    DerivesStatement (.word "if" :: condition.lexemes ++ .leftBrace :: written ++ .rightBrace ::
      writtenOther) (.choice condition body no 1) := by
  intro tokens others onLine same
  simp only [List.cons_append, List.append_assoc] at same
  obtain ⟨position, start, rfl, atTest⟩ := Token.map_eq_cons same
  have one : position.line = 1 := onLine _ List.mem_cons_self
  have inStart := onLine.of_suffix (List.suffix_cons _ start)
  obtain ⟨middle, next, test, block, afterBlock⟩ := derives_test_block known inside inStart atTest
  have atNext := (inStart.of_suffix test.suffix).of_suffix block.suffix
  obtain ⟨rest, other, tail⟩ := further atNext afterBlock
  have derives : Derives (.statement (.choice condition body no position.line))
      (⟨.word "if", position⟩ :: start) rest :=
    .choice (.none start) test block filled other
  rw [one] at derives
  exact ⟨rest, derives, tail⟩

theorem derivesOther_none : DerivesOther [] none := by
  intro tokens others onLine same
  exact ⟨tokens, .noOther tokens, same⟩

theorem DerivesBody.other (inside : DerivesBody written body) :
    DerivesOther (.word "else" :: .leftBrace :: written ++ [.rightBrace]) (some body) := by
  intro tokens others onLine same
  simp only [List.cons_append, List.append_assoc, List.nil_append] at same
  obtain ⟨position, afterElse, rfl, atBlock⟩ := Token.map_eq_cons same
  have behind := onLine.of_suffix (List.suffix_cons _ afterElse)
  obtain ⟨next, block, tail⟩ := inside.block behind atBlock
  exact ⟨next, .otherBlock (.none _) block, tail⟩

end Statements

theorem onLineOne_ne_nil {program : List Stmt} (filled : program ≠ []) :
    onLineOne program ≠ [] := by
  cases program with
  | nil => exact (filled rfl).elim
  | cons first rest => simp [onLineOne, mapLinesAll]

theorem derivesBody {program : List Stmt} (proper : AllProper program) :
    DerivesBody (lexemes program) (onLineOne program) := by
  induction program using listInduction with
  | nil => exact derivesBody_nil
  | action name line rest ih =>
      obtain ⟨⟨⟨action, rfl⟩, -⟩, restProper⟩ := proper
      exact (derivesStatement_action action).cons (ih restProper)
  | choice condition yes line rest yesIH restIH =>
      obtain ⟨⟨known, filled, yesProper, -, -⟩, restProper⟩ := proper
      refine DerivesStatement.cons ?_ (restIH restProper)
      exact derivesStatement_choice known (onLineOne_ne_nil filled) (yesIH yesProper)
        derivesOther_none
  | choiceElse condition yes no line rest yesIH noIH restIH =>
      obtain ⟨⟨known, filled, yesProper, noProper, -⟩, restProper⟩ := proper
      refine DerivesStatement.cons ?_ (restIH restProper)
      exact derivesStatement_choice known (onLineOne_ne_nil filled) (yesIH yesProper)
        (noIH noProper).other
  | loop condition body line rest bodyIH restIH =>
      obtain ⟨⟨known, filled, bodyProper, -⟩, restProper⟩ := proper
      refine DerivesStatement.cons ?_ (restIH restProper)
      exact derivesStatement_loop known (onLineOne_ne_nil filled) (bodyIH bodyProper)
  | stray part rest ih => exact proper.1.elim

theorem derives_around {written : List Lexeme} {body : List Stmt}
    (inside : DerivesBody written body) {tokens : List Token} (onLine : Token.OnLineOne tokens)
    (same : tokens.map Token.lexeme = Source.lexemesAround written) :
    Derives (.file [⟨"main", body⟩] "main") tokens [] := by
  simp only [Source.lexemesAround, List.cons_append] at same
  obtain ⟨keyword, start, rfl, named⟩ := Token.map_eq_cons same
  obtain ⟨name, afterName, rfl, opened⟩ := Token.map_eq_cons named
  obtain ⟨brace, inner, rfl, bodyThere⟩ := Token.map_eq_cons opened
  have inInner : Token.OnLineOne inner := onLine.of_suffix ⟨[_, _, _], rfl⟩
  obtain ⟨closed, rest, derives, afterBody⟩ := inside inInner bodyThere
  obtain ⟨active, afterActive, rfl, atName⟩ := Token.map_eq_cons afterBody
  obtain ⟨second, afterSecond, rfl, atDot⟩ := Token.map_eq_cons atName
  obtain ⟨dot, last, rfl, empty⟩ := Token.map_eq_cons atDot
  obtain rfl := List.map_eq_nil_iff.mp empty
  have declared : Derives (.declaration ⟨"main", body⟩)
      (⟨.word "main", name⟩ :: ⟨.leftBrace, brace⟩ :: inner) (⟨.word "active", active⟩ :: _) :=
    .braces (.none _) derives (.absent _)
  exact .file (.declarations (.none _) declared (.noDeclarations (.none _)))
    (.active (.absent _) (.none _) (.none _) (.inl rfl)) (.none [])

end Stmt

/-! ## Reading -/

namespace Source

open Parse

theorem isDocument_around (body : String) : isDocument (around body) = false := by
  simp [isDocument, toList_around, Text.trimStart, Text.isBlank]

/-- A text with one program on one line is read as the statements that its lexemes derive, unless
the text is given up. Then it is given up on line one. -/
theorem program_around {body : String} {lexemes : List Lexeme} {program : List Stmt}
    (spells : SpellsFront body.toList lexemes) (inside : Stmt.DerivesBody lexemes program)
    (stack : Stack) :
    Source.program stack (around body) =
      match stack.text (lexemesAround lexemes) with
      | some _ => .error (.grammar ⟨.nestedTooDeeply, 1⟩)
      | none => .ok program := by
  obtain ⟨list, scanned, written, onLine, stop⟩ :=
    TokenList.cuts_of_spells (spells_around spells) {}
  have tokens : TokenList.ofText (around body) = .ok list := scanned
  rw [Source.program, if_neg (by simp [isDocument_around])]
  simp only [textProgram, tokens, boundedFile, written]
  cases stack.text (lexemesAround lexemes) with
  | some place =>
      have line : lineAt list.stop.line (list.tokens.drop place) = 1 := by
        cases behind : list.tokens.drop place with
        | nil => exact stop
        | cons token rest => exact onLine token (List.mem_of_mem_drop (behind ▸ List.mem_cons_self))
      simp only [failAt, line]
  | none =>
      have chosen : lastBody? "main" [⟨"main", program⟩] = some program := by simp [lastBody?]
      rw [file_of_derives (Stmt.derives_around inside onLine written) chosen]

/-- A program that is written as one line of text is read as it was, with every statement on line
one, unless the text is given up. -/
theorem program_source {program : List Stmt} (proper : Stmt.AllProper program) (stack : Stack) :
    Source.program stack (Stmt.source program) =
      match stack.text (Stmt.sourceLexemes program) with
      | some _ => .error (.grammar ⟨.nestedTooDeeply, 1⟩)
      | none => .ok (Stmt.onLineOne program) :=
  program_around (Stmt.spells_line proper.known) (Stmt.derivesBody proper) stack

end Source

end GridRobot
