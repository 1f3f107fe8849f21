import GridRobot.Program.Source
import GridRobot.Proofs.Grammar.Sound
import GridRobot.Proofs.Scanning
import GridRobot.Proofs.Vocabulary

/-!
# Programs read from sources

Every program that is read from a source is proper, whether the source is program text or a data
document: its names have a meaning, what a choice does and what a loop repeats is not empty, and its
lines are counted from one. For program text this is a property of the grammar. For documents the
proofs follow the readers, one lemma for each of them.
-/

namespace GridRobot

namespace Stmt

mutual

/-- Whether a statement can come from a source: its names have a meaning, no part that must have
statements is empty, its lines are positive and it has no stray part. -/
def Proper : Stmt → Prop
  | .action name line => (∃ action : Action, action.name = name) ∧ 1 ≤ line
  | .choice condition yes no line =>
      condition.Known ∧ yes ≠ [] ∧ AllProper yes ∧ OtherProper no ∧ 1 ≤ line
  | .loop condition body line => condition.Known ∧ body ≠ [] ∧ AllProper body ∧ 1 ≤ line
  | .stray _ => False

/-- Whether every statement of a list is proper. -/
def AllProper : List Stmt → Prop
  | [] => True
  | statement :: rest => statement.Proper ∧ AllProper rest

/-- Whether every statement of the other part of a choice is proper. -/
def OtherProper : Option (List Stmt) → Prop
  | none => True
  | some statements => AllProper statements

end

theorem AllProper.known {program : List Stmt} (proper : AllProper program) :
    AllKnown program := by
  induction program using listInduction with
  | nil => exact trivial
  | action name line rest ih => exact ⟨proper.1.1, ih proper.2⟩
  | choice condition yes line rest yesIH restIH =>
      obtain ⟨⟨conditionKnown, -, yesProper, -, -⟩, restProper⟩ := proper
      exact ⟨⟨conditionKnown, yesIH yesProper, trivial⟩, restIH restProper⟩
  | choiceElse condition yes no line rest yesIH noIH restIH =>
      obtain ⟨⟨conditionKnown, -, yesProper, noProper, -⟩, restProper⟩ := proper
      exact ⟨⟨conditionKnown, yesIH yesProper, noIH noProper⟩, restIH restProper⟩
  | loop condition body line rest bodyIH restIH =>
      obtain ⟨⟨conditionKnown, -, bodyProper, -⟩, restProper⟩ := proper
      exact ⟨⟨conditionKnown, bodyIH bodyProper⟩, restIH restProper⟩
  | stray part rest ih => exact proper.1.elim

end Stmt

/-! ## Program text -/

/-- Whether the lines of tokens are counted from one. -/
def Token.Numbered (tokens : List Token) : Prop :=
  ∀ token ∈ tokens, 1 ≤ token.line

theorem Token.Numbered.of_suffix {tokens rest : List Token} (numbered : Numbered tokens)
    (suffix : rest <:+ tokens) : Numbered rest :=
  fun token among => numbered token (suffix.subset among)

theorem TokenList.numbered_scan {skip : Nat} {position : Position} {text : List Char}
    {list : TokenList} (scanned : scan skip position text = .ok list)
    (counted : 1 ≤ position.line) : Token.Numbered list.tokens := by
  intro token among
  obtain ⟨before, after, -, line, -⟩ := standsIn_scan scanned token among
  rw [line]
  exact Nat.le_add_right_of_le counted

namespace Grammar

/-- Whether the tree of a phrase is proper. -/
def Phrase.Proper : Phrase → Prop
  | .operand tree | .conjunction tree | .condition tree => tree.Known
  | .statement tree => tree.Proper
  | .other trees => Stmt.OtherProper trees
  | .block trees | .body trees => Stmt.AllProper trees
  | .declaration tree => Stmt.AllProper tree.body
  | .declarations trees | .file trees _ => ∀ tree ∈ trees, Stmt.AllProper tree.body
  | .active _ => True

theorem Derives.proper {phrase : Phrase} {tokens rest : List Token}
    (derives : Derives phrase tokens rest) (numbered : Token.Numbered tokens) :
    phrase.Proper := by
  induction derives with
  | sensor sensor => exact ⟨sensor, rfl⟩
  | negation _ ih | parentheses _ ih => exact ih (numbered.of_suffix (List.suffix_cons _ _))
  | singleOperand _ ih | singleConjunction _ ih => exact ih numbered
  | and left _ leftIH rightIH | or left _ leftIH rightIH =>
      have behind := numbered.of_suffix left.suffix
      exact ⟨leftIH numbered, rightIH (behind.of_suffix (List.suffix_cons _ _))⟩
  | action action position =>
      have first := numbered _ List.mem_cons_self
      exact ⟨⟨action, rfl⟩, Int.ofNat_le.mpr first⟩
  | loop breaks test body filled testIH bodyIH =>
      have first := numbered _ List.mem_cons_self
      have atTest := (numbered.of_suffix (List.suffix_cons _ _)).of_suffix breaks.suffix
      have atBody := atTest.of_suffix test.suffix
      exact ⟨testIH atTest, filled, bodyIH atBody, Int.ofNat_le.mpr first⟩
  | choice breaks test yes filled no testIH yesIH noIH =>
      have first := numbered _ List.mem_cons_self
      have atTest := (numbered.of_suffix (List.suffix_cons _ _)).of_suffix breaks.suffix
      have atYes := atTest.of_suffix test.suffix
      have atNo := atYes.of_suffix yes.suffix
      exact ⟨testIH atTest, filled, yesIH atYes, noIH atNo, Int.ofNat_le.mpr first⟩
  | noOther | emptyBody | active => exact trivial
  | otherBlock breaks _ ih | block breaks _ ih =>
      exact ih ((numbered.of_suffix breaks.suffix).of_suffix (List.suffix_cons _ _))
  | otherChoice first second _ ih =>
      have afterElse := (numbered.of_suffix first.suffix).of_suffix (List.suffix_cons _ _)
      exact ⟨ih (afterElse.of_suffix second.suffix), trivial⟩
  | statements breaks first separator _ firstIH othersIH =>
      have atFirst := numbered.of_suffix breaks.suffix
      have atOthers := (atFirst.of_suffix first.suffix).of_suffix separator.suffix
      exact ⟨firstIH atFirst, othersIH atOthers⟩
  | braces breaks _ _ ih | older breaks _ ih =>
      have afterName := numbered.of_suffix (List.suffix_cons _ _)
      exact ih ((afterName.of_suffix breaks.suffix).of_suffix (List.suffix_cons _ _))
  | noDeclarations => exact fun _ among => (List.not_mem_nil among).elim
  | declarations breaks first _ firstIH othersIH =>
      have atFirst := (numbered.of_suffix breaks.suffix).of_suffix (List.suffix_cons _ _)
      exact List.forall_mem_cons.mpr ⟨firstIH atFirst, othersIH (atFirst.of_suffix first.suffix)⟩
  | file _ _ _ declarationsIH => exact declarationsIH numbered

end Grammar

theorem Parse.proper_file {source : TokenList} {result : File}
    (read : (file source).outcome = .ok result) (numbered : Token.Numbered source.tokens) :
    Stmt.AllProper result.program := by
  obtain ⟨derives, chosen⟩ := derives_of_file read
  obtain ⟨declaration, last, equal⟩ := Option.map_eq_some_iff.mp chosen
  have among := List.mem_reverse.mp (List.mem_of_find?_eq_some last)
  exact equal ▸ derives.proper numbered declaration among

theorem Source.proper_textProgram {stack : Stack} {source : String} {program : List Stmt}
    (read : textProgram stack source = .ok program) : Stmt.AllProper program := by
  obtain ⟨tokens, file, scanned, -, readFile, rfl⟩ := exists_file_of_textProgram read
  exact Parse.proper_file readFile (TokenList.numbered_scan scanned (Nat.le_refl 1))

/-! ## Data documents -/

namespace Expression

theorem known_operand {name : String} {result : Condition}
    (read : operand name = .ok result) : result.Known := by
  unfold operand at read
  split at read
  · next sensor found =>
      cases read
      exact ⟨sensor, Sensor.name_of_ofName? found⟩
  · cases read

theorem known_extend {left result : Condition} {tokens : List Token} (leftKnown : left.Known)
    (read : extend left tokens = .ok result) : result.Known := by
  fun_induction extend left tokens with
  | case1 left =>
      cases read
      exact leftKnown
  | case2 left name rest ih | case3 left name rest ih | case4 left name rest ih
  | case5 left name rest ih =>
      obtain ⟨right, readRight, readRest⟩ := ok_of_bind_ok read
      have rightKnown := known_operand readRight
      exact ih right ⟨leftKnown, rightKnown⟩ readRest
  | case6 => cases read

theorem known_read {text : String} {result : Condition} (read : Expression.read text = .ok result) :
    result.Known := by
  unfold Expression.read at read
  split at read
  · unfold fold at read
    split at read
    · cases read
    · obtain ⟨first, readFirst, readRest⟩ := ok_of_bind_ok read
      exact known_extend (known_operand readFirst) readRest
    · obtain ⟨first, readFirst, readRest⟩ := ok_of_bind_ok read
      have firstKnown := known_operand readFirst
      refine known_extend ?_ readRest
      exact firstKnown
    · cases read
  · cases read

end Expression

namespace Document

theorem known_expression {text : Text} {result : Condition}
    (read : expression text = .ok result) : result.Known := by
  unfold expression at read
  split at read
  · next found =>
      cases read
      cases written : text.toString? with
      | none => simp [written] at found
      | some characters =>
          simp only [written, Option.map_some, Option.getD_some] at found
          exact Expression.known_read found
  · cases read
  · cases read
  · cases read

theorem known_condition {room : Nat} {node : Json} {result : Condition}
    (read : condition room node = .ok result) : result.Known := by
  induction room generalizing node result with
  | zero => cases read
  | succ room ih =>
      unfold condition at read
      dsimp only at read
      split at read
      · exact known_expression read
      · split at read
        · split at read
          · split at read
            · next sensor found =>
                cases read
                exact ⟨sensor, Sensor.name_of_ofName? found⟩
            · cases read
          · cases read
        · split at read
          · obtain ⟨inner, readInner, returned⟩ := ok_of_bind_ok read
            have innerKnown := ih readInner
            cases returned
            exact innerKnown
          · cases read
        · split at read
          · obtain ⟨first, readFirst, readRest⟩ := ok_of_bind_ok read
            obtain ⟨second, readSecond, returned⟩ := ok_of_bind_ok readRest
            cases returned
            exact ⟨ih readFirst, ih readSecond⟩
          · cases read
        · split at read
          · obtain ⟨first, readFirst, readRest⟩ := ok_of_bind_ok read
            obtain ⟨second, readSecond, returned⟩ := ok_of_bind_ok readRest
            cases returned
            exact ⟨ih readFirst, ih readSecond⟩
          · cases read
        · cases read
      · cases read

theorem known_test {room : Nat} {fields : List (Text × Json)} {result : Condition}
    (read : test room fields = .ok result) : result.Known := by
  unfold test at read
  split at read
  · exact known_condition read
  · cases read

theorem lineFor_positive {number : Nat} (counted : 1 ≤ number) (fields : List (Text × Json)) :
    1 ≤ lineFor number fields := by
  unfold lineFor
  split
  · split
    · next positive => exact positive
    · exact Int.ofNat_le.mpr counted
  · exact Int.ofNat_le.mpr counted

/-- What a reader of one step returns is proper, and statements after it are still counted from
one. -/
def ReadsStep (step : StepReader) : Prop :=
  ∀ ⦃number node result next⦄, 1 ≤ number → step number node = .ok (result, next) →
    result.Proper ∧ 1 ≤ next

variable {step : StepReader} {room number next : Nat}

theorem proper_stepList (readsStep : ReadsStep step) (counted : 1 ≤ number) {nodes : List Json}
    {result : List Stmt} (read : stepList step number nodes = .ok (result, next)) :
    Stmt.AllProper result ∧ 1 ≤ next := by
  induction nodes generalizing number result next with
  | nil =>
      cases read
      exact ⟨trivial, counted⟩
  | cons node rest ih =>
      obtain ⟨⟨first, afterFirst⟩, readFirst, readRest⟩ := ok_of_bind_ok read
      obtain ⟨⟨others, last⟩, readOthers, returned⟩ := ok_of_bind_ok readRest
      obtain ⟨firstProper, counted⟩ := readsStep counted readFirst
      obtain ⟨othersProper, counted⟩ := ih counted readOthers
      cases returned
      exact ⟨⟨firstProper, othersProper⟩, counted⟩

theorem proper_steps (readsStep : ReadsStep step) (counted : 1 ≤ number) {node : Json}
    {result : List Stmt} (read : steps step number node = .ok (result, next)) :
    Stmt.AllProper result ∧ 1 ≤ next := by
  unfold steps at read
  split at read
  · exact proper_stepList readsStep counted read
  · cases read

theorem proper_action {name node : Json} {line : Int} (positive : 1 ≤ line) {result : Stmt}
    (read : action name node line = .ok result) : result.Proper := by
  unfold action at read
  split at read
  · split at read
    · next action found =>
        cases read
        exact ⟨⟨action, Action.name_of_ofName? found⟩, positive⟩
    · cases read
  · cases read

/-- Whether a further test of a choice is proper, with the statements for it. -/
def Clause.Proper (clause : Clause) : Prop :=
  clause.condition.Known ∧ clause.yes ≠ [] ∧ Stmt.AllProper clause.yes ∧ 1 ≤ clause.line

theorem proper_clauses (readsStep : ReadsStep step) (counted : 1 ≤ number) {nodes : List Json}
    {result : List Clause} (read : clauses room step number nodes = .ok (result, next)) :
    (∀ clause ∈ result, clause.Proper) ∧ 1 ≤ next := by
  induction nodes generalizing number result next with
  | nil =>
      cases read
      exact ⟨fun _ among => (List.not_mem_nil among).elim, counted⟩
  | cons node rest ih =>
      unfold clauses at read
      split at read
      · next empty => cases empty
      · next fields _ equal =>
          cases equal
          obtain ⟨condition, readTest, readRest⟩ := ok_of_bind_ok read
          obtain ⟨body, -, readRest⟩ := ok_of_bind_ok readRest
          obtain ⟨⟨yes, afterYes⟩, readYes, readRest⟩ := ok_of_bind_ok readRest
          dsimp only at readRest
          split at readRest
          · cases readRest
          · next filled =>
              obtain ⟨⟨others, last⟩, readOthers, returned⟩ := ok_of_bind_ok readRest
              have line := lineFor_positive counted fields
              obtain ⟨yesProper, counted⟩ := proper_steps readsStep (Nat.le_add_left 1 _) readYes
              obtain ⟨othersProper, counted⟩ := ih counted readOthers
              cases returned
              refine ⟨List.forall_mem_cons.mpr ⟨?_, othersProper⟩, counted⟩
              exact ⟨known_test readTest, by simpa using filled, yesProper, line⟩
      · cases read

theorem proper_chain {last : Option (List Stmt)} {further : List Clause}
    (lastProper : Stmt.OtherProper last) (allProper : ∀ clause ∈ further, clause.Proper) :
    Stmt.OtherProper (chain last further) := by
  induction further with
  | nil => exact lastProper
  | cons clause rest ih =>
      obtain ⟨⟨condition, filled, yes, line⟩, restProper⟩ := List.forall_mem_cons.mp allProper
      exact ⟨⟨condition, filled, yes, ih restProper, line⟩, trivial⟩

theorem proper_other (readsStep : ReadsStep step) (counted : 1 ≤ number)
    {fields : List (Text × Json)} {result : Option (List Stmt)}
    (read : other step number fields = .ok (result, next)) :
    Stmt.OtherProper result ∧ 1 ≤ next := by
  unfold other at read
  split at read
  · cases read
    exact ⟨trivial, counted⟩
  · obtain ⟨⟨statements, last⟩, readStatements, returned⟩ := ok_of_bind_ok read
    obtain ⟨statementsProper, counted⟩ := proper_stepList readsStep counted readStatements
    cases returned
    exact ⟨statementsProper, counted⟩
  · obtain ⟨⟨statement, last⟩, readStatement, returned⟩ := ok_of_bind_ok read
    obtain ⟨statementProper, counted⟩ := readsStep counted readStatement
    cases returned
    exact ⟨⟨statementProper, trivial⟩, counted⟩

theorem proper_choice (readsStep : ReadsStep step) (counted : 1 ≤ number)
    {fields : List (Text × Json)} {result : Stmt}
    (read : choice room step number fields = .ok (result, next)) : result.Proper ∧ 1 ≤ next := by
  unfold choice at read
  obtain ⟨condition, readTest, readRest⟩ := ok_of_bind_ok read
  obtain ⟨body, -, readRest⟩ := ok_of_bind_ok readRest
  obtain ⟨⟨yes, afterYes⟩, readYes, readRest⟩ := ok_of_bind_ok readRest
  dsimp only at readRest
  split at readRest
  · cases readRest
  · next filled =>
      obtain ⟨nodes, -, readRest⟩ := ok_of_bind_ok readRest
      obtain ⟨⟨further, afterClauses⟩, readClauses, readRest⟩ := ok_of_bind_ok readRest
      obtain ⟨⟨last, afterLast⟩, readLast, returned⟩ := ok_of_bind_ok readRest
      have line := lineFor_positive counted fields
      obtain ⟨yesProper, counted⟩ := proper_steps readsStep (Nat.le_add_left 1 _) readYes
      obtain ⟨clausesProper, counted⟩ := proper_clauses readsStep counted readClauses
      obtain ⟨lastProper, counted⟩ := proper_other readsStep counted readLast
      have otherProper := proper_chain lastProper clausesProper
      cases returned
      exact ⟨⟨known_test readTest, by simpa using filled, yesProper, otherProper, line⟩, counted⟩

theorem proper_loop (readsStep : ReadsStep step) (counted : 1 ≤ number)
    {fields : List (Text × Json)} {result : Stmt}
    (read : loop room step number fields = .ok (result, next)) : result.Proper ∧ 1 ≤ next := by
  unfold loop at read
  obtain ⟨nodes, -, readRest⟩ := ok_of_bind_ok read
  obtain ⟨⟨body, afterBody⟩, readBody, readRest⟩ := ok_of_bind_ok readRest
  dsimp only at readRest
  split at readRest
  · cases readRest
  · next filled =>
      obtain ⟨condition, readTest, returned⟩ := ok_of_bind_ok readRest
      have line := lineFor_positive counted fields
      obtain ⟨bodyProper, counted⟩ := proper_steps readsStep (Nat.le_add_left 1 _) readBody
      cases returned
      exact ⟨⟨known_test readTest, by simpa using filled, bodyProper, line⟩, counted⟩

theorem readsStep (room : Nat) : ReadsStep (Document.step room) := by
  induction room with
  | zero =>
      intro number node result next counted read
      cases read
  | succ room ih =>
      intro number node result next counted read
      unfold Document.step at read
      dsimp only at read
      split at read
      · obtain ⟨statement, readAction, returned⟩ := ok_of_bind_ok read
        have statementProper := proper_action (Int.ofNat_le.mpr counted) readAction
        cases returned
        exact ⟨statementProper, Nat.le_add_left 1 number⟩
      · next fields =>
          split at read
          · obtain ⟨statement, readAction, returned⟩ := ok_of_bind_ok read
            have statementProper := proper_action (lineFor_positive counted fields) readAction
            cases returned
            exact ⟨statementProper, Nat.le_add_left 1 number⟩
          · exact proper_choice ih counted read
          · exact proper_loop ih counted read
          · cases read
      · cases read

theorem proper_program {document : Json} {result : List Stmt}
    (read : program document = .ok result) : Stmt.AllProper result := by
  obtain ⟨nodes, -, readRest⟩ := ok_of_bind_ok read
  obtain ⟨⟨statements, last⟩, readSteps, returned⟩ := ok_of_bind_ok readRest
  have properSteps := proper_steps (readsStep document.levels) (Nat.le_refl 1) readSteps
  cases returned
  exact properSteps.1

end Document

/-! ## Sources -/

/-- Every program that is read from a source is proper. -/
theorem Source.proper_program {stack : Stack} {source : String} {result : List Stmt}
    (read : program stack source = .ok result) : Stmt.AllProper result := by
  unfold program at read
  split at read
  · obtain ⟨document, -, readDocument⟩ := exists_document_of_documentProgram read
    exact Document.proper_program readDocument
  · exact proper_textProgram read

/-- Every program that is read from a source is known. -/
theorem Source.known_program {stack : Stack} {source : String} {result : List Stmt}
    (read : program stack source = .ok result) : Stmt.AllKnown result :=
  (proper_program read).known

end GridRobot
