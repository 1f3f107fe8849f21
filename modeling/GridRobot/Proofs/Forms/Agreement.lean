import GridRobot.Proofs.Forms.Text
import GridRobot.Proofs.Safety

/-!
# Text and documents express the same programs

A proper program can be written in both forms, and what is read from a source is proper. So each
form expresses what the other does, up to lines. Only the stack sets a bound, and it may set another
one for each form: what it does not hold is refused.
-/

namespace GridRobot

/-! ## The bound -/

/-- Choices inside each other, with an action in the innermost one. -/
def Stmt.nestedChoices : Nat → List Stmt
  | 0 => [.action "forward" 1]
  | levels + 1 => [.choice (.atom "won") (nestedChoices levels) none 1]

namespace Stmt

theorem proper_nestedChoices (levels : Nat) : AllProper (nestedChoices levels) := by
  induction levels with
  | zero => exact ⟨⟨⟨.forward, rfl⟩, by decide⟩, trivial⟩
  | succ levels ih =>
      have filled : nestedChoices levels ≠ [] := by
        cases levels <;> simp [nestedChoices]
      exact ⟨⟨⟨.won, rfl⟩, filled, ih, trivial, by decide⟩, trivial⟩

/-- A stack that holds the text of nested choices has room for all their braces. -/
theorem not_full_of_nestedChoices {full : Nat → Nat → Bool} {opened levels : Nat}
    {rest : List Lexeme}
    (shallow : Parse.Shallow full opened 0 (lexemes (nestedChoices levels) ++ rest)) :
    full (opened + levels) 0 = false := by
  induction levels generalizing opened rest with
  | zero => exact shallow.1
  | succ levels ih =>
      simp only [nestedChoices, lexemes, lexemesOne, lexemesOther, Condition.lexemes,
        List.cons_append, List.append_assoc, List.nil_append] at shallow
      have inside := ih shallow.2.2.2
      rwa [Nat.add_assoc, Nat.add_comm 1] at inside

/-- Each level of nested choices takes four calls. -/
theorem calls_nestedChoices (levels : Nat) :
    4 * levels < Document.calls (.arr (nodes (nestedChoices levels))) := by
  induction levels with
  | zero => decide
  | succ levels ih =>
      have kind : Document.callsUnder? "type" false = none := by decide
      have line : Document.callsUnder? "line" false = none := by decide
      have test : Document.callsUnder? "cond" false = some 1 := by decide
      have block : Document.callsUnder? "then" true = some 3 := by decide
      simp only [nestedChoices, nodes, node, otherField, Condition.node, Document.calls,
        Document.callsOfItems, Document.callsOfFields, Document.isList, kind, line, test,
        block] at ih ⊢
      omega

/-- A proper program that is refused in both forms. -/
theorem nestedChoices_refused :
    AllProper (nestedChoices 300) ∧
      (∀ root : Document.Root,
        Document.boundedProgram Stack.usual.document (root.document (nestedChoices 300)) =
          .error .nestedTooDeeply) ∧
      Source.program .usual (source (nestedChoices 300)) =
        .error (.grammar ⟨.nestedTooDeeply, 1⟩) := by
  have proper := proper_nestedChoices 300
  refine ⟨proper, fun root => if_pos ?_, ?_⟩
  · have calls := calls_nestedChoices 300
    simp only [Stack.usual, Document.takesMoreCalls, Document.body_document, decide_eq_true_eq]
    omega
  · rw [Source.program_source proper]
    cases given : Stack.usual.text (sourceLexemes (nestedChoices 300)) with
    | some place => rfl
    | none =>
        -- Three lexemes stand before the statements, and the last of them opens a brace.
        obtain ⟨-, -, -, inside⟩ := Stack.shallow_of_usual given
        exact absurd (not_full_of_nestedChoices inside) (by decide)

end Stmt

/-! ## Agreement -/

theorem Stmt.known_mapLinesAll (change : Int → Int) {program : List Stmt}
    (known : AllKnown program) : AllKnown (mapLinesAll change program) := by
  induction program using listInduction with
  | nil => exact trivial
  | action name line rest ih => exact ⟨known.1, ih known.2⟩
  | choice condition yes line rest yesIH restIH =>
      exact ⟨⟨known.1.1, yesIH known.1.2.1, trivial⟩, restIH known.2⟩
  | choiceElse condition yes no line rest yesIH noIH restIH =>
      exact ⟨⟨known.1.1, yesIH known.1.2.1, noIH known.1.2.2⟩, restIH known.2⟩
  | loop condition body line rest bodyIH restIH =>
      exact ⟨⟨known.1.1, bodyIH known.1.2⟩, restIH known.2⟩
  | stray part rest ih => exact known.1.elim

/-- Text and documents express the same programs. A proper program that is written as a document,
with any root, is read as it was, and one that is written as a line of text is read with its
statements on line one. On a stack, either form is refused for its nesting if it is given up, and
for nothing else. So whatever one form gives, on any stack, the other gives on one that holds it.
The two programs run alike, with the same events up to their lines. -/
theorem text_and_documents_express_same_programs :
    (∀ program, Stmt.AllProper program → ∀ (root : Document.Root) (stack : Stack),
      Document.program (root.document program) = .ok program ∧
      Document.boundedProgram stack.document (root.document program) =
        if stack.document (root.document program) then .error .nestedTooDeeply
        else .ok program) ∧
    (∀ program, Stmt.AllProper program → ∀ stack : Stack,
      Source.program .unbounded (Stmt.source program) = .ok (Stmt.onLineOne program) ∧
      Source.program stack (Stmt.source program) =
        match stack.text (Stmt.sourceLexemes program) with
        | some _ => .error (.grammar ⟨.nestedTooDeeply, 1⟩)
        | none => .ok (Stmt.onLineOne program)) ∧
    (∀ stack source program, Source.textProgram stack source = .ok program →
      ∀ root : Document.Root, Document.program (root.document program) = .ok program) ∧
    (∀ document program, Document.program document = .ok program →
      Source.program .unbounded (Stmt.source program) = .ok (Stmt.onLineOne program)) ∧
    ∀ program, Stmt.AllProper program →
      ∃ code relined, Code.compile program = .ok code ∧
        Code.compile (Stmt.onLineOne program) = .ok relined ∧
          ∀ limit state, Machine.run limit (.start relined) state =
            (Machine.run limit (.start code) state).mapLines fun _ => 1 := by
  refine ⟨?_, ?_, ?_, ?_, ?_⟩
  · intro program proper root stack
    exact ⟨Document.program_document proper root,
      Document.boundedProgram_document proper stack.document root⟩
  · intro program proper stack
    exact ⟨Source.program_source proper .unbounded, Source.program_source proper stack⟩
  · intro stack source program read root
    exact Document.program_document (Source.proper_textProgram read) root
  · intro document program read
    exact Source.program_source (Document.proper_program read) .unbounded
  · intro program proper
    have relinedKnown := Stmt.known_mapLinesAll (fun _ => 1) proper.known
    refine ⟨_, _, Code.compile_of_known proper.known, Code.compile_of_known relinedKnown, ?_⟩
    intro limit state
    rw [Stmt.onLineOne, Code.assemble_mapLines, Machine.run_mapLines]

/-- A loop with a choice inside, whose condition has every connective and whose other part is
empty. -/
def Stmt.patrol : List Stmt :=
  [.loop (.not (.atom "won"))
    [.choice (.or (.atom "obstacleAhead") (.and (.atom "beepersHere") (.not (.atom "won"))))
      [.action "turnLeft" 4] (some []) 3,
      .action "forward" 7] 2]

theorem patrol_in_both_forms :
    Stmt.AllProper Stmt.patrol ∧
      Document.boundedProgram Stack.usual.document (Document.Root.steps.document Stmt.patrol) =
        .ok Stmt.patrol ∧
      Source.program .usual (Stmt.source Stmt.patrol) = .ok (Stmt.onLineOne Stmt.patrol) := by
  have tested : (Condition.or (.atom "obstacleAhead")
      (.and (.atom "beepersHere") (.not (.atom "won")))).Known :=
    ⟨⟨.obstacleAhead, rfl⟩, ⟨.beepersHere, rfl⟩, ⟨.won, rfl⟩⟩
  have proper : Stmt.AllProper Stmt.patrol := by
    refine ⟨⟨⟨.won, rfl⟩, by simp, ⟨⟨tested, by simp, ?_, trivial, by decide⟩, ?_⟩, by decide⟩,
      trivial⟩
    · exact ⟨⟨⟨.turnLeft, rfl⟩, by decide⟩, trivial⟩
    · exact ⟨⟨⟨.forward, rfl⟩, by decide⟩, trivial⟩
  obtain ⟨asDocument, asText, -⟩ := text_and_documents_express_same_programs
  refine ⟨proper, ?_, ?_⟩
  · rw [(asDocument _ proper .steps .usual).2, if_neg (by decide)]
  · have held : Stack.usual.text (Stmt.sourceLexemes Stmt.patrol) = none := by decide
    rw [(asText _ proper .usual).2, held]

end GridRobot
