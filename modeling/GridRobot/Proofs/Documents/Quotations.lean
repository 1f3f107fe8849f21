import GridRobot.Proofs.Documents.Room

/-!
# What a refused document is shown of itself

A document that is refused for its form is refused at one of its parts, and the fault quotes this
part. The readers hand each other smaller and smaller parts, so whatever one of them quotes is also
a part of what the first of them was given. Only a reader that runs out of room refuses without a
quotation, and no document is nested too deeply to be read as a whole. One that lacks its active
program is not refused for its form.
-/

namespace GridRobot

/-- Whether a cause quotes a part of a value, if it is about the form of the value and not about how
deep it is nested. -/
def DocumentCause.QuotesFrom (value : Json) (cause : DocumentCause) : Prop :=
  cause.category = .schema → cause ≠ .nestedTooDeeply →
    ∃ part, cause.part? = some part ∧ value.Within part

theorem Json.length_fragment (value : Json) : value.fragment.length ≤ fragmentLimit := by
  unfold fragment
  dsimp only
  split
  · next short => exact short
  · have dots : "...".length = 3 := rfl
    rw [String.length_append, String.length_ofList, List.length_take, dots, fragmentLimit]
    omega

namespace Document

/-- Whether every fault of a reading quotes a part of a value. -/
def Quotes {α : Type} (value : Json) (read : Read α) : Prop :=
  ∀ cause, read = .error cause → cause.QuotesFrom value

namespace Quotes

variable {α β : Type} {value inner : Json} {read : Read α}

theorem ok (result : α) : Quotes value (.ok result) := by
  intro cause refused
  cases refused

/-- A value that is refused as a whole is quoted as a whole. -/
theorem whole {cause : DocumentCause} (quoted : cause.part? = some value) :
    Quotes value (.error cause : Read α) := by
  intro other refused _ _
  cases refused
  exact ⟨value, quoted, .self value⟩

theorem tooDeep : Quotes value (.error .nestedTooDeeply : Read α) := by
  intro cause refused _ shallow
  cases refused
  exact (shallow rfl).elim

theorem bind {next : α → Read β} (first : Quotes value read)
    (second : ∀ part, read = .ok part → Quotes value (next part)) :
    Quotes value (read >>= next) := by
  cases read with
  | error cause =>
      intro other refused
      cases refused
      exact first cause rfl
  | ok part => exact second part rfl

/-- What is quoted from a part is quoted from the whole. -/
theorem of_within (within : value.Within inner) (quotes : Quotes inner read) :
    Quotes value read := by
  intro cause refused form shallow
  obtain ⟨part, quoted, inside⟩ := quotes cause refused form shallow
  exact ⟨part, quoted, within.trans inside⟩

end Quotes

/-! ## Conditions -/

theorem quotes_expression (text : Text) : Quotes (.str text) (expression text) := by
  unfold expression
  split
  · exact .ok _
  · exact .whole rfl
  · exact .whole rfl
  · exact .whole rfl

theorem quotes_condition (room : Nat) (node : Json) : Quotes node (condition room node) := by
  induction room generalizing node with
  | zero => exact .tooDeep
  | succ room ih =>
      have nested {fields : List (Text × Json)} {key : Text} {inner : Json}
          (found : Json.field? fields key = some inner) :
          Quotes (.obj fields) (condition room inner) :=
        .of_within (within_of_field? found (.self inner)) (ih inner)
      unfold condition
      dsimp only
      split
      · exact quotes_expression _
      · split
        · split
          · split
            · exact .ok _
            · exact .whole rfl
          · exact .whole rfl
        · split
          · next found =>
              apply (nested found).bind
              intro _ _
              exact .ok _
          · exact .whole rfl
        · split
          · next left right =>
              apply (nested left).bind
              intro _ _
              apply (nested right).bind
              intro _ _
              exact .ok _
          · exact .whole rfl
        · split
          · next left right =>
              apply (nested left).bind
              intro _ _
              apply (nested right).bind
              intro _ _
              exact .ok _
          · exact .whole rfl
        · exact .whole rfl
      · exact .whole rfl

variable {reader : StepReader} {fields : List (Text × Json)} {value : Json}

theorem quotes_test (room : Nat) (fields : List (Text × Json)) :
    Quotes (.obj fields) (test room fields) := by
  unfold test
  split
  · next node found =>
      obtain ⟨key, there⟩ := exists_key_of_test found
      exact .of_within (within_of_field? there (.self node)) (quotes_condition room node)
  · exact .whole rfl

theorem quotes_clauseList (fields : List (Text × Json)) :
    Quotes (.obj fields) (clauseList fields) := by
  unfold clauseList
  split
  · exact .ok _
  · split
    · exact .ok _
    · exact .whole rfl

theorem quotes_action (name node : Json) (line : Int) : Quotes node (action name node line) := by
  unfold action
  split
  · split
    · exact .ok _
    · exact .whole rfl
  · exact .whole rfl

/-! ## Steps -/

/-- Whether every fault of a reader of one step quotes a part of that step. -/
def QuotesSteps (reader : StepReader) : Prop :=
  ∀ number node, Quotes node (reader number node)

namespace QuotesSteps

theorem stepList (quotes : QuotesSteps reader) {nodes : List Json}
    (parts : ∀ node ∈ nodes, value.Within node) (number : Nat) :
    Quotes value (Document.stepList reader number nodes) := by
  induction nodes generalizing number with
  | nil => exact .ok _
  | cons node rest ih =>
      obtain ⟨first, others⟩ := List.forall_mem_cons.mp parts
      apply (Quotes.of_within first (quotes number node)).bind
      intro (_, next) _
      apply (ih others next).bind
      intro _ _
      exact .ok _

theorem steps (quotes : QuotesSteps reader) (number : Nat) (node : Json) :
    Quotes node (Document.steps reader number node) := by
  cases node with
  | arr nodes =>
      apply quotes.stepList
      intro node among
      exact .item among (.self node)
  | null | bool | int | float | str | obj => exact .whole rfl

/-- A block is a field that must be there and hold a list of steps. -/
theorem block {β : Type} (quotes : QuotesSteps reader) (within : value.Within (.obj fields))
    (key : String) (number : Nat) {next : List Stmt × Nat → Read β}
    (further : ∀ part, Quotes value (next part)) :
    Quotes value
      (required key fields >>= fun node => Document.steps reader number node >>= next) := by
  unfold required
  split
  · next node found =>
      have inner : value.Within node := within.trans (within_of_field? found (.self node))
      apply (Quotes.of_within inner (quotes.steps number node)).bind
      intro part _
      exact further part
  · apply Quotes.of_within within
    exact .whole rfl

theorem clauses (quotes : QuotesSteps reader) {nodes : List Json}
    (parts : ∀ node ∈ nodes, value.Within node) (room number : Nat) :
    Quotes value (Document.clauses room reader number nodes) := by
  induction nodes generalizing number with
  | nil => exact .ok _
  | cons node rest ih =>
      obtain ⟨first, others⟩ := List.forall_mem_cons.mp parts
      cases node with
      | obj fields =>
          apply (Quotes.of_within first (quotes_test room fields)).bind
          intro _ _
          apply quotes.block first
          intro (yes, next)
          dsimp only
          split
          · exact .of_within first (.whole rfl)
          · apply (ih others next).bind
            intro _ _
            exact .ok _
      | null | bool | int | float | str | arr => exact .of_within first (.whole rfl)

theorem other (quotes : QuotesSteps reader) (number : Nat) (fields : List (Text × Json)) :
    Quotes (.obj fields) (Document.other reader number fields) := by
  unfold Document.other
  split
  · exact .ok _
  · next nodes found =>
      apply (quotes.stepList _ number).bind
      · intro _ _
        exact .ok _
      · intro node among
        exact within_of_list found among (.self node)
  · next node _ found =>
      have within : (Json.obj fields).Within node := within_of_field? found (.self node)
      apply (Quotes.of_within within (quotes number node)).bind
      intro _ _
      exact .ok _

theorem choice (quotes : QuotesSteps reader) (room number : Nat) (fields : List (Text × Json)) :
    Quotes (.obj fields) (Document.choice room reader number fields) := by
  apply (quotes_test room fields).bind
  intro _ _
  apply quotes.block (.self _)
  intro (yes, afterYes)
  dsimp only
  split
  · exact .whole rfl
  · apply (quotes_clauseList fields).bind
    intro nodes listed
    have parts : ∀ node ∈ nodes, (Json.obj fields).Within node := by
      intro node among
      rcases clauseList_cases listed with found | rfl
      · exact within_of_list found among (.self node)
      · cases among
    apply (quotes.clauses parts room afterYes).bind
    intro (_, afterClauses) _
    apply (quotes.other afterClauses fields).bind
    intro _ _
    exact .ok _

theorem loop (quotes : QuotesSteps reader) (room number : Nat) (fields : List (Text × Json)) :
    Quotes (.obj fields) (Document.loop room reader number fields) := by
  apply quotes.block (.self _)
  intro (body, next)
  dsimp only
  split
  · exact .whole rfl
  · apply (quotes_test room fields).bind
    intro _ _
    exact .ok _

theorem step (room : Nat) : QuotesSteps (Document.step room) := by
  induction room with
  | zero =>
      intro number node
      exact .tooDeep
  | succ room ih =>
      intro number node
      unfold Document.step
      dsimp only
      split
      · apply (quotes_action _ _ _).bind
        intro _ _
        exact .ok _
      · split
        · apply (quotes_action _ _ _).bind
          intro _ _
          exact .ok _
        · exact ih.choice room number _
        · exact ih.loop room number _
        · exact .whole rfl
      · exact .whole rfl

end QuotesSteps

/-! ## Documents -/

theorem quotes_named (fields : List (Text × Json)) : Quotes (.obj fields) (named fields) := by
  unfold named
  split
  · split
    · split
      · exact .ok _
      · exact .ok _
      · intro cause refused form
        cases refused
        cases form
    · exact .whole rfl
  · exact .whole rfl

theorem quotes_body (document : Json) : Quotes document (body document) := by
  unfold body
  split
  · exact .ok _
  · split
    · apply (quotes_named _).bind
      intro _ _
      exact .ok _
    · split
      · exact .ok _
      · exact .whole rfl
  · exact .whole rfl

theorem quotes_programWithin (room : Nat) (document : Json) :
    Quotes document (programWithin room document) := by
  apply (quotes_body document).bind
  intro node found
  apply (Quotes.of_within (within_of_body found) ((QuotesSteps.step room).steps 1 node)).bind
  intro _ _
  exact .ok _

/-- A document that is refused for its form, however deep it is nested, is quoted where it is
refused. There is a part of it such that the quotation is the data form of this part, if that has at
most 80 characters, and otherwise the first 77 of them and three dots. So the quotation has at most
80 characters, and the message ends with it. -/
theorem refusal_quotes_part (document : Json) (cause : DocumentCause)
    (refused : program document = .error cause) (form : cause.category = .schema) :
    ∃ part, document.Within part ∧
      cause.fragment =
        (if part.text.length ≤ 80 then part.text
        else String.ofList (part.text.toList.take 77) ++ "...") ∧
      cause.fragment.length ≤ 80 ∧
      cause.message = cause.summary ++ ": " ++ cause.fragment := by
  have finished : cause ≠ .nestedTooDeeply := by
    rintro rfl
    exact finishes_program document refused
  obtain ⟨part, quoted, within⟩ :=
    quotes_programWithin document.levels document cause refused form finished
  have fragment : cause.fragment = part.fragment := by
    simp only [DocumentCause.fragment, quoted, Option.map_some, Option.getD_some]
  refine ⟨part, within, ?_, ?_, ?_⟩
  · rw [fragment]
    rfl
  · rw [fragment]
    exact part.length_fragment
  · rw [fragment]
    simp only [DocumentCause.message, quoted]

/-- An empty branch behind a further test of a choice in a loop. -/
theorem refusal_quotes_part_clause :
    let note : Json := .arr [.str "turn", .str "left", .str "at", .str "the", .str "wall",
      .str "and", .str "go", .str "on", .str "to", .str "the", .str "next", .str "row"]
    let clause : Json :=
      .obj [("cond", .str "won"), ("then", .arr []), ("line", .int 7), ("note", note)]
    let choice : Json :=
      .obj [("type", .str "if"), ("cond", .str "won"), ("then", .arr [.str "pick"]),
        ("elseIfs", .arr [clause])]
    let loop : Json := .obj [("type", .str "while"), ("body", .arr [choice]), ("cond", .str "won")]
    let document : Json :=
      .obj [("active", .str "main"), ("programs", .obj [("main", .arr [loop])])]
    let cause : DocumentCause := .emptyClause clause
    let shown : String := "\x7b\"cond\": \"won\", \"then\": [], \"line\": 7, " ++
      "\"note\": [\"turn\", \"left\", \"at\", \"the\", ..."
    Document.program document = .error cause ∧ cause.fragment = shown ∧
      ∃ part, document.Within part ∧
        shown =
          (if part.text.length ≤ 80 then part.text
          else String.ofList (part.text.toList.take 77) ++ "...") ∧
        cause.message = "else-if branch must not be empty" ++ ": " ++ shown := by
  intro note clause choice loop document cause shown
  have refused : Document.program document = .error cause := by rfl
  have fragment : cause.fragment = shown := by decide +kernel
  obtain ⟨part, within, quoted, -, message⟩ :=
    refusal_quotes_part document cause refused rfl
  rw [fragment] at quoted message
  exact ⟨refused, fragment, part, within, quoted, message⟩

end Document

end GridRobot
