import GridRobot.Program.Stack
import GridRobot.Proofs.Documents.Readers

/-!
# Lines of documents

The statements of a document are numbered as they stand in it: a statement before what is nested in
it, and the further tests of a choice before its last part. This is also the order in which the
program holds them, although the further tests become choices inside each other. So a statement that
has no line of its own in the document has its place in the program as its line.

`Stems` says which part of a document a statement comes from. Its last argument lists these pairs in
reading order.
-/

namespace GridRobot

namespace Stmt

/-- The line of a statement. A stray part has none. -/
def line? : Stmt → Option Int
  | .action _ line | .choice _ _ _ line | .loop _ _ line => some line
  | .stray _ => none

end Stmt

namespace Document

/-- The line that a part of a document gives itself: a whole number, if it is positive. -/
def ownLine? (part : Json) : Option Int :=
  match part.get? "line" with
  | some (.int line) => if 0 < line then some line else none
  | _ => none

theorem lineFor_eq (number : Nat) (fields : List (Text × Json)) :
    lineFor number fields = (ownLine? (.obj fields)).getD number := by
  simp only [lineFor, ownLine?, Json.get?]
  cases Json.field? fields "line" with
  | none => rfl
  | some value =>
      cases value with
      | int line =>
          dsimp only
          split <;> rfl
      | null | bool | float | str | arr | obj => rfl

/-! ## Where statements come from -/

/-- Whether an object has a condition as its test. -/
def Tests (fields : List (Text × Json)) (condition : Condition) : Prop :=
  ∃ room, test room fields = .ok condition

mutual

/-- `Stems node statement origins` says that a statement comes from a part of a document, and lists
the parts that it and the statements nested in it come from. -/
inductive Stems : Json → Stmt → List (Json × Stmt) → Prop where
  | name {text : Text} {name : String} {line : Int} :
      text.toString? = some name →
        Stems (.str text) (.action name line) [(.str text, .action name line)]
  | action {fields : List (Text × Json)} {name : String} {line : Int} :
      kind? fields = some "action" → (Json.field? fields "name").bind Json.string? = some name →
        Stems (.obj fields) (.action name line) [(.obj fields, .action name line)]
  | choice {fields : List (Text × Json)} {condition : Condition} {nodes clauses : List Json}
      {yes : List Stmt} {no : Option (List Stmt)} {line : Int} {inYes inNo : List (Json × Stmt)} :
      kind? fields = some "if" → Tests fields condition →
        Json.field? fields "then" = some (.arr nodes) → StemsAll nodes yes inYes →
          clauseList fields = .ok clauses →
            StemsOther clauses (Json.field? fields "else") no inNo →
              Stems (.obj fields) (.choice condition yes no line)
                ((.obj fields, .choice condition yes no line) :: (inYes ++ inNo))
  | loop {fields : List (Text × Json)} {condition : Condition} {nodes : List Json}
      {body : List Stmt} {line : Int} {inBody : List (Json × Stmt)} :
      kind? fields = some "while" → Tests fields condition →
        Json.field? fields "body" = some (.arr nodes) → StemsAll nodes body inBody →
          Stems (.obj fields) (.loop condition body line)
            ((.obj fields, .loop condition body line) :: inBody)

/-- Statements come one by one from the parts in a list. -/
inductive StemsAll : List Json → List Stmt → List (Json × Stmt) → Prop where
  | nil : StemsAll [] [] []
  | cons {node : Json} {nodes : List Json} {statement : Stmt} {statements : List Stmt}
      {first others : List (Json × Stmt)} :
      Stems node statement first → StemsAll nodes statements others →
        StemsAll (node :: nodes) (statement :: statements) (first ++ others)

/-- The other part of a choice comes from its further tests and from its last part. A further test
is a choice, which has what comes after it as its other part. -/
inductive StemsOther :
    List Json → Option Json → Option (List Stmt) → List (Json × Stmt) → Prop where
  | none : StemsOther [] none none []
  | list {nodes : List Json} {statements : List Stmt} {origins : List (Json × Stmt)} :
      StemsAll nodes statements origins →
        StemsOther [] (some (.arr nodes)) (some statements) origins
  | single {node : Json} {statement : Stmt} {origins : List (Json × Stmt)} :
      Stems node statement origins → StemsOther [] (some node) (some [statement]) origins
  | clause {fields : List (Text × Json)} {condition : Condition} {nodes rest : List Json}
      {last : Option Json} {yes : List Stmt} {no : Option (List Stmt)} {line : Int}
      {inYes inNo : List (Json × Stmt)} :
      Tests fields condition → Json.field? fields "then" = some (.arr nodes) →
        StemsAll nodes yes inYes → StemsOther rest last no inNo →
          StemsOther (.obj fields :: rest) last (some [.choice condition yes no line])
            ((.obj fields, .choice condition yes no line) :: (inYes ++ inNo))

end

/-! ## Numbers -/

/-- Whether statements that come from parts of a document have the lines that these give themselves
and otherwise numbers, counted on from a given one. -/
def InOrder (number : Nat) : List (Json × Stmt) → Prop
  | [] => True
  | (part, statement) :: rest =>
      statement.line? = some ((ownLine? part).getD number) ∧ InOrder (number + 1) rest

/-- `Numbers number next statements origins` says that statements were numbered in the order in
which they are listed, each with the part it comes from, and that `next` is the next number. -/
structure Numbers (number next : Nat) (statements : List Stmt)
    (origins : List (Json × Stmt)) : Prop where
  listed : origins.map Prod.snd = statements
  lines : InOrder number origins
  next : next = number + origins.length

namespace Numbers

variable {number middle next : Nat} {first second : List Stmt} {origins others : List (Json × Stmt)}

theorem nil (number : Nat) : Numbers number number [] [] :=
  ⟨rfl, trivial, rfl⟩

theorem cons {part : Json} {statement : Stmt}
    (line : statement.line? = some ((ownLine? part).getD number))
    (numbers : Numbers (number + 1) next first origins) :
    Numbers number next (statement :: first) ((part, statement) :: origins) where
  listed := by rw [List.map_cons, numbers.listed]
  lines := ⟨line, numbers.lines⟩
  next := by rw [numbers.next, List.length_cons, Nat.add_right_comm, Nat.add_assoc]

theorem append (earlier : Numbers number middle first origins)
    (later : Numbers middle next second others) :
    Numbers number next (first ++ second) (origins ++ others) := by
  induction origins generalizing number first with
  | nil =>
      obtain rfl := earlier.listed
      obtain rfl := earlier.next
      exact later
  | cons origin rest ih =>
      obtain ⟨part, statement⟩ := origin
      obtain rfl := earlier.listed
      have counted := earlier.next
      rw [List.length_cons] at counted
      exact (ih ⟨rfl, earlier.lines.2, by omega⟩).cons earlier.lines.1

end Numbers

/-! ## Readers -/

/-- Whether a reader numbers what it reads from a part of a document in reading order. -/
def ReadsInOrder (reader : StepReader) : Prop :=
  ∀ ⦃number node statement next⦄, reader number node = .ok (statement, next) →
    ∃ origins, Stems node statement origins ∧ Numbers number next statement.parts origins

namespace ReadsInOrder

variable {reader : StepReader} {room number next : Nat} {fields : List (Text × Json)}

theorem stepList (inOrder : ReadsInOrder reader) {nodes : List Json} {statements : List Stmt}
    (read : Document.stepList reader number nodes = .ok (statements, next)) :
    ∃ origins, StemsAll nodes statements origins ∧
      Numbers number next (Stmt.allParts statements) origins := by
  induction nodes generalizing number statements with
  | nil =>
      obtain ⟨rfl, rfl⟩ := stepList_nil.mp read
      exact ⟨[], .nil, .nil _⟩
  | cons node rest ih =>
      obtain ⟨first, middle, others, readFirst, readOthers, rfl⟩ := stepList_cons.mp read
      obtain ⟨fromFirst, stemsFirst, numbersFirst⟩ := inOrder readFirst
      obtain ⟨fromOthers, stemsOthers, numbersOthers⟩ := ih readOthers
      exact ⟨_, .cons stemsFirst stemsOthers, numbersFirst.append numbersOthers⟩

theorem other (inOrder : ReadsInOrder reader) {no : Option (List Stmt)}
    (read : Document.other reader number fields = .ok (no, next)) :
    ∃ origins, StemsOther [] (Json.field? fields "else") no origins ∧
      Numbers number next (Stmt.otherParts no) origins := by
  rcases other_eq_ok_iff.mp read with ⟨there, rfl, rfl⟩ |
    ⟨nodes, statements, there, readList, rfl⟩ | ⟨node, statement, there, -, readSingle, rfl⟩
  · rw [there]
    exact ⟨[], .none, .nil _⟩
  · rw [there]
    obtain ⟨origins, stems, numbers⟩ := inOrder.stepList readList
    exact ⟨origins, .list stems, numbers⟩
  · rw [there]
    obtain ⟨origins, stems, numbers⟩ := inOrder readSingle
    refine ⟨origins, .single stems, ?_⟩
    simpa [Stmt.otherParts, Stmt.allParts] using numbers

/-- The order of the further tests is that of the choices they become. -/
theorem readsOther (inOrder : ReadsInOrder reader) {clauses : List Json} {no : Option (List Stmt)}
    (read : ReadsOther room reader number clauses fields no next) :
    ∃ origins, StemsOther clauses (Json.field? fields "else") no origins ∧
      Numbers number next (Stmt.otherParts no) origins := by
  induction clauses generalizing number no with
  | nil => exact inOrder.other (readsOther_nil.mp read)
  | cons node rest ih =>
      obtain ⟨clause, condition, yes, middle, others, rfl, tested, ⟨nodes, there, readYes, -⟩,
        readRest, rfl⟩ := readsOther_cons.mp read
      obtain ⟨inYes, stemsYes, numbersYes⟩ := inOrder.stepList readYes
      obtain ⟨inNo, stemsNo, numbersNo⟩ := ih readRest
      refine ⟨_, .clause ⟨room, tested⟩ there stemsYes stemsNo, ?_⟩
      have line : (Stmt.choice condition yes others (lineFor number clause)).line? =
          some ((ownLine? (.obj clause)).getD number) := congrArg some (lineFor_eq number clause)
      simpa [Stmt.otherParts, Stmt.allParts, Stmt.parts] using
        (numbersYes.append numbersNo).cons line

theorem choice (inOrder : ReadsInOrder reader) {statement : Stmt} (kind : kind? fields = some "if")
    (read : Document.choice room reader number fields = .ok (statement, next)) :
    ∃ origins, Stems (.obj fields) statement origins ∧
      Numbers number next statement.parts origins := by
  obtain ⟨condition, yes, middle, clauses, no, tested, ⟨nodes, there, readYes, -⟩, listed, readNo,
    rfl⟩ := choice_eq_ok_iff.mp read
  obtain ⟨inYes, stemsYes, numbersYes⟩ := inOrder.stepList readYes
  obtain ⟨inNo, stemsNo, numbersNo⟩ := inOrder.readsOther readNo
  refine ⟨_, .choice kind ⟨room, tested⟩ there stemsYes listed stemsNo, ?_⟩
  exact (numbersYes.append numbersNo).cons (congrArg some (lineFor_eq number fields))

theorem loop (inOrder : ReadsInOrder reader) {statement : Stmt}
    (kind : kind? fields = some "while")
    (read : Document.loop room reader number fields = .ok (statement, next)) :
    ∃ origins, Stems (.obj fields) statement origins ∧
      Numbers number next statement.parts origins := by
  obtain ⟨condition, body, ⟨nodes, there, readBody, -⟩, tested, rfl⟩ := loop_eq_ok_iff.mp read
  obtain ⟨inBody, stemsBody, numbersBody⟩ := inOrder.stepList readBody
  refine ⟨_, .loop kind ⟨room, tested⟩ there stemsBody, ?_⟩
  exact numbersBody.cons (congrArg some (lineFor_eq number fields))

theorem step (room : Nat) : ReadsInOrder (Document.step room) := by
  induction room with
  | zero =>
      intro number node statement next read
      cases read
  | succ room ih =>
      intro number node statement next read
      cases step_eq_ok_iff.mp read with
      | @name text name named known =>
          exact ⟨_, .name named, (Numbers.nil _).cons rfl⟩
      | @action fields name kind named known =>
          exact ⟨_, .action kind named, (Numbers.nil _).cons (congrArg some (lineFor_eq _ _))⟩
      | choice kind read => exact ih.choice kind read
      | loop kind read => exact ih.loop kind read

end ReadsInOrder

/-! ## Parts of the document -/

mutual

theorem Stems.within {node : Json} {statement : Stmt} {origins : List (Json × Stmt)} :
    Stems node statement origins → ∀ origin ∈ origins, node.Within origin.1
  | .name _ => by
      intro origin among
      obtain rfl := List.mem_singleton.mp among
      exact .self _
  | .action _ _ => by
      intro origin among
      obtain rfl := List.mem_singleton.mp among
      exact .self _
  | .choice _ _ there stemsYes listed stemsNo => by
      intro origin among
      rcases List.mem_cons.mp among with rfl | among
      · exact .self _
      rcases List.mem_append.mp among with inYes | inNo
      · obtain ⟨node, inNodes, within⟩ := stemsYes.within origin inYes
        exact within_of_list there inNodes within
      · rcases stemsNo.within origin inNo with ⟨clause, inClauses, within⟩ | ⟨value, found, within⟩
        · rcases clauseList_cases listed with found | rfl
          · exact within_of_list found inClauses within
          · cases inClauses
        · exact within_of_field? found within
  | .loop _ _ there stemsBody => by
      intro origin among
      rcases List.mem_cons.mp among with rfl | among
      · exact .self _
      · obtain ⟨node, inNodes, within⟩ := stemsBody.within origin among
        exact within_of_list there inNodes within

theorem StemsAll.within {nodes : List Json} {statements : List Stmt}
    {origins : List (Json × Stmt)} :
    StemsAll nodes statements origins → ∀ origin ∈ origins, ∃ node ∈ nodes, node.Within origin.1
  | .nil => by simp
  | .cons stemsFirst stemsOthers => by
      intro origin among
      rcases List.mem_append.mp among with inFirst | inOthers
      · exact ⟨_, List.mem_cons_self, stemsFirst.within origin inFirst⟩
      · obtain ⟨node, inNodes, within⟩ := stemsOthers.within origin inOthers
        exact ⟨node, List.mem_cons_of_mem _ inNodes, within⟩

theorem StemsOther.within {clauses : List Json} {last : Option Json} {no : Option (List Stmt)}
    {origins : List (Json × Stmt)} :
    StemsOther clauses last no origins → ∀ origin ∈ origins,
      (∃ clause ∈ clauses, clause.Within origin.1) ∨ ∃ value ∈ last, value.Within origin.1
  | .none => by simp
  | .list stems => by
      intro origin among
      obtain ⟨node, inNodes, within⟩ := stems.within origin among
      exact .inr ⟨_, rfl, .item inNodes within⟩
  | .single stems => by
      intro origin among
      exact .inr ⟨_, rfl, stems.within origin among⟩
  | .clause _ there stemsYes stemsNo => by
      intro origin among
      rcases List.mem_cons.mp among with rfl | among
      · exact .inl ⟨_, List.mem_cons_self, .self _⟩
      rcases List.mem_append.mp among with inYes | inNo
      · obtain ⟨node, inNodes, within⟩ := stemsYes.within origin inYes
        exact .inl ⟨_, List.mem_cons_self, within_of_list there inNodes within⟩
      · rcases stemsNo.within origin inNo with ⟨clause, inClauses, within⟩ | last
        · exact .inl ⟨clause, List.mem_cons_of_mem _ inClauses, within⟩
        · exact .inr last

end

/-! ## Programs -/

theorem InOrder.line? {number index : Nat} {part : Json} {statement : Stmt}
    {origins : List (Json × Stmt)} (lines : InOrder number origins)
    (there : origins[index]? = some (part, statement)) :
    statement.line? = some ((ownLine? part).getD ↑(number + index)) := by
  induction origins generalizing number index with
  | nil => cases there
  | cons origin rest ih =>
      cases index with
      | zero =>
          cases there
          exact lines.1
      | succ index =>
          have later := ih lines.2 there
          rwa [Nat.add_right_comm, Nat.add_assoc] at later

/-- The lines of a program read from a document, whichever documents are given up, follow the order
of the document. Its statements, in reading order, come each from a part of the document, and the
line of a statement is the line that this part gives itself, if it does, and otherwise the place of
the statement, counted from one. So, where no part gives itself a line, the lines are the numbers
from one on. -/
theorem lines_follow_document_order {tooDeep : Json → Bool} {document : Json}
    {program : List Stmt} (read : Document.boundedProgram tooDeep document = .ok program) :
    ∃ nodes origins, body document = .ok (.arr nodes) ∧ StemsAll nodes program origins ∧
      origins.map Prod.snd = Stmt.allParts program ∧
      (∀ (index : Nat) (part : Json) (statement : Stmt),
        origins[index]? = some (part, statement) →
          document.Within part ∧ statement.line? = some ((ownLine? part).getD ↑(index + 1))) ∧
      ((∀ part, document.Within part → ownLine? part = none) →
        (Stmt.allParts program).map Stmt.line? =
          (List.range' 1 (Stmt.allParts program).length).map fun (place : Nat) =>
            some (place : Int)) := by
  have whole : programWithin document.levels document = .ok program :=
    (boundedProgram_eq_ok_iff.mp read).2
  obtain ⟨nodes, next, found, readSteps⟩ := programWithin_eq_ok_iff.mp whole
  obtain ⟨origins, stems, numbers⟩ := (ReadsInOrder.step document.levels).stepList readSteps
  have placed (index : Nat) (part : Json) (statement : Stmt)
      (there : origins[index]? = some (part, statement)) :
      document.Within part ∧ statement.line? = some ((ownLine? part).getD ↑(index + 1)) := by
    constructor
    · obtain ⟨node, inNodes, within⟩ := stems.within _ (List.mem_of_getElem? there)
      exact (within_of_body found).trans (.item inNodes within)
    · rw [Nat.add_comm]
      exact numbers.lines.line? there
  refine ⟨nodes, origins, found, stems, numbers.listed, placed, ?_⟩
  intro unlined
  rw [← numbers.listed, List.map_map, List.length_map]
  apply List.ext_getElem
  · simp
  intro index inside _
  rw [List.length_map] at inside
  obtain ⟨within, line⟩ := placed index origins[index].1 origins[index].2
    (List.getElem?_eq_getElem inside)
  rw [unlined _ within] at line
  simp [line, Nat.add_comm]

theorem lines_follow_document_order_clauses :
    let clause : Json :=
      .obj [("cond", .str "beepersHere"), ("line", .int 40), ("then", .arr [.str "put"])]
    let document : Json :=
      .arr [.str "forward",
        .obj [("type", .str "if"), ("else", .str "turnLeft"), ("cond", .str "won && obstacleAhead"),
          ("elseIfs", .arr [clause]), ("then", .arr [.str "pick"])],
        .str "turnRight"]
    ∃ program, boundedProgram Stack.usual.document document = .ok program ∧
      (Stmt.allParts program).map Stmt.line? =
        [some 1, some 2, some 3, some 40, some 5, some 6, some 7] ∧
          ∃ nodes origins, StemsAll nodes program origins ∧
            ∀ (index : Nat) (part : Json) (statement : Stmt),
              origins[index]? = some (part, statement) →
                statement.line? = some ((ownLine? part).getD ↑(index + 1)) := by
  intro clause document
  have lines : (boundedProgram Stack.usual.document document).toOption.map
      (fun program => (Stmt.allParts program).map Stmt.line?) =
        some [some 1, some 2, some 3, some 40, some 5, some 6, some 7] := by decide +kernel
  cases read : boundedProgram Stack.usual.document document with
  | error cause =>
      rw [read] at lines
      cases lines
  | ok program =>
      rw [read] at lines
      obtain ⟨nodes, origins, -, stems, -, placed, -⟩ := lines_follow_document_order read
      exact ⟨program, rfl, Option.some.inj lines, nodes, origins, stems,
        fun index part statement there => (placed index part statement there).2⟩

end Document

end GridRobot
