import GridRobot.Program.Document
import GridRobot.Proofs.Grammar.Sound

/-!
# What the readers of documents accept

Each reader of a document calls others in turn and stops at the first fault. Here its successes are
described by what the others return, so that no proof about documents has to open a reader again.

The further tests of a choice and its last part are described together. They are read one after the
other and put together from the last one on, but `readsOther_cons` takes the first test off, as if
it were a choice in the other part.
-/

namespace GridRobot

theorem bind_eq_ok_iff {ε α β : Type} {first : Except ε α} {second : α → Except ε β} {result : β} :
    (first >>= second) = .ok result ↔ ∃ part, first = .ok part ∧ second part = .ok result := by
  constructor
  · exact ok_of_bind_ok
  · rintro ⟨part, rfl, read⟩
    exact read

theorem Json.Within.trans {value middle part : Json} (outer : value.Within middle)
    (inner : middle.Within part) : value.Within part := by
  induction outer with
  | self value => exact inner
  | item among _ ih => exact .item among (ih inner)
  | field among _ ih => exact .field among (ih inner)

namespace Document

/-- The type that an object has, if it is a string. -/
def kind? (fields : List (Text × Json)) : Option String :=
  (Json.field? fields "type").bind Json.string?

/-! ## Conditions -/

/-- `AcceptsCondition room node condition` says that a part of a document is read as a condition,
with `room` for what is nested in it. -/
inductive AcceptsCondition (room : Nat) : Json → Condition → Prop where
  | expression {text : Text} {condition : Condition} :
      Document.expression text = .ok condition → AcceptsCondition room (.str text) condition
  | atom {fields : List (Text × Json)} {name : String} :
      kind? fields = some "atom" → (Json.field? fields "name").bind Json.string? = some name →
        (Sensor.ofName? name).isSome → AcceptsCondition room (.obj fields) (.atom name)
  | not {fields : List (Text × Json)} {node : Json} {inner : Condition} :
      kind? fields = some "not" → Json.field? fields "inner" = some node →
        condition room node = .ok inner → AcceptsCondition room (.obj fields) (.not inner)
  | and {fields : List (Text × Json)} {first second : Json} {left right : Condition} :
      kind? fields = some "and" → Json.field? fields "left" = some first →
        Json.field? fields "right" = some second → condition room first = .ok left →
          condition room second = .ok right → AcceptsCondition room (.obj fields) (.and left right)
  | or {fields : List (Text × Json)} {first second : Json} {left right : Condition} :
      kind? fields = some "or" → Json.field? fields "left" = some first →
        Json.field? fields "right" = some second → condition room first = .ok left →
          condition room second = .ok right → AcceptsCondition room (.obj fields) (.or left right)

theorem condition_eq_ok_iff {room : Nat} {node : Json} {result : Condition} :
    condition (room + 1) node = .ok result ↔ AcceptsCondition room node result := by
  constructor
  · intro read
    unfold condition at read
    dsimp only at read
    split at read
    · exact .expression read
    · split at read
      · next kind =>
          split at read
          · next named =>
              split at read
              · next found =>
                  cases read
                  exact .atom kind named (by simp [found])
              · cases read
          · cases read
      · next kind =>
          split at read
          · next found =>
              obtain ⟨inner, readInner, returned⟩ := ok_of_bind_ok read
              cases returned
              exact .not kind found readInner
          · cases read
      · next kind =>
          split at read
          · next foundLeft foundRight =>
              obtain ⟨left, readLeft, read⟩ := ok_of_bind_ok read
              obtain ⟨right, readRight, returned⟩ := ok_of_bind_ok read
              cases returned
              exact .and kind foundLeft foundRight readLeft readRight
          · cases read
      · next kind =>
          split at read
          · next foundLeft foundRight =>
              obtain ⟨left, readLeft, read⟩ := ok_of_bind_ok read
              obtain ⟨right, readRight, returned⟩ := ok_of_bind_ok read
              cases returned
              exact .or kind foundLeft foundRight readLeft readRight
          · cases read
      · cases read
    · cases read
  · intro accepts
    cases accepts with
    | expression read => exact read
    | atom kind named known =>
        obtain ⟨sensor, found⟩ := Option.isSome_iff_exists.mp known
        unfold kind? at kind
        simp only [condition, kind, named, found]
    | not kind found readInner =>
        unfold kind? at kind
        simp only [condition, kind, found, readInner, ok_bind]
        rfl
    | and kind foundLeft foundRight readLeft readRight
    | or kind foundLeft foundRight readLeft readRight =>
        unfold kind? at kind
        simp only [condition, kind, foundLeft, foundRight, readLeft, readRight, ok_bind]
        rfl

theorem test_eq_ok_iff {room : Nat} {fields : List (Text × Json)} {result : Condition} :
    test room fields = .ok result ↔
      ∃ node, (Json.field? fields "cond" <|> Json.field? fields "condition") = some node ∧
        condition room node = .ok result := by
  unfold test
  split
  · next node found => simp [found]
  · next absent => simp [absent]

/-- A test stands under one of its two keys. -/
theorem exists_key_of_test {fields : List (Text × Json)} {node : Json}
    (found : (Json.field? fields "cond" <|> Json.field? fields "condition") = some node) :
    ∃ key, Json.field? fields key = some node := by
  cases first : Json.field? fields "cond" with
  | some value =>
      rw [first] at found
      exact ⟨"cond", first.trans found⟩
  | none =>
      rw [first] at found
      exact ⟨"condition", found⟩

variable {room : Nat} {reader : StepReader} {number next : Nat} {fields : List (Text × Json)}

/-! ## Lists of steps -/

@[simp] theorem stepList_nil {result : List Stmt} :
    stepList reader number [] = .ok (result, next) ↔ result = [] ∧ next = number := by
  simp [stepList, eq_comm]

theorem stepList_cons {node : Json} {rest : List Json} {result : List Stmt} :
    stepList reader number (node :: rest) = .ok (result, next) ↔
      ∃ first middle others, reader number node = .ok (first, middle) ∧
        stepList reader middle rest = .ok (others, next) ∧ result = first :: others := by
  constructor
  · intro read
    obtain ⟨⟨first, middle⟩, readFirst, readRest⟩ := ok_of_bind_ok read
    obtain ⟨⟨others, last⟩, readOthers, returned⟩ := ok_of_bind_ok readRest
    cases returned
    exact ⟨first, middle, others, readFirst, readOthers, rfl⟩
  · rintro ⟨first, middle, others, readFirst, readOthers, rfl⟩
    simp only [stepList, readFirst, readOthers, ok_bind]
    rfl

/-! ## Blocks -/

/-- `ReadsBlock reader number fields key block next` says that a field holds a list of steps that is
read as a block with something in it, and that the statement with this field has the number before
those of the block. -/
def ReadsBlock (reader : StepReader) (number : Nat) (fields : List (Text × Json)) (key : String)
    (block : List Stmt) (next : Nat) : Prop :=
  ∃ nodes, Json.field? fields key = some (.arr nodes) ∧
    stepList reader (number + 1) nodes = .ok (block, next) ∧ block ≠ []

/-- What is done with a block that is read: it is refused if it is empty. -/
theorem readBlock_eq_ok_iff {α : Type} {key : String} {cause : DocumentCause}
    {rest : List Stmt × Nat → Read α} {result : α} :
    (required key fields >>= fun node => steps reader (number + 1) node >>= fun read =>
        if read.1.isEmpty then .error cause else rest read) = .ok result ↔
      ∃ block next, ReadsBlock reader number fields key block next ∧
        rest (block, next) = .ok result := by
  constructor
  · intro read
    obtain ⟨node, found, read⟩ := ok_of_bind_ok read
    obtain ⟨⟨block, next⟩, readBlock, read⟩ := ok_of_bind_ok read
    split at read
    · cases read
    · next filled =>
        refine ⟨block, next, ?_, read⟩
        unfold required at found
        split at found
        · next there =>
            cases found
            unfold steps at readBlock
            split at readBlock
            · exact ⟨_, there, readBlock, by simpa using filled⟩
            · cases readBlock
        · cases found
  · rintro ⟨block, next, ⟨nodes, there, readBlock, filled⟩, read⟩
    have found : required key fields = .ok (.arr nodes) := by
      simp only [required, there]
    simp only [found, ok_bind, steps, readBlock]
    rw [if_neg (by simpa using filled)]
    exact read

/-! ## Choices -/

/-- `ReadsOther room reader number nodes fields no next` says that further tests, and after them the
last part of the choice with some fields, are read as its other part. -/
def ReadsOther (room : Nat) (reader : StepReader) (number : Nat) (nodes : List Json)
    (fields : List (Text × Json)) (no : Option (List Stmt)) (next : Nat) : Prop :=
  ∃ further middle last, clauses room reader number nodes = .ok (further, middle) ∧
    other reader middle fields = .ok (last, next) ∧ no = chain last further

variable {no : Option (List Stmt)} {statement : Stmt}

@[simp] theorem readsOther_nil :
    ReadsOther room reader number [] fields no next ↔
      other reader number fields = .ok (no, next) := by
  constructor
  · rintro ⟨further, middle, last, readClauses, readLast, rfl⟩
    cases readClauses
    exact readLast
  · intro read
    exact ⟨[], number, no, rfl, read, rfl⟩

/-- The first further test is a choice in the other part, and the rest is its own other part. -/
theorem readsOther_cons {node : Json} {rest : List Json} :
    ReadsOther room reader number (node :: rest) fields no next ↔
      ∃ clause condition yes middle others, node = .obj clause ∧ test room clause = .ok condition ∧
        ReadsBlock reader number clause "then" yes middle ∧
          ReadsOther room reader middle rest fields others next ∧
            no = some [.choice condition yes others (lineFor number clause)] := by
  constructor
  · rintro ⟨further, later, last, readClauses, readLast, rfl⟩
    cases node with
    | obj clause =>
        obtain ⟨condition, tested, readClauses⟩ := ok_of_bind_ok readClauses
        obtain ⟨yes, middle, readYes, readClauses⟩ := readBlock_eq_ok_iff.mp readClauses
        obtain ⟨⟨others, last⟩, readOthers, returned⟩ := ok_of_bind_ok readClauses
        cases returned
        exact ⟨clause, condition, yes, middle, _, rfl, tested, readYes,
          ⟨others, _, _, readOthers, readLast, rfl⟩, rfl⟩
    | _ => cases readClauses
  · rintro ⟨clause, condition, yes, middle, _, rfl, tested, readYes,
      ⟨others, later, last, readOthers, readLast, rfl⟩, rfl⟩
    refine ⟨⟨condition, yes, lineFor number clause⟩ :: others, later, last, ?_, readLast, rfl⟩
    refine bind_eq_ok_iff.mpr ⟨condition, tested, ?_⟩
    refine readBlock_eq_ok_iff.mpr ⟨yes, middle, readYes, ?_⟩
    simp only [readOthers, ok_bind]
    rfl

/-- The last part of a choice is not there, or it is a list of steps or a single step. -/
theorem other_eq_ok_iff :
    other reader number fields = .ok (no, next) ↔
      (Json.field? fields "else" = none ∧ no = none ∧ next = number) ∨
      (∃ nodes statements, Json.field? fields "else" = some (.arr nodes) ∧
        stepList reader number nodes = .ok (statements, next) ∧ no = some statements) ∨
      ∃ node statement, Json.field? fields "else" = some node ∧ (∀ nodes, node ≠ .arr nodes) ∧
        reader number node = .ok (statement, next) ∧ no = some [statement] := by
  unfold other
  split
  · next absent => simp [absent, eq_comm]
  · next nodes there =>
      simp only [there, bind_eq_ok_iff]
      constructor
      · rintro ⟨⟨statements, last⟩, read, returned⟩
        cases returned
        exact .inr (.inl ⟨nodes, statements, rfl, read, rfl⟩)
      · rintro (⟨absent, -⟩ | ⟨_, statements, same, read, rfl⟩ | ⟨_, _, same, single, -⟩)
        · cases absent
        · cases same
          exact ⟨_, read, rfl⟩
        · cases same
          exact (single nodes rfl).elim
  · next node single there =>
      simp only [there, bind_eq_ok_iff]
      constructor
      · rintro ⟨⟨statement, last⟩, read, returned⟩
        cases returned
        exact .inr (.inr ⟨node, statement, rfl, single, read, rfl⟩)
      · rintro (⟨absent, -⟩ | ⟨nodes, _, same, -⟩ | ⟨_, statement, same, -, read, rfl⟩)
        · cases absent
        · cases same
          exact (single nodes rfl).elim
        · cases same
          exact ⟨_, read, rfl⟩

/-- The further tests of a choice are those in its list, or there are none. -/
theorem clauseList_cases {nodes : List Json} (listed : clauseList fields = .ok nodes) :
    Json.field? fields "elseIfs" = some (.arr nodes) ∨ nodes = [] := by
  unfold clauseList at listed
  cases found : Json.field? fields "elseIfs" with
  | none =>
      rw [found] at listed
      cases listed
      exact .inr rfl
  | some value =>
      rw [found] at listed
      cases value with
      | arr items =>
          cases listed
          exact .inl rfl
      | null | bool | int | float | str | obj =>
          right
          simp only [Option.getD_some] at listed
          split at listed <;> cases listed
          rfl

theorem choice_eq_ok_iff :
    choice room reader number fields = .ok (statement, next) ↔
      ∃ condition yes middle nodes no, test room fields = .ok condition ∧
        ReadsBlock reader number fields "then" yes middle ∧ clauseList fields = .ok nodes ∧
          ReadsOther room reader middle nodes fields no next ∧
            statement = .choice condition yes no (lineFor number fields) := by
  constructor
  · intro read
    obtain ⟨condition, tested, read⟩ := ok_of_bind_ok read
    obtain ⟨yes, middle, readYes, read⟩ := readBlock_eq_ok_iff.mp read
    obtain ⟨nodes, listed, read⟩ := ok_of_bind_ok read
    obtain ⟨⟨further, later⟩, readClauses, read⟩ := ok_of_bind_ok read
    obtain ⟨⟨last, final⟩, readLast, returned⟩ := ok_of_bind_ok read
    cases returned
    exact ⟨condition, yes, middle, nodes, _, tested, readYes, listed,
      ⟨further, later, last, readClauses, readLast, rfl⟩, rfl⟩
  · rintro ⟨condition, yes, middle, nodes, _, tested, readYes, listed,
      ⟨further, later, last, readClauses, readLast, rfl⟩, rfl⟩
    refine bind_eq_ok_iff.mpr ⟨condition, tested, ?_⟩
    refine readBlock_eq_ok_iff.mpr ⟨yes, middle, readYes, ?_⟩
    simp only [listed, readClauses, readLast, ok_bind]
    rfl

theorem loop_eq_ok_iff :
    loop room reader number fields = .ok (statement, next) ↔
      ∃ condition body, ReadsBlock reader number fields "body" body next ∧
        test room fields = .ok condition ∧
          statement = .loop condition body (lineFor number fields) := by
  constructor
  · intro read
    obtain ⟨body, middle, readBody, read⟩ := readBlock_eq_ok_iff.mp read
    obtain ⟨condition, tested, returned⟩ := ok_of_bind_ok read
    cases returned
    exact ⟨condition, body, readBody, tested, rfl⟩
  · rintro ⟨condition, body, readBody, tested, rfl⟩
    refine readBlock_eq_ok_iff.mpr ⟨body, next, readBody, ?_⟩
    simp only [tested, ok_bind]
    rfl

/-! ## Steps -/

/-- `Accepts room number node statement next` says that a part of a document is read as a statement,
with `room` for what is nested in it. -/
inductive Accepts (room number : Nat) : Json → Stmt → Nat → Prop where
  | name {text : Text} {name : String} :
      text.toString? = some name → (Action.ofName? name).isSome →
        Accepts room number (.str text) (.action name number) (number + 1)
  | action {fields : List (Text × Json)} {name : String} :
      kind? fields = some "action" → (Json.field? fields "name").bind Json.string? = some name →
        (Action.ofName? name).isSome →
          Accepts room number (.obj fields) (.action name (lineFor number fields)) (number + 1)
  | choice {fields : List (Text × Json)} {statement : Stmt} {next : Nat} :
      kind? fields = some "if" →
        Document.choice room (step room) number fields = .ok (statement, next) →
          Accepts room number (.obj fields) statement next
  | loop {fields : List (Text × Json)} {statement : Stmt} {next : Nat} :
      kind? fields = some "while" →
        Document.loop room (step room) number fields = .ok (statement, next) →
          Accepts room number (.obj fields) statement next

theorem action_eq_ok_iff {name node : Json} {line : Int} :
    action name node line = .ok statement ↔
      ∃ known, name.string? = some known ∧ (Action.ofName? known).isSome ∧
        statement = .action known line := by
  unfold action
  constructor
  · intro read
    split at read
    · next known named =>
        split at read
        · next found =>
            cases read
            exact ⟨known, named, by simp [found], rfl⟩
        · cases read
    · cases read
  · rintro ⟨known, named, isAction, rfl⟩
    obtain ⟨action, found⟩ := Option.isSome_iff_exists.mp isAction
    simp only [named, found]

theorem step_eq_ok_iff {node : Json} :
    step (room + 1) number node = .ok (statement, next) ↔
      Accepts room number node statement next := by
  constructor
  · intro read
    unfold step at read
    dsimp only at read
    split at read
    · obtain ⟨statement, readAction, returned⟩ := ok_of_bind_ok read
      obtain ⟨name, named, known, rfl⟩ := action_eq_ok_iff.mp readAction
      cases returned
      exact .name named known
    · next fields =>
        split at read
        · next kind =>
            obtain ⟨statement, readAction, returned⟩ := ok_of_bind_ok read
            obtain ⟨name, named, known, rfl⟩ := action_eq_ok_iff.mp readAction
            cases returned
            refine .action kind ?_ known
            cases found : Json.field? fields "name" with
            | none =>
                rw [found] at named
                cases named
            | some value =>
                rw [found] at named
                exact named
        · next kind => exact .choice kind read
        · next kind => exact .loop kind read
        · cases read
    · cases read
  · intro accepts
    cases accepts with
    | @name text name named known =>
        have read : action (.str text) (.str text) number = .ok (.action name number) :=
          action_eq_ok_iff.mpr ⟨name, named, known, rfl⟩
        simp only [step, read, ok_bind]
        rfl
    | @action fields name kind named known =>
        obtain ⟨value, found, named⟩ := Option.bind_eq_some_iff.mp named
        have read : action ((Json.field? fields "name").getD .null) (.obj fields)
            (lineFor number fields) = .ok (.action name (lineFor number fields)) := by
          rw [found]
          exact action_eq_ok_iff.mpr ⟨name, named, known, rfl⟩
        unfold kind? at kind
        simp only [step, kind, read, ok_bind]
        rfl
    | choice kind read =>
        unfold kind? at kind
        simp only [step, kind]
        exact read
    | loop kind read =>
        unfold kind? at kind
        simp only [step, kind]
        exact read

/-! ## Documents -/

/-- `Holds document nodes` says where a document has the list of its steps. -/
inductive Holds : Json → List Json → Prop where
  | list {nodes : List Json} : Holds (.arr nodes) nodes
  | steps {fields : List (Text × Json)} {nodes : List Json} :
      namesPrograms fields = false → Json.field? fields "steps" = some (.arr nodes) →
        Holds (.obj fields) nodes
  | program {fields programs : List (Text × Json)} {active : Text} {nodes : List Json} :
      Json.field? fields "programs" = some (.obj programs) →
        Json.field? fields "active" = some (.str active) →
          Json.field? programs active = some (.arr nodes) → Holds (.obj fields) nodes
  | wrapped {fields programs inner : List (Text × Json)} {active : Text} {nodes : List Json} :
      Json.field? fields "programs" = some (.obj programs) →
        Json.field? fields "active" = some (.str active) →
          Json.field? programs active = some (.obj inner) →
            Json.field? inner "steps" = some (.arr nodes) → Holds (.obj fields) nodes

theorem body_eq_ok_iff {document : Json} {nodes : List Json} :
    body document = .ok (.arr nodes) ↔ Holds document nodes := by
  constructor
  · intro found
    unfold body at found
    split at found
    · cases found
      exact .list
    · split at found
      · obtain ⟨⟨count, active, node⟩, readNames, returned⟩ := ok_of_bind_ok found
        cases returned
        unfold named at readNames
        split at readNames
        · next table =>
            split at readNames
            · next names =>
                split at readNames
                · next inner listed =>
                    injection readNames with read
                    injection read with _ _ held
                    cases steps : Json.field? inner "steps" with
                    | none =>
                        rw [steps] at held
                        cases held
                    | some value =>
                        rw [steps] at held
                        cases held
                        exact .wrapped table names listed steps
                · next listed =>
                    cases readNames
                    exact .program table names listed
                · cases readNames
            · cases readNames
        · cases readNames
      · next unnamed =>
          split at found
          · next steps =>
              cases found
              exact .steps (by simpa using unnamed) steps
          · cases found
    · cases found
  · intro holds
    cases holds with
    | list => rfl
    | steps unnamed steps => simp only [body, unnamed, steps, Bool.false_eq_true, ↓reduceIte]
    | program table names listed =>
        simp only [body, namesPrograms, named, table, names, listed, Option.isSome_some,
          Bool.or_self, ↓reduceIte, ok_bind]
        rfl
    | wrapped table names listed steps =>
        simp only [body, namesPrograms, named, table, names, listed, steps, Option.isSome_some,
          Bool.or_self, ↓reduceIte, ok_bind, Option.getD_some]
        rfl

theorem programWithin_eq_ok_iff {document : Json} {program : List Stmt} :
    programWithin room document = .ok program ↔
      ∃ nodes next, body document = .ok (.arr nodes) ∧
        stepList (step room) 1 nodes = .ok (program, next) := by
  constructor
  · intro read
    obtain ⟨node, found, read⟩ := ok_of_bind_ok read
    obtain ⟨⟨statements, next⟩, readSteps, returned⟩ := ok_of_bind_ok read
    cases returned
    unfold steps at readSteps
    split at readSteps
    · exact ⟨_, next, found, readSteps⟩
    · cases readSteps
  · rintro ⟨nodes, next, found, readSteps⟩
    simp only [programWithin, found, steps, readSteps, ok_bind]
    rfl

/-! ## Parts of the document -/

theorem within_of_field? {key : Text} {value part : Json}
    (found : Json.field? fields key = some value) (within : value.Within part) :
    (Json.obj fields).Within part := by
  obtain ⟨before, after, rfl, -⟩ := List.lookup_eq_some_iff.mp found
  exact .field (List.mem_append_right _ List.mem_cons_self) within

theorem within_of_list {key : Text} {nodes : List Json} {node part : Json}
    (found : Json.field? fields key = some (.arr nodes)) (among : node ∈ nodes)
    (within : node.Within part) : (Json.obj fields).Within part :=
  within_of_field? found (.item among within)

theorem within_of_named {active : Named} (found : named fields = .ok active) :
    (Json.obj fields).Within active.body := by
  unfold named at found
  split at found
  · next table =>
      split at found
      · split at found
        · next inner listed =>
            cases found
            apply within_of_field? table
            apply within_of_field? listed
            cases steps : Json.field? inner "steps" with
            | none => exact .self _
            | some node => exact within_of_field? steps (.self node)
        · next listed =>
            cases found
            exact within_of_field? table (within_of_field? listed (.self _))
        · cases found
      · cases found
  · cases found

/-- The steps of a program are a part of its document, whatever they are. -/
theorem within_of_body {document node : Json} (found : body document = .ok node) :
    document.Within node := by
  unfold body at found
  split at found
  · cases found
    exact .self _
  · split at found
    · obtain ⟨active, readNames, returned⟩ := ok_of_bind_ok found
      cases returned
      exact within_of_named readNames
    · split at found
      · next steps =>
          cases found
          exact within_of_field? steps (.self _)
      · cases found
  · cases found

end Document

end GridRobot
