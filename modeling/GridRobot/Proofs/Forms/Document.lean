import GridRobot.Proofs.Documents.Room
import GridRobot.Proofs.ProperSources

/-!
# Programs written as documents

A program is written as a document with one tagged object for each statement and each part of a
condition. Reading the document gives the program back, lines included: with whatever room, a reader
returns it or runs out of room, and it has room enough for every document.
-/

namespace GridRobot

/-! ## Writing -/

/-- A condition as a part of a document. -/
def Condition.node : Condition → Json
  | .atom name => .obj [("type", .str "atom"), ("name", .str name)]
  | .not inner => .obj [("type", .str "not"), ("inner", inner.node)]
  | .and left right => .obj [("type", .str "and"), ("left", left.node), ("right", right.node)]
  | .or left right => .obj [("type", .str "or"), ("left", left.node), ("right", right.node)]
  | .stray _ => .null

namespace Stmt

mutual

/-- A statement as a part of a document, with its line. -/
def node : Stmt → Json
  | .action name line => .obj [("type", .str "action"), ("name", .str name), ("line", .int line)]
  | .choice condition yes no line =>
      .obj (("type", .str "if") :: ("line", .int line) :: ("cond", condition.node) ::
        ("then", .arr (nodes yes)) :: otherField no)
  | .loop condition body line =>
      .obj [("type", .str "while"), ("line", .int line), ("cond", condition.node),
        ("body", .arr (nodes body))]
  | .stray _ => .null

/-- The parts of a document for a list of statements. -/
def nodes : List Stmt → List Json
  | [] => []
  | statement :: rest => statement.node :: nodes rest

/-- The field for the other part of a choice, which is there exactly when the part is. -/
def otherField : Option (List Stmt) → List (Text × Json)
  | none => []
  | some statements => [("else", .arr (nodes statements))]

end

end Stmt

namespace Document

/-- What stands around the steps of a program: nothing, an object with the steps, or an object of
named programs, in which the steps may have an object of their own and other programs may follow. -/
inductive Root where
  | bare
  | steps
  | named (active : Text) (wrapped : Bool) (others : List (Text × Json))

/-- The document of a program. -/
def Root.document (root : Root) (program : List Stmt) : Json :=
  let steps : Json := .arr (Stmt.nodes program)
  match root with
  | .bare => steps
  | .steps => .obj [("steps", steps)]
  | .named active wrapped others =>
      let body := if wrapped then .obj [("steps", steps)] else steps
      .obj [("active", .str active), ("programs", .obj ((active, body) :: others))]

/-! ## Reading -/

theorem ofString_beq (first second : String) :
    (Text.ofString first == Text.ofString second) = (first == second) := by
  rw [Bool.eq_iff_iff, beq_iff_eq, beq_iff_eq]
  constructor
  · intro equal
    simpa using congrArg Text.toString? equal
  · rintro rfl
    rfl

/-- Whether a reader returns something good, unless it runs out of room. -/
def Reads {α : Type} (good : α → Prop) (read : Read α) : Prop :=
  (∃ value, read = .ok value ∧ good value) ∨ read = .error .nestedTooDeeply

namespace Reads

variable {α β : Type} {good : α → Prop} {best : β → Prop}

theorem ok {value : α} (holds : good value) : Reads good (.ok value) :=
  .inl ⟨value, rfl, holds⟩

theorem bind {read : Read α} {next : α → Read β} (first : Reads good read)
    (second : ∀ value, good value → Reads best (next value)) : Reads best (read >>= next) := by
  rcases first with ⟨value, rfl, holds⟩ | rfl
  · exact second value holds
  · exact .inr rfl

/-- Two parts that are read one after the other and put together. -/
theorem pair {γ : Type} {left : α} {right : β} {first : Read α} {second : Read β}
    (readsLeft : Reads (· = left) first) (readsRight : Reads (· = right) second)
    (join : α → β → γ) :
    Reads (· = join left right)
      (first >>= fun one => second >>= fun other => .ok (join one other)) := by
  refine readsLeft.bind fun one leftRead => readsRight.bind fun other rightRead => ?_
  rw [leftRead, rightRead]
  exact .ok rfl

end Reads

theorem reads_condition {condition : Condition} (known : condition.Known) (room : Nat) :
    Reads (· = condition) (Document.condition room condition.node) := by
  induction room generalizing condition with
  | zero => exact .inr rfl
  | succ room ih =>
      cases condition with
      | atom name =>
          obtain ⟨sensor, rfl⟩ := known
          refine .inl ⟨.atom sensor.name, ?_, rfl⟩
          simp only [Condition.node, Document.condition, Json.field?, List.lookup_cons,
            ofString_beq, String.reduceBEq, BEq.rfl, Option.bind_some, Json.string?,
            Text.toString?_ofString, Sensor.ofName?_name]
      | not inner =>
          have innerKnown : inner.Known := known
          refine (ih innerKnown).bind fun value equal => ?_
          exact .ok (congrArg Condition.not equal)
      | and left right => exact (ih known.1).pair (ih known.2) Condition.and
      | or left right => exact (ih known.1).pair (ih known.2) Condition.or
      | stray part => exact known.elim

theorem reads_test {fields : List (Text × Json)} {condition : Condition} (known : condition.Known)
    (written : Json.field? fields "cond" = some condition.node) (room : Nat) :
    Reads (· = condition) (test room fields) := by
  unfold test
  rw [written]
  exact reads_condition known room

theorem lineFor_written {number : Nat} {fields : List (Text × Json)} {line : Int}
    (positive : 1 ≤ line) (written : Json.field? fields "line" = some (.int line)) :
    lineFor number fields = line := by
  simp only [lineFor, written]
  exact if_pos positive

/-- Whether a reader that also counts statements has returned a given value. -/
def Returns {α : Type} (value : α) (read : α × Nat) : Prop :=
  read.1 = value

section Parts

variable {reader : StepReader} {number : Nat} {fields : List (Text × Json)}
  {condition : Condition} {line : Int}

theorem reads_loop {body : List Stmt} (known : condition.Known) (filled : body ≠ [])
    (positive : 1 ≤ line) (writtenLine : Json.field? fields "line" = some (.int line))
    (writtenTest : Json.field? fields "cond" = some condition.node)
    (writtenBody : Json.field? fields "body" = some (.arr (Stmt.nodes body)))
    (readsBody : ∀ number, Reads (Returns body) (stepList reader number (Stmt.nodes body)))
    (room : Nat) :
    Reads (Returns (.loop condition body line)) (loop room reader number fields) := by
  have found : required "body" fields = .ok (.arr (Stmt.nodes body)) := by
    simp only [required, writtenBody]
  simp only [loop, found, ok_bind, lineFor_written positive writtenLine]
  refine (readsBody (number + 1)).bind fun part returned => ?_
  obtain ⟨read, next⟩ := part
  cases returned
  rw [if_neg (by simpa using filled)]
  refine (reads_test known writtenTest room).bind fun test equal => ?_
  rw [equal]
  exact .ok rfl

theorem reads_choice {yes : List Stmt} {no : Option (List Stmt)} (known : condition.Known)
    (filled : yes ≠ []) (positive : 1 ≤ line)
    (writtenLine : Json.field? fields "line" = some (.int line))
    (writtenTest : Json.field? fields "cond" = some condition.node)
    (writtenYes : Json.field? fields "then" = some (.arr (Stmt.nodes yes)))
    (noClauses : Json.field? fields "elseIfs" = none)
    (readsYes : ∀ number, Reads (Returns yes) (stepList reader number (Stmt.nodes yes)))
    (readsOther : ∀ number, Reads (Returns no) (other reader number fields)) (room : Nat) :
    Reads (Returns (.choice condition yes no line)) (choice room reader number fields) := by
  have found : required "then" fields = .ok (.arr (Stmt.nodes yes)) := by
    simp only [required, writtenYes]
  have clauseNodes : clauseList fields = .ok [] := by
    simp [clauseList, noClauses, Json.isBare]
  simp only [choice, found, clauseNodes, ok_bind, lineFor_written positive writtenLine]
  refine (reads_test known writtenTest room).bind fun test equal => ?_
  cases equal
  refine (readsYes (number + 1)).bind fun part returned => ?_
  obtain ⟨read, next⟩ := part
  cases returned
  rw [if_neg (by simpa using filled)]
  simp only [clauses, ok_bind, chain]
  refine (readsOther next).bind fun part returned => ?_
  obtain ⟨last, afterLast⟩ := part
  cases returned
  exact .ok rfl

end Parts

theorem reads_action (action : Action) {line : Int} (positive : 1 ≤ line) (room number : Nat) :
    Reads (Returns (.action action.name line))
      (step (room + 1) number (Stmt.action action.name line).node) := by
  have shown : lineFor number [("type", .str "action"), ("name", .str action.name),
      ("line", .int line)] = line := lineFor_written positive rfl
  have read : Document.action (.str action.name) (Stmt.action action.name line).node line =
      .ok (.action action.name line) := by
    simp only [Document.action, Json.string?, Text.toString?_ofString, Action.ofName?_name]
  show Reads _ (Document.action (.str action.name) _ (lineFor number _) >>= fun statement =>
    pure (statement, number + 1))
  rw [shown, read]
  exact .ok rfl

theorem reads_cons {room number : Nat} {statement : Stmt} {rest : List Stmt}
    (readsFirst : Reads (Returns statement) (step room number statement.node))
    (readsRest : ∀ number, Reads (Returns rest) (stepList (step room) number (Stmt.nodes rest))) :
    Reads (Returns (statement :: rest))
      (stepList (step room) number (Stmt.nodes (statement :: rest))) := by
  simp only [Stmt.nodes, stepList]
  refine readsFirst.bind fun part returned => ?_
  obtain ⟨first, next⟩ := part
  cases returned
  refine (readsRest next).bind fun part returned => ?_
  obtain ⟨others, last⟩ := part
  cases returned
  exact .ok rfl

theorem reads_steps (program : List Stmt) (proper : Stmt.AllProper program) (room number : Nat) :
    Reads (Returns program) (stepList (step room) number (Stmt.nodes program)) := by
  induction program using Stmt.listInduction generalizing room number with
  | nil => exact .ok rfl
  | action name line rest ih =>
      obtain ⟨⟨⟨action, rfl⟩, positive⟩, restProper⟩ := proper
      refine reads_cons ?_ (ih restProper room)
      cases room with
      | zero => exact .inr rfl
      | succ room => exact reads_action action positive room number
  | choice condition yes line rest yesIH restIH =>
      obtain ⟨⟨known, filled, yesProper, -, positive⟩, restProper⟩ := proper
      refine reads_cons ?_ (restIH restProper room)
      cases room with
      | zero => exact .inr rfl
      | succ room =>
          have readsYes := yesIH yesProper room
          refine reads_choice known filled positive rfl rfl rfl rfl readsYes (fun next => ?_) room
          exact .ok rfl
  | choiceElse condition yes no line rest yesIH noIH restIH =>
      obtain ⟨⟨known, filled, yesProper, noProper, positive⟩, restProper⟩ := proper
      refine reads_cons ?_ (restIH restProper room)
      cases room with
      | zero => exact .inr rfl
      | succ room =>
          have readsYes := yesIH yesProper room
          refine reads_choice known filled positive rfl rfl rfl rfl readsYes (fun next => ?_) room
          refine (noIH noProper room next).bind fun part returned => ?_
          exact .ok (congrArg some returned)
  | loop condition body line rest bodyIH restIH =>
      obtain ⟨⟨known, filled, bodyProper, positive⟩, restProper⟩ := proper
      refine reads_cons ?_ (restIH restProper room)
      cases room with
      | zero => exact .inr rfl
      | succ room =>
          have readsBody := bodyIH bodyProper room
          exact reads_loop known filled positive rfl rfl rfl readsBody room
  | stray part rest ih => exact proper.1.elim

theorem body_document (root : Root) (program : List Stmt) :
    body (root.document program) = .ok (.arr (Stmt.nodes program)) := by
  cases root with
  | bare | steps => rfl
  | named active wrapped others =>
      cases wrapped <;>
        simp only [Root.document, body, namesPrograms, named, Json.field?, List.lookup_cons,
          ofString_beq, String.reduceBEq, BEq.rfl, Option.isSome_some, Bool.or_self,
          Option.getD_some, Bool.false_eq_true, ↓reduceIte] <;>
        rfl

/-- Whatever stands around its steps, a program that is written as a document is read as it was. -/
theorem program_document {program : List Stmt} (proper : Stmt.AllProper program) (root : Root) :
    Document.program (root.document program) = .ok program := by
  have reads : Reads (· = program) (Document.program (root.document program)) := by
    simp only [Document.program, programWithin, body_document, ok_bind, steps]
    refine (reads_steps program proper _ 1).bind fun part returned => ?_
    exact .ok returned
  rcases reads with ⟨read, returned, rfl⟩ | deep
  · exact returned
  · exact (finishes_program _ deep).elim

theorem boundedProgram_document {program : List Stmt} (proper : Stmt.AllProper program)
    (tooDeep : Json → Bool) (root : Root) :
    boundedProgram tooDeep (root.document program) =
      if tooDeep (root.document program) then .error .nestedTooDeeply else .ok program := by
  rw [boundedProgram, program_document proper]

end Document

end GridRobot
