import GridRobot.Proofs.Documents.Room
import Mathlib.Data.List.Forall2

/-!
# Readers on related documents

When parts of a document are replaced by others, a value and the one in its place have the same
form, and what is in them is related again. Along such a relation everything that is read from the
old document is read from the new one, as soon as this is so for choices: the fields for the further
tests and for the last part of a choice are the ones that the relation need not keep.
-/

namespace GridRobot.Document

/-- Whether two objects have related fields, with the exception of those for the other part of a
choice. -/
structure Similar (related : Json → Json → Prop) (fields others : List (Text × Json)) : Prop where
  empty : fields.isEmpty = others.isEmpty
  field : ∀ key : Text, key ≠ "elseIfs" → key ≠ "else" →
    Option.Rel related (Json.field? fields key) (Json.field? others key)

/-- Whether two values have the same form and related parts. -/
def Matches (related : Json → Json → Prop) : Json → Json → Prop
  | .arr items, value => ∃ others, value = .arr others ∧ List.Forall₂ related items others
  | .obj fields, value => ∃ others, value = .obj others ∧ Similar related fields others
  | old, value => value = old

/-- Whether related values have the same form and related parts. -/
def Faithful (related : Json → Json → Prop) : Prop :=
  ∀ ⦃old new : Json⦄, related old new → Matches related old new

/-- `Transfers related first second` says that what one reader reads from a value the other one
reads from every related value. -/
def Transfers (related : Json → Json → Prop) (first second : StepReader) : Prop :=
  ∀ ⦃number old new result⦄, related old new → first number old = .ok result →
    second number new = .ok result

variable {related : Json → Json → Prop} {first second : StepReader} {room extra number next : Nat}
  {fields others : List (Text × Json)}

theorem rel_cases {old new : Option Json} (kept : Option.Rel related old new) :
    (old = none ∧ new = none) ∨
      ∃ value other, old = some value ∧ new = some other ∧ related value other := by
  cases kept with
  | none => exact .inl ⟨rfl, rfl⟩
  | some changed => exact .inr ⟨_, _, rfl, rfl, changed⟩

theorem rel_of_some {old new : Option Json} {value : Json} (kept : Option.Rel related old new)
    (found : old = some value) : ∃ other, new = some other ∧ related value other := by
  subst found
  cases kept with
  | some changed => exact ⟨_, rfl, changed⟩

theorem rel_swap {back : Json → Json → Prop} {old new : Option Json}
    (kept : Option.Rel related old new) (swap : ∀ ⦃old new⦄, related old new → back new old) :
    Option.Rel back new old := by
  cases kept with
  | none => exact .none
  | some changed => exact .some (swap changed)

theorem rel_isSome {old new : Option Json} (kept : Option.Rel related old new) :
    new.isSome = old.isSome := by
  cases kept <;> rfl

theorem Similar.flip (similar : Similar related fields others) :
    Similar (flip related) others fields where
  empty := similar.empty.symm
  field := fun key notTests notLast =>
    rel_swap (similar.field key notTests notLast) fun _ _ changed => changed

theorem Faithful.flip (faithful : Faithful related) : Faithful (flip related) := by
  intro new old changed
  have form := faithful changed
  cases old with
  | arr items =>
      obtain ⟨others, rfl, same⟩ := form
      exact ⟨items, rfl, same.flip⟩
  | obj fields =>
      obtain ⟨others, rfl, similar⟩ := form
      exact ⟨fields, rfl, similar.flip⟩
  | null | bool | int | float | str =>
      cases form
      rfl

theorem Transfers.stepList {old new : List Json} {result : List Stmt}
    (transfers : Transfers related first second) (changed : List.Forall₂ related old new)
    (read : Document.stepList first number old = .ok (result, next)) :
    Document.stepList second number new = .ok (result, next) := by
  induction changed generalizing number result with
  | nil => exact read
  | cons changedFirst _ ih =>
      obtain ⟨statement, middle, rest, readFirst, readRest, rfl⟩ := stepList_cons.mp read
      exact stepList_cons.mpr
        ⟨statement, middle, rest, transfers changedFirst readFirst, ih readRest, rfl⟩

/-! ## Fields -/

theorem Similar.field_of_some (similar : Similar related fields others) {key : Text} {old : Json}
    (notTests : key ≠ "elseIfs") (notLast : key ≠ "else")
    (found : Json.field? fields key = some old) :
    ∃ new, Json.field? others key = some new ∧ related old new :=
  rel_of_some (similar.field key notTests notLast) found

namespace Faithful

variable (faithful : Faithful related)
include faithful

theorem string?_eq {old new : Json} (changed : related old new) : new.string? = old.string? := by
  have form := faithful changed
  cases old with
  | arr | obj =>
      obtain ⟨_, rfl, -⟩ := form
      rfl
  | null | bool | int | float | str =>
      cases form
      rfl

theorem stringField_eq (similar : Similar related fields others) {key : Text}
    (notTests : key ≠ "elseIfs") (notLast : key ≠ "else") :
    (Json.field? others key).bind Json.string? = (Json.field? fields key).bind Json.string? := by
  rcases rel_cases (similar.field key notTests notLast) with
    ⟨absent, gone⟩ | ⟨_, _, found, there, changed⟩
  · rw [absent, gone]
  · rw [found, there]
    exact faithful.string?_eq changed

theorem kind?_eq (similar : Similar related fields others) : kind? others = kind? fields :=
  faithful.stringField_eq similar (by decide) (by decide)

theorem lineFor_eq (similar : Similar related fields others) :
    lineFor number others = lineFor number fields := by
  unfold lineFor
  rcases rel_cases (similar.field "line" (by decide) (by decide)) with
    ⟨absent, gone⟩ | ⟨old, new, found, there, changed⟩
  · rw [absent, gone]
  · rw [found, there]
    have form := faithful changed
    cases old with
    | arr | obj =>
        obtain ⟨_, rfl, -⟩ := form
        rfl
    | null | bool | int | float | str =>
        cases form
        rfl

/-! ## Conditions -/

theorem condition {room : Nat} {old new : Json} {result : Condition} (changed : related old new)
    (read : Document.condition room old = .ok result) :
    Document.condition room new = .ok result := by
  induction room generalizing old new result with
  | zero => cases read
  | succ room ih =>
      have form := faithful changed
      rw [condition_eq_ok_iff] at read ⊢
      cases read with
      | expression readText =>
          cases form
          exact .expression readText
      | atom kind named known =>
          obtain ⟨others, rfl, similar⟩ := form
          refine .atom ((faithful.kind?_eq similar).trans kind) ?_ known
          exact (faithful.stringField_eq similar (by decide) (by decide)).trans named
      | not kind found readInner =>
          obtain ⟨others, rfl, similar⟩ := form
          obtain ⟨inner, there, changedInner⟩ :=
            similar.field_of_some (by decide) (by decide) found
          exact .not ((faithful.kind?_eq similar).trans kind) there (ih changedInner readInner)
      | and kind foundLeft foundRight readLeft readRight
      | or kind foundLeft foundRight readLeft readRight =>
          obtain ⟨others, rfl, similar⟩ := form
          obtain ⟨left, thereLeft, changedLeft⟩ :=
            similar.field_of_some (by decide) (by decide) foundLeft
          obtain ⟨right, thereRight, changedRight⟩ :=
            similar.field_of_some (by decide) (by decide) foundRight
          constructor
          · exact (faithful.kind?_eq similar).trans kind
          · exact thereLeft
          · exact thereRight
          · exact ih changedLeft readLeft
          · exact ih changedRight readRight

theorem test {result : Condition} (similar : Similar related fields others)
    (read : Document.test room fields = .ok result) :
    Document.test (room + extra) others = .ok result := by
  obtain ⟨node, found, readNode⟩ := test_eq_ok_iff.mp ((cutOff_test room extra fields).ok read)
  refine test_eq_ok_iff.mpr ?_
  rcases rel_cases (similar.field "cond" (by decide) (by decide)) with
    ⟨absent, gone⟩ | ⟨old, new, foundOld, there, changed⟩
  · rw [absent] at found
    have foundLater : Json.field? fields "condition" = some node := found
    obtain ⟨new, there, changed⟩ := similar.field_of_some (by decide) (by decide) foundLater
    exact ⟨new, by rw [gone, there]; rfl, faithful.condition changed readNode⟩
  · rw [foundOld] at found
    cases found
    exact ⟨new, by rw [there]; rfl, faithful.condition changed readNode⟩

/-! ## Blocks -/

theorem readsBlock {key : String} {block : List Stmt} (transfers : Transfers related first second)
    (similar : Similar related fields others) (notTests : Text.ofString key ≠ "elseIfs")
    (notLast : Text.ofString key ≠ "else")
    (reads : ReadsBlock first number fields key block next) :
    ReadsBlock second number others key block next := by
  obtain ⟨nodes, found, read, filled⟩ := reads
  obtain ⟨node, there, changed⟩ := similar.field_of_some notTests notLast found
  obtain ⟨news, rfl, changedNodes⟩ := faithful changed
  exact ⟨news, there, transfers.stepList changedNodes read, filled⟩

theorem loop {statement : Stmt} (transfers : Transfers related first second)
    (similar : Similar related fields others)
    (read : Document.loop room first number fields = .ok (statement, next)) :
    Document.loop (room + extra) second number others = .ok (statement, next) := by
  obtain ⟨condition, body, readBody, tested, rfl⟩ := loop_eq_ok_iff.mp read
  refine loop_eq_ok_iff.mpr ⟨condition, body, ?_, faithful.test similar tested, ?_⟩
  · exact faithful.readsBlock transfers similar (by decide) (by decide) readBody
  · rw [faithful.lineFor_eq similar]

/-! ## Choices -/

theorem other {no : Option (List Stmt)} (transfers : Transfers related first second)
    (last : Option.Rel related (Json.field? fields "else") (Json.field? others "else"))
    (read : Document.other first number fields = .ok (no, next)) :
    Document.other second number others = .ok (no, next) := by
  rw [other_eq_ok_iff] at read ⊢
  rcases rel_cases last with ⟨absent, gone⟩ | ⟨old, new, found, there, changed⟩
  · rw [absent] at read
    rw [gone]
    simpa using read
  · rw [found] at read
    have form := faithful changed
    rcases read with ⟨absent, -⟩ | ⟨nodes, statements, same, read, rfl⟩ |
      ⟨node, statement, same, single, read, rfl⟩
    · cases absent
    · cases same
      obtain ⟨news, rfl, changedNodes⟩ := form
      exact .inr (.inl ⟨news, statements, there, transfers.stepList changedNodes read, rfl⟩)
    · cases same
      refine .inr (.inr ⟨new, statement, there, ?_, transfers changed read, rfl⟩)
      rintro nodes rfl
      -- A value that is no list does not become one.
      obtain ⟨olds, rfl, -⟩ := faithful.flip changed
      exact single olds rfl

theorem readsOther {old new : List Json} {no : Option (List Stmt)}
    (transfers : Transfers related first second) (changed : List.Forall₂ related old new)
    (last : Option.Rel related (Json.field? fields "else") (Json.field? others "else"))
    (reads : ReadsOther room first number old fields no next) :
    ReadsOther (room + extra) second number new others no next := by
  induction changed generalizing number no with
  | nil =>
      rw [readsOther_nil] at reads ⊢
      exact faithful.other transfers last reads
  | cons changedFirst _ ih =>
      obtain ⟨clause, condition, yes, middle, rest, rfl, tested, readYes, readRest, rfl⟩ :=
        readsOther_cons.mp reads
      obtain ⟨newClause, rfl, similar⟩ := faithful changedFirst
      refine readsOther_cons.mpr ⟨newClause, condition, yes, middle, rest, rfl,
        faithful.test similar tested, ?_, ih readRest, ?_⟩
      · exact faithful.readsBlock transfers similar (by decide) (by decide) readYes
      · rw [faithful.lineFor_eq similar]

theorem clauseList {nodes : List Json}
    (tests : Option.Rel related (Json.field? fields "elseIfs") (Json.field? others "elseIfs"))
    (listed : Document.clauseList fields = .ok nodes) :
    ∃ news, Document.clauseList others = .ok news ∧ List.Forall₂ related nodes news := by
  unfold Document.clauseList at listed ⊢
  rcases rel_cases tests with ⟨absent, gone⟩ | ⟨old, new, found, there, changed⟩
  · rw [absent] at listed
    cases listed
    exact ⟨[], by rw [gone]; rfl, .nil⟩
  · rw [found] at listed
    rw [there]
    have form := faithful changed
    cases old with
    | arr items =>
        cases listed
        obtain ⟨news, rfl, changedItems⟩ := form
        exact ⟨news, rfl, changedItems⟩
    | obj inner =>
        obtain ⟨news, rfl, similar⟩ := form
        simp only [Option.getD_some, Json.isBare, similar.empty] at listed ⊢
        split at listed
        · next bare =>
            cases listed
            exact ⟨[], if_pos bare, .nil⟩
        · cases listed
    | null | bool | int | float | str =>
        cases form
        simp only [Option.getD_some] at listed ⊢
        split at listed
        · next bare =>
            cases listed
            exact ⟨[], if_pos bare, .nil⟩
        · cases listed

/-- A choice is read as before if its other part is related as well. -/
theorem choice {statement : Stmt} (transfers : Transfers related first second)
    (similar : Similar related fields others)
    (tests : Option.Rel related (Json.field? fields "elseIfs") (Json.field? others "elseIfs"))
    (last : Option.Rel related (Json.field? fields "else") (Json.field? others "else"))
    (read : Document.choice room first number fields = .ok (statement, next)) :
    Document.choice (room + extra) second number others = .ok (statement, next) := by
  obtain ⟨condition, yes, middle, nodes, no, tested, readYes, listed, readNo, rfl⟩ :=
    choice_eq_ok_iff.mp read
  obtain ⟨news, listedNew, changedNodes⟩ := faithful.clauseList tests listed
  refine choice_eq_ok_iff.mpr ⟨condition, yes, middle, news, no, faithful.test similar tested, ?_,
    listedNew, faithful.readsOther transfers changedNodes last readNo, ?_⟩
  · exact faithful.readsBlock transfers similar (by decide) (by decide) readYes
  · rw [faithful.lineFor_eq similar]

/-! ## Steps -/

/-- A reader of steps transfers along a relation if its reader of choices does. -/
theorem step (extra : Nat)
    (choices : ∀ room, Transfers related (Document.step room) (Document.step (room + extra)) →
      ∀ ⦃number fields others result⦄, related (.obj fields) (.obj others) →
        kind? fields = some "if" →
          Document.choice room (Document.step room) number fields = .ok result →
            Document.choice (room + extra) (Document.step (room + extra)) number others =
              .ok result) (room : Nat) :
    Transfers related (Document.step room) (Document.step (room + extra)) := by
  induction room with
  | zero =>
      intro number old new result _ read
      cases read
  | succ room ih =>
      intro number old new ⟨statement, next⟩ changed read
      have form := faithful changed
      rw [Nat.add_right_comm]
      rw [step_eq_ok_iff] at read ⊢
      cases read with
      | name named known =>
          cases form
          exact .name named known
      | action kind named known =>
          obtain ⟨others, rfl, similar⟩ := form
          rw [← faithful.lineFor_eq similar]
          refine .action ((faithful.kind?_eq similar).trans kind) ?_ known
          exact (faithful.stringField_eq similar (by decide) (by decide)).trans named
      | choice kind readChoice =>
          obtain ⟨others, rfl, similar⟩ := form
          refine .choice ((faithful.kind?_eq similar).trans kind) ?_
          exact choices room ih changed kind readChoice
      | loop kind readLoop =>
          obtain ⟨others, rfl, similar⟩ := form
          refine .loop ((faithful.kind?_eq similar).trans kind) ?_
          exact faithful.loop ih similar readLoop

end Faithful

/-! ## Documents -/

/-- Whether two values have related programs, if they are tables of programs. -/
inductive SameTable (related : Json → Json → Prop) : Json → Json → Prop where
  | programs {programs others : List (Text × Json)} :
      (∀ name, Option.Rel related (Json.field? programs name) (Json.field? others name)) →
        SameTable related (.obj programs) (.obj others)
  | none {old new : Json} :
      (∀ programs, old ≠ .obj programs) → (∀ programs, new ≠ .obj programs) →
        SameTable related old new

/-- Whether two documents have related parts. The root and the table of programs need not be related
themselves. -/
inductive SameRoot (related : Json → Json → Prop) : Json → Json → Prop where
  | list {items others : List Json} :
      List.Forall₂ related items others → SameRoot related (.arr items) (.arr others)
  | fields {fields others : List (Text × Json)} :
      (∀ key : Text, key ≠ "programs" →
        Option.Rel related (Json.field? fields key) (Json.field? others key)) →
      Option.Rel (SameTable related) (Json.field? fields "programs")
        (Json.field? others "programs") →
      SameRoot related (.obj fields) (.obj others)

theorem SameTable.flip {old new : Json} (same : SameTable related old new) :
    SameTable (flip related) new old := by
  cases same with
  | programs same => exact .programs fun name => rel_swap (same name) fun _ _ changed => changed
  | none notOld notNew => exact .none notNew notOld

theorem SameRoot.flip {old new : Json} (same : SameRoot related old new) :
    SameRoot (flip related) new old := by
  cases same with
  | list changed => exact .list changed.flip
  | fields same tables =>
      refine .fields (fun key notTable => ?_) (rel_swap tables fun _ _ => SameTable.flip)
      exact rel_swap (same key notTable) fun _ _ changed => changed

namespace Faithful

variable (faithful : Faithful related)
include faithful

theorem listField {key : Text} {nodes : List Json}
    (kept : Option.Rel related (Json.field? fields key) (Json.field? others key))
    (found : Json.field? fields key = some (.arr nodes)) :
    ∃ news, Json.field? others key = some (.arr news) ∧ List.Forall₂ related nodes news := by
  obtain ⟨value, there, changed⟩ := rel_of_some kept found
  obtain ⟨news, rfl, changedNodes⟩ := faithful changed
  exact ⟨news, there, changedNodes⟩

theorem holds {document other : Json} {nodes : List Json} (same : SameRoot related document other)
    (holds : Holds document nodes) :
    ∃ news, Holds other news ∧ List.Forall₂ related nodes news := by
  cases same with
  | list changed =>
      cases holds
      exact ⟨_, .list, changed⟩
  | @fields fields others same tables =>
      cases holds with
      | steps unnamed steps =>
          obtain ⟨news, there, changed⟩ := faithful.listField (same "steps" (by decide)) steps
          refine ⟨news, .steps ?_ there, changed⟩
          rw [namesPrograms, rel_isSome tables, rel_isSome (same "active" (by decide))]
          exact unnamed
      | program table names listed =>
          obtain ⟨_, thereTable, sameTable⟩ := rel_of_some tables table
          obtain ⟨_, thereNames, changedNames⟩ := rel_of_some (same "active" (by decide)) names
          cases faithful changedNames
          cases sameTable with
          | none notOld => exact (notOld _ rfl).elim
          | programs samePrograms =>
              obtain ⟨news, there, changed⟩ := faithful.listField (samePrograms _) listed
              exact ⟨news, .program thereTable thereNames there, changed⟩
      | wrapped table names listed steps =>
          obtain ⟨_, thereTable, sameTable⟩ := rel_of_some tables table
          obtain ⟨_, thereNames, changedNames⟩ := rel_of_some (same "active" (by decide)) names
          cases faithful changedNames
          cases sameTable with
          | none notOld => exact (notOld _ rfl).elim
          | programs samePrograms =>
              obtain ⟨_, there, changedProgram⟩ := rel_of_some (samePrograms _) listed
              obtain ⟨inner, rfl, similar⟩ := faithful changedProgram
              obtain ⟨news, thereSteps, changed⟩ :=
                faithful.listField (similar.field "steps" (by decide) (by decide)) steps
              exact ⟨news, .wrapped thereTable thereNames there thereSteps, changed⟩

theorem programWithin {room wider : Nat} {document other : Json} {program : List Stmt}
    (transfers : Transfers related (Document.step room) (Document.step wider))
    (same : SameRoot related document other)
    (read : Document.programWithin room document = .ok program) :
    Document.programWithin wider other = .ok program := by
  obtain ⟨nodes, next, found, readSteps⟩ := programWithin_eq_ok_iff.mp read
  obtain ⟨news, there, changed⟩ := faithful.holds same (body_eq_ok_iff.mp found)
  exact programWithin_eq_ok_iff.mpr
    ⟨news, next, body_eq_ok_iff.mpr there, transfers.stepList changed readSteps⟩

end Faithful

end GridRobot.Document
