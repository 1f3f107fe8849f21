import GridRobot.Proofs.Documents.Room
import GridRobot.Proofs.Documents.Transfer

/-!
# Further tests as nested choices

A choice with further tests can be written without them. Its last part is then a choice for the
first of them, whose last part is a choice for the next one, and so on, and the innermost choice has
the last part of the old one.

What is read from the new document is read from the old one. The other way round the new one needs
more room, as nested choices do: one level for each further test.
-/

namespace GridRobot.Document

/-! ## The replacement of one choice -/

/-- The fields with the names that are kept. -/
def select (keep : Text → Bool) (fields : List (Text × Json)) : List (Text × Json) :=
  fields.filter fun field => keep field.1

/-- Adds the field for the last part of a choice, if it has one. -/
def withLast (fields : List (Text × Json)) : Option Json → List (Text × Json)
  | none => fields
  | some last => fields ++ [(Text.ofString "else", last)]

/-- Whether a field of a further test is one that a choice has as well. -/
def ofClause (key : Text) : Bool :=
  key == "cond" || key == "condition" || key == "then" || key == "line"

/-- The fields of the choice for a further test, with a given last part. -/
def clauseFields (clause : List (Text × Json)) (last : Option Json) : List (Text × Json) :=
  withLast (("type", .str "if") :: select ofClause clause) last

/-- The last part of a choice that stands for further tests and the last part after them. -/
def nestTests (last : Option Json) : List (List (Text × Json)) → Option Json
  | [] => last
  | clause :: rest => some (.obj (clauseFields clause (nestTests last rest)))

/-- The fields of a choice whose further tests are written as nested choices. -/
def unfolded (fields : List (Text × Json)) (clauses : List (List (Text × Json))) :
    List (Text × Json) :=
  withLast (select (fun key => key != "elseIfs" && key != "else") fields)
    (nestTests (Json.field? fields "else") clauses)

section Fields

variable {fields clause : List (Text × Json)} {clauses : List (List (Text × Json))}
  {last : Option Json} {key : Text}

theorem field?_select (keep : Text → Bool) (fields : List (Text × Json)) (key : Text) :
    Json.field? (select keep fields) key = if keep key then Json.field? fields key else none := by
  induction fields with
  | nil => simp [select, Json.field?]
  | cons field rest ih =>
      obtain ⟨name, value⟩ := field
      simp only [select, Json.field?, List.filter_cons] at ih ⊢
      by_cases same : key = name
      · subst same
        cases kept : keep key with
        | true => simp
        | false => rwa [kept] at ih
      · have differs : (key == name) = false := beq_false_of_ne same
        split <;> simp only [List.lookup_cons, differs, ih]

theorem field?_withLast (notLast : key ≠ "else") :
    Json.field? (withLast fields last) key = Json.field? fields key := by
  cases last with
  | none => rfl
  | some value =>
      have differs : (key == Text.ofString "else") = false := beq_false_of_ne notLast
      simp [withLast, Json.field?, List.lookup_append, List.lookup_cons, differs]

theorem last_withLast (absent : Json.field? fields "else" = none) :
    Json.field? (withLast fields last) "else" = last := by
  cases last with
  | none => exact absent
  | some value =>
      unfold Json.field? at absent ⊢
      rw [withLast, List.lookup_append, absent, Option.none_or, List.lookup_cons_self]

theorem field?_clauseFields (isOwn : ofClause key = true) :
    Json.field? (clauseFields clause last) key = Json.field? clause key := by
  have notLast : key ≠ "else" := by
    rintro rfl
    exact absurd isOwn (by decide)
  have differs : (key == Text.ofString "type") = false := by
    apply beq_false_of_ne
    rintro rfl
    exact absurd isOwn (by decide)
  rw [clauseFields, field?_withLast notLast, Json.field?, List.lookup_cons, differs]
  exact (field?_select ofClause clause key).trans (if_pos isOwn)

theorem kind?_clauseFields : kind? (clauseFields clause last) = some "if" := by
  rw [kind?, clauseFields, field?_withLast (by decide)]
  rfl

theorem last_clauseFields : Json.field? (clauseFields clause last) "else" = last :=
  last_withLast (field?_select ofClause clause "else")

theorem tests_clauseFields : Json.field? (clauseFields clause last) "elseIfs" = none := by
  rw [clauseFields, field?_withLast (by decide)]
  exact field?_select ofClause clause "elseIfs"

theorem field?_unfolded (notTests : key ≠ "elseIfs") (notLast : key ≠ "else") :
    Json.field? (unfolded fields clauses) key = Json.field? fields key := by
  rw [unfolded, field?_withLast notLast, field?_select]
  simp [notTests, notLast]

theorem last_unfolded :
    Json.field? (unfolded fields clauses) "else" =
      nestTests (Json.field? fields "else") clauses :=
  last_withLast (field?_select _ fields "else")

theorem tests_unfolded : Json.field? (unfolded fields clauses) "elseIfs" = none := by
  rw [unfolded, field?_withLast (by decide)]
  exact field?_select _ fields "elseIfs"

end Fields

/-! ## Reading the replacement -/

section Reading

variable {clause fields others : List (Text × Json)} {clauses : List (List (Text × Json))}
  {last : Option Json} {room number next : Nat} {statement : Stmt} {no : Option (List Stmt)}

theorem clauseList_of_none (absent : Json.field? fields "elseIfs" = none) :
    clauseList fields = .ok [] := by
  simp [clauseList, absent, Json.isBare]

theorem step_of_choice (kind : kind? fields = some "if") :
    step (room + 1) number (.obj fields) = choice room (step room) number fields := by
  unfold kind? at kind
  simp only [step, kind]

/-- The choice for a further test is read as the test is, and its last part after it. -/
theorem step_clauseFields_iff :
    step (room + 1) number (.obj (clauseFields clause last)) = .ok (statement, next) ↔
      ∃ condition yes middle no, test room clause = .ok condition ∧
        ReadsBlock (step room) number clause "then" yes middle ∧
          other (step room) middle (clauseFields clause last) = .ok (no, next) ∧
            statement = .choice condition yes no (lineFor number clause) := by
  have tested (condition : Condition) :
      test room (clauseFields clause last) = .ok condition ↔ test room clause = .ok condition := by
    rw [test_eq_ok_iff, test_eq_ok_iff, field?_clauseFields (by decide),
      field?_clauseFields (by decide)]
  have block (yes : List Stmt) (middle : Nat) :
      ReadsBlock (step room) number (clauseFields clause last) "then" yes middle ↔
        ReadsBlock (step room) number clause "then" yes middle := by
    rw [ReadsBlock, ReadsBlock, field?_clauseFields (by decide)]
  have line : lineFor number (clauseFields clause last) = lineFor number clause := by
    rw [lineFor, lineFor, field?_clauseFields (by decide)]
  rw [step_of_choice kind?_clauseFields, choice_eq_ok_iff, clauseList_of_none tests_clauseFields,
    line]
  simp only [tested, block, Except.ok.injEq]
  constructor
  · rintro ⟨condition, yes, middle, _, no, isTest, readYes, rfl, readNo, rfl⟩
    exact ⟨condition, yes, middle, no, isTest, readYes, readsOther_nil.mp readNo, rfl⟩
  · rintro ⟨condition, yes, middle, no, isTest, readYes, readNo, rfl⟩
    exact ⟨condition, yes, middle, [], no, isTest, readYes, rfl, readsOther_nil.mpr readNo, rfl⟩

theorem other_congr {reader : StepReader}
    (same : Json.field? others "else" = Json.field? fields "else") :
    other reader number others = other reader number fields := by
  rw [other, other, same]

/-- What is read from further tests is read from nested choices, with a level more for each. -/
theorem other_of_readsOther
    (nested : Json.field? others "else" = nestTests (Json.field? fields "else") clauses)
    (reads : ReadsOther room (step room) number (clauses.map .obj) fields no next) :
    other (step (room + clauses.length)) number others = .ok (no, next) := by
  induction clauses generalizing number no others with
  | nil =>
      rw [List.map_nil, readsOther_nil] at reads
      rw [other_congr nested]
      exact reads
  | cons clause rest ih =>
      obtain ⟨_, condition, yes, middle, no, same, tested, readYes, readRest, rfl⟩ :=
        readsOther_cons.mp reads
      cases same
      -- The first test is the outermost choice, with a level for itself; the others are inside it.
      refine other_eq_ok_iff.mpr (.inr (.inr ⟨_, _, nested, by simp, ?_, rfl⟩))
      refine step_clauseFields_iff.mpr ⟨condition, yes, middle, no, ?_, ?_, ?_, rfl⟩
      · exact (cutOff_test room rest.length clause).ok tested
      · exact (HasLessRoom.step room rest.length).readsBlock readYes
      · exact ih last_clauseFields readRest

/-- What is read from nested choices is read from further tests. -/
theorem readsOther_of_other
    (nested : Json.field? others "else" = nestTests (Json.field? fields "else") clauses)
    (read : other (step room) number others = .ok (no, next)) :
    ReadsOther room (step room) number (clauses.map .obj) fields no next := by
  induction clauses generalizing room number no others with
  | nil =>
      rw [List.map_nil, readsOther_nil, ← other_congr nested]
      exact read
  | cons clause rest ih =>
      rw [other_eq_ok_iff, nested] at read
      rcases read with ⟨absent, -⟩ | ⟨nodes, _, list, -⟩ | ⟨_, statement, same, -, read, rfl⟩
      · cases absent
      · cases list
      cases same
      cases room with
      | zero => cases read
      | succ room =>
          obtain ⟨condition, yes, middle, no, tested, readYes, readNo, rfl⟩ :=
            step_clauseFields_iff.mp read
          -- What is inside the outermost choice was read with less room than the tests have.
          have lessRoom := HasLessRoom.step room 1
          have readRest :
              ReadsOther (room + 1) (step (room + 1)) middle (rest.map .obj) fields no next :=
            lessRoom.readsOther (ih last_clauseFields readNo)
          exact readsOther_cons.mpr ⟨clause, condition, yes, middle, no, rfl,
            (cutOff_test room 1 clause).ok tested, lessRoom.readsBlock readYes, readRest, rfl⟩

end Reading

/-! ## One replacement in a value -/

mutual

/-- `Unfolds count old new` says that one choice with `count` further tests, a value itself or a
part of it, is replaced by one with nested choices. -/
inductive Unfolds (count : Nat) : Json → Json → Prop where
  | choice {fields : List (Text × Json)} {clauses : List (List (Text × Json))} :
      kind? fields = some "if" → Json.field? fields "elseIfs" = some (.arr (clauses.map .obj)) →
        clauses.length = count → Unfolds count (.obj fields) (.obj (unfolded fields clauses))
  | inside {old new : Json} : UnfoldsInside count old new → Unfolds count old new

/-- `UnfoldsInside count old new` says the same of a part that is not the value itself. -/
inductive UnfoldsInside (count : Nat) : Json → Json → Prop where
  | item {earlier later : List Json} {old new : Json} :
      Unfolds count old new →
        UnfoldsInside count (.arr (earlier ++ old :: later)) (.arr (earlier ++ new :: later))
  | field {earlier later : List (Text × Json)} {key : Text} {old new : Json} :
      Unfolds count old new →
        UnfoldsInside count (.obj (earlier ++ (key, old) :: later))
          (.obj (earlier ++ (key, new) :: later))

end

/-- Whether two values are the same but for one replacement at most. -/
def Alike (count : Nat) (old new : Json) : Prop :=
  old = new ∨ Unfolds count old new

theorem Alike.refl {count : Nat} (value : Json) : Alike count value value :=
  .inl rfl

theorem rel_refl {related : Json → Json → Prop} (refl : ∀ value, related value value)
    (value : Option Json) : Option.Rel related value value := by
  cases value with
  | none => exact .none
  | some value => exact .some (refl value)

/-- A changed field has changed only where it is found. -/
theorem rel_change {related : Json → Json → Prop} (refl : ∀ value, related value value)
    {old new : Json} {key name : Text} (changed : name = key → related old new)
    (earlier later : List (Text × Json)) :
    Option.Rel related (Json.field? (earlier ++ (key, old) :: later) name)
      (Json.field? (earlier ++ (key, new) :: later) name) := by
  simp only [Json.field?, List.lookup_append, List.lookup_cons]
  cases List.lookup name earlier with
  | some value => exact .some (refl value)
  | none =>
      simp only [Option.none_or]
      split
      · next same => exact .some (changed (beq_iff_eq.mp same))
      · exact rel_refl refl _

section Changes

variable {count : Nat} {old new : Json}

theorem forall₂_alike_refl (items : List Json) : List.Forall₂ (Alike count) items items :=
  List.forall₂_same.mpr fun item _ => .refl item

theorem forall₂_alike (changed : Unfolds count old new) (earlier later : List Json) :
    List.Forall₂ (Alike count) (earlier ++ old :: later) (earlier ++ new :: later) :=
  List.rel_append (forall₂_alike_refl earlier) (.cons (.inr changed) (forall₂_alike_refl later))

theorem rel_field? (changed : Unfolds count old new) (earlier later : List (Text × Json))
    (key name : Text) :
    Option.Rel (Alike count) (Json.field? (earlier ++ (key, old) :: later) name)
      (Json.field? (earlier ++ (key, new) :: later) name) :=
  rel_change .refl (fun _ => .inr changed) earlier later

theorem isEmpty_of_field? {fields : List (Text × Json)} {key : Text} {value : Json}
    (found : Json.field? fields key = some value) : fields.isEmpty = false := by
  cases fields with
  | nil => cases found
  | cons => rfl

theorem similar_refl (fields : List (Text × Json)) : Similar (Alike count) fields fields :=
  ⟨rfl, fun _ _ _ => rel_refl .refl _⟩

theorem similar_unfolded {fields : List (Text × Json)} (clauses : List (List (Text × Json)))
    (kind : kind? fields = some "if") : Similar (Alike count) fields (unfolded fields clauses) where
  empty := by
    obtain ⟨value, found, -⟩ := Option.bind_eq_some_iff.mp kind
    have there : Json.field? (unfolded fields clauses) "type" = some value := by
      rw [field?_unfolded (by decide) (by decide), found]
    rw [isEmpty_of_field? found, isEmpty_of_field? there]
  field := by
    intro key notTests notLast
    rw [field?_unfolded notTests notLast]
    exact rel_refl .refl _

theorem similar_field (changed : Unfolds count old new) (earlier later : List (Text × Json))
    (key : Text) :
    Similar (Alike count) (earlier ++ (key, old) :: later) (earlier ++ (key, new) :: later) where
  empty := by cases earlier <;> rfl
  field := fun name _ _ => rel_field? changed earlier later key name

theorem faithful_alike (count : Nat) : Faithful (Alike count) := by
  rintro old new (rfl | changed)
  · cases old with
    | arr items => exact ⟨items, rfl, forall₂_alike_refl items⟩
    | obj fields => exact ⟨fields, rfl, similar_refl fields⟩
    | null | bool | int | float | str => rfl
  · cases changed with
    | choice kind tests counted => exact ⟨_, rfl, similar_unfolded _ kind⟩
    | inside changed =>
        cases changed with
        | item changed => exact ⟨_, rfl, forall₂_alike changed _ _⟩
        | field changed => exact ⟨_, rfl, similar_field changed _ _ _⟩

end Changes

/-! ## Reading after a replacement -/

theorem clauseList_of_list {fields : List (Text × Json)} {nodes : List Json}
    (tests : Json.field? fields "elseIfs" = some (.arr nodes)) : clauseList fields = .ok nodes := by
  rw [clauseList, tests]
  rfl

/-- What is read before a replacement is read after it, with more room. -/
theorem transfers_alike (count room : Nat) :
    Transfers (Alike count) (step room) (step (room + count)) := by
  have faithful := faithful_alike count
  refine faithful.step count (fun room transfers => ?_) room
  rintro number fields others ⟨statement, next⟩ (same | changed) - read
  · cases same
    exact faithful.choice transfers (similar_refl fields) (rel_refl .refl _) (rel_refl .refl _) read
  cases changed with
  | @choice _ clauses kind tests counted =>
      subst counted
      have similar : Similar (Alike clauses.length) fields (unfolded fields clauses) :=
        similar_unfolded clauses kind
      obtain ⟨condition, yes, middle, nodes, no, tested, readYes, listed, readNo, rfl⟩ :=
        choice_eq_ok_iff.mp read
      rw [clauseList_of_list tests] at listed
      cases listed
      refine choice_eq_ok_iff.mpr ⟨condition, yes, middle, [], no, faithful.test similar tested, ?_,
        clauseList_of_none tests_unfolded, ?_, ?_⟩
      · exact faithful.readsBlock transfers similar (by decide) (by decide) readYes
      · exact readsOther_nil.mpr (other_of_readsOther last_unfolded readNo)
      · rw [faithful.lineFor_eq similar]
  | inside changed =>
      cases changed with
      | field changed =>
          exact faithful.choice transfers (similar_field changed _ _ _) (rel_field? changed _ _ _ _)
            (rel_field? changed _ _ _ _) read

theorem rel_alike_flip {count : Nat} {old new : Option Json}
    (kept : Option.Rel (Alike count) old new) : Option.Rel (flip (Alike count)) new old :=
  rel_swap kept fun _ _ changed => changed

/-- What is read after a replacement is read before it, with no more room. -/
theorem transfers_flip_alike (count room : Nat) :
    Transfers (flip (Alike count)) (step room) (step room) := by
  have faithful := (faithful_alike count).flip
  refine faithful.step 0 (fun room transfers => ?_) room
  rintro number others fields ⟨statement, next⟩ (same | changed) - read
  · cases same
    exact faithful.choice transfers (similar_refl _).flip (rel_alike_flip (rel_refl .refl _))
      (rel_alike_flip (rel_refl .refl _)) read
  cases changed with
  | @choice _ clauses kind tests counted =>
      have similar : Similar (flip (Alike count)) (unfolded fields clauses) fields :=
        (similar_unfolded clauses kind).flip
      obtain ⟨condition, yes, middle, nodes, no, tested, readYes, listed, readNo, rfl⟩ :=
        choice_eq_ok_iff.mp read
      rw [clauseList_of_none tests_unfolded] at listed
      cases listed
      refine choice_eq_ok_iff.mpr ⟨condition, yes, middle, _, no, faithful.test similar tested, ?_,
        clauseList_of_list tests, ?_, ?_⟩
      · exact faithful.readsBlock transfers similar (by decide) (by decide) readYes
      · exact readsOther_of_other last_unfolded (readsOther_nil.mp readNo)
      · rw [faithful.lineFor_eq similar]
  | inside changed =>
      cases changed with
      | field changed =>
          exact faithful.choice transfers (similar_field changed _ _ _).flip
            (rel_alike_flip (rel_field? changed _ _ _ _))
            (rel_alike_flip (rel_field? changed _ _ _ _)) read

/-! ## One replacement in a document -/

/-- `Replaces count document other` says that one choice with `count` further tests is replaced
somewhere in a document. Neither the root nor the table of programs is a choice. -/
inductive Replaces (count : Nat) : Json → Json → Prop where
  | list {items : List Json} {other : Json} :
      UnfoldsInside count (.arr items) other → Replaces count (.arr items) other
  | field {earlier later : List (Text × Json)} {key : Text} {old new : Json} :
      key ≠ "programs" → Unfolds count old new →
        Replaces count (.obj (earlier ++ (key, old) :: later))
          (.obj (earlier ++ (key, new) :: later))
  | table {earlier later : List (Text × Json)} {old new : Json} :
      UnfoldsInside count old new →
        Replaces count (.obj (earlier ++ (Text.ofString "programs", old) :: later))
          (.obj (earlier ++ (Text.ofString "programs", new) :: later))

section Documents

variable {count : Nat} {document other old new : Json} {program : List Stmt}

theorem sameTable_refl (value : Json) : SameTable (Alike count) value value := by
  cases value with
  | obj fields => exact .programs fun name => rel_refl .refl _
  | null | bool | int | float | str | arr => exact .none nofun nofun

theorem UnfoldsInside.sameTable (changed : UnfoldsInside count old new) :
    SameTable (Alike count) old new := by
  cases changed with
  | item changed => exact .none nofun nofun
  | field changed => exact .programs fun name => rel_field? changed _ _ _ name

theorem Replaces.sameRoot (replaces : Replaces count document other) :
    SameRoot (Alike count) document other := by
  cases replaces with
  | list changed =>
      cases changed with
      | item changed => exact .list (forall₂_alike changed _ _)
  | field notTable changed =>
      refine .fields (fun name _ => rel_field? changed _ _ _ name) ?_
      exact rel_change sameTable_refl (fun same => (notTable same.symm).elim) _ _
  | table changed =>
      refine .fields (fun name notTable => ?_) ?_
      · exact rel_change .refl (fun same => (notTable same).elim) _ _
      · exact rel_change sameTable_refl (fun _ => changed.sameTable) _ _

/-- A program that is read before a replacement is read after it, with more room. -/
theorem Replaces.programWithin (replaces : Replaces count document other) {room : Nat}
    (read : Document.programWithin room document = .ok program) :
    Document.programWithin (room + count) other = .ok program :=
  (faithful_alike count).programWithin (transfers_alike count room) replaces.sameRoot read

/-- A program that is read after a replacement is read before it, with no more room. -/
theorem Replaces.programWithin_back (replaces : Replaces count document other) {room : Nat}
    (read : Document.programWithin room other = .ok program) :
    Document.programWithin room document = .ok program :=
  (faithful_alike count).flip.programWithin (transfers_flip_alike count room)
    replaces.sameRoot.flip read

end Documents

end GridRobot.Document
