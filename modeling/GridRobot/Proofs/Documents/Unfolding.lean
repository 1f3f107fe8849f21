import GridRobot.Program.Stack
import GridRobot.Proofs.Documents.Replacement
import Mathlib.Logic.Relation

/-!
# Documents without further tests

When every choice of a document that has further tests is replaced by nested choices, from the
inside out, no choice with further tests is left. The new document is read as the same program. It
takes more room, though, so a stack that holds the old document may not hold the new one.
-/

namespace GridRobot.Document

/-! ## Unfolding every choice -/

/-- The fields of some objects, if they are nothing else. -/
def objects? : List Json → Option (List (List (Text × Json)))
  | [] => some []
  | .obj fields :: rest => (objects? rest).map (fields :: ·)
  | _ :: _ => none

/-- The further tests of a choice, if they are in a list of objects. -/
def tests? (fields : List (Text × Json)) : Option (List (List (Text × Json))) :=
  match kind? fields, Json.field? fields "elseIfs" with
  | some "if", some (.arr nodes) => objects? nodes
  | _, _ => none

/-- The fields of an object, without further tests. -/
def plainOne (fields : List (Text × Json)) : List (Text × Json) :=
  match tests? fields with
  | some clauses => unfolded fields clauses
  | none => fields

mutual

/-- A value in which no choice has further tests. -/
def plain : Json → Json
  | .arr items => .arr (plainItems items)
  | .obj fields => .obj (plainOne (plainFields fields))
  | value => value

/-- Items in which no choice has further tests. -/
def plainItems : List Json → List Json
  | [] => []
  | item :: rest => plain item :: plainItems rest

/-- Fields in which no choice has further tests. -/
def plainFields : List (Text × Json) → List (Text × Json)
  | [] => []
  | (key, value) :: rest => (key, plain value) :: plainFields rest

end

/-- A value that is no choice itself, and in which no choice has further tests. -/
def plainInside : Json → Json
  | .arr items => .arr (plainItems items)
  | .obj fields => .obj (plainFields fields)
  | value => value

/-- A document in which no choice has further tests. -/
def plainDocument : Json → Json
  | .obj fields =>
      .obj (fields.map fun (key, value) =>
        (key, if key = "programs" then plainInside value else plain value))
  | document => plainInside document

theorem objects?_eq_some_iff {nodes : List Json} {clauses : List (List (Text × Json))} :
    objects? nodes = some clauses ↔ nodes = clauses.map .obj := by
  induction nodes generalizing clauses with
  | nil => cases clauses <;> simp [objects?]
  | cons node rest ih =>
      cases node with
      | obj fields => cases clauses <;> simp [objects?, ih, and_comm]
      | null | bool | int | float | str | arr => cases clauses <;> simp [objects?]

theorem tests?_eq_some_iff {fields : List (Text × Json)} {clauses : List (List (Text × Json))} :
    tests? fields = some clauses ↔
      kind? fields = some "if" ∧ Json.field? fields "elseIfs" = some (.arr (clauses.map .obj)) := by
  unfold tests?
  split
  · next kind found =>
      rw [objects?_eq_some_iff]
      simp [kind, found]
  · next other =>
      constructor
      · intro impossible
        cases impossible
      · rintro ⟨kind, found⟩
        exact (other _ kind found).elim

/-! ## Replacement after replacement -/

/-- Whether one choice with further tests is replaced, in a value or in a part of it. -/
def UnfoldsSome (old new : Json) : Prop :=
  ∃ count, Unfolds count old new

/-- Whether one choice with further tests is replaced in a part of a value. -/
def UnfoldsSomeInside (old new : Json) : Prop :=
  ∃ count, UnfoldsInside count old new

/-- Whether one choice with further tests is replaced in a document. -/
def ReplacesSome (document other : Json) : Prop :=
  ∃ count, Replaces count document other

/-- Whether a field keeps its name while its value is changed, in a way that depends on the name. -/
def FieldStep (change : Text → Json → Json → Prop) (old new : Text × Json) : Prop :=
  old.1 = new.1 ∧ change old.1 old.2 new.2

theorem FieldStep.chain {change : Text → Json → Json → Prop} {key : Text} {old new : Json}
    (changes : Relation.ReflTransGen (change key) old new) :
    Relation.ReflTransGen (FieldStep change) (key, old) (key, new) :=
  changes.lift (Prod.mk key) fun _ _ changed => ⟨rfl, changed⟩

/-- What can be changed at each place of a list can be changed at one place after the other. -/
theorem chain_list {α : Type} {item : α → α → Prop} {whole : Json → Json → Prop}
    (wrap : List α → Json)
    (place : ∀ earlier later old new, item old new →
      whole (wrap (earlier ++ old :: later)) (wrap (earlier ++ new :: later))) {olds news : List α}
    (changes : List.Forall₂ (Relation.ReflTransGen item) olds news) (earlier : List α) :
    Relation.ReflTransGen whole (wrap (earlier ++ olds)) (wrap (earlier ++ news)) := by
  induction changes generalizing earlier with
  | nil => exact .refl
  | @cons old new laterOld laterNew changesFirst _ ih =>
      have first : Relation.ReflTransGen whole (wrap (earlier ++ old :: laterOld))
          (wrap (earlier ++ new :: laterOld)) :=
        changesFirst.lift (fun value => wrap (earlier ++ value :: laterOld))
          fun old new => place earlier laterOld old new
      have rest := ih (earlier ++ [new])
      rw [List.append_assoc, List.append_assoc] at rest
      exact first.trans rest

theorem chain_arr {items others : List Json}
    (changes : List.Forall₂ (Relation.ReflTransGen UnfoldsSome) items others) :
    Relation.ReflTransGen UnfoldsSomeInside (.arr items) (.arr others) := by
  refine chain_list .arr ?_ changes []
  rintro earlier later old new ⟨count, changed⟩
  exact ⟨count, .item changed⟩

theorem chain_obj {fields others : List (Text × Json)}
    (changes :
      List.Forall₂ (Relation.ReflTransGen (FieldStep fun _ => UnfoldsSome)) fields others) :
    Relation.ReflTransGen UnfoldsSomeInside (.obj fields) (.obj others) := by
  refine chain_list .obj ?_ changes []
  rintro earlier later ⟨key, old⟩ ⟨_, new⟩ ⟨rfl, count, changed⟩
  exact ⟨count, .field changed⟩

theorem chain_inside {old new : Json} (changes : Relation.ReflTransGen UnfoldsSomeInside old new) :
    Relation.ReflTransGen UnfoldsSome old new :=
  Relation.ReflTransGen.mono (fun _ _ ⟨count, changed⟩ => ⟨count, .inside changed⟩) _ _ changes

theorem chain_plainOne (fields : List (Text × Json)) :
    Relation.ReflTransGen UnfoldsSome (.obj fields) (.obj (plainOne fields)) := by
  unfold plainOne
  split
  · next clauses found =>
      obtain ⟨kind, tests⟩ := tests?_eq_some_iff.mp found
      exact .single ⟨clauses.length, .choice kind tests rfl⟩
  · exact .refl

mutual

theorem chain_plain : (value : Json) → Relation.ReflTransGen UnfoldsSome value (plain value)
  | .arr items => chain_inside (chain_arr (chain_plainItems items))
  | .obj fields =>
      (chain_inside (chain_obj (chain_plainFields fields))).trans (chain_plainOne _)
  | .null | .bool _ | .int _ | .float _ | .str _ => .refl

theorem chain_plainItems :
    (items : List Json) → List.Forall₂ (Relation.ReflTransGen UnfoldsSome) items (plainItems items)
  | [] => .nil
  | item :: rest => .cons (chain_plain item) (chain_plainItems rest)

theorem chain_plainFields :
    (fields : List (Text × Json)) →
      List.Forall₂ (Relation.ReflTransGen (FieldStep fun _ => UnfoldsSome)) fields
        (plainFields fields)
  | [] => .nil
  | (_, value) :: rest => .cons (FieldStep.chain (chain_plain value)) (chain_plainFields rest)

end

theorem chain_plainInside (value : Json) :
    Relation.ReflTransGen UnfoldsSomeInside value (plainInside value) := by
  cases value with
  | arr items => exact chain_arr (chain_plainItems items)
  | obj fields => exact chain_obj (chain_plainFields fields)
  | null | bool | int | float | str => exact .refl

/-- A document can be unfolded by one replacement after the other. -/
theorem chain_plainDocument (document : Json) :
    Relation.ReflTransGen ReplacesSome document (plainDocument document) := by
  cases document with
  | arr items =>
      refine chain_list .arr ?_ (chain_plainItems items) []
      rintro earlier later old new ⟨count, changed⟩
      exact ⟨count, .list (.item changed)⟩
  | obj fields =>
      -- The table of programs is only changed inside.
      let change (key : Text) : Json → Json → Prop :=
        if key = "programs" then UnfoldsSomeInside else UnfoldsSome
      have changes : List.Forall₂ (Relation.ReflTransGen (FieldStep change)) fields
          (fields.map fun (key, value) =>
            (key, if key = "programs" then plainInside value else plain value)) := by
        refine List.forall₂_map_right_iff.mpr (List.forall₂_same.mpr ?_)
        rintro ⟨key, value⟩ -
        apply FieldStep.chain
        by_cases table : key = "programs"
        · simp only [change, if_pos table]
          exact chain_plainInside value
        · simp only [change, if_neg table]
          exact chain_plain value
      refine chain_list .obj ?_ changes []
      rintro earlier later ⟨key, old⟩ ⟨_, new⟩ ⟨rfl, changed⟩
      by_cases table : key = "programs"
      · subst table
        obtain ⟨count, changed⟩ : UnfoldsSomeInside old new := changed
        exact ⟨count, .table changed⟩
      · simp only [change, if_neg table] at changed
        obtain ⟨count, changed⟩ := changed
        exact ⟨count, .field table changed⟩
  | null | bool | int | float | str => exact .refl

/-! ## Nothing left to replace -/

/-- Whether there is no choice with further tests in a value. -/
def Plain (value : Json) : Prop :=
  ∀ other, ¬ UnfoldsSome value other

theorem plain_str (text : Text) : Plain (.str text) := by
  rintro other ⟨count, _ | changed⟩
  cases changed

theorem plain_arr_iff {items : List Json} : Plain (.arr items) ↔ ∀ item ∈ items, Plain item := by
  constructor
  · intro whole item among other ⟨count, changed⟩
    obtain ⟨earlier, later, rfl⟩ := List.append_of_mem among
    exact whole _ ⟨count, .inside (.item changed)⟩
  · rintro parts other ⟨count, changed⟩
    cases changed with
    | inside changed =>
        cases changed with
        | item changed => exact parts _ (by simp) _ ⟨count, changed⟩

theorem not_unfoldsInside_obj {fields : List (Text × Json)}
    (parts : ∀ field ∈ fields, Plain field.2) (other : Json) :
    ¬ UnfoldsSomeInside (.obj fields) other := by
  rintro ⟨count, changed⟩
  cases changed with
  | @field _ _ key old _ changed => exact parts (key, old) (by simp) _ ⟨count, changed⟩

theorem plain_obj_iff {fields : List (Text × Json)} :
    Plain (.obj fields) ↔ tests? fields = none ∧ ∀ field ∈ fields, Plain field.2 := by
  constructor
  · intro whole
    constructor
    · cases found : tests? fields with
      | none => rfl
      | some clauses =>
          obtain ⟨kind, tests⟩ := tests?_eq_some_iff.mp found
          exact (whole _ ⟨_, .choice kind tests rfl⟩).elim
    · rintro ⟨key, value⟩ among other ⟨count, changed⟩
      obtain ⟨earlier, later, rfl⟩ := List.append_of_mem among
      exact whole _ ⟨count, .inside (.field changed)⟩
  · rintro ⟨noTests, parts⟩ other ⟨count, changed⟩
    cases changed with
    | choice kind tests counted =>
        have found := tests?_eq_some_iff.mpr ⟨kind, tests⟩
        rw [noTests] at found
        cases found
    | inside changed => exact not_unfoldsInside_obj parts other ⟨count, changed⟩

theorem plain_field {fields : List (Text × Json)} {key : Text} {value : Json}
    (parts : ∀ field ∈ fields, Plain field.2) (found : Json.field? fields key = some value) :
    Plain value := by
  obtain ⟨earlier, later, rfl, -⟩ := List.lookup_eq_some_iff.mp found
  exact parts (key, value) (by simp)

theorem tests?_eq_none_of_absent {fields : List (Text × Json)}
    (absent : Json.field? fields "elseIfs" = none) : tests? fields = none := by
  cases found : tests? fields with
  | none => rfl
  | some clauses =>
      rw [(tests?_eq_some_iff.mp found).2] at absent
      cases absent

theorem mem_withLast {fields : List (Text × Json)} {last : Option Json} {field : Text × Json}
    (among : field ∈ withLast fields last) : field ∈ fields ∨ last = some field.2 := by
  cases last with
  | none => exact .inl among
  | some value =>
      rcases List.mem_append.mp among with old | new
      · exact .inl old
      · rw [List.mem_singleton.mp new]
        exact .inr rfl

theorem plain_nestTests {last : Option Json} {clauses : List (List (Text × Json))}
    (lastPlain : ∀ value, last = some value → Plain value)
    (clausesPlain : ∀ clause ∈ clauses, ∀ field ∈ clause, Plain field.2) {value : Json}
    (nested : nestTests last clauses = some value) : Plain value := by
  induction clauses generalizing value with
  | nil => exact lastPlain value nested
  | cons clause rest ih =>
      cases nested
      refine plain_obj_iff.mpr ⟨tests?_eq_none_of_absent tests_clauseFields, ?_⟩
      intro field among
      rcases mem_withLast among with own | isLast
      · rcases List.mem_cons.mp own with rfl | own
        · exact plain_str _
        · exact clausesPlain clause List.mem_cons_self field (List.mem_filter.mp own).1
      · exact ih (fun clause among => clausesPlain clause (List.mem_cons_of_mem _ among)) isLast

theorem plain_unfolded {fields : List (Text × Json)} {clauses : List (List (Text × Json))}
    (tests : Json.field? fields "elseIfs" = some (.arr (clauses.map .obj)))
    (parts : ∀ field ∈ fields, Plain field.2) : Plain (.obj (unfolded fields clauses)) := by
  refine plain_obj_iff.mpr ⟨tests?_eq_none_of_absent tests_unfolded, ?_⟩
  intro field among
  rcases mem_withLast among with own | isLast
  · exact parts field (List.mem_filter.mp own).1
  · refine plain_nestTests (fun value => plain_field parts) ?_ isLast
    intro clause inClauses
    have clausesPlain := plain_arr_iff.mp (plain_field parts tests)
    exact (plain_obj_iff.mp (clausesPlain (.obj clause) (List.mem_map_of_mem inClauses))).2

theorem plain_plainOne {fields : List (Text × Json)} (parts : ∀ field ∈ fields, Plain field.2) :
    Plain (.obj (plainOne fields)) := by
  unfold plainOne
  split
  · next clauses found => exact plain_unfolded (tests?_eq_some_iff.mp found).2 parts
  · next noTests => exact plain_obj_iff.mpr ⟨noTests, parts⟩

mutual

theorem plain_plain : (value : Json) → Plain (plain value)
  | .arr items => plain_arr_iff.mpr (plain_plainItems items)
  | .obj fields => plain_plainOne (plain_plainFields fields)
  | .null | .bool _ | .int _ | .float _ | .str _ => by
      rintro other ⟨count, _ | changed⟩
      cases changed

theorem plain_plainItems : (items : List Json) → ∀ item ∈ plainItems items, Plain item
  | [] => nofun
  | item :: rest => List.forall_mem_cons.mpr ⟨plain_plain item, plain_plainItems rest⟩

theorem plain_plainFields :
    (fields : List (Text × Json)) → ∀ field ∈ plainFields fields, Plain field.2
  | [] => nofun
  | (_, value) :: rest => List.forall_mem_cons.mpr ⟨plain_plain value, plain_plainFields rest⟩

end

theorem not_unfoldsInside_plainInside (value other : Json) :
    ¬ UnfoldsSomeInside (plainInside value) other := by
  cases value with
  | arr items =>
      rintro ⟨count, changed⟩
      exact plain_arr_iff.mpr (plain_plainItems items) other ⟨count, .inside changed⟩
  | obj fields => exact not_unfoldsInside_obj (plain_plainFields fields) other
  | null | bool | int | float | str =>
      rintro ⟨count, changed⟩
      cases changed

/-- No choice with further tests is left in a document that is unfolded. -/
theorem not_replaces_plainDocument (document other : Json) :
    ¬ ReplacesSome (plainDocument document) other := by
  rintro ⟨count, replaces⟩
  cases document with
  | arr items =>
      cases replaces with
      | list changed => exact not_unfoldsInside_plainInside (.arr items) other ⟨count, changed⟩
  | obj fields =>
      generalize whole : plainDocument (.obj fields) = document at replaces
      cases replaces with
      | list changed => cases whole
      | @field earlier later key old new notTable changed =>
          have among : (key, old) ∈ earlier ++ (key, old) :: later := by simp
          rw [← Json.obj.inj whole, List.mem_map] at among
          obtain ⟨⟨name, value⟩, -, same⟩ := among
          cases same
          rw [if_neg notTable] at changed
          exact plain_plain value new ⟨count, changed⟩
      | @table earlier later old new changed =>
          have among : (Text.ofString "programs", old) ∈
              earlier ++ (Text.ofString "programs", old) :: later := by simp
          rw [← Json.obj.inj whole, List.mem_map] at among
          obtain ⟨⟨name, value⟩, -, same⟩ := among
          cases same
          exact not_unfoldsInside_plainInside value new ⟨count, changed⟩
  | null | bool | int | float | str => cases replaces

/-! ## Programs -/

section Programs

variable {count : Nat} {document other : Json} {program : List Stmt}

/-- Whether a program that is read from a document is read from another one with the room that it
needs, and from the other one no other program is read. -/
structure SameReading (document other : Json) : Prop where
  forth : ∀ ⦃room program⦄, programWithin room document = .ok program →
    ∃ extra, programWithin (room + extra) other = .ok program
  back : ∀ ⦃room program⦄, programWithin room other = .ok program →
    programWithin room document = .ok program

theorem sameReading_of_chain (chain : Relation.ReflTransGen ReplacesSome document other) :
    SameReading document other := by
  induction chain with
  | refl => exact ⟨fun room program read => ⟨0, read⟩, fun room program read => read⟩
  | tail _ replaces ih =>
      obtain ⟨count, replaces⟩ := replaces
      refine ⟨fun room program read => ?_, fun room program read => ?_⟩
      · obtain ⟨extra, readMiddle⟩ := ih.forth read
        refine ⟨extra + count, ?_⟩
        rw [← Nat.add_assoc]
        exact replaces.programWithin readMiddle
      · exact ih.back (replaces.programWithin_back read)

/-- Documents with the same readings have the same program. -/
theorem SameReading.program_iff (same : SameReading document other) :
    Document.program document = .ok program ↔ Document.program other = .ok program := by
  constructor
  · intro read
    obtain ⟨extra, readOther⟩ := same.forth read
    exact (cutOff_program _ other).ok readOther
  · intro read
    exact (cutOff_program _ document).ok (same.back read)

/-- Whether, on every stack, what is read from a document is read from another one as well, unless
the stack does not hold the other one. Then that one is refused for its nesting. -/
def SameProgram (document other : Json) : Prop :=
  ∀ (tooDeep : Json → Bool) (program : List Stmt),
    boundedProgram tooDeep document = .ok program →
      boundedProgram tooDeep other =
        if tooDeep other then .error .nestedTooDeeply else .ok program

theorem SameReading.sameProgram (same : SameReading document other) :
    SameProgram document other ∧ SameProgram other document := by
  have bounded {first second : Json}
      (agree : ∀ program, Document.program first = .ok program →
        Document.program second = .ok program) : SameProgram first second := by
    intro tooDeep program read
    rw [boundedProgram, agree program (boundedProgram_eq_ok_iff.mp read).2]
  exact ⟨bounded fun _ => same.program_iff.mp, bounded fun _ => same.program_iff.mpr⟩

/-- Further tests of a choice are another way to write nested choices. If a choice with further
tests is replaced by nested choices anywhere in a document, then the new document has exactly the
programs of the old one, lines included; on a stack, unless one of the two is given up. What is read
from the new document with some room is read from the old one with the same room, and what is read
from the old one is read from the new one with a level more for each further test. Replacing one
choice after the other leaves none with further tests, and the last document has the programs of the
first. -/
theorem further_tests_are_nested_choices :
    (∀ {count : Nat} {document other : Json}, Replaces count document other →
      (∀ program : List Stmt,
        Document.program document = .ok program ↔ Document.program other = .ok program) ∧
      SameProgram document other ∧ SameProgram other document ∧
      ∀ (room : Nat) (program : List Stmt),
        (programWithin room other = .ok program → programWithin room document = .ok program) ∧
        (programWithin room document = .ok program →
          programWithin (room + count) other = .ok program)) ∧
    ∀ document : Json,
      Relation.ReflTransGen ReplacesSome document (plainDocument document) ∧
      (∀ other, ¬ ReplacesSome (plainDocument document) other) ∧
      (∀ program : List Stmt, Document.program document = .ok program ↔
        Document.program (plainDocument document) = .ok program) ∧
      SameProgram document (plainDocument document) ∧
        SameProgram (plainDocument document) document := by
  constructor
  · intro count document other replaces
    have same := sameReading_of_chain (.single ⟨count, replaces⟩)
    refine ⟨fun program => same.program_iff, same.sameProgram.1, same.sameProgram.2, ?_⟩
    intro room program
    exact ⟨fun read => same.back read, fun read => replaces.programWithin read⟩
  · intro document
    have chain := chain_plainDocument document
    have same := sameReading_of_chain chain
    exact ⟨chain, not_replaces_plainDocument document, fun program => same.program_iff,
      same.sameProgram⟩

theorem further_tests_are_nested_choices_patrol :
    let first : List (Text × Json) :=
      [("cond", .str "beepersHere"), ("line", .int 40),
        ("then", .arr [.str "pick", .str "forward"])]
    let second : List (Text × Json) := [("then", .arr [.str "put"]), ("condition", .str "!won")]
    let fields : List (Text × Json) :=
      [("type", .str "if"), ("else", .str "turnLeft"), ("cond", .str "obstacleAhead"),
        ("elseIfs", .arr [.obj first, .obj second]), ("then", .arr [.str "turnRight"])]
    let nested : List (Text × Json) :=
      [("type", .str "if"), ("cond", .str "obstacleAhead"), ("then", .arr [.str "turnRight"]),
        ("else", .obj [("type", .str "if"), ("cond", .str "beepersHere"), ("line", .int 40),
          ("then", .arr [.str "pick", .str "forward"]),
          ("else", .obj [("type", .str "if"), ("then", .arr [.str "put"]),
            ("condition", .str "!won"), ("else", .str "turnLeft")])])]
    let patrol (choice : List (Text × Json)) : Json :=
      .obj [("active", .str "main"), ("programs", .obj [("main", .arr [.obj [("type", .str "while"),
        ("cond", .str "!won"), ("body", .arr [.str "turnLeft", .obj choice])]])])]
    let program : List Stmt :=
      [.loop (.not (.atom "won")) [.action "turnLeft" 2,
        .choice (.atom "obstacleAhead") [.action "turnRight" 4]
          (some [.choice (.atom "beepersHere") [.action "pick" 6, .action "forward" 7]
            (some [.choice (.not (.atom "won")) [.action "put" 9] (some [.action "turnLeft" 10]) 8])
            40]) 3] 1]
    Replaces 2 (patrol fields) (patrol nested) ∧
      Document.program (patrol fields) = .ok program ∧
        Document.program (patrol nested) = .ok program ∧
          Document.program (plainDocument (patrol fields)) = .ok program := by
  intro first second fields nested patrol program
  have unfolds : Unfolds 2 (.obj fields) (.obj nested) :=
    @Unfolds.choice 2 fields [first, second] rfl rfl rfl
  have inBody := @UnfoldsInside.item 2 [.str "turnLeft"] [] _ _ unfolds
  have inLoop := @UnfoldsInside.field 2 [("type", .str "while"), ("cond", .str "!won")] [] "body"
    _ _ (.inside inBody)
  have inMain := @UnfoldsInside.item 2 [] [] _ _ (.inside inLoop)
  have inTable := @UnfoldsInside.field 2 [] [] "main" _ _ (.inside inMain)
  have replaces : Replaces 2 (patrol fields) (patrol nested) :=
    @Replaces.table 2 [("active", .str "main")] [] _ _ inTable
  have read : Document.program (patrol fields) = .ok program := rfl
  obtain ⟨one, every⟩ := further_tests_are_nested_choices
  refine ⟨replaces, read, ?_, ?_⟩
  · exact ((one replaces).1 program).mp read
  · exact ((every (patrol fields)).2.2.1 program).mp read

/-- The fields of a test of a choice. -/
def winTest : List (Text × Json) :=
  [("cond", .obj [("type", .str "atom"), ("name", .str "won")]), ("then", .arr [.str "put"])]

/-- A choice with a number of further tests. -/
def longChoice (count : Nat) : List (Text × Json) :=
  ("type", .str "if") :: ("elseIfs", .arr ((List.replicate count winTest).map .obj)) :: winTest

/-- Further tests take nothing from the stack, but nested choices do. -/
theorem longChoice_nests_too_deeply :
    ∃ (document other : Json) (program : List Stmt), Replaces 360 document other ∧
      boundedProgram Stack.usual.document document = .ok program ∧
        boundedProgram Stack.usual.document other = .error .nestedTooDeeply := by
  let fields := longChoice 360
  let nested := unfolded fields (List.replicate 360 winTest)
  have unfolds : Unfolds 360 (.obj fields) (.obj nested) :=
    .choice rfl rfl List.length_replicate
  have replaces : Replaces 360 (.arr [.obj fields]) (.arr [.obj nested]) :=
    .list (@UnfoldsInside.item 360 [] [] _ _ unfolds)
  have accepted : (boundedProgram Stack.usual.document (.arr [.obj fields])).isOk = true := by
    decide +kernel
  have deep : Stack.usual.document (.arr [.obj nested]) = true := by
    decide +kernel
  cases read : boundedProgram Stack.usual.document (.arr [.obj fields]) with
  | error cause =>
      rw [read] at accepted
      cases accepted
  | ok program =>
      refine ⟨_, _, program, replaces, read, ?_⟩
      rw [boundedProgram, if_pos deep]

end Programs

end GridRobot.Document
