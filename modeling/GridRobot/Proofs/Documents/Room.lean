import GridRobot.Proofs.Documents.Readers

/-!
# Room for nesting

A reader that has less room for what is nested reads the same in the same order, until it runs out
of room. So it returns what one with more room does, fault or not, or it says that the document is
nested too deeply. It never runs out of room if it has as much as the document has levels. So
whatever is read with any room is read from the document as a whole.
-/

namespace GridRobot

namespace Json

theorem levels_le_of_mem {item : Json} {items : List Json} (among : item ∈ items) :
    item.levels ≤ levelsOfItems items := by
  induction items with
  | nil => cases among
  | cons first rest ih =>
      rcases List.mem_cons.mp among with rfl | later
      · exact Nat.le_max_left _ _
      · exact Nat.le_trans (ih later) (Nat.le_max_right _ _)

theorem levels_le_of_mem_fields {key : Text} {value : Json} {fields : List (Text × Json)}
    (among : (key, value) ∈ fields) : value.levels ≤ levelsOfFields fields := by
  induction fields with
  | nil => cases among
  | cons first rest ih =>
      rcases List.mem_cons.mp among with rfl | later
      · exact Nat.le_max_left _ _
      · exact Nat.le_trans (ih later) (Nat.le_max_right _ _)

/-- A part has no more levels than the whole. -/
theorem Within.levels_le {value part : Json} (within : value.Within part) :
    part.levels ≤ value.levels := by
  induction within with
  | self value => exact Nat.le_refl _
  | item among _ ih => exact Nat.le_trans ih (Nat.le_succ_of_le (levels_le_of_mem among))
  | field among _ ih => exact Nat.le_trans ih (Nat.le_succ_of_le (levels_le_of_mem_fields among))

section

variable {fields : List (Text × Json)} {key : Text} {room : Nat}

/-- The parts of an object leave a level for the object itself. -/
theorem levels_le_of_field? {value : Json} (fits : (Json.obj fields).levels ≤ room + 1)
    (found : field? fields key = some value) : value.levels ≤ room := by
  obtain ⟨before, after, rfl, -⟩ := List.lookup_eq_some_iff.mp found
  have among : (key, value) ∈ before ++ (key, value) :: after :=
    List.mem_append_right before List.mem_cons_self
  exact Nat.le_trans (levels_le_of_mem_fields among) (Nat.le_of_succ_le_succ fits)

theorem levels_le_of_list {nodes : List Json} (fits : (Json.obj fields).levels ≤ room + 1)
    (found : field? fields key = some (.arr nodes)) : ∀ node ∈ nodes, node.levels ≤ room := by
  intro node among
  have whole := levels_le_of_field? fits found
  exact Nat.le_trans (Within.item among (.self node)).levels_le whole

end

end Json

namespace Document

/-! ## Less room -/

/-- Whether what is read with less room is what is read with more, unless it is nested too
deeply. -/
def CutOff {α : Type} (less more : Read α) : Prop :=
  less = .error .nestedTooDeeply ∨ less = more

namespace CutOff

variable {α β : Type}

theorem refl (read : Read α) : CutOff read read :=
  .inr rfl

theorem bind {less more : Read α} {next further : α → Read β} (first : CutOff less more)
    (second : ∀ value, CutOff (next value) (further value)) :
    CutOff (less >>= next) (more >>= further) := by
  rcases first with rfl | rfl
  · exact .inl rfl
  · cases less with
    | error cause => exact .inr rfl
    | ok value => exact second value

/-- What is read with less room is read with more. -/
theorem ok {less more : Read α} {value : α} (cut : CutOff less more) (read : less = .ok value) :
    more = .ok value := by
  rcases cut with deep | rfl
  · rw [deep] at read
    cases read
  · exact read

end CutOff

theorem cutOff_condition (room extra : Nat) (node : Json) :
    CutOff (condition room node) (condition (room + extra) node) := by
  induction room generalizing node with
  | zero => exact .inl rfl
  | succ room ih =>
      rw [Nat.add_right_comm]
      unfold condition
      dsimp only
      split
      · exact .refl _
      · split
        · exact .refl _
        · split
          · exact (ih _).bind fun _ => .refl _
          · exact .refl _
        · split
          · exact (ih _).bind fun _ => (ih _).bind fun _ => .refl _
          · exact .refl _
        · split
          · exact (ih _).bind fun _ => (ih _).bind fun _ => .refl _
          · exact .refl _
        · exact .refl _
      · exact .refl _

theorem cutOff_test (room extra : Nat) (fields : List (Text × Json)) :
    CutOff (test room fields) (test (room + extra) fields) := by
  unfold test
  split
  · exact cutOff_condition room extra _
  · exact .refl _

/-- Whether a reader reads what another one does, as far as it has room. -/
def HasLessRoom (less more : StepReader) : Prop :=
  ∀ number node, CutOff (less number node) (more number node)

namespace HasLessRoom

variable {less more : StepReader} {extra : Nat}

theorem stepList (narrow : HasLessRoom less more) (number : Nat) (nodes : List Json) :
    CutOff (Document.stepList less number nodes) (Document.stepList more number nodes) := by
  induction nodes generalizing number with
  | nil => exact .refl _
  | cons node rest ih =>
      refine (narrow number node).bind fun (_, middle) => ?_
      exact (ih middle).bind fun _ => .refl _

theorem steps (narrow : HasLessRoom less more) (number : Nat) (node : Json) :
    CutOff (Document.steps less number node) (Document.steps more number node) := by
  cases node with
  | arr nodes => exact narrow.stepList number nodes
  | null | bool | int | float | str | obj => exact .refl _

theorem clauses (narrow : HasLessRoom less more) (room number : Nat) (nodes : List Json) :
    CutOff (Document.clauses room less number nodes)
      (Document.clauses (room + extra) more number nodes) := by
  induction nodes generalizing number with
  | nil => exact .refl _
  | cons node rest ih =>
      cases node with
      | obj fields =>
          refine (cutOff_test room extra fields).bind fun _ => (CutOff.refl _).bind fun body => ?_
          refine (narrow.steps (number + 1) body).bind fun (yes, next) => ?_
          dsimp only
          split
          · exact .refl _
          · exact (ih next).bind fun _ => .refl _
      | null | bool | int | float | str | arr => exact .refl _

theorem other (narrow : HasLessRoom less more) (number : Nat) (fields : List (Text × Json)) :
    CutOff (Document.other less number fields) (Document.other more number fields) := by
  unfold Document.other
  split
  · exact .refl _
  · exact (narrow.stepList number _).bind fun _ => .refl _
  · exact (narrow number _).bind fun _ => .refl _

theorem choice (narrow : HasLessRoom less more) (room number : Nat)
    (fields : List (Text × Json)) :
    CutOff (Document.choice room less number fields)
      (Document.choice (room + extra) more number fields) := by
  refine (cutOff_test room extra fields).bind fun _ => (CutOff.refl _).bind fun body => ?_
  refine (narrow.steps (number + 1) body).bind fun (yes, next) => ?_
  dsimp only
  split
  · exact .refl _
  · refine (CutOff.refl _).bind fun nodes => ?_
    refine (narrow.clauses room next nodes).bind fun (_, later) => ?_
    exact (narrow.other later fields).bind fun _ => .refl _

theorem loop (narrow : HasLessRoom less more) (room number : Nat) (fields : List (Text × Json)) :
    CutOff (Document.loop room less number fields)
      (Document.loop (room + extra) more number fields) := by
  refine (CutOff.refl _).bind fun body => ?_
  refine (narrow.steps (number + 1) body).bind fun (_, _) => ?_
  dsimp only
  split
  · exact .refl _
  · exact (cutOff_test room extra fields).bind fun _ => .refl _

theorem step (room extra : Nat) :
    HasLessRoom (Document.step room) (Document.step (room + extra)) := by
  induction room with
  | zero => exact fun _ _ => .inl rfl
  | succ room ih =>
      intro number node
      rw [Nat.add_right_comm]
      unfold Document.step
      dsimp only
      split
      · exact .refl _
      · split
        · exact .refl _
        · exact ih.choice room number _
        · exact ih.loop room number _
        · exact .refl _
      · exact .refl _

theorem readsBlock {number next : Nat} {fields : List (Text × Json)} {key : String}
    {block : List Stmt} (narrow : HasLessRoom less more)
    (reads : ReadsBlock less number fields key block next) :
    ReadsBlock more number fields key block next := by
  obtain ⟨nodes, found, read, filled⟩ := reads
  exact ⟨nodes, found, (narrow.stepList _ _).ok read, filled⟩

theorem readsOther {room number next : Nat} {nodes : List Json} {fields : List (Text × Json)}
    {no : Option (List Stmt)} (narrow : HasLessRoom less more)
    (reads : ReadsOther room less number nodes fields no next) :
    ReadsOther (room + extra) more number nodes fields no next := by
  obtain ⟨further, middle, last, readClauses, readLast, same⟩ := reads
  exact ⟨further, middle, last, (narrow.clauses room _ _).ok readClauses,
    (narrow.other _ _).ok readLast, same⟩

end HasLessRoom

theorem cutOff_programWithin (room extra : Nat) (document : Json) :
    CutOff (programWithin room document) (programWithin (room + extra) document) := by
  refine (CutOff.refl _).bind fun nodes => ?_
  exact ((HasLessRoom.step room extra).steps 1 nodes).bind fun _ => .refl _

/-! ## Room enough -/

/-- Whether a reading does not run out of room. -/
def Finishes {α : Type} (read : Read α) : Prop :=
  read ≠ .error .nestedTooDeeply

namespace Finishes

variable {α β : Type}

theorem ok (value : α) : Finishes (.ok value) := by
  rintro ⟨⟩

theorem bind {read : Read α} {next : α → Read β} (first : Finishes read)
    (second : ∀ value, read = .ok value → Finishes (next value)) : Finishes (read >>= next) := by
  cases read with
  | error cause =>
      intro deep
      cases deep
      exact first rfl
  | ok value => exact second value rfl

end Finishes

theorem finishes_expression (text : Text) : Finishes (expression text) := by
  unfold expression
  split <;> rintro ⟨⟩

theorem finishes_condition {room : Nat} {node : Json} (fits : node.levels ≤ room) :
    Finishes (condition room node) := by
  induction room generalizing node with
  | zero => cases node <;> cases fits
  | succ room ih =>
      have nested {fields : List (Text × Json)} {key : Text} {inner : Json}
          (fits : (Json.obj fields).levels ≤ room + 1)
          (found : Json.field? fields key = some inner) : Finishes (condition room inner) :=
        ih (Json.levels_le_of_field? fits found)
      unfold condition
      dsimp only
      split
      · exact finishes_expression _
      · split
        · split
          · split <;> rintro ⟨⟩
          · rintro ⟨⟩
        · split
          · next found => exact (nested fits found).bind fun _ _ => .ok _
          · rintro ⟨⟩
        · split
          · next left right =>
              exact (nested fits left).bind fun _ _ => (nested fits right).bind fun _ _ => .ok _
          · rintro ⟨⟩
        · split
          · next left right =>
              exact (nested fits left).bind fun _ _ => (nested fits right).bind fun _ _ => .ok _
          · rintro ⟨⟩
        · rintro ⟨⟩
      · rintro ⟨⟩

theorem finishes_test {room : Nat} {fields : List (Text × Json)}
    (fits : (Json.obj fields).levels ≤ room + 1) : Finishes (test room fields) := by
  unfold test
  split
  · next node found =>
      obtain ⟨key, there⟩ := exists_key_of_test found
      exact finishes_condition (Json.levels_le_of_field? fits there)
  · rintro ⟨⟩

/-- Whether a reader does not run out of room on parts that have at most so many levels. -/
def HasRoom (room : Nat) (reader : StepReader) : Prop :=
  ∀ ⦃number node⦄, node.levels ≤ room → Finishes (reader number node)

namespace HasRoom

variable {room number : Nat} {reader : StepReader} {fields : List (Text × Json)}

theorem stepList (enough : HasRoom room reader) {nodes : List Json}
    (fit : ∀ node ∈ nodes, node.levels ≤ room) :
    Finishes (Document.stepList reader number nodes) := by
  induction nodes generalizing number with
  | nil => exact .ok _
  | cons node rest ih =>
      obtain ⟨first, others⟩ := List.forall_mem_cons.mp fit
      refine (enough first).bind fun part _ => ?_
      obtain ⟨_, next⟩ := part
      exact (ih others).bind fun _ _ => .ok _

/-- A block is a field that must be there and hold a list of steps. -/
theorem block {β : Type} {key : String} {next : List Stmt × Nat → Read β}
    (enough : HasRoom room reader) (fits : (Json.obj fields).levels ≤ room + 1)
    (further : ∀ part, Finishes (next part)) :
    Finishes (required key fields >>= fun node => steps reader number node >>= next) := by
  unfold required
  split
  · next node found =>
      change Finishes (steps reader number node >>= next)
      refine Finishes.bind ?_ fun part _ => further part
      cases node with
      | arr nodes => exact enough.stepList (Json.levels_le_of_list fits found)
      | null | bool | int | float | str | obj => rintro ⟨⟩
  · rintro ⟨⟩

theorem clauses (enough : HasRoom room reader) {nodes : List Json}
    (fit : ∀ node ∈ nodes, node.levels ≤ room) :
    Finishes (Document.clauses room reader number nodes) := by
  induction nodes generalizing number with
  | nil => exact .ok _
  | cons node rest ih =>
      obtain ⟨first, others⟩ := List.forall_mem_cons.mp fit
      cases node with
      | obj fields =>
          have fits := Nat.le_succ_of_le first
          refine (finishes_test fits).bind fun _ _ => enough.block fits fun part => ?_
          dsimp only
          split
          · rintro ⟨⟩
          · exact (ih others).bind fun _ _ => .ok _
      | null | bool | int | float | str | arr => rintro ⟨⟩

theorem other (enough : HasRoom room reader) (fits : (Json.obj fields).levels ≤ room + 1) :
    Finishes (Document.other reader number fields) := by
  unfold Document.other
  split
  · rintro ⟨⟩
  · next found => exact (enough.stepList (Json.levels_le_of_list fits found)).bind fun _ _ => .ok _
  · next found => exact (enough (Json.levels_le_of_field? fits found)).bind fun _ _ => .ok _

theorem choice (enough : HasRoom room reader) (fits : (Json.obj fields).levels ≤ room + 1) :
    Finishes (Document.choice room reader number fields) := by
  refine (finishes_test fits).bind fun _ _ => enough.block fits fun part => ?_
  dsimp only
  split
  · rintro ⟨⟩
  · have listed : Finishes (clauseList fields) := by
      unfold clauseList
      split
      · rintro ⟨⟩
      · split <;> rintro ⟨⟩
    refine listed.bind fun nodes listed => ?_
    have fit : ∀ node ∈ nodes, node.levels ≤ room := by
      rcases clauseList_cases listed with found | rfl
      · exact Json.levels_le_of_list fits found
      · exact fun _ among => (List.not_mem_nil among).elim
    exact (enough.clauses fit).bind fun _ _ => (enough.other fits).bind fun _ _ => .ok _

theorem loop (enough : HasRoom room reader) (fits : (Json.obj fields).levels ≤ room + 1) :
    Finishes (Document.loop room reader number fields) := by
  refine enough.block fits fun part => ?_
  dsimp only
  split
  · rintro ⟨⟩
  · exact (finishes_test fits).bind fun _ _ => .ok _

theorem step (room : Nat) : HasRoom room (Document.step room) := by
  induction room with
  | zero =>
      intro number node fits
      cases node <;> cases fits
  | succ room ih =>
      intro number node fits
      have readAction (name part : Json) (line : Int) : Finishes (action name part line) := by
        unfold action
        split
        · split <;> rintro ⟨⟩
        · rintro ⟨⟩
      unfold Document.step
      dsimp only
      split
      · exact (readAction _ _ _).bind fun _ _ => .ok _
      · split
        · exact (readAction _ _ _).bind fun _ _ => .ok _
        · exact ih.choice fits
        · exact ih.loop fits
        · rintro ⟨⟩
      · rintro ⟨⟩

end HasRoom

/-- A document is never nested too deeply to be read as a whole. -/
theorem finishes_program (document : Json) : Finishes (program document) := by
  have found : Finishes (body document) := by
    unfold body named
    split
    · rintro ⟨⟩
    · split
      · refine Finishes.bind ?_ fun _ _ => .ok _
        split
        · split
          · split <;> rintro ⟨⟩
          · rintro ⟨⟩
        · rintro ⟨⟩
      · split <;> rintro ⟨⟩
    · rintro ⟨⟩
  refine found.bind fun node found => Finishes.bind ?_ fun _ _ => .ok _
  cases node with
  | arr nodes =>
      apply (HasRoom.step document.levels).stepList
      intro node among
      exact ((within_of_body found).trans (.item among (.self node))).levels_le
  | null | bool | int | float | str | obj => rintro ⟨⟩

/-- What is read with any room is read from the document as a whole. -/
theorem cutOff_program (room : Nat) (document : Json) :
    CutOff (programWithin room document) (program document) := by
  rcases Nat.le_total room document.levels with less | more
  · obtain ⟨extra, enough⟩ := Nat.exists_eq_add_of_le less
    rw [program, enough]
    exact cutOff_programWithin room extra document
  · obtain ⟨extra, rfl⟩ := Nat.exists_eq_add_of_le more
    rcases cutOff_programWithin document.levels extra document with deep | same
    · exact (finishes_program document deep).elim
    · exact .inr same.symm

end Document

end GridRobot
