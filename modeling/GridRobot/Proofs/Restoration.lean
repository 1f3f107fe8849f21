import GridRobot.Machine.Emission

/-!
# Reading code back

The code of a program determines the program, except that a choice with an empty other part and one
without any have the same code. `Stmt.tidyAll` drops the empty parts, and `Code.restore` reads a
tidy program back from code: a test leads behind the jump that closes its statements, and that jump
leads back before the test of a loop or on behind the other part of a choice.
-/

namespace GridRobot

namespace Stmt

mutual

/-- The statement with every empty other part left out. -/
def tidy : Stmt → Stmt
  | .action name line => .action name line
  | .choice condition yes no line => .choice condition (tidyAll yes) (tidyOther no) line
  | .loop condition body line => .loop condition (tidyAll body) line
  | .stray part => .stray part

/-- The statements of a list with every empty other part left out. -/
def tidyAll : List Stmt → List Stmt
  | [] => []
  | statement :: rest => statement.tidy :: tidyAll rest

/-- The other part of a choice, left out if it is empty. -/
def tidyOther : Option (List Stmt) → Option (List Stmt)
  | none => none
  | some [] => none
  | some (statement :: rest) => some (statement.tidy :: tidyAll rest)

end

/-- Statements as the other part of a choice, which is absent if there are none. -/
def filled? : List Stmt → Option (List Stmt)
  | [] => none
  | statements => some statements

theorem tidyOther_some (statements : List Stmt) :
    tidyOther (some statements) = filled? (tidyAll statements) := by
  cases statements <;> simp [tidyOther, tidyAll, filled?]

end Stmt

namespace Code

/-! ## Empty other parts have no code -/

theorem assemble_tidyAll (program : List Stmt) (base : Nat) :
    assemble base (Stmt.tidyAll program) = assemble base program := by
  induction program using Stmt.listInduction generalizing base with
  | nil => rfl
  | action name line rest ih => simp only [Stmt.tidyAll, Stmt.tidy, assemble, assembleOne, ih]
  | choice condition yes line rest yesIH restIH =>
      simp only [Stmt.tidyAll, Stmt.tidy, Stmt.tidyOther, assemble, assembleOne, assembleOther,
        yesIH, restIH]
  | choiceElse condition yes no line rest yesIH noIH restIH =>
      have same (place : Nat) :
          assembleOther place (Stmt.tidyOther (some no)) = assemble place no := by
        cases no with
        | nil => rfl
        | cons first others => exact noIH place
      simp only [Stmt.tidyAll, Stmt.tidy, assemble, assembleOne, assembleOther, yesIH, same, restIH]
  | loop condition body line rest bodyIH restIH =>
      simp only [Stmt.tidyAll, Stmt.tidy, assemble, assembleOne, bodyIH, restIH]
  | stray part rest ih => simp only [Stmt.tidyAll, Stmt.tidy, assemble, assembleOne, ih]

/-! ## Restoring -/

/-- The statements of code that starts at a place. What no program is laid out as has none. -/
def restore (base : Nat) : List Instr → List Stmt
  | [] => []
  | .act name line :: rest => .action name line :: restore (base + 1) rest
  | .jump _ _ :: _ => []
  | .test condition target line :: rest =>
      let size := (target - base).toNat - 2
      let inside := restore (base + 1) (rest.take size)
      let after := rest.drop (size + 1)
      match rest[size]? with
      | some (.jump goal _) =>
          if goal < target then
            .loop condition inside line :: restore (base + size + 2) after
          else
            let otherSize := (goal - target).toNat
            let other := restore (base + size + 2) (after.take otherSize)
            .choice condition inside (Stmt.filled? other) line ::
              restore (base + size + 2 + otherSize) (after.drop otherSize)
      | _ => []
termination_by code => code.length
decreasing_by
  all_goals
    simp only [List.length_cons, List.length_take, List.length_drop]
    omega

/-- A test with the statements that it guards and the jump behind them is restored first. The target
of the jump tells a loop from a choice. -/
theorem restore_guarded {base : Nat} {inside : List Instr} {target : Int}
    (aims : target = base + 1 + inside.length + 1) (condition : Condition) (line goal back : Int)
    (after : List Instr) :
    restore base (.test condition target line :: (inside ++ .jump goal back :: after)) =
      if goal < target then
        .loop condition (restore (base + 1) inside) line ::
          restore (base + 1 + inside.length + 1) after
      else
        .choice condition (restore (base + 1) inside)
            (Stmt.filled?
              (restore (base + 1 + inside.length + 1) (after.take (goal - target).toNat))) line ::
          restore (base + 1 + inside.length + 1 + (goal - target).toNat)
            (after.drop (goal - target).toNat) := by
  have size : (target - base).toNat - 2 = inside.length := by omega
  have next : base + inside.length + 2 = base + 1 + inside.length + 1 := by omega
  have found : (inside ++ Instr.jump goal back :: after)[inside.length]? =
      some (.jump goal back) := by
    simp
  have behind : (inside ++ Instr.jump goal back :: after).drop (inside.length + 1) = after := by
    simp
  rw [restore]
  simp only [size, next, found, behind, List.take_left]

section

variable (base : Nat) (condition : Condition) (line : Int) (rest : List Stmt)

theorem restore_choice (yes : List Stmt) (no : Option (List Stmt)) :
    ∃ middle next,
      restore base (assemble base (.choice condition yes no line :: rest)) =
        .choice condition (restore (base + 1) (assemble (base + 1) yes))
            (Stmt.filled? (restore middle (assembleOther middle no))) line ::
          restore next (assemble next rest) := by
  let middle := base + 1 + (assemble (base + 1) yes).length + 1
  let next := middle + (assembleOther middle no).length
  refine ⟨middle, next, ?_⟩
  have aims : (middle : Int) = base + 1 + (assemble (base + 1) yes).length + 1 := by
    simp only [middle, Int.natCast_add, Int.natCast_one]
  have size : ((middle : Int) + (assembleOther middle no).length - middle).toNat =
      (assembleOther middle no).length := by
    omega
  have follows : base + ((assemble (base + 1) yes).length + ((assembleOther middle no).length + 1) +
      1) = next := by
    simp only [next, middle]
    omega
  have forward : ¬ (middle : Int) + (assembleOther middle no).length < middle := by omega
  simp only [assemble, assembleOne, List.cons_append, List.append_assoc, List.length_cons,
    List.length_append]
  rw [restore_guarded aims, if_neg forward, size, List.take_left, List.drop_left, follows]

theorem restore_loop (body : List Stmt) :
    ∃ next,
      restore base (assemble base (.loop condition body line :: rest)) =
        .loop condition (restore (base + 1) (assemble (base + 1) body)) line ::
          restore next (assemble next rest) := by
  let next := base + 1 + (assemble (base + 1) body).length + 1
  refine ⟨next, ?_⟩
  have follows : base + ((assemble (base + 1) body).length + (0 + 1) + 1) = next := by
    simp only [next]
    omega
  have back : (base : Int) < base + 1 + (assemble (base + 1) body).length + 1 := by omega
  simp only [assemble, assembleOne, List.cons_append, List.append_assoc, List.nil_append,
    List.length_cons, List.length_append, List.length_nil]
  rw [restore_guarded rfl, if_pos back, follows]

end

/-- The code of a program is restored to the program, without its empty other parts. -/
theorem restore_assemble (program : List Stmt) (whole : Stmt.firstStray? program = none)
    (base : Nat) : restore base (assemble base program) = Stmt.tidyAll program := by
  induction program using Stmt.listInduction generalizing base with
  | nil => simp [assemble, restore, Stmt.tidyAll]
  | action name line rest ih =>
      simp only [assemble, assembleOne, List.cons_append, List.nil_append, restore, ih whole,
        List.length_cons, List.length_nil, Stmt.tidyAll, Stmt.tidy]
  | choice condition yes line rest yesIH restIH =>
      rw [Stmt.firstStray?_cons_eq_none_iff, Stmt.stray?_choice_eq_none_iff] at whole
      obtain ⟨middle, next, read⟩ := restore_choice base condition line rest yes none
      rw [read, yesIH whole.1.1, restIH whole.2]
      simp only [assembleOther, restore, Stmt.filled?, Stmt.tidyAll, Stmt.tidy, Stmt.tidyOther]
  | choiceElse condition yes no line rest yesIH noIH restIH =>
      rw [Stmt.firstStray?_cons_eq_none_iff, Stmt.stray?_choice_eq_none_iff] at whole
      obtain ⟨middle, next, read⟩ := restore_choice base condition line rest yes (some no)
      rw [read, yesIH whole.1.1, assembleOther, noIH whole.1.2, restIH whole.2]
      simp only [Stmt.tidyAll, Stmt.tidy, Stmt.tidyOther_some]
  | loop condition body line rest bodyIH restIH =>
      rw [Stmt.firstStray?_cons_eq_none_iff] at whole
      obtain ⟨next, read⟩ := restore_loop base condition line rest body
      rw [read, bodyIH whole.1, restIH whole.2]
      simp only [Stmt.tidyAll, Stmt.tidy]
  | stray part rest ih => cases whole

/-- Compilation forgets nothing but empty other parts. Two programs of actions, choices and loops
compile, and they have the same code exactly if they are equal once every other part that is empty
is left out, at any depth. -/
theorem compile_eq_iff_tidyAll_eq (first second : List Stmt)
    (firstWhole : Stmt.firstStray? first = none) (secondWhole : Stmt.firstStray? second = none) :
    (∃ code, compile first = .ok code) ∧
      (compile first = compile second ↔ Stmt.tidyAll first = Stmt.tidyAll second) := by
  rw [compile_of_whole firstWhole, compile_of_whole secondWhole]
  refine ⟨⟨_, rfl⟩, ?_, ?_⟩
  · intro same
    calc Stmt.tidyAll first
        = restore 0 (assemble 0 first) := (restore_assemble first firstWhole 0).symm
      _ = restore 0 (assemble 0 second) := by rw [Except.ok.inj same]
      _ = Stmt.tidyAll second := restore_assemble second secondWhole 0
  · intro same
    rw [← assemble_tidyAll first, same, assemble_tidyAll second]

/-- An empty other part inside another one and inside a loop is forgotten. What stands in an other
part is not mistaken for what stands behind the choice. -/
theorem compile_eq_iff_tidyAll_eq_nested :
    let won : Condition := .atom "won"
    let program (empty : Option (List Stmt)) : List Stmt :=
      [.loop (.not won) [.choice won [] (some [.choice won [.action "put" 3] empty 2]) 2] 1]
    let inside : List Stmt := [.choice won [.action "put" 1] (some [.action "pick" 2]) 1]
    let behind : List Stmt := [.choice won [.action "put" 1] none 1, .action "pick" 2]
    Stmt.firstStray? (program none) = none ∧ Stmt.firstStray? (program (some [])) = none ∧
      compile (program none) = compile (program (some [])) ∧
        Stmt.firstStray? inside = none ∧ Stmt.firstStray? behind = none ∧
          compile inside ≠ compile behind := by
  intro won program inside behind
  have same := (compile_eq_iff_tidyAll_eq (program none) (program (some [])) rfl rfl).2
  have differ := (compile_eq_iff_tidyAll_eq inside behind rfl rfl).2
  refine ⟨rfl, rfl, same.mpr rfl, rfl, rfl, ?_⟩
  intro equal
  have tidied := congrArg List.length (differ.mp equal)
  cases tidied

end Code

end GridRobot
