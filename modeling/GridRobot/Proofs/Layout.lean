import GridRobot.Proofs.Compilation
import GridRobot.Proofs.Safety

/-!
# The layout of compiled programs

Instructions are written in one pass, with targets patched in later. All the same, a program has the
same code wherever it is written, up to the targets, which are raised by the place it starts at. So
the code of two programs one after the other is made of the codes of both.

The jumps of the code have the form of its choices and loops: each test leads behind a jump on its
own line, and each jump leads forward, or back to the test that leads behind it.
-/

namespace GridRobot

/-! ## Relocation -/

/-- The instruction with its target, if it has one, raised by an offset. -/
def Instr.raise (offset : Nat) : Instr → Instr
  | .act name line => .act name line
  | .jump target line => .jump (target + offset) line
  | .test condition target line => .test condition (target + offset) line

namespace Code

/-- Induction over layouts: what holds of no instructions and of an action, and passes from the
parts of choices, loops and lists to the whole, holds of the layout of every program. -/
theorem assemble_induction {motive : (Nat → List Instr) → Prop} (empty : motive fun _ => [])
    (action : ∀ name line, motive fun _ => [.act name line])
    (choice : ∀ condition yes no line, motive (assemble · yes) → motive (assembleOther · no) →
      motive (assembleOne · (.choice condition yes no line)))
    (loop : ∀ condition body line, motive (assemble · body) →
      motive (assembleOne · (.loop condition body line)))
    (cons : ∀ statement rest, motive (assembleOne · statement) → motive (assemble · rest) →
      motive (assemble · (statement :: rest)))
    (program : List Stmt) : motive (assemble · program) := by
  induction program using Stmt.listInduction with
  | nil => exact empty
  | action name line rest ih => exact cons _ rest (action name line) ih
  | choice condition yes line rest yesIH restIH =>
      exact cons _ rest (choice condition yes none line yesIH empty) restIH
  | choiceElse condition yes no line rest yesIH noIH restIH =>
      exact cons _ rest (choice condition yes (some no) line yesIH noIH) restIH
  | loop condition body line rest bodyIH restIH =>
      exact cons _ rest (loop condition body line bodyIH) restIH
  | stray part rest ih => exact cons _ rest empty ih

/-- Whether a layout that starts further on has the same instructions with raised targets. -/
def Relocates (layout : Nat → List Instr) : Prop :=
  ∀ base offset, layout (base + offset) = (layout base).map (Instr.raise offset)

namespace Relocates

variable {condition : Condition} {yes body rest : List Stmt} {no : Option (List Stmt)} {line : Int}

theorem choice (yesMoves : Relocates (assemble · yes)) (noMoves : Relocates (assembleOther · no)) :
    Relocates (assembleOne · (.choice condition yes no line)) := by
  intro base offset
  have start : base + offset + 1 = base + 1 + offset := Nat.add_right_comm base offset 1
  simp only [assembleOne, start, yesMoves (base + 1) offset, List.length_map]
  have middle : base + 1 + offset + (assemble (base + 1) yes).length + 1 =
      base + 1 + (assemble (base + 1) yes).length + 1 + offset := by
    omega
  simp only [middle, noMoves _ offset, List.length_map, List.map_append, List.map_cons,
    Instr.raise, Int.natCast_add, Int.add_right_comm _ (offset : Int)]

theorem loop (bodyMoves : Relocates (assemble · body)) :
    Relocates (assembleOne · (.loop condition body line)) := by
  intro base offset
  have start : base + offset + 1 = base + 1 + offset := Nat.add_right_comm base offset 1
  simp only [assembleOne, start, bodyMoves (base + 1) offset, List.length_map, List.map_append,
    List.map_cons, List.map_nil, Instr.raise, Int.natCast_add, Int.add_right_comm _ (offset : Int)]

theorem cons {statement : Stmt} (first : Relocates (assembleOne · statement))
    (others : Relocates (assemble · rest)) : Relocates (assemble · (statement :: rest)) := by
  intro base offset
  have next : base + offset + (assembleOne base statement).length =
      base + (assembleOne base statement).length + offset := Nat.add_right_comm _ _ _
  simp only [assemble, first base offset, List.length_map, next, others _ offset, List.map_append]

theorem program (statements : List Stmt) : Relocates (assemble · statements) := by
  apply assemble_induction
  · intro base offset
    rfl
  · intro name line base offset
    rfl
  · intro condition yes no line yesMoves noMoves
    exact choice yesMoves noMoves
  · intro condition body line bodyMoves
    exact loop bodyMoves
  · intro statement rest first others
    exact cons first others

end Relocates

/-- The code of a program at a place is its code at the start, with raised targets. -/
theorem assemble_eq_raise (program : List Stmt) (base : Nat) :
    assemble base program = (assemble 0 program).map (Instr.raise base) := by
  have moved := Relocates.program program 0 base
  rwa [Nat.zero_add] at moved

theorem assemble_append (base : Nat) (first second : List Stmt) :
    assemble base (first ++ second) =
      assemble base first ++ assemble (base + (assemble base first).length) second := by
  induction first generalizing base with
  | nil => rfl
  | cons statement rest ih =>
      simp only [List.cons_append, assemble, ih, List.append_assoc, List.length_append,
        Nat.add_assoc]

end Code

namespace Stmt

theorem firstStray?_append {first second : List Stmt} (firstWhole : firstStray? first = none)
    (secondWhole : firstStray? second = none) : firstStray? (first ++ second) = none := by
  induction first with
  | nil => exact secondWhole
  | cons statement rest ih =>
      rw [firstStray?_cons_eq_none_iff] at firstWhole
      rw [List.cons_append, firstStray?_cons_eq_none_iff]
      exact ⟨firstWhole.1, ih firstWhole.2⟩

/-! ## Length -/

/-- Whether a statement is an action. -/
def isAction : Stmt → Bool
  | .action _ _ => true
  | _ => false

/-- Whether a statement is a choice. -/
def isChoice : Stmt → Bool
  | .choice _ _ _ _ => true
  | _ => false

/-- Whether a statement is a loop. -/
def isLoop : Stmt → Bool
  | .loop _ _ _ => true
  | _ => false

/-- The instructions of a statement itself, without those of the statements inside it. -/
def ownLength : Stmt → Nat
  | .action _ _ => 1
  | .choice _ _ _ _ | .loop _ _ _ => 2
  | .stray _ => 0

/-- The sum of what the statements of a list take for themselves, by their kinds. -/
def ownLengths (statements : List Stmt) : Nat :=
  statements.countP isAction + 2 * (statements.countP isChoice + statements.countP isLoop)

@[simp] theorem ownLengths_append (first second : List Stmt) :
    ownLengths (first ++ second) = ownLengths first + ownLengths second := by
  simp only [ownLengths, List.countP_append]
  omega

@[simp] theorem ownLengths_cons (statement : Stmt) (rest : List Stmt) :
    ownLengths (statement :: rest) = ownLengths rest + statement.ownLength := by
  cases statement <;>
    simp [ownLengths, ownLength, List.countP_cons, isAction, isChoice, isLoop] <;>
    omega

@[simp] theorem ownLengths_nil : ownLengths [] = 0 := rfl

end Stmt

namespace Code

/-- Every action, choice and loop has its own instructions in the code, and there are no others. -/
theorem length_assemble (program : List Stmt) (base : Nat) :
    (assemble base program).length = Stmt.ownLengths (Stmt.allParts program) := by
  induction program using Stmt.listInduction generalizing base with
  | nil => rfl
  | action name line rest ih =>
      simp [assemble, assembleOne, Stmt.allParts, Stmt.parts, Stmt.ownLength, ih]
  | choice condition yes line rest yesIH restIH =>
      simp [assemble, assembleOne, assembleOther, Stmt.allParts, Stmt.parts, Stmt.otherParts,
        Stmt.ownLength, yesIH, restIH]
      omega
  | choiceElse condition yes no line rest yesIH noIH restIH =>
      simp [assemble, assembleOne, assembleOther, Stmt.allParts, Stmt.parts, Stmt.otherParts,
        Stmt.ownLength, yesIH, noIH, restIH]
      omega
  | loop condition body line rest bodyIH restIH =>
      simp [assemble, assembleOne, Stmt.allParts, Stmt.parts, Stmt.ownLength, bodyIH, restIH]
      omega
  | stray part rest ih =>
      simp [assemble, assembleOne, Stmt.allParts, Stmt.parts, Stmt.ownLength, ih]

end Code

/-! ## Targets -/

/-- The target of an instruction, if it has one. -/
def Instr.target? : Instr → Option Int
  | .act _ _ => none
  | .jump target _ | .test _ target _ => some target

/-- Whether an instruction at a place of some code leads where it should. A test leads at least two
places on, with a jump on its own line just before. A jump leads forward, or back to a test that
leads to the place behind the jump. -/
def Instr.AimsIn (code : List Instr) (place : Nat) : Instr → Prop
  | .act _ _ => True
  | .jump target _ =>
      place < target ∨
        ∃ condition back, code[target.toNat]? = some (.test condition (place + 1) back)
  | .test _ target line =>
      place + 2 ≤ target ∧ ∃ goal, code[(target - 1).toNat]? = some (.jump goal line)

namespace Instr

variable {code : List Instr} {place : Nat} {condition : Condition} {goal line : Int}

theorem aimsIn_test {last : Nat} {target : Int} (held : code[last]? = some (.jump goal line))
    (later : place < last) (behind : target = last + 1) :
    (Instr.test condition target line).AimsIn code place := by
  subst behind
  constructor
  · omega
  · rw [Int.add_sub_cancel, Int.toNat_natCast]
    exact ⟨goal, held⟩

theorem aimsIn_back {back : Nat} {target start : Int}
    (held : code[back]? = some (.test condition target start)) (behind : target = place + 1) :
    (Instr.jump back line).AimsIn code place := by
  subst behind
  right
  rw [Int.toNat_natCast]
  exact ⟨condition, start, held⟩

end Instr

namespace Code

/-- Whether instructions that stand in some code from a place on all lead where they should. -/
def Aim (code : List Instr) : (place : Nat) → List Instr → Prop
  | _, [] => True
  | place, instr :: rest => instr.AimsIn code place ∧ Aim code (place + 1) rest

@[simp] theorem aim_append (code : List Instr) (place : Nat) (first second : List Instr) :
    Aim code place (first ++ second) ↔
      Aim code place first ∧ Aim code (place + first.length) second := by
  induction first generalizing place with
  | nil => simp [Aim]
  | cons instr rest ih =>
      simp only [List.cons_append, Aim, ih, List.length_cons, and_assoc]
      rw [Nat.add_assoc, Nat.add_comm 1]

theorem Aim.getElem? {code part : List Instr} {place index : Nat} {instr : Instr}
    (aim : Aim code place part) (there : part[index]? = some instr) :
    instr.AimsIn code (place + index) := by
  induction part generalizing place index with
  | nil => cases there
  | cons first rest ih =>
      cases index with
      | zero =>
          cases there
          exact aim.1
      | succ index =>
          have later := ih aim.2 there
          rwa [Nat.add_assoc, Nat.add_comm 1] at later

/-- Whether a layout leads where it should in all code that holds it. -/
def Aimed (layout : Nat → List Instr) : Prop :=
  ∀ code base, Holds code base (layout base) → Aim code base (layout base)

namespace Aimed

variable {condition : Condition} {yes body rest : List Stmt} {no : Option (List Stmt)} {line : Int}

/-- The test of a choice leads to the place behind its jump, and the jump leads further on. -/
theorem choice (yesAimed : Aimed (assemble · yes)) (noAimed : Aimed (assembleOther · no)) :
    Aimed (assembleOne · (.choice condition yes no line)) := by
  intro code base held
  simp only [assembleOne, List.cons_append, Holds, holds_append, Aim, aim_append] at held ⊢
  obtain ⟨-, yesHeld, jumpHeld, noHeld⟩ := held
  refine ⟨?_, yesAimed _ _ yesHeld, ?_, noAimed _ _ noHeld⟩
  · exact Instr.aimsIn_test jumpHeld (by omega) (by omega)
  · left
    omega

/-- The test of a loop leads to the place behind its jump, and the jump leads back to the test. -/
theorem loop (bodyAimed : Aimed (assemble · body)) :
    Aimed (assembleOne · (.loop condition body line)) := by
  intro code base held
  simp only [assembleOne, List.cons_append, Holds, holds_append, Aim, aim_append] at held ⊢
  obtain ⟨testHeld, bodyHeld, jumpHeld, -⟩ := held
  refine ⟨?_, bodyAimed _ _ bodyHeld, ?_, trivial⟩
  · exact Instr.aimsIn_test jumpHeld (by omega) (by omega)
  · exact Instr.aimsIn_back testHeld (by omega)

theorem cons {statement : Stmt} (first : Aimed (assembleOne · statement))
    (others : Aimed (assemble · rest)) : Aimed (assemble · (statement :: rest)) := by
  intro code base held
  simp only [assemble, holds_append, aim_append] at held ⊢
  exact ⟨first code base held.1, others code _ held.2⟩

theorem program (statements : List Stmt) : Aimed (assemble · statements) := by
  apply assemble_induction
  · intro code base _
    exact trivial
  · intro name line code base _
    exact ⟨trivial, trivial⟩
  · intro condition yes no line yesAimed noAimed
    exact choice yesAimed noAimed
  · intro condition body line bodyAimed
    exact loop bodyAimed
  · intro statement rest first others
    exact cons first others

end Aimed

theorem target?_ne_unresolved {stop : Nat} {instr : Instr} (within : instr.Within stop) :
    instr.target? ≠ some unresolved := by
  intro pending
  cases instr with
  | act name line => cases pending
  | jump target line | test condition target line =>
      cases pending
      exact absurd within.1 (by decide)

/-- Compiled code has a compositional layout. Writing a program behind any instructions leaves those
as they are and appends the code of the program with its targets raised by their number; so the code
of two programs is the code of the first and the raised code of the second. No target is left
unresolved, and each is a place of the code or its end. The code has one instruction for each action
and two for each choice and loop, at any depth. Every test leads behind a jump on its own line, and
every jump leads forward or back to the test that leads behind it. -/
theorem compile_compositional (program : List Stmt) (whole : Stmt.firstStray? program = none) :
    ∃ code, compile program = .ok code ∧
      (∀ written : Array Instr,
        (emit written program).toList =
          written.toList ++ code.map (Instr.raise written.size)) ∧
      (∀ more, Stmt.firstStray? more = none →
        ∃ moreCode, compile more = .ok moreCode ∧
          compile (program ++ more) = .ok (code ++ moreCode.map (Instr.raise code.length))) ∧
      (∀ instr ∈ code, instr.target? ≠ some unresolved ∧ instr.Within code.length) ∧
      code.length =
        (Stmt.allParts program).countP Stmt.isAction +
          2 * ((Stmt.allParts program).countP Stmt.isChoice +
            (Stmt.allParts program).countP Stmt.isLoop) ∧
      ∀ (place : Nat) (instr : Instr), code[place]? = some instr → instr.AimsIn code place := by
  refine ⟨assemble 0 program, compile_of_whole whole, ?_, ?_, ?_, ?_, ?_⟩
  · intro written
    rw [toList_emit, assemble_eq_raise program written.size]
  · intro more moreWhole
    refine ⟨assemble 0 more, compile_of_whole moreWhole, ?_⟩
    rw [compile_of_whole (Stmt.firstStray?_append whole moreWhole), assemble_append, Nat.zero_add,
      assemble_eq_raise more]
  · intro instr among
    have within := within_assemble program 0 instr among
    rw [Nat.zero_add] at within
    exact ⟨target?_ne_unresolved within, within⟩
  · exact length_assemble program 0
  · intro place instr there
    have held : Holds (assemble 0 program) 0 (assemble 0 program) :=
      holds_suffix [] (assemble 0 program)
    have aim : Aim (assemble 0 program) 0 (assemble 0 program) := Aimed.program program _ 0 held
    have aims := aim.getElem? there
    rwa [Nat.zero_add] at aims

theorem compile_compositional_nested :
    let program : List Stmt :=
      [.loop (.atom "beepersHere")
        [.choice (.atom "won") [.action "pick" 3] (some [.action "put" 5]) 2,
          .action "forward" 6] 1]
    let more : List Stmt := [.choice (.atom "won") [] none 8]
    Stmt.firstStray? program = none ∧ Stmt.firstStray? more = none ∧
      ∃ code moreCode, compile program = .ok code ∧ compile more = .ok moreCode ∧
        code.length = 7 ∧ moreCode = [.test (.atom "won") 2 8, .jump 2 8] ∧
          compile (program ++ more) =
            .ok (code ++ [.test (.atom "won") 9 8, .jump 9 8]) := by
  intro program more
  have whole : Stmt.firstStray? program = none := by decide
  have moreWhole : Stmt.firstStray? more = none := by decide
  obtain ⟨code, compiled, -, append, -, length, -⟩ := compile_compositional program whole
  obtain ⟨moreCode, moreCompiled, both⟩ := append more moreWhole
  have count : code.length = 7 := by
    rw [length]
    decide
  have found : moreCode = [.test (.atom "won") 2 8, .jump 2 8] := by
    have computed : compile more = .ok [.test (.atom "won") 2 8, .jump 2 8] := by rfl
    rw [moreCompiled] at computed
    exact Except.ok.inj computed
  refine ⟨whole, moreWhole, code, moreCode, compiled, moreCompiled, count, found, ?_⟩
  rw [both, found, count]
  rfl

end Code

end GridRobot
