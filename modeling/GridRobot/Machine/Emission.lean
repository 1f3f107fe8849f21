import GridRobot.Log
import GridRobot.Machine.Instruction

/-!
# Writing instructions

A program is compiled in one pass. Each instruction is written behind those that are there, so a
jump over statements is written before the place it leads to is known. It gets a target that is no
place, and the right one is patched in after the statements.

What comes out is the layout of `Code.assemble` for the place behind what was written before, and
that itself stays as it was. `Writes` says so, with one lemma for each kind of statement that needs
patches.
-/

namespace GridRobot

/-- The instruction with another target, if it has one. -/
def Instr.retarget (target : Int) : Instr → Instr
  | .act name line => .act name line
  | .jump _ line => .jump target line
  | .test condition _ line => .test condition target line

namespace Code

/-- The target of a jump to a place that is not known yet. -/
def unresolved : Int := -1

/-- Changes the target of an instruction that was written before. -/
def patch (written : Array Instr) (place target : Nat) : Array Instr :=
  written.modify place (Instr.retarget target)

mutual

/-- Writes the instructions of a statement. -/
def emitOne (written : Array Instr) : Stmt → Array Instr
  | .action name line => written.push (.act name line)
  | .choice condition yes no line =>
      let test := written.size
      let first := emit (written.push (.test condition unresolved line)) yes
      let jump := first.size
      let closed := first.push (.jump unresolved line)
      -- A test that fails goes to the other part, or behind the jump if there is none.
      let second := emitOther (patch closed test closed.size) no
      patch second jump second.size
  | .loop condition body line =>
      let test := written.size
      let inner := emit (written.push (.test condition unresolved line)) body
      let closed := inner.push (.jump test line)
      patch closed test closed.size
  | .stray _ => written

/-- Writes the instructions of a list of statements. -/
def emit (written : Array Instr) : List Stmt → Array Instr
  | [] => written
  | statement :: rest => emit (emitOne written statement) rest

/-- Writes the instructions of the other part of a choice. -/
def emitOther (written : Array Instr) : Option (List Stmt) → Array Instr
  | none => written
  | some statements => emit written statements

end

/-- The instructions of a program. A part that is no statement has none. -/
def compile (program : List Stmt) : Except Fault (List Instr) :=
  match Stmt.firstStray? program with
  | some part => .error (.notCompilable part.kind)
  | none => .ok (emit #[] program).toList

/-- What is noted while a program is compiled. -/
def records (program : List Stmt) : List Log.Record :=
  match compile program with
  | .error _ => []
  | .ok code =>
      [⟨.debug, "compiler", "Compiled " ++ toString program.length ++ " statement(s) into " ++
        toString code.length ++ " instruction(s)"⟩]

/-! ## What is written -/

/-- `Writes emission layout` says that what was written before an emission stays as it is, and that
the layout for the place behind it is appended. -/
def Writes (emission : Array Instr → Array Instr) (layout : Nat → List Instr) : Prop :=
  ∀ written, (emission written).toList = written.toList ++ layout written.size

theorem Writes.size {emission : Array Instr → Array Instr} {layout : Nat → List Instr}
    (writes : Writes emission layout) (written : Array Instr) :
    (emission written).size = written.size + (layout written.size).length := by
  simpa using congrArg List.length (writes written)

@[simp] theorem size_patch (written : Array Instr) (place target : Nat) :
    (patch written place target).size = written.size := by
  simp [patch]

/-- A patch changes one instruction and nothing before or behind it. -/
theorem toList_patch {written : Array Instr} {before after : List Instr} {instr : Instr}
    (found : written.toList = before ++ instr :: after) {place : Nat}
    (there : place = before.length) (target : Nat) :
    (patch written place target).toList = before ++ instr.retarget target :: after := by
  subst there
  rw [patch, Array.toList_modify, found, List.modify_eq_take_cons_drop (by simp)]
  simp

namespace Writes

variable {condition : Condition} {yes body rest : List Stmt} {no : Option (List Stmt)} {line : Int}

/-- A test, the statements behind it and one more instruction, with the test patched to lead behind
them all. -/
theorem guarded {statements : List Stmt}
    (writes : Writes (emit · statements) (assemble · statements)) (written : Array Instr)
    (condition : Condition) (line : Int) (last : Instr) :
    let part := assemble (written.size + 1) statements
    let closed := (emit (written.push (.test condition unresolved line)) statements).push last
    closed.size = written.size + 1 + part.length + 1 ∧
      (patch closed written.size closed.size).toList =
        written.toList ++ .test condition closed.size line :: (part ++ [last]) := by
  intro part closed
  constructor
  · have size := writes.size (written.push (.test condition unresolved line))
    simpa [closed, part] using size
  · have opened := writes (written.push (.test condition unresolved line))
    have pending : closed.toList =
        written.toList ++ .test condition unresolved line :: (part ++ [last]) := by
      simp [closed, part, opened]
    exact toList_patch pending Array.length_toList.symm closed.size

theorem loop (bodyWrites : Writes (emit · body) (assemble · body)) :
    Writes (emitOne · (.loop condition body line)) (assembleOne · (.loop condition body line)) := by
  intro written
  obtain ⟨size, patched⟩ := bodyWrites.guarded written condition line (.jump written.size line)
  simp only [emitOne, assembleOne]
  rw [patched, size]
  simp

/-- The jump of a choice stays unresolved until the other part has been written. -/
theorem choice (yesWrites : Writes (emit · yes) (assemble · yes))
    (noWrites : Writes (emitOther · no) (assembleOther · no)) :
    Writes (emitOne · (.choice condition yes no line))
      (assembleOne · (.choice condition yes no line)) := by
  intro written
  obtain ⟨size, patched⟩ := yesWrites.guarded written condition line (.jump unresolved line)
  simp only [emitOne, assembleOne]
  generalize emit (written.push (.test condition unresolved line)) yes = first at size patched ⊢
  generalize assemble (written.size + 1) yes = yesCode at size patched ⊢
  have frontSize := size_patch (first.push (.jump unresolved line)) written.size
    (first.push (.jump unresolved line)).size
  rw [size] at patched frontSize ⊢
  generalize middleEqual : written.size + 1 + yesCode.length + 1 = middle at *
  generalize patch (first.push (.jump unresolved line)) written.size middle = front at *
  have second := noWrites front
  have secondSize := noWrites.size front
  simp only [frontSize] at second secondSize
  have pending : (emitOther front no).toList =
      (written.toList ++ .test condition middle line :: yesCode) ++
        .jump unresolved line :: assembleOther middle no := by
    simp [second, patched]
  have place : first.size = (written.toList ++ .test condition middle line :: yesCode).length := by
    simp only [Array.size_push] at size
    simp only [List.length_append, List.length_cons, Array.length_toList]
    omega
  rw [toList_patch pending place, secondSize]
  simp [Instr.retarget]

theorem cons {statement : Stmt}
    (first : Writes (emitOne · statement) (assembleOne · statement))
    (others : Writes (emit · rest) (assemble · rest)) :
    Writes (emit · (statement :: rest)) (assemble · (statement :: rest)) := by
  intro written
  simp only [emit, assemble]
  rw [others, first, first.size, List.append_assoc]

theorem program (statements : List Stmt) : Writes (emit · statements) (assemble · statements) := by
  induction statements using Stmt.listInduction with
  | nil =>
      intro written
      simp [emit, assemble]
  | action name line rest ih =>
      refine cons ?_ ih
      intro written
      simp [emitOne, assembleOne]
  | choice condition yes line rest yesIH restIH =>
      refine cons (choice yesIH ?_) restIH
      intro written
      simp [emitOther, assembleOther]
  | choiceElse condition yes no line rest yesIH noIH restIH =>
      exact cons (choice yesIH noIH) restIH
  | loop condition body line rest bodyIH restIH => exact cons (loop bodyIH) restIH
  | stray part rest ih =>
      refine cons ?_ ih
      intro written
      simp [emitOne, assembleOne]

end Writes

/-- Writing a program appends its layout, whatever was written before. -/
theorem toList_emit (written : Array Instr) (program : List Stmt) :
    (emit written program).toList = written.toList ++ assemble written.size program :=
  Writes.program program written

/-- A program without stray parts compiles to its layout. -/
theorem compile_of_whole {program : List Stmt} (whole : Stmt.firstStray? program = none) :
    compile program = .ok (assemble 0 program) := by
  simp [compile, whole, toList_emit]

end Code

end GridRobot
