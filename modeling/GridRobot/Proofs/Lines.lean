import GridRobot.Machine.Step

/-!
# Source lines do not matter to a run

Lines are only carried along. When the lines of a program are changed, its instructions change in
their lines alone, and so does a run of them: the same instructions are run in the same states, and
the events differ in their lines.
-/

namespace GridRobot

variable (change : Int → Int)

/-! ## Programs and their instructions -/

namespace Stmt

mutual

/-- A statement with other lines. -/
def mapLines : Stmt → Stmt
  | .action name line => .action name (change line)
  | .choice condition yes no line =>
      .choice condition (mapLinesAll yes) (mapLinesOther no) (change line)
  | .loop condition body line => .loop condition (mapLinesAll body) (change line)
  | .stray part => .stray part

/-- A list of statements with other lines. -/
def mapLinesAll : List Stmt → List Stmt
  | [] => []
  | statement :: rest => statement.mapLines :: mapLinesAll rest

/-- The other part of a choice with other lines. -/
def mapLinesOther : Option (List Stmt) → Option (List Stmt)
  | none => none
  | some statements => some (mapLinesAll statements)

end

end Stmt

/-- An instruction with another line. -/
def Instr.mapLine : Instr → Instr
  | .act name line => .act name (change line)
  | .jump target line => .jump target (change line)
  | .test condition target line => .test condition target (change line)

theorem Code.assemble_mapLines (program : List Stmt) (base : Nat) :
    assemble base (Stmt.mapLinesAll change program) =
      (assemble base program).map (Instr.mapLine change) := by
  induction program using Stmt.listInduction generalizing base with
  | nil => rfl
  | action name line rest ih =>
      simp [assemble, assembleOne, Stmt.mapLinesAll, Stmt.mapLines, Instr.mapLine, ih]
  | choice condition yes line rest yesIH restIH =>
      simp [assemble, assembleOne, assembleOther, Stmt.mapLinesAll, Stmt.mapLines,
        Stmt.mapLinesOther, Instr.mapLine, yesIH, restIH]
  | choiceElse condition yes no line rest yesIH noIH restIH =>
      simp [assemble, assembleOne, assembleOther, Stmt.mapLinesAll, Stmt.mapLines,
        Stmt.mapLinesOther, Instr.mapLine, yesIH, noIH, restIH]
  | loop condition body line rest bodyIH restIH =>
      simp [assemble, assembleOne, Stmt.mapLinesAll, Stmt.mapLines, Instr.mapLine, bodyIH, restIH]
  | stray part rest ih =>
      simp [assemble, assembleOne, Stmt.mapLinesAll, Stmt.mapLines, ih]

/-! ## Runs -/

/-- An event with another line. -/
def Event.mapLine : Event → Event
  | .act line name => .act (change line) name
  | .test line value => .test (change line) value

/-- What was run, with another line. -/
def Executed.mapLine (executed : Executed) : Executed :=
  { executed with instr := executed.instr.mapLine change }

/-- A failure with another line. -/
def Failure.mapLine (failure : Failure) : Failure :=
  { failure with line := failure.line.map change }

/-- A machine whose instructions have other lines. -/
def Machine.mapLines (machine : Machine) : Machine :=
  { machine with code := machine.code.map (Instr.mapLine change) }

/-- A step of a machine whose instructions have other lines. -/
def Stepped.mapLines (stepped : Stepped) : Stepped :=
  { machine := stepped.machine.mapLines change
    state := stepped.state
    outcome := stepped.outcome.map (Option.map (Executed.mapLine change)) }

/-- A run of a machine whose instructions have other lines. -/
def Run.mapLines (run : Run) : Run :=
  { machine := run.machine.mapLines change
    state := run.state
    trace := run.trace.map (Event.mapLine change)
    failure := run.failure.map (Failure.mapLine change) }

theorem Executed.event?_mapLine (executed : Executed) :
    (executed.mapLine change).event? = executed.event?.map (Event.mapLine change) := by
  obtain ⟨instr, value⟩ := executed
  cases instr <;> rfl

theorem observe_mapLines (trace : Array Event) (ran : Option Executed) :
    observe (trace.map (Event.mapLine change)) (ran.map (Executed.mapLine change)) =
      (observe trace ran).map (Event.mapLine change) := by
  cases ran with
  | none => rfl
  | some executed =>
      simp only [observe, Option.map_some, Option.bind_some, Executed.event?_mapLine]
      cases executed.event? <;> simp

namespace Machine

@[simp] theorem mapLines_done (machine : Machine) :
    (machine.mapLines change).done = machine.done := rfl

theorem start_mapLines (code : List Instr) :
    (start code).mapLines change = start (code.map (Instr.mapLine change)) := by
  simp [start, mapLines]

theorem fetch?_mapLines (machine : Machine) :
    (machine.mapLines change).fetch? = machine.fetch?.map (Instr.mapLine change) := by
  simp only [fetch?, mapLines, List.getElem?_map, apply_ite (Option.map _), Option.map_none]

theorem currentLine?_mapLines (machine : Machine) :
    (machine.mapLines change).currentLine? = machine.currentLine?.map change := by
  have line (instr : Instr) : (instr.mapLine change).line = change instr.line := by
    cases instr <;> rfl
  simp only [currentLine?, fetch?_mapLines]
  cases done : machine.done <;> cases machine.fetch? <;> simp [mapLines, done, line]

theorem execute_mapLines (machine : Machine) (state : State) (instr : Instr) :
    (machine.mapLines change).execute state (instr.mapLine change) =
      (machine.execute state instr).mapLines change := by
  have goto (place : Int) (won : Bool) :
      (machine.mapLines change).goto place won = (machine.goto place won).mapLines change := by
    simp [Machine.goto, mapLines]
  cases instr with
  | act name line =>
      simp only [execute, Instr.mapLine, goto]
      cases (state.act name).fault <;> rfl
  | jump target line =>
      simp only [execute, Instr.mapLine, goto]
      rfl
  | test condition target line =>
      simp only [execute, Instr.mapLine, goto]
      cases condition.evaluate state <;> rfl

theorem step_mapLines (machine : Machine) (state : State) :
    (machine.mapLines change).step state = (machine.step state).mapLines change := by
  rw [step_eq, step_eq, mapLines_done]
  split
  · rfl
  · rw [fetch?_mapLines]
    cases machine.fetch? with
    | none => rfl
    | some instr => exact execute_mapLines change machine state instr

theorem runFrom_mapLines (limit : Int) (budget : Nat) (machine : Machine) (state : State)
    (trace : Array Event) :
    (machine.mapLines change).runFrom limit budget state (trace.map (Event.mapLine change)) =
      (machine.runFrom limit budget state trace).mapLines change := by
  induction budget generalizing machine state trace with
  | zero =>
      have relined := mapLines_done change machine
      cases running : machine.done with
      | true =>
          rw [runFrom_done running, runFrom_done (relined.trans running)]
          rfl
      | false =>
          rw [runFrom_zero running, runFrom_zero (relined.trans running), currentLine?_mapLines]
          rfl
  | succ budget ih =>
      have relined := mapLines_done change machine
      cases running : machine.done with
      | true =>
          rw [runFrom_done running, runFrom_done (relined.trans running)]
          rfl
      | false =>
          have stepped := step_mapLines change machine state
          cases outcome : (machine.step state).outcome with
          | error fault =>
              have failed : ((machine.mapLines change).step state).outcome = .error fault := by
                rw [stepped, Stepped.mapLines, outcome]
                rfl
              rw [runFrom_error running outcome, runFrom_error (relined.trans running) failed,
                stepped]
              rfl
          | ok ran =>
              have succeeded : ((machine.mapLines change).step state).outcome =
                  .ok (ran.map (Executed.mapLine change)) := by
                rw [stepped, Stepped.mapLines, outcome]
                rfl
              rw [runFrom_ok running outcome, runFrom_ok (relined.trans running) succeeded, stepped,
                observe_mapLines]
              exact ih _ _ _

/-- Changing the lines of instructions changes the lines of a run, and nothing else. -/
theorem run_mapLines (limit : Int) (code : List Instr) (state : State) :
    run limit (start (code.map (Instr.mapLine change))) state =
      (run limit (start code) state).mapLines change := by
  rw [← start_mapLines, run, run, ← runFrom_mapLines, Array.map_empty]

end Machine

end GridRobot
