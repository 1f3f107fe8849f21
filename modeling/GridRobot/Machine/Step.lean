import GridRobot.Machine.Emission

/-!
# The machine

The machine holds a list of instructions, the place of the next one, and whether it is done. Each
step is handed the state to change.

A step is a computation that changes machine and state as it goes along. What a step does that runs
an instruction is then said at once, by `Machine.execute`: the machine only moves on once the
instruction is through, so a step that fails leaves the machine as it was.
-/

namespace GridRobot

/-- A machine. Its place is a whole number, since a jump may lead anywhere. -/
structure Machine where
  code : List Instr
  place : Int := 0
  done : Bool := false
  deriving DecidableEq, Repr

/-- What a step observably did. -/
inductive Event where
  | act (line : Int) (name : String)
  | test (line : Int) (value : Bool)
  deriving DecidableEq, Repr

/-- An instruction that was run, with the value of its condition if it has one. -/
structure Executed where
  instr : Instr
  value : Option Bool := none
  deriving DecidableEq, Repr

/-- The event of an instruction that was run. Jumps are not observed. -/
def Executed.event? (executed : Executed) : Option Event :=
  match executed.instr with
  | .act name line => some (.act line name)
  | .jump _ _ => none
  | .test _ _ line => some (.test line (executed.value.getD false))

/-- A trace after a step, from what the step ran. -/
def observe (trace : Array Event) (ran : Option Executed) : Array Event :=
  match ran.bind Executed.event? with
  | some event => trace.push event
  | none => trace

/-- A machine and a state after a step, with what was run. Nothing is run once the machine is done
or the state is won. -/
structure Stepped where
  machine : Machine
  state : State
  outcome : Except Fault (Option Executed)

namespace Machine

/-- A machine at the start of its instructions. -/
def start (code : List Instr) : Machine :=
  { code, done := code.isEmpty }

/-- The instruction at the machine's place. -/
def fetch? (machine : Machine) : Option Instr :=
  if 0 ≤ machine.place then machine.code[machine.place.toNat]? else none

/-- The source line of the next instruction. -/
def currentLine? (machine : Machine) : Option Int :=
  if machine.done then none else machine.fetch?.map Instr.line

end Machine

/-! ## A step, piece by piece -/

/-- A machine and the state that it is handed. -/
structure Scene where
  machine : Machine
  state : State

/-- A stretch of a step. Where it fails, machine and state stay as they are by then. -/
abbrev Turn := EStateM Fault Scene

namespace Turn

/-- Tries the action with a given name. -/
def act (name : String) : Turn Unit := do
  let scene ← get
  let attempt := scene.state.act name
  set { scene with state := attempt.state }
  match attempt.fault with
  | some fault => throw fault
  | none => pure ()

/-- Evaluates a condition. -/
def test (condition : Condition) : Turn Bool := do
  let scene ← get
  match condition.evaluate scene.state with
  | .ok value => return value
  | .error fault => throw fault

/-- Puts the machine at another place. -/
def goto (place : Int) : Turn Unit :=
  modify fun scene => { scene with machine := { scene.machine with place } }

/-- Puts the machine at the next place. -/
def advance : Turn Unit := do
  let scene ← get
  goto (scene.machine.place + 1)

/-- Notes that the machine is done. -/
def finish : Turn Unit :=
  modify fun scene => { scene with machine := { scene.machine with done := true } }

/-- Notes that the machine is done if the state is won, or at the end of its instructions. -/
def settle : Turn Unit := do
  let scene ← get
  if scene.state.won || (scene.machine.code.length : Int) ≤ scene.machine.place then finish

/-- Carries out an instruction, and returns the value of its condition if it has one. -/
def perform : Instr → Turn (Option Bool)
  | .act name _ => do
      act name
      advance
      return none
  | .jump target _ => do
      goto target
      return none
  | .test condition target _ => do
      let value ← test condition
      if value then advance else goto target
      return some value

/-- Runs one instruction. -/
def execute (instr : Instr) : Turn (Option Executed) := do
  let value ← perform instr
  settle
  return some ⟨instr, value⟩

/-- Takes one step. Where nothing can be run, the machine is done. -/
def step : Turn (Option Executed) := do
  let scene ← get
  if scene.machine.done || scene.state.won then
    finish
    return none
  match scene.machine.fetch? with
  | none =>
      finish
      return none
  | some instr => execute instr

/-- Where a step leads from a machine and a state. -/
def stepped (turn : Turn (Option Executed)) (machine : Machine) (state : State) : Stepped :=
  match turn.run ⟨machine, state⟩ with
  | .ok ran scene => ⟨scene.machine, scene.state, .ok ran⟩
  | .error fault scene => ⟨scene.machine, scene.state, .error fault⟩

end Turn

namespace Machine

/-- Takes one step from a state. -/
def step (machine : Machine) (state : State) : Stepped :=
  Turn.step.stepped machine state

/-! ## What a step does -/

/-- The machine at another place. It is done at the end of its instructions, or once the state is
won. -/
def goto (machine : Machine) (place : Int) (won : Bool) : Machine :=
  { machine with place, done := won || (machine.code.length : Int) ≤ place }

/-- What a step does that runs an instruction. -/
def execute (machine : Machine) (state : State) (instr : Instr) : Stepped :=
  match instr with
  | .act name _ =>
      let attempt := state.act name
      match attempt.fault with
      | some fault => ⟨machine, attempt.state, .error fault⟩
      | none =>
          ⟨machine.goto (machine.place + 1) attempt.state.won, attempt.state,
            .ok (some ⟨instr, none⟩)⟩
  | .jump target _ => ⟨machine.goto target state.won, state, .ok (some ⟨instr, none⟩)⟩
  | .test condition target _ =>
      match condition.evaluate state with
      | .error fault => ⟨machine, state, .error fault⟩
      | .ok value =>
          let place := if value then machine.place + 1 else target
          ⟨machine.goto place state.won, state, .ok (some ⟨instr, some value⟩)⟩

section

variable {machine : Machine} {state next : State} {instr : Instr} {value : Option Bool}
  {fault : Fault} {place : Int}

theorem run_act (name : String) :
    (Turn.act name).run ⟨machine, state⟩ =
      match (state.act name).fault with
      | some fault => .error fault ⟨machine, (state.act name).state⟩
      | none => .ok () ⟨machine, (state.act name).state⟩ := by
  simp only [Turn.act, EStateM.run_bind, EStateM.run_get, EStateM.run_set]
  cases (state.act name).fault <;> rfl

theorem run_test (condition : Condition) :
    (Turn.test condition).run ⟨machine, state⟩ =
      match condition.evaluate state with
      | .ok value => .ok value ⟨machine, state⟩
      | .error fault => .error fault ⟨machine, state⟩ := by
  simp only [Turn.test, EStateM.run_bind, EStateM.run_get]
  cases condition.evaluate state <;> rfl

/-- At another place, a machine that is not done finds out whether it is. -/
theorem run_settle (running : machine.done = false) :
    Turn.settle.run ⟨{ machine with place }, state⟩ =
      .ok () ⟨machine.goto place state.won, state⟩ := by
  obtain ⟨code, _, done⟩ := machine
  cases running
  simp only [Turn.settle, EStateM.run_bind, EStateM.run_get, goto]
  cases state.won || decide ((code.length : Int) ≤ place) <;> rfl

theorem stepped_execute_of_error
    (failed : (Turn.perform instr).run ⟨machine, state⟩ = .error fault ⟨machine, next⟩) :
    (Turn.execute instr).stepped machine state = ⟨machine, next, .error fault⟩ := by
  simp only [Turn.stepped, Turn.execute, EStateM.run_bind, failed]

/-- Once an instruction is carried out, it is noted whether the machine is done. -/
theorem stepped_execute_of_ok (running : machine.done = false)
    (performed : (Turn.perform instr).run ⟨machine, state⟩ =
      .ok value ⟨{ machine with place }, next⟩) :
    (Turn.execute instr).stepped machine state =
      ⟨machine.goto place next.won, next, .ok (some ⟨instr, value⟩)⟩ := by
  simp only [Turn.stepped, Turn.execute, EStateM.run_bind, performed, run_settle running]
  rfl

/-- An instruction moves the machine on only if it does not fail. -/
theorem stepped_execute (running : machine.done = false) (state : State) (instr : Instr) :
    (Turn.execute instr).stepped machine state = machine.execute state instr := by
  cases instr with
  | act name line =>
      simp only [execute]
      cases tried : (state.act name).fault with
      | some fault =>
          apply stepped_execute_of_error
          simp only [Turn.perform, EStateM.run_bind, run_act, tried]
      | none =>
          apply stepped_execute_of_ok running
          simp only [Turn.perform, EStateM.run_bind, run_act, tried]
          rfl
  | jump target line =>
      apply stepped_execute_of_ok running
      rfl
  | test condition target line =>
      simp only [execute]
      cases tested : condition.evaluate state with
      | error fault =>
          apply stepped_execute_of_error
          simp only [Turn.perform, EStateM.run_bind, run_test, tested]
      | ok value =>
          apply stepped_execute_of_ok running
          simp only [Turn.perform, EStateM.run_bind, run_test, tested]
          cases value <;> rfl

end

/-- A step finds nothing to run, or it runs the instruction at the machine's place. -/
theorem step_eq (machine : Machine) (state : State) :
    machine.step state =
      if machine.done || state.won then ⟨{ machine with done := true }, state, .ok none⟩
      else
        match machine.fetch? with
        | none => ⟨{ machine with done := true }, state, .ok none⟩
        | some instr => machine.execute state instr := by
  simp only [step, Turn.step, Turn.stepped, EStateM.run_bind, EStateM.run_get]
  cases idle : machine.done || state.won with
  | true => rfl
  | false =>
      cases machine.fetch? with
      | none => rfl
      | some instr => exact stepped_execute (Bool.or_eq_false_iff.mp idle).1 state instr

/-- Nothing is run once the machine is done or the state is won. -/
theorem step_of_idle {machine : Machine} {state : State}
    (idle : machine.done = true ∨ state.won = true) :
    machine.step state = ⟨{ machine with done := true }, state, .ok none⟩ := by
  rw [step_eq, if_pos]
  simpa using idle

/-- A machine that is not done runs the instruction at its place. -/
theorem step_of_fetch {machine : Machine} {state : State} {instr : Instr}
    (running : machine.done = false) (unwon : state.won = false)
    (fetched : machine.fetch? = some instr) :
    machine.step state = machine.execute state instr := by
  rw [step_eq, if_neg (by simp [running, unwon]), fetched]

/-- A step either finds nothing to run, or it runs the instruction at the machine's place. -/
theorem step_cases (machine : Machine) (state : State) :
    machine.step state = ⟨{ machine with done := true }, state, .ok none⟩ ∨
      ∃ instr, machine.done = false ∧ machine.fetch? = some instr ∧
        machine.step state = machine.execute state instr := by
  by_cases idle : machine.done = true ∨ state.won = true
  · exact .inl (step_of_idle idle)
  · simp only [not_or, Bool.not_eq_true] at idle
    cases fetched : machine.fetch? with
    | none =>
        left
        rw [step_eq, if_neg (by simp [idle]), fetched]
    | some instr =>
        right
        exact ⟨instr, idle.1, rfl, step_of_fetch idle.1 idle.2 fetched⟩

@[simp] theorem execute_code (machine : Machine) (state : State) (instr : Instr) :
    (machine.execute state instr).machine.code = machine.code := by
  unfold execute
  split
  · dsimp only
    split <;> rfl
  · rfl
  · split <;> rfl

/-- Running an action does to the state what trying it does, whether it fails or not. -/
theorem execute_act_state (machine : Machine) (state : State) (name : String) (line : Int) :
    (machine.execute state (.act name line)).state = (state.act name).state := by
  simp only [execute]
  split <;> rfl

@[simp] theorem step_code (machine : Machine) (state : State) :
    (machine.step state).machine.code = machine.code := by
  rcases step_cases machine state with idle | ⟨instr, -, -, ran⟩
  · rw [idle]
  · rw [ran, execute_code]

/-- An instruction that fails leaves the machine where it was. -/
theorem execute_error {machine : Machine} {state : State} {instr : Instr} {fault : Fault}
    (failed : (machine.execute state instr).outcome = .error fault) :
    (machine.execute state instr).machine = machine := by
  unfold execute at failed ⊢
  split at failed
  · dsimp only at failed ⊢
    split at failed
    · rfl
    · cases failed
  · cases failed
  · split at failed
    · rfl
    · cases failed

/-- An instruction that is run is the one that is reported. -/
theorem execute_ok {machine : Machine} {state : State} {instr : Instr} {ran : Option Executed}
    (succeeded : (machine.execute state instr).outcome = .ok ran) :
    ∃ value, ran = some ⟨instr, value⟩ := by
  unfold execute at succeeded
  split at succeeded
  · dsimp only at succeeded
    split at succeeded <;> cases succeeded
    exact ⟨none, rfl⟩
  · cases succeeded
    exact ⟨none, rfl⟩
  · split at succeeded <;> cases succeeded
    exact ⟨_, rfl⟩

/-- A step that fails leaves the machine at the instruction that failed. -/
theorem step_error {machine : Machine} {state : State} {fault : Fault}
    (failed : (machine.step state).outcome = .error fault) :
    (machine.step state).machine = machine ∧
      ∃ instr, machine.fetch? = some instr ∧
        machine.step state = machine.execute state instr := by
  rcases step_cases machine state with idle | ⟨instr, -, fetched, ran⟩
  · rw [idle] at failed
    cases failed
  · rw [ran] at failed ⊢
    exact ⟨execute_error failed, instr, fetched, rfl⟩

/-- A step that fails changes the state at most. -/
theorem step_eq_of_error {machine : Machine} {state : State} {fault : Fault}
    (failed : (machine.step state).outcome = .error fault) :
    machine.step state = ⟨machine, (machine.step state).state, .error fault⟩ := by
  change Stepped.mk (machine.step state).machine (machine.step state).state
    (machine.step state).outcome = _
  rw [(step_error failed).1, failed]

/-- A step that finds nothing to run does no more than note that. -/
theorem step_eq_of_none {machine : Machine} {state : State}
    (nothing : (machine.step state).outcome = .ok none) :
    machine.step state = ⟨{ machine with done := true }, state, .ok none⟩ := by
  rcases step_cases machine state with idle | ⟨instr, -, -, ran⟩
  · exact idle
  · rw [ran] at nothing
    obtain ⟨value, equal⟩ := execute_ok nothing
    cases equal

/-- A step that finds nothing to run leaves the machine done. -/
theorem step_none {machine : Machine} {state : State}
    (nothing : (machine.step state).outcome = .ok none) :
    (machine.step state).machine.done = true := by
  rw [step_eq_of_none nothing]

/-- What is noted while a step is taken. -/
def records (machine : Machine) (state : State) : List Log.Record :=
  if machine.done || state.won then []
  else
    match machine.fetch? with
    | none => []
    | some instr =>
        let next := (machine.step state).state
        let fetched : Log.Record :=
          ⟨.debug, "vm", "pc=" ++ toString machine.place ++ " " ++ instr.construction⟩
        let won : List Log.Record :=
          if next.won && !state.won then
            [⟨.info, "world", "Win row reached at (" ++ toString next.robot.cell.x ++ ", " ++
              toString next.robot.cell.y ++ ") after " ++ toString next.steps ++ " steps"⟩]
          else []
        fetched :: won

end Machine

/-- A run of a machine: where it ended, the events on the way, and, if it did not end by itself,
the failure that stopped it. -/
structure Run where
  machine : Machine
  state : State
  trace : Array Event
  failure : Option Failure := none

/-- Takes steps until the machine is done, at most as many as the budget left. `limit` is the whole
budget, which the failure names. -/
def Machine.runFrom (limit : Int) :
    (budget : Nat) → Machine → State → (trace : Array Event) → Run
  | budget, machine, state, trace =>
      if machine.done then ⟨machine, state, trace, none⟩
      else
        match budget with
        | 0 => ⟨machine, state, trace, some ⟨.instructionLimit limit, machine.currentLine?⟩⟩
        | budget + 1 =>
            let stepped := machine.step state
            match stepped.outcome with
            | .error fault => ⟨stepped.machine, stepped.state, trace, some ⟨fault, none⟩⟩
            | .ok none => ⟨stepped.machine, stepped.state, trace, none⟩
            | .ok (some executed) =>
                runFrom limit budget stepped.machine stepped.state
                  (observe trace (some executed))

namespace Machine

variable {limit : Int} {budget : Nat} {machine : Machine} {state : State} {trace : Array Event}

theorem runFrom_done (finished : machine.done = true) :
    machine.runFrom limit budget state trace = ⟨machine, state, trace, none⟩ := by
  unfold runFrom
  rw [if_pos finished]

theorem runFrom_zero (running : machine.done = false) :
    machine.runFrom limit 0 state trace =
      ⟨machine, state, trace, some ⟨.instructionLimit limit, machine.currentLine?⟩⟩ := by
  unfold runFrom
  rw [if_neg (by simp [running])]

theorem runFrom_error {fault : Fault} (running : machine.done = false)
    (failed : (machine.step state).outcome = .error fault) :
    machine.runFrom limit (budget + 1) state trace =
      ⟨(machine.step state).machine, (machine.step state).state, trace,
        some ⟨fault, none⟩⟩ := by
  unfold runFrom
  rw [if_neg (by simp [running])]
  simp only [failed]

/-- A run goes on after a step that does not fail. -/
theorem runFrom_ok {ran : Option Executed} (running : machine.done = false)
    (succeeded : (machine.step state).outcome = .ok ran) :
    machine.runFrom limit (budget + 1) state trace =
      (machine.step state).machine.runFrom limit budget (machine.step state).state
        (observe trace ran) := by
  cases ran with
  | none =>
      rw [runFrom_done (step_none succeeded)]
      conv => lhs; unfold runFrom
      rw [if_neg (by simp [running])]
      simp only [succeeded]
      rfl
  | some executed =>
      conv => lhs; unfold runFrom
      rw [if_neg (by simp [running])]
      simp only [succeeded]

end Machine

/-- The budget of instructions when none is given. -/
def defaultBudget : Int := 100000

/-- Runs a machine until it is done, with a budget of instructions. -/
def Machine.run (limit : Int) (machine : Machine) (state : State) : Run :=
  machine.runFrom limit limit.toNat state #[]

end GridRobot
