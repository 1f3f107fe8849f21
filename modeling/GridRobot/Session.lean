import GridRobot.Machine.Step
import GridRobot.Program.Source

/-!
# Sessions

A session steps a program forward and back. Every step keeps the machine and the state from before
it, so that going back is taking the last pair again and cutting the trace to its old length. A
failing step is kept as well: its state shows the step that was charged, and the session is halted
until it goes back or starts over.
-/

namespace GridRobot

/-- What going back returns to. -/
structure Snapshot where
  machine : Machine
  state : State
  halt : Option Failure
  traceLength : Nat
  executed : Nat

/-- A session. Before the first load it has no machine. -/
structure Session where
  initial : State
  limit : Int
  code : List Instr := []
  machine : Option Machine := none
  state : State
  history : List Snapshot := []
  trace : Array Event := #[]
  halt : Option Failure := none
  activeLine : Option Int := none
  executed : Nat := 0

namespace Session

/-- A session on a state, with a budget of instructions. -/
def start (initial : State) (limit : Int) : Session :=
  { initial, limit, state := initial }

/-- The session at the start of its instructions. -/
def reset (session : Session) : Session :=
  let machine := Machine.start session.code
  { session with
    machine := some machine
    state := session.initial
    history := []
    trace := #[]
    halt := none
    activeLine := machine.currentLine?
    executed := 0 }

/-- Why a source could not be loaded. Nothing is reported of a program that is nested too deeply to
be compiled. -/
inductive LoadFault where
  | source (fault : SourceFault)
  | code (fault : Fault)
  | nestedTooDeeply

/-- The instructions of a program, unless it is given up. -/
def compile (stack : Stack) (program : List Stmt) : Except LoadFault (List Instr) :=
  if stack.program program then .error .nestedTooDeeply
  else (Code.compile program).mapError .code

/-- The instructions of the program of a source. -/
def compileSource (stack : Stack) (source : String) : Except LoadFault (List Instr) := do
  let program ← (Source.program stack source).mapError .source
  compile stack program

/-- The session at the start of the program of a source. -/
def load (stack : Stack) (session : Session) (source : String) : Except LoadFault Session := do
  let code ← compileSource stack source
  return reset { session with code }

theorem compile_eq_ok_iff {stack : Stack} {program : List Stmt} {code : List Instr} :
    compile stack program = .ok code ↔
      stack.program program = false ∧ Code.compile program = .ok code := by
  unfold compile
  cases stack.program program with
  | true => simp
  | false =>
      cases Code.compile program with
      | error fault =>
          change Except.error (LoadFault.code fault) = .ok code ↔ _
          simp
      | ok made =>
          change Except.ok made = .ok code ↔ _
          simp

theorem compileSource_eq_ok_iff {stack : Stack} {source : String} {code : List Instr} :
    compileSource stack source = .ok code ↔
      ∃ program, Source.program stack source = .ok program ∧ stack.program program = false ∧
        Code.compile program = .ok code := by
  unfold compileSource
  cases Source.program stack source with
  | error fault =>
      change Except.error (LoadFault.source fault) = .ok code ↔ _
      simp
  | ok program =>
      change compile stack program = .ok code ↔ _
      simp [compile_eq_ok_iff]

theorem load_of_ok {stack : Stack} {source : String} {code : List Instr} (session : Session)
    (valid : compileSource stack source = .ok code) :
    session.load stack source = .ok (reset { session with code }) := by
  rw [load, valid]
  rfl

theorem load_of_error {stack : Stack} {source : String} {fault : LoadFault} (session : Session)
    (invalid : compileSource stack source = .error fault) :
    session.load stack source = .error fault := by
  rw [load, invalid]
  rfl

/-- What is noted while a source is loaded. -/
def loadRecords (stack : Stack) (source : String) : List Log.Record :=
  Source.records stack source ++
    match Source.program stack source with
    | .error _ => []
    | .ok program => if stack.program program then [] else Code.records program

/-- Whether there is nothing left to run. -/
def done (session : Session) : Bool :=
  match session.machine with
  | none => true
  | some machine => machine.done

/-- A session after a step: what was run, or the failure that halted it. -/
structure Stepped where
  session : Session
  outcome : Except Failure (Option Executed)

/-- The session before the outcome of a step is known: its place is in the history, and the step is
counted. -/
def counted (session : Session) (machine : Machine) : Session :=
  { session with
    history := ⟨machine, session.state, session.halt, session.trace.size, session.executed⟩ ::
      session.history
    executed := session.executed + 1 }

/-- The session after a machine has taken a step. A failure without a line is blamed on the
instruction that failed. A fault that only a hand-made program can have is not kept. -/
def afterStep (session : Session) (machine : Machine) : Stepped :=
  let stepped := machine.step session.state
  match stepped.outcome with
  | .error fault =>
      let line := stepped.machine.currentLine?
      if fault.classification?.isNone then ⟨session.counted machine, .error ⟨fault, none⟩⟩
      else
        ⟨{ session.counted machine with
            machine := some stepped.machine
            state := stepped.state
            activeLine := line
            halt := some ⟨fault, line⟩ },
          .error ⟨fault, line⟩⟩
  | .ok result =>
      ⟨{ session.counted machine with
          machine := some stepped.machine
          state := stepped.state
          trace := observe session.trace result
          activeLine := result.map fun executed => executed.instr.line },
        .ok result⟩

theorem afterStep_ok {session : Session} {machine : Machine} {ran : Option Executed}
    (succeeded : (machine.step session.state).outcome = .ok ran) :
    session.afterStep machine =
      ⟨{ session.counted machine with
          machine := some (machine.step session.state).machine
          state := (machine.step session.state).state
          trace := observe session.trace ran
          activeLine := ran.map fun executed => executed.instr.line },
        .ok ran⟩ := by
  unfold afterStep
  simp only [succeeded]

theorem afterStep_error {session : Session} {machine : Machine} {fault : Fault}
    (failed : (machine.step session.state).outcome = .error fault)
    (classified : fault.classification?.isNone = false) :
    session.afterStep machine =
      ⟨{ session.counted machine with
          machine := some (machine.step session.state).machine
          state := (machine.step session.state).state
          activeLine := (machine.step session.state).machine.currentLine?
          halt := some ⟨fault, (machine.step session.state).machine.currentLine?⟩ },
        .error ⟨fault, (machine.step session.state).machine.currentLine?⟩⟩ := by
  unfold afterStep
  simp only [failed]
  rw [if_neg (by simp [classified])]

/-- Takes one step. A session that is halted or has nothing left to run stays as it is. -/
def step (session : Session) : Stepped :=
  match session.machine, session.halt with
  | some machine, none =>
      if machine.done then ⟨session, .ok none⟩
      else if session.limit ≤ session.executed then
        let failure : Failure := ⟨.instructionLimit session.limit, machine.currentLine?⟩
        ⟨{ session with halt := some failure }, .error failure⟩
      else session.afterStep machine
  | _, _ => ⟨session, .ok none⟩

theorem step_of_absent {session : Session} (absent : session.machine = none) :
    session.step = ⟨session, .ok none⟩ := by
  unfold step
  rw [absent]

theorem step_of_halted {session : Session} {failure : Failure}
    (halted : session.halt = some failure) : session.step = ⟨session, .ok none⟩ := by
  unfold step
  rw [halted]
  split
  · next found => cases found
  · rfl

section Running

variable {session : Session} {machine : Machine} (loaded : session.machine = some machine)
  (unhalted : session.halt = none)

include loaded unhalted

theorem step_of_done (finished : machine.done = true) :
    session.step = ⟨session, .ok none⟩ := by
  unfold step
  simp only [loaded, unhalted]
  rw [if_pos finished]

theorem step_of_limit (running : machine.done = false)
    (spent : session.limit ≤ session.executed) :
    session.step =
      ⟨{ session with halt := some ⟨.instructionLimit session.limit, machine.currentLine?⟩ },
        .error ⟨.instructionLimit session.limit, machine.currentLine?⟩⟩ := by
  unfold step
  simp only [loaded, unhalted]
  rw [if_neg (by simp [running]), if_pos spent]

theorem step_of_running (running : machine.done = false)
    (left : session.executed < session.limit) : session.step = session.afterStep machine := by
  unfold step
  simp only [loaded, unhalted]
  rw [if_neg (by simp [running]), if_neg (Int.not_le.mpr left)]

end Running

/-- What is noted about a failure that halts a session. -/
def haltRecord (report : Report) : Log.Record :=
  ⟨.warning, "session", "Run halted: " ++ report.text⟩

/-- What is noted about the instruction of a step. -/
def stepRecords (session : Session) : List Log.Record :=
  match session.machine, session.halt with
  | some machine, none =>
      if machine.done || session.limit ≤ session.executed then []
      else machine.records session.state
  | _, _ => []

/-- Takes the last step back, if there is one. -/
def stepBack (session : Session) : Session × Bool :=
  match session.history with
  | [] => (session, false)
  | last :: earlier =>
      ({ session with
          machine := some last.machine
          state := last.state
          halt := last.halt
          executed := last.executed
          history := earlier
          trace := session.trace.shrink last.traceLength
          activeLine := last.machine.currentLine? },
        true)

/-- A session after a run, with the failure that stopped it. -/
structure Finished where
  session : Session
  failure : Option Failure := none

/-- Takes steps until there is nothing left to run, at most a given number. -/
def runFor : (steps : Nat) → Session → Finished
  | 0, session => ⟨session, none⟩
  | steps + 1, session =>
      if session.done || session.halt.isSome then ⟨session, none⟩
      else
        let stepped := session.step
        match stepped.outcome with
        | .error failure => ⟨stepped.session, some failure⟩
        | .ok _ => runFor steps stepped.session

/-- More steps than a session can take before it ends or is halted by its limit. -/
def stepsLeft (session : Session) : Nat :=
  (session.limit - session.executed).toNat + 2

/-- Takes steps until there is nothing left to run. -/
def run (session : Session) : Finished :=
  session.runFor session.stepsLeft

/-- What is noted about the instructions of a run, at most a given number of steps. -/
def runRecords : (steps : Nat) → Session → List Log.Record
  | 0, _ => []
  | steps + 1, session =>
      if session.done || session.halt.isSome then []
      else
        let noted := session.stepRecords
        match session.step.outcome with
        | .error _ => noted
        | .ok _ => noted ++ runRecords steps session.step.session

end Session

end GridRobot
