import GridRobot.Proofs.ProperSources
import GridRobot.Session

/-!
# Sessions as replays

Whatever is done with a session, it is the replay of a beginning of one run: the machine and the
state are those that its steps produce from the start of the program loaded last, the events are
those of these steps, and the history holds what was there after each of them. Only the last of the
steps may have failed.
-/

namespace GridRobot

/-- A stage of a run, after some steps: machine and state, the events of the steps, and the
fault of the last one, if it failed. -/
structure Stage where
  machine : Machine
  state : State
  trace : Array Event := #[]
  fault : Option Fault := none

/-- The stage one step later. -/
def Stage.next (stage : Stage) : Stage :=
  let stepped := stage.machine.step stage.state
  match stepped.outcome with
  | .ok ran => ⟨stepped.machine, stepped.state, observe stage.trace ran, none⟩
  | .error fault => ⟨stepped.machine, stepped.state, stage.trace, some fault⟩

/-- The stage after a number of steps from the start of some instructions. -/
def replay (code : List Instr) (initial : State) : (steps : Nat) → Stage
  | 0 => { machine := Machine.start code, state := initial }
  | steps + 1 => (replay code initial steps).next

/-- What a history holds for the stage after a number of steps. -/
def snapshotAt (code : List Instr) (initial : State) (steps : Nat) : Snapshot :=
  let stage := replay code initial steps
  ⟨stage.machine, stage.state, none, stage.trace.size, steps⟩

namespace Stage

variable {stage : Stage}

theorem next_of_ok {ran : Option Executed}
    (succeeded : (stage.machine.step stage.state).outcome = .ok ran) :
    stage.next = ⟨(stage.machine.step stage.state).machine,
      (stage.machine.step stage.state).state, observe stage.trace ran, none⟩ := by
  unfold next
  simp only [succeeded]

theorem next_of_error {fault : Fault}
    (failed : (stage.machine.step stage.state).outcome = .error fault) :
    stage.next = ⟨(stage.machine.step stage.state).machine,
      (stage.machine.step stage.state).state, stage.trace, some fault⟩ := by
  unfold next
  simp only [failed]

theorem next_machine (stage : Stage) :
    stage.next.machine = (stage.machine.step stage.state).machine := by
  cases outcome : (stage.machine.step stage.state).outcome with
  | error fault => rw [next_of_error outcome]
  | ok ran => rw [next_of_ok outcome]

theorem next_state (stage : Stage) :
    stage.next.state = (stage.machine.step stage.state).state := by
  cases outcome : (stage.machine.step stage.state).outcome with
  | error fault => rw [next_of_error outcome]
  | ok ran => rw [next_of_ok outcome]

/-- Cutting the events of a step off again leaves those before it. -/
theorem shrink_next : stage.next.trace.shrink stage.trace.size = stage.trace := by
  cases outcome : (stage.machine.step stage.state).outcome with
  | error fault => simp [next_of_error outcome]
  | ok ran =>
      rw [next_of_ok outcome]
      simp only [observe]
      split <;> simp

end Stage

@[simp] theorem replay_code (code : List Instr) (initial : State) (steps : Nat) :
    (replay code initial steps).machine.code = code := by
  induction steps with
  | zero => rfl
  | succ steps ih => rw [replay, Stage.next_machine, Machine.step_code, ih]

namespace Session

/-- `session.Replays initial limit code` says that a session is the replay of a beginning of the run
of some instructions from an initial state. -/
structure Replays (session : Session) (initial : State) (limit : Int) (code : List Instr) :
    Prop where
  sameInitial : session.initial = initial
  sameLimit : session.limit = limit
  sameCode : session.code = code
  bounded : (session.executed : Int) ≤ max 0 limit
  machine : session.machine = some (replay code initial session.executed).machine
  state : session.state = (replay code initial session.executed).state
  trace : session.trace = (replay code initial session.executed).trace
  history : session.history.reverse =
    (List.range session.executed).map (snapshotAt code initial)
  running : ∀ steps < session.executed, (replay code initial steps).machine.done = false
  succeeded : ∀ steps < session.executed, (replay code initial steps).fault = none
  failed : ∀ fault, (replay code initial session.executed).fault = some fault →
    session.halt = some ⟨fault, (replay code initial session.executed).machine.currentLine?⟩
  halted : ∀ failure, session.halt = some failure →
    failure.line = (replay code initial session.executed).machine.currentLine? ∧
      ((replay code initial session.executed).fault = some failure.fault ∨
        failure.fault = .instructionLimit limit ∧ limit ≤ session.executed)

/-- The session moved on to a stage, with what it had before in its history. -/
def advance (session : Session) (machine : Machine) (stage : Stage) (activeLine : Option Int) :
    Session :=
  { session.counted machine with
    machine := some stage.machine
    state := stage.state
    trace := stage.trace
    activeLine
    halt := stage.fault.map fun fault => ⟨fault, stage.machine.currentLine?⟩ }

namespace Replays

variable {session : Session} {initial : State} {limit : Int} {code : List Instr}

theorem length_history (replays : session.Replays initial limit code) :
    session.history.length = session.executed := by
  simpa using congrArg List.length replays.history

/-- A session that is not halted has not failed. -/
theorem fault_eq_none (replays : session.Replays initial limit code)
    (unhalted : session.halt = none) :
    (replay code initial session.executed).fault = none := by
  cases fault : (replay code initial session.executed).fault with
  | none => rfl
  | some cause =>
      have halted := replays.failed cause fault
      rw [unhalted] at halted
      cases halted

theorem reset (sameInitial : session.initial = initial) (sameLimit : session.limit = limit) :
    session.reset.Replays initial limit session.code where
  sameInitial := sameInitial
  sameLimit := sameLimit
  sameCode := rfl
  bounded := Int.le_max_left 0 limit
  machine := rfl
  state := sameInitial
  trace := rfl
  history := rfl
  running := by simp [Session.reset]
  succeeded := by simp [Session.reset]
  failed := by
    intro fault failed
    cases failed
  halted := by
    intro failure halted
    cases halted

/-- Pushing what a session has onto its history keeps the history a list of earlier stages. -/
theorem history_counted (replays : session.Replays initial limit code)
    (unhalted : session.halt = none) :
    (session.counted (replay code initial session.executed).machine).history.reverse =
      (List.range (session.executed + 1)).map (snapshotAt code initial) := by
  simp only [counted, List.reverse_cons, replays.history, List.range_succ, List.map_append,
    List.map_singleton, snapshotAt, unhalted, replays.state, replays.trace]

/-- A session that is not halted and has instructions left to run replays one step more after it
has moved on to the next stage. -/
theorem advance (replays : session.Replays initial limit code) (unhalted : session.halt = none)
    (running : (replay code initial session.executed).machine.done = false)
    (left : session.executed < limit) (activeLine : Option Int) :
    (session.advance (replay code initial session.executed).machine
      (replay code initial (session.executed + 1)) activeLine).Replays initial limit code where
  sameInitial := replays.sameInitial
  sameLimit := replays.sameLimit
  sameCode := replays.sameCode
  bounded := by
    simp only [Session.advance, counted]
    omega
  machine := rfl
  state := rfl
  trace := rfl
  history := replays.history_counted unhalted
  running := Nat.forall_lt_succ_right.mpr ⟨replays.running, running⟩
  succeeded :=
    Nat.forall_lt_succ_right.mpr ⟨replays.succeeded, replays.fault_eq_none unhalted⟩
  failed := by
    intro fault failed
    simp only [Session.advance, counted] at failed ⊢
    rw [failed]
    rfl
  halted := by
    intro failure halted
    simp only [Session.advance, counted] at halted ⊢
    obtain ⟨fault, failed, same⟩ := Option.map_eq_some_iff.mp halted
    rw [← same]
    exact ⟨rfl, .inl failed⟩

/-- A step that does not fail moves a session on to the next stage. -/
theorem step_ok (replays : session.Replays initial limit code) (unhalted : session.halt = none)
    (running : (replay code initial session.executed).machine.done = false)
    (left : session.executed < limit) {ran : Option Executed}
    (succeeded : ((replay code initial session.executed).machine.step
      (replay code initial session.executed).state).outcome = .ok ran) :
    session.step =
      ⟨session.advance (replay code initial session.executed).machine
        (replay code initial (session.executed + 1))
        (ran.map fun executed => executed.instr.line), .ok ran⟩ := by
  rw [replay, Stage.next_of_ok succeeded]
  rw [← replays.state] at succeeded ⊢
  rw [step_of_running replays.machine unhalted running (by rw [replays.sameLimit]; exact left),
    afterStep_ok succeeded, ← replays.trace]
  simp only [Session.advance, counted, unhalted, Option.map_none]

/-- A step that fails moves a session on to the next stage, where it is halted. -/
theorem step_error (replays : session.Replays initial limit code)
    (unhalted : session.halt = none)
    (running : (replay code initial session.executed).machine.done = false)
    (left : session.executed < limit) {fault : Fault}
    (failed : ((replay code initial session.executed).machine.step
      (replay code initial session.executed).state).outcome = .error fault)
    (ofWorld : fault.OfWorld) :
    session.step =
      ⟨session.advance (replay code initial session.executed).machine
        (replay code initial (session.executed + 1))
        (replay code initial (session.executed + 1)).machine.currentLine?,
        .error ⟨fault, (replay code initial (session.executed + 1)).machine.currentLine?⟩⟩ := by
  rw [replay, Stage.next_of_error failed]
  rw [← replays.state] at failed ⊢
  rw [step_of_running replays.machine unhalted running (by rw [replays.sameLimit]; exact left),
    afterStep_error failed ofWorld.classified, ← replays.trace]
  simp only [Session.advance, counted, Option.map_some]

/-- A session that has used up its budget stays at its stage and is halted there. -/
theorem halt_limit (replays : session.Replays initial limit code)
    (unhalted : session.halt = none) (spent : limit ≤ session.executed) :
    ({ session with halt := some ⟨.instructionLimit session.limit,
        (replay code initial session.executed).machine.currentLine?⟩ } : Session).Replays
      initial limit code :=
  { replays with
    failed := by
      intro fault failed
      rw [replays.fault_eq_none unhalted] at failed
      cases failed
    halted := by
      intro failure halted
      cases halted
      rw [replays.sameLimit]
      exact ⟨rfl, .inr ⟨rfl, spent⟩⟩ }

theorem step (replays : session.Replays initial limit code) (known : Code.Known code) :
    session.step.session.Replays initial limit code := by
  cases unhalted : session.halt with
  | some failure =>
      rw [step_of_halted unhalted]
      exact replays
  | none =>
      cases running : (replay code initial session.executed).machine.done with
      | true =>
          rw [step_of_done replays.machine unhalted running]
          exact replays
      | false =>
          rcases Int.lt_or_le session.executed limit with left | spent
          · cases outcome : ((replay code initial session.executed).machine.step
                (replay code initial session.executed).state).outcome with
            | ok ran =>
                rw [replays.step_ok unhalted running left outcome]
                exact replays.advance unhalted running left _
            | error fault =>
                have ofWorld := Machine.step_ofWorld (by rwa [replay_code]) outcome
                rw [replays.step_error unhalted running left outcome ofWorld]
                exact replays.advance unhalted running left _
          · rw [step_of_limit replays.machine unhalted running
              (by rw [replays.sameLimit]; exact spent)]
            exact replays.halt_limit unhalted spent

theorem runFor (replays : session.Replays initial limit code) (known : Code.Known code)
    (steps : Nat) : (session.runFor steps).session.Replays initial limit code := by
  induction steps generalizing session with
  | zero => exact replays
  | succ steps ih =>
      have stepped := replays.step known
      unfold Session.runFor
      split
      · exact replays
      · dsimp only
        split
        · exact stepped
        · exact ih stepped

/-- The last entry of a history is the stage one step before, and the others are those before it. -/
theorem history_cons (replays : session.Replays initial limit code) {last : Snapshot}
    {earlier : List Snapshot} (history : session.history = last :: earlier) :
    session.executed = earlier.length + 1 ∧ last = snapshotAt code initial earlier.length ∧
      earlier.reverse = (List.range earlier.length).map (snapshotAt code initial) := by
  have length := replays.length_history
  rw [history, List.length_cons] at length
  have stages := replays.history
  rw [history, ← length, List.reverse_cons, List.range_succ, List.map_append,
    List.map_singleton] at stages
  obtain ⟨before, same⟩ := List.append_inj stages (by simp)
  exact ⟨length.symm, List.singleton_inj.mp same, before⟩

/-- Going back returns to the stage one step before. -/
theorem stepBack (replays : session.Replays initial limit code) :
    session.stepBack.1.Replays initial limit code := by
  unfold Session.stepBack
  cases history : session.history with
  | nil => exact replays
  | cons last earlier =>
      obtain ⟨executed, same, stages⟩ := replays.history_cons history
      have before : earlier.length < session.executed := by omega
      rw [same]
      constructor
      case sameInitial => exact replays.sameInitial
      case sameLimit => exact replays.sameLimit
      case sameCode => exact replays.sameCode
      case bounded => exact Int.le_trans (Int.ofNat_le.mpr (Nat.le_of_lt before)) replays.bounded
      case machine => rfl
      case state => rfl
      case trace =>
        simp only [snapshotAt]
        rw [replays.trace, executed, replay, Stage.shrink_next]
      case history => exact stages
      case running => exact fun steps bound => replays.running steps (Nat.lt_trans bound before)
      case succeeded => exact fun steps bound => replays.succeeded steps (Nat.lt_trans bound before)
      case failed =>
        intro fault failed
        simp only [snapshotAt, replays.succeeded _ before] at failed
        cases failed
      case halted =>
        intro failure halted
        cases halted

end Replays

theorem run_of_halted {session : Session} {failure : Failure}
    (halted : session.halt = some failure) : session.run = ⟨session, none⟩ := by
  rw [run, stepsLeft, runFor, if_pos (by simp [halted])]

theorem run_of_absent {session : Session} (absent : session.machine = none) :
    session.run = ⟨session, none⟩ := by
  rw [run, stepsLeft, runFor, if_pos (by simp [done, absent])]

end Session

/-! ## Calls -/

/-- What can be asked of a session. -/
inductive Call where
  | load (source : String)
  | step
  | stepBack
  | reset
  | run

/-- The instructions of a session after a call, given those before it. Before the first load or
reset there are none. -/
def Call.code? (stack : Stack) (current : Option (List Instr)) : Call → Option (List Instr)
  | .load source => (Session.compileSource stack source).toOption.or current
  | .reset => some (current.getD [])
  | .step | .stepBack | .run => current

/-- The instructions of a session after some calls: those of the last valid source. -/
def Call.codeAfter (stack : Stack) (calls : List Call) : Option (List Instr) :=
  calls.foldl (Call.code? stack) none

namespace Session

theorem known_compileSource {stack : Stack} {source : String} {code : List Instr}
    (valid : compileSource stack source = .ok code) : Code.Known code := by
  obtain ⟨program, read, -, compiled⟩ := compileSource_eq_ok_iff.mp valid
  exact Code.known_compile (Source.known_program read) compiled

/-- The session after a call. A source that is not valid replaces nothing. -/
def after (stack : Stack) (session : Session) : Call → Session
  | .load source =>
      match session.load stack source with
      | .ok loaded => loaded
      | .error _ => session
  | .step => session.step.session
  | .stepBack => session.stepBack.1
  | .reset => session.reset
  | .run => session.run.session

/-- The session after some calls, in their order. -/
def afterAll (stack : Stack) (session : Session) (calls : List Call) : Session :=
  calls.foldl (after stack) session

/-- What a session is, by the instructions that the calls so far have left it with. -/
def Tracks (session : Session) (initial : State) (limit : Int) :
    (code : Option (List Instr)) → Prop
  | none => session = start initial limit
  | some code => Code.Known code ∧ session.Replays initial limit code

namespace Tracks

variable {session : Session} {initial : State} {limit : Int} {code : Option (List Instr)}

theorem settings (tracks : session.Tracks initial limit code) :
    session.initial = initial ∧ session.limit = limit ∧ session.code = code.getD [] ∧
      Code.Known (code.getD []) := by
  cases code with
  | none =>
      cases tracks
      exact ⟨rfl, rfl, rfl, Code.known_nil⟩
  | some code =>
      obtain ⟨known, replays⟩ := tracks
      exact ⟨replays.sameInitial, replays.sameLimit, replays.sameCode, known⟩

/-- One call preserves what a session is. -/
theorem after (tracks : session.Tracks initial limit code) (stack : Stack) (call : Call) :
    (session.after stack call).Tracks initial limit (call.code? stack code) := by
  obtain ⟨sameInitial, sameLimit, sameCode, known⟩ := tracks.settings
  cases call with
  | load source =>
      simp only [Session.after, Call.code?]
      cases valid : compileSource stack source with
      | error fault =>
          rw [load_of_error session valid]
          exact tracks
      | ok loaded =>
          rw [load_of_ok session valid]
          exact ⟨known_compileSource valid, Replays.reset sameInitial sameLimit⟩
  | reset =>
      simp only [Call.code?]
      rw [← sameCode] at known ⊢
      exact ⟨known, Replays.reset sameInitial sameLimit⟩
  | step =>
      cases code with
      | none =>
          cases tracks
          exact congrArg Stepped.session (step_of_absent rfl)
      | some code => exact ⟨tracks.1, tracks.2.step tracks.1⟩
  | stepBack =>
      cases code with
      | none =>
          cases tracks
          rfl
      | some code => exact ⟨tracks.1, tracks.2.stepBack⟩
  | run =>
      cases code with
      | none =>
          cases tracks
          exact congrArg Finished.session (run_of_absent rfl)
      | some code => exact ⟨tracks.1, tracks.2.runFor tracks.1 _⟩

theorem afterAll (tracks : session.Tracks initial limit code) (stack : Stack)
    (calls : List Call) :
    (session.afterAll stack calls).Tracks initial limit
      (calls.foldl (Call.code? stack) code) := by
  induction calls generalizing session code with
  | nil => exact tracks
  | cons call calls ih => exact ih (tracks.after stack call)

end Tracks

theorem tracks_afterAll (stack : Stack) (initial : State) (limit : Int) (calls : List Call) :
    ((start initial limit).afterAll stack calls).Tracks initial limit
      (Call.codeAfter stack calls) := by
  have fresh : (start initial limit).Tracks initial limit none := rfl
  exact fresh.afterAll stack calls

/-- After any calls, on whatever stack, a session is the replay of a beginning of the run of the
instructions loaded last, and while it is halted it stays as it is. Before the first load or reset
it is empty, and only these change it. -/
theorem afterAll_replays (stack : Stack) (initial : State) (limit : Int) (calls : List Call) :
    let session := (start initial limit).afterAll stack calls
    match Call.codeAfter stack calls with
    | none =>
        session = start initial limit ∧ session.machine = none ∧ session.history = [] ∧
          session.trace = #[] ∧ session.step = ⟨session, .ok none⟩ ∧
            session.stepBack = (session, false) ∧ session.run = ⟨session, none⟩
    | some code =>
        session.Replays initial limit code ∧ session.history.length = session.executed ∧
          ∀ failure, session.halt = some failure →
            session.step = ⟨session, .ok none⟩ ∧ session.run = ⟨session, none⟩ := by
  intro session
  have tracks : session.Tracks initial limit (Call.codeAfter stack calls) :=
    tracks_afterAll stack initial limit calls
  split
  · next idle =>
      rw [idle] at tracks
      rw [show session = start initial limit from tracks]
      exact ⟨rfl, rfl, rfl, rfl, step_of_absent rfl, rfl, run_of_absent rfl⟩
  · next code loaded =>
      rw [loaded] at tracks
      refine ⟨tracks.2, tracks.2.length_history, ?_⟩
      intro failure halted
      exact ⟨step_of_halted halted, run_of_halted halted⟩

end Session

end GridRobot
