import GridRobot.Proofs.Guards
import GridRobot.Proofs.Rerun
import Mathlib.Logic.Function.Iterate

/-!
# How runs stop

A run takes steps that each run an instruction, until it stops: there is nothing left to run, its
budget is used up, or a step fails. `Stage.Reaches` is the first part and `Stage.Stops` the second;
every run is one followed by the other.

A step that fails is atomic. The machine stays at the instruction, and an action is refused before
it has changed anything but the count of steps. With no step left not even the count changes, so
trying again fails in the same way for ever.
-/

namespace GridRobot

/-! ## Steps that fail -/

/-- Whether a fault says that no step is left. -/
def Fault.OfSteps (fault : Fault) : Prop :=
  fault.classification? = some (.limit, "STEP_LIMIT")

theorem Fault.OfSteps.not_ofAction {fault : Fault} (ofSteps : fault.OfSteps) :
    ¬ fault.OfAction :=
  Fault.OfLimit.not_ofAction (.inl ofSteps)

theorem Fault.not_ofAction_instructionLimit (limit : Int) :
    ¬ (Fault.instructionLimit limit).OfAction :=
  Fault.OfLimit.not_ofAction (.inr rfl)

theorem Fault.not_ofSteps_instructionLimit (limit : Int) :
    ¬ (Fault.instructionLimit limit).OfSteps := by
  simp [OfSteps, classification?]

theorem Action.effect_ofAction {action : Action} {state : State} {fault : Fault}
    (failed : action.effect state = .error fault) : fault.OfAction := by
  rcases fault_of_effect failed with rfl | rfl | rfl <;> exact ⟨_, rfl⟩

/-- `before.FailsTo fault after` says what an instruction that fails can leave: an action that could
not be done leaves its charge, and all other faults leave nothing. -/
inductive State.FailsTo (before : State) : Fault → State → Prop where
  | action {fault : Fault} : fault.OfAction → before.steps < before.maxSteps →
      before.FailsTo fault before.charged
  | limit : before.maxSteps ≤ before.steps →
      before.FailsTo (.stepLimit before.maxSteps) before
  | meaningless {fault : Fault} : fault.classification? = none → before.FailsTo fault before

namespace State.FailsTo

variable {before after : State} {fault : Fault}

theorem act {name : String} (failed : (before.act name).fault = some fault) :
    before.FailsTo fault (before.act name).state := by
  unfold State.act at failed ⊢
  cases meaning : Action.ofName? name with
  | none =>
      simp only [meaning] at failed ⊢
      cases failed
      exact .meaningless rfl
  | some action =>
      simp only [meaning] at failed ⊢
      rcases action.attempt_cases before with
        ⟨spent, tried⟩ | ⟨left, ⟨cause, effect, tried⟩ | ⟨next, -, tried⟩⟩
      · rw [tried] at failed ⊢
        cases failed
        exact .limit spent
      · rw [tried] at failed ⊢
        cases failed
        exact .action (Action.effect_ofAction effect) left
      · rw [tried] at failed
        cases failed

theorem step {machine : Machine} (failed : (machine.step before).outcome = .error fault) :
    before.FailsTo fault (machine.step before).state := by
  obtain ⟨-, instr, -, ran⟩ := Machine.step_error failed
  rw [ran] at failed ⊢
  cases instr with
  | act name line =>
      rw [Machine.execute_act_state]
      apply act
      simp only [Machine.execute] at failed
      split at failed
      · next cause tried =>
          cases failed
          exact tried
      · cases failed
  | jump target line => cases failed
  | test condition target line =>
      simp only [Machine.execute] at failed ⊢
      split at failed
      · next cause tested =>
          cases failed
          exact .meaningless (Condition.classification?_of_error tested)
      · cases failed

theorem of_ofAction (fails : before.FailsTo fault after) (ofAction : fault.OfAction) :
    before.steps < before.maxSteps ∧ after = before.charged := by
  cases fails with
  | action _ left => exact ⟨left, rfl⟩
  | limit =>
      obtain ⟨code, classified⟩ := ofAction
      cases classified
  | meaningless unclassified =>
      obtain ⟨code, classified⟩ := ofAction
      rw [unclassified] at classified
      cases classified

theorem of_ofSteps (fails : before.FailsTo fault after) (ofSteps : fault.OfSteps) :
    before.maxSteps ≤ before.steps ∧ after = before := by
  cases fails with
  | action ofAction => exact (ofSteps.not_ofAction ofAction).elim
  | limit spent => exact ⟨spent, rfl⟩
  | meaningless unclassified =>
      rw [Fault.OfSteps, unclassified] at ofSteps
      cases ofSteps

theorem of_not_ofAction (fails : before.FailsTo fault after) (harmless : ¬ fault.OfAction) :
    after = before := by
  cases fails with
  | action ofAction => exact (harmless ofAction).elim
  | limit => rfl
  | meaningless => rfl

/-- A step never blames the budget. -/
theorem unspent (fails : before.FailsTo fault after) (line : Option Int) :
    ¬ BudgetSpent (some ⟨fault, line⟩) := by
  rintro ⟨limit, named, same⟩
  cases same
  cases fails with
  | action ofAction => exact Fault.not_ofAction_instructionLimit limit ofAction
  | meaningless unclassified => cases unclassified

end State.FailsTo

/-- `machine.FailsCleanly before fault after` says that a step fails and leaves the machine as it
was. An action that could not be done leaves its charge in the state. Where no step is left the
state stays as it was, and the step can be taken again and again with the same result. -/
structure Machine.FailsCleanly (machine : Machine) (before : State) (fault : Fault)
    (after : State) : Prop where
  step : machine.step before = ⟨machine, after, .error fault⟩
  action : fault.OfAction → after = before.charged
  limit : fault.OfSteps → before.maxSteps ≤ before.steps ∧ after = before
  again : fault.OfSteps → ∀ repeats : Nat,
    Stage.next^[repeats + 1] { machine, state := before } =
      { machine, state := before, fault := some fault }

/-- A step that fails and changes nothing fails again, however often it is taken. -/
theorem Stage.iterate_next_of_error {machine : Machine} {state : State} {fault : Fault}
    (failed : machine.step state = ⟨machine, state, .error fault⟩) (repeats : Nat) :
    Stage.next^[repeats + 1] { machine, state } = { machine, state, fault := some fault } := by
  induction repeats with
  | zero =>
      change Stage.next { machine, state } = _
      simp only [next, failed]
  | succ repeats ih =>
      rw [Function.iterate_succ_apply', ih]
      simp only [next, failed]

theorem Machine.failsCleanly_of_error {machine : Machine} {state : State} {fault : Fault}
    (failed : (machine.step state).outcome = .error fault) :
    machine.FailsCleanly state fault (machine.step state).state := by
  have fails := State.FailsTo.step failed
  have stepped := step_eq_of_error failed
  constructor
  · exact stepped
  · intro ofAction
    exact (fails.of_ofAction ofAction).2
  · exact fails.of_ofSteps
  · intro ofSteps
    apply Stage.iterate_next_of_error
    rw [(fails.of_ofSteps ofSteps).2] at stepped
    exact stepped

/-! ## Stages of a run -/

namespace Stage

/-- Whether the next step runs an instruction. -/
structure Advances (stage : Stage) : Prop where
  running : stage.machine.done = false
  ran : ∃ executed, (stage.machine.step stage.state).outcome = .ok (some executed)

/-- `stage.Reaches count later` says that a number of steps lead from one stage to another, and that
each of them runs an instruction. -/
inductive Reaches : Stage → (count : Nat) → Stage → Prop where
  | here {stage : Stage} : stage.Reaches 0 stage
  | step {stage later : Stage} {count : Nat} : stage.Advances →
      stage.next.Reaches count later → stage.Reaches (count + 1) later

/-- `stage.Stops limit budget run` says that a run ends at a stage, with a budget left. Unless the
machine is done, it takes one of the budget to find that there is nothing to run, or to fail. -/
inductive Stops (stage : Stage) (limit : Int) : (budget : Nat) → Run → Prop where
  | finished {budget : Nat} : stage.machine.done = true ∨ 0 < budget →
      (stage.machine.step stage.state).outcome = .ok none →
        stage.Stops limit budget
          ⟨{ stage.machine with done := true }, stage.state, stage.trace, none⟩
  | spent : stage.machine.done = false →
      stage.Stops limit 0 ⟨stage.machine, stage.state, stage.trace,
        some ⟨.instructionLimit limit, stage.machine.currentLine?⟩⟩
  | failed {budget : Nat} {fault : Fault} : stage.machine.done = false →
      (stage.machine.step stage.state).outcome = .error fault →
        stage.Stops limit (budget + 1) ⟨stage.machine, (stage.machine.step stage.state).state,
          stage.trace, some ⟨fault, none⟩⟩

variable {stage later : Stage} {limit : Int} {budget count : Nat}

/-- The rest of a run goes through the stages that it reaches. -/
theorem Reaches.finish (reaches : stage.Reaches count later) :
    stage.finish limit (count + budget) = later.finish limit budget := by
  induction reaches with
  | here => rw [Nat.zero_add]
  | @step stage later count advances _ ih =>
      obtain ⟨executed, ran⟩ := advances.ran
      have unfailed : stage.next.fault = none := by
        rw [next_of_ok ran]
      rw [Nat.add_right_comm, finish_next advances.running unfailed, ih]

/-- A run ends where there is nothing to run, if its machine is done or it has any budget left. -/
theorem finish_of_idle (enough : stage.machine.done = true ∨ 0 < budget)
    (idle : (stage.machine.step stage.state).outcome = .ok none) :
    stage.finish limit budget =
      ⟨{ stage.machine with done := true }, stage.state, stage.trace, none⟩ := by
  cases running : stage.machine.done with
  | true =>
      rw [finish, Machine.runFrom_done running, ← running]
  | false =>
      obtain ⟨rest, rfl⟩ : ∃ rest, budget = rest + 1 := by
        rw [running] at enough
        exact Nat.exists_eq_add_one.mpr (by simpa using enough)
      rw [finish, Machine.runFrom_ok running idle, Machine.runFrom_done (Machine.step_none idle),
        Machine.step_eq_of_none idle]
      rfl

theorem stops_of_done (done : stage.machine.done = true) :
    stage.Stops limit budget (stage.finish limit budget) := by
  have idle : (stage.machine.step stage.state).outcome = .ok none := by
    rw [Machine.step_of_idle (.inl done)]
  rw [finish_of_idle (.inl done) idle]
  exact .finished (.inl done) idle

/-- A run stops at a stage whose next step runs no instruction, if it has any budget left. -/
theorem stops_of_not_advances (running : stage.machine.done = false)
    (still : ¬ stage.Advances) :
    stage.Stops limit (budget + 1) (stage.finish limit (budget + 1)) := by
  cases outcome : (stage.machine.step stage.state).outcome with
  | error fault =>
      rw [finish, Machine.runFrom_error running outcome, (Machine.step_error outcome).1]
      exact .failed running outcome
  | ok ran =>
      cases ran with
      | some executed => exact (still ⟨running, executed, outcome⟩).elim
      | none =>
          have enough : stage.machine.done = true ∨ 0 < budget + 1 := .inr (Nat.succ_pos budget)
          rw [finish_of_idle enough outcome]
          exact .finished enough outcome

/-- The rest of a run goes through stages that it reaches, as far as its budget lasts, and stops at
the last of them. -/
theorem exists_stops (stage : Stage) (limit : Int) (budget : Nat) :
    ∃ count left last, count + left = budget ∧ stage.Reaches count last ∧
      last.Stops limit left (stage.finish limit budget) := by
  induction budget generalizing stage with
  | zero =>
      refine ⟨0, 0, stage, rfl, .here, ?_⟩
      cases running : stage.machine.done with
      | true => exact stops_of_done running
      | false =>
          -- The budget is looked at first, even if the next step would find nothing to run.
          rw [finish, Machine.runFrom_zero running]
          exact .spent running
  | succ budget ih =>
      cases running : stage.machine.done with
      | true => exact ⟨0, budget + 1, stage, Nat.zero_add _, .here, stops_of_done running⟩
      | false =>
          by_cases advances : stage.Advances
          · obtain ⟨count, left, last, total, reaches, stops⟩ := ih stage.next
            have first : stage.Reaches 1 stage.next := .step advances .here
            refine ⟨count + 1, left, last, ?_, .step advances reaches, ?_⟩
            · rw [Nat.add_right_comm, total]
            · rw [Nat.add_comm, first.finish]
              exact stops
          · exact ⟨0, budget + 1, stage, Nat.zero_add _, .here,
              stops_of_not_advances running advances⟩

/-- A run that is stopped by the world ends with a step that fails at the last stage. -/
theorem Stops.failsCleanly {run : Run} {failure : Failure} (stops : stage.Stops limit budget run)
    (failed : run.failure = some failure)
    (ofWorld : failure.fault.OfAction ∨ failure.fault.OfSteps) :
    run.machine = stage.machine ∧
      stage.machine.FailsCleanly stage.state failure.fault run.state := by
  cases stops with
  | finished => cases failed
  | spent =>
      cases failed
      rcases ofWorld with ofAction | ofSteps
      · exact (Fault.not_ofAction_instructionLimit limit ofAction).elim
      · exact (Fault.not_ofSteps_instructionLimit limit ofSteps).elim
  | failed _ outcome =>
      cases failed
      exact ⟨rfl, Machine.failsCleanly_of_error outcome⟩

end Stage

/-- Every run stops at a stage that it reaches. -/
theorem Machine.run_stops (machine : Machine) (limit : Int) (state : State) :
    ∃ count left last, count + left = limit.toNat ∧ Stage.Reaches { machine, state } count last ∧
      last.Stops limit left (machine.run limit state) :=
  Stage.exists_stops { machine, state } limit limit.toNat

/-- A failing step is atomic. It leaves the machine as it was. If an action could not be done, the
state is as it was too, with one more step counted; if no step was left, it is exactly as it was,
and the step fails in the same way however often it is taken again. The same is true of a failing
step that ends a run: the run leaves the machine and, up to that count, the state of the stage that
the steps before it have reached. -/
theorem failing_step_is_atomic (machine : Machine) (state : State) :
    (∀ fault, (machine.step state).outcome = .error fault →
      machine.FailsCleanly state fault (machine.step state).state) ∧
    ∀ limit failure, (machine.run limit state).failure = some failure →
      failure.fault.OfAction ∨ failure.fault.OfSteps →
        ∃ count last, Stage.Reaches { machine, state } count last ∧
          (machine.run limit state).machine = last.machine ∧
            last.machine.FailsCleanly last.state failure.fault
              (machine.run limit state).state := by
  constructor
  · intro fault failed
    exact Machine.failsCleanly_of_error failed
  · intro limit failure failed ofWorld
    obtain ⟨count, left, last, -, reaches, stops⟩ := machine.run_stops limit state
    obtain ⟨stays, fails⟩ := stops.failsCleanly failed ofWorld
    exact ⟨count, last, reaches, stays, fails⟩

/-- A robot that turns until its way is free and then picks where no beeper lies, with steps enough
and with one step too few. -/
theorem failing_step_is_atomic_cornered :
    let machine : Machine := .start
      [.test (.atom "obstacleAhead") 3 1, .act "turnLeft" 2, .jump 0 1, .act "pick" 3]
    let corner (maxSteps : Int) : State :=
      { world := { width := 2, height := 3 }, robot := { cell := ⟨0, 2⟩, facing := .west }
        maxSteps }
    (machine.run 20 (corner 3)).failure = some ⟨.noBeeperHere, none⟩ ∧
      (∃ count last, Stage.Reaches { machine, state := corner 3 } count last ∧
        (machine.run 20 (corner 3)).machine = last.machine ∧
          (machine.run 20 (corner 3)).state = last.state.charged) ∧
    (machine.run 20 (corner 2)).failure = some ⟨.stepLimit 2, none⟩ ∧
      ∃ count last, Stage.Reaches { machine, state := corner 2 } count last ∧
        (machine.run 20 (corner 2)).state = last.state ∧
          ∀ repeats : Nat, (Stage.next^[repeats + 1]
            { machine := last.machine, state := last.state }).fault = some (.stepLimit 2) := by
  intro machine corner
  have refused : (machine.run 20 (corner 3)).failure = some ⟨.noBeeperHere, none⟩ := by
    decide +kernel
  have limited : (machine.run 20 (corner 2)).failure = some ⟨.stepLimit 2, none⟩ := by
    decide +kernel
  refine ⟨refused, ?_, limited, ?_⟩
  · have ofAction : Fault.noBeeperHere.OfAction := ⟨_, rfl⟩
    obtain ⟨count, last, reaches, stays, fails⟩ :=
      (failing_step_is_atomic machine (corner 3)).2 20 _ refused (.inl ofAction)
    exact ⟨count, last, reaches, stays, fails.action ofAction⟩
  · have ofSteps : (Fault.stepLimit 2).OfSteps := rfl
    obtain ⟨count, last, reaches, -, fails⟩ :=
      (failing_step_is_atomic machine (corner 2)).2 20 _ limited (.inr ofSteps)
    refine ⟨count, last, reaches, (fails.limit ofSteps).2, ?_⟩
    intro repeats
    rw [fails.again ofSteps repeats]

end GridRobot
