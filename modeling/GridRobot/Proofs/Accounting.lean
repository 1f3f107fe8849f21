import GridRobot.Proofs.Divergence
import GridRobot.Proofs.Stopping

/-!
# The count of steps is exact

An action is charged a step before it is tried, but its event is recorded only after it has
succeeded. So the count of steps and the number of recorded actions grow together, and they differ
by one at most: by the charge of an action that could not be done, which ends the run. An attempt
that finds no step left is not charged, and therefore no run counts more steps than it may.
-/

namespace GridRobot

/-! ## Recorded actions -/

/-- Whether an event is that of an action. -/
def Event.isAct : Event → Bool
  | .act _ _ => true
  | .test _ _ => false

/-- The number of actions among some events. -/
def actionCount (trace : Array Event) : Nat :=
  trace.countP Event.isAct

section Observe

variable {executed : Executed}

theorem actionCount_observe_of_acts (acts : executed.instr.Acts) (trace : Array Event) :
    actionCount (observe trace (some executed)) = actionCount trace + 1 := by
  obtain ⟨instr, value⟩ := executed
  cases instr with
  | act name line =>
      simp [actionCount, observe, Executed.event?, Array.countP_push, Event.isAct]
  | jump target line => exact acts.elim
  | test condition target line => exact acts.elim

theorem actionCount_observe_of_not_acts (harmless : ¬ executed.instr.Acts)
    (trace : Array Event) :
    actionCount (observe trace (some executed)) = actionCount trace := by
  obtain ⟨instr, value⟩ := executed
  cases instr with
  | act name line => exact (harmless trivial).elim
  | jump target line => rfl
  | test condition target line => simp [actionCount, observe, Executed.event?, Event.isAct]

end Observe

/-! ## Stages -/

namespace Stage

/-- `before.Accounts after` says that between two stages as many steps were counted as actions were
recorded, and no more than were left. -/
structure Accounts (before after : Stage) : Prop where
  spends : before.state.Spends after.state
  counted : after.state.steps - before.state.steps =
    actionCount after.trace - actionCount before.trace

namespace Accounts

variable {before middle after : Stage}

theorem refl (stage : Stage) : stage.Accounts stage where
  spends := .refl _
  counted := by rw [Int.sub_self, Int.sub_self]

theorem trans (first : before.Accounts middle) (second : middle.Accounts after) :
    before.Accounts after where
  spends := first.spends.trans second.spends
  counted := by
    have upToMiddle := first.counted
    have fromMiddle := second.counted
    omega

end Accounts

variable {stage later : Stage} {count : Nat}

theorem Advances.accounts (advances : stage.Advances) : stage.Accounts stage.next := by
  obtain ⟨executed, ran⟩ := advances.ran
  rw [next_of_ok ran]
  rcases Machine.step_charges ran with ⟨harmless, same⟩ | ⟨acts, charges⟩
  · constructor
    · rw [same]
      exact .refl _
    · rw [same, actionCount_observe_of_not_acts harmless, Int.sub_self, Int.sub_self]
  · constructor
    · exact (State.Spends.refl _).charge charges
    · rw [charges.steps, actionCount_observe_of_acts acts]
      omega

/-- A number of steps account for what they count. -/
theorem Reaches.accounts (reaches : stage.Reaches count later) : stage.Accounts later := by
  induction reaches with
  | here => exact .refl _
  | step advances _ ih => exact advances.accounts.trans ih

end Stage

/-! ## Runs -/

/-- Whether a run has been stopped by an action that could not be done. -/
def Run.FailsByAction (run : Run) : Prop :=
  ∃ failure, run.failure = some failure ∧ failure.fault.OfAction

/-- Where a run stops, its count of steps is that of the last stage, or one more if it is stopped by
an action that could not be done. -/
theorem Stage.Stops.steps {last : Stage} {limit : Int} {left : Nat} {run : Run}
    (stops : last.Stops limit left run) :
    (run.FailsByAction →
      last.state.steps < last.state.maxSteps ∧ run.state.steps = last.state.steps + 1) ∧
    (¬ run.FailsByAction → run.state.steps = last.state.steps) := by
  cases stops with
  | finished =>
      constructor
      · rintro ⟨failure, impossible, -⟩
        cases impossible
      · exact fun _ => rfl
  | spent =>
      constructor
      · rintro ⟨failure, stopped, ofAction⟩
        cases stopped
        exact (Fault.not_ofAction_instructionLimit limit ofAction).elim
      · exact fun _ => rfl
  | failed _ outcome =>
      have fails := State.FailsTo.step outcome
      constructor
      · rintro ⟨failure, stopped, ofAction⟩
        cases stopped
        obtain ⟨left, charged⟩ := fails.of_ofAction ofAction
        exact ⟨left, congrArg State.steps charged⟩
      · intro harmless
        have unchanged := fails.of_not_ofAction fun ofAction => harmless ⟨_, rfl, ofAction⟩
        exact congrArg State.steps unchanged

theorem Stage.Stops.trace {last : Stage} {limit : Int} {left : Nat} {run : Run}
    (stops : last.Stops limit left run) : run.trace = last.trace := by
  cases stops <;> rfl

/-- Step accounting is exact. However a run ends, its events are those of the steps that it has
taken. It has counted as many steps as there are actions among them, and one more exactly if it was
stopped by an action that could not be done. If it was stopped because no step was left, then the
limit is reached, and the failing step has not moved the count. In no case are more steps counted
than the limit allows, unless they were already. -/
theorem run_counts_steps_exactly (machine : Machine) (initial : State) (limit : Int) :
    let run := machine.run limit initial
    ∃ count last, Stage.Reaches { machine, state := initial } count last ∧
      run.trace = last.trace ∧
      (run.FailsByAction → run.state.steps - initial.steps = actionCount run.trace + 1) ∧
      (¬ run.FailsByAction → run.state.steps - initial.steps = actionCount run.trace) ∧
      (∀ failure, run.failure = some failure → failure.fault.OfSteps →
        initial.maxSteps ≤ run.state.steps ∧
          last.machine.step last.state = ⟨run.machine, run.state, .error failure.fault⟩ ∧
            run.state.steps = last.state.steps) ∧
      run.state.steps ≤ max initial.steps initial.maxSteps := by
  intro run
  obtain ⟨count, left, last, -, reaches, stops⟩ := machine.run_stops limit initial
  change last.Stops limit left run at stops
  obtain ⟨spends, counted⟩ := reaches.accounts
  have fresh : actionCount #[] = 0 := rfl
  have allowed := spends.maxSteps
  have bounded := spends.bounded
  dsimp only at counted allowed bounded
  rw [fresh, ← stops.trace] at counted
  obtain ⟨refused, otherwise⟩ := stops.steps
  refine ⟨count, last, reaches, stops.trace, ?_, ?_, ?_, ?_⟩
  · intro failed
    have more := (refused failed).2
    omega
  · intro unfailed
    have same := otherwise unfailed
    omega
  · intro failure failed ofSteps
    obtain ⟨stays, fails⟩ := stops.failsCleanly failed (.inr ofSteps)
    obtain ⟨spent, same⟩ := fails.limit ofSteps
    have unmoved : run.state.steps = last.state.steps := congrArg State.steps same
    rw [allowed, ← unmoved] at spent
    rw [stays]
    exact ⟨spent, fails.step, unmoved⟩
  · by_cases failed : run.FailsByAction
    · -- An action is refused only after a step that was left has been charged for it.
      have more := refused failed
      omega
    · have same := otherwise failed
      omega

/-- A robot that goes on while its way is free, and then once more. In a corridor of four cells it
records three actions and counts four steps, or three of each where only three are allowed. -/
theorem run_counts_steps_exactly_corridor :
    let program : List Stmt :=
      [.loop (.not (.atom "obstacleAhead")) [.action "forward" 2] 1, .action "forward" 3]
    let corridor (maxSteps : Int) : State :=
      { world := { width := 1, height := 4, winRow := 9 }, robot := { cell := ⟨0, 3⟩ }, maxSteps }
    let code : List Instr :=
      [.test (.not (.atom "obstacleAhead")) 3 1, .act "forward" 2, .jump 0 1, .act "forward" 3]
    let machine := Machine.start code
    Code.compile program = .ok code ∧
      (machine.run 20 (corridor 9)).FailsByAction ∧
        (machine.run 20 (corridor 9)).state.steps - (corridor 9).steps = 3 + 1 ∧
      (machine.run 20 (corridor 3)).failure = some ⟨.stepLimit 3, none⟩ ∧
        (machine.run 20 (corridor 3)).state.steps - (corridor 3).steps = 3 ∧
          (corridor 3).maxSteps ≤ (machine.run 20 (corridor 3)).state.steps := by
  intro program corridor code machine
  have compiled : Code.compile program = .ok code := Code.compile_of_whole rfl
  have refused : (machine.run 20 (corridor 9)).FailsByAction := by
    have failed : (machine.run 20 (corridor 9)).failure = some ⟨.moveBlocked, none⟩ := by
      decide +kernel
    exact ⟨_, failed, _, rfl⟩
  have limited : (machine.run 20 (corridor 3)).failure = some ⟨.stepLimit 3, none⟩ := by
    decide +kernel
  have unrefused : ¬ (machine.run 20 (corridor 3)).FailsByAction := by
    rintro ⟨failure, failed, code, classified⟩
    rw [limited] at failed
    cases failed
    cases classified
  have recorded : actionCount (machine.run 20 (corridor 9)).trace = 3 := by decide +kernel
  have recordedAgain : actionCount (machine.run 20 (corridor 3)).trace = 3 := by decide +kernel
  obtain ⟨_, _, -, -, counted, -⟩ := run_counts_steps_exactly machine (corridor 9) 20
  obtain ⟨_, _, -, -, -, countedAgain, spent, -⟩ :=
    run_counts_steps_exactly machine (corridor 3) 20
  refine ⟨compiled, refused, ?_, limited, ?_, (spent _ limited rfl).1⟩
  · rw [counted refused, recorded]
    rfl
  · rw [countedAgain unrefused, recordedAgain]
    rfl

end GridRobot
