import GridRobot.Proofs.Stopping

/-!
# Budgets add up

A budget decides where a run is cut off and nothing else. A run that is stopped by its budget can
be resumed from where it stands, and ends as it would have ended with both budgets in one, with the
same events. A run that ends in any other way never looks at the rest of its budget.

Only two things tell a resumed run from a whole one: it starts with no events, and its failure
names its own budget.
-/

namespace GridRobot

/-! ## Failures and events -/

/-- A failure as a run with another budget would have it. Only the number that it names is
different. -/
def Failure.withBudget (limit : Int) (failure : Failure) : Failure :=
  match failure.fault with
  | .instructionLimit _ => { failure with fault := .instructionLimit limit }
  | _ => failure

namespace Failure

@[simp] theorem withBudget_instructionLimit (limit named : Int) (line : Option Int) :
    withBudget limit ⟨.instructionLimit named, line⟩ = ⟨.instructionLimit limit, line⟩ := rfl

theorem withBudget_of_unspent {limit : Int} {failure : Failure}
    (unspent : ¬ BudgetSpent (some failure)) : failure.withBudget limit = failure := by
  unfold withBudget
  split
  · next named same =>
      exfalso
      apply unspent
      exact ⟨named, failure.line, by rw [← same]⟩
  · rfl

/-- Category and code do not depend on the budget. -/
@[simp] theorem classification?_withBudget (limit : Int) (failure : Failure) :
    (failure.withBudget limit).fault.classification? = failure.fault.classification? := by
  unfold withBudget
  split
  · next named same =>
      rw [same]
      rfl
  · rfl

end Failure

theorem observe_append (earlier trace : Array Event) (ran : Option Executed) :
    observe (earlier ++ trace) ran = earlier ++ observe trace ran := by
  unfold observe
  split
  · exact (Array.append_push ..).symm
  · rfl

/-! ## Runs with more events or another budget -/

/-- Neither the events before a run nor the budget that it names change what it does. -/
theorem Machine.runFrom_append (limit other : Int) (budget : Nat) (machine : Machine)
    (state : State) (earlier trace : Array Event) :
    let run := machine.runFrom other budget state trace
    machine.runFrom limit budget state (earlier ++ trace) =
      ⟨run.machine, run.state, earlier ++ run.trace,
        run.failure.map (Failure.withBudget limit)⟩ := by
  induction budget generalizing machine state trace with
  | zero =>
      cases running : machine.done with
      | true => simp only [runFrom_done running, Option.map_none]
      | false =>
          simp only [runFrom_zero running, Option.map_some, Failure.withBudget_instructionLimit]
  | succ budget ih =>
      cases running : machine.done with
      | true => simp only [runFrom_done running, Option.map_none]
      | false =>
          cases outcome : (machine.step state).outcome with
          | error fault =>
              simp only [runFrom_error running outcome, Option.map_some,
                Failure.withBudget_of_unspent ((State.FailsTo.step outcome).unspent none)]
          | ok ran =>
              simp only [runFrom_ok running outcome, observe_append]
              apply ih

namespace Stage

variable {stage : Stage} {limit : Int} {budget : Nat} {run : Run}

/-- The rest of a run is a run of its own, behind the events up to then. -/
theorem finish_eq_run (stage : Stage) (limit : Int) (budget : Nat) :
    let resumed := stage.machine.run budget stage.state
    stage.finish limit budget =
      ⟨resumed.machine, resumed.state, stage.trace ++ resumed.trace,
        resumed.failure.map (Failure.withBudget limit)⟩ := by
  have continues := Machine.runFrom_append limit budget budget stage.machine stage.state
    stage.trace #[]
  rw [Array.append_empty] at continues
  exact continues

/-- A run that is not stopped by its budget stops in the same way with any larger one. -/
theorem Stops.finish_eq (stops : stage.Stops limit budget run)
    (unspent : ¬ BudgetSpent run.failure) (other : Int) (more : Nat) :
    stage.finish other (budget + more) = run := by
  cases stops with
  | spent => exact (unspent ⟨_, _, rfl⟩).elim
  | failed running outcome =>
      rw [Nat.add_right_comm, finish, Machine.runFrom_error running outcome,
        (Machine.step_error outcome).1]
  | finished enough idle =>
      apply finish_of_idle _ idle
      rcases enough with done | left
      · exact .inl done
      · exact .inr (Nat.lt_of_lt_of_le left (Nat.le_add_right _ _))

end Stage

namespace Machine

variable {machine : Machine} {state : State}

theorem run_of_reaches {limit : Int} {count left : Nat} {last : Stage}
    (reaches : Stage.Reaches { machine, state } count last) (total : limit.toNat = count + left) :
    machine.run limit state = last.finish limit left := by
  rw [run, total]
  exact reaches.finish

/-- A run that is stopped by its budget has run as many instructions. -/
theorem reaches_of_spent {first : Nat}
    (spent : BudgetSpent (machine.run first state).failure) :
    ∃ last, Stage.Reaches { machine, state } first last ∧
      (machine.run first state).machine = last.machine ∧
        (machine.run first state).state = last.state := by
  obtain ⟨count, left, last, total, reaches, stops⟩ := machine.run_stops first state
  generalize machine.run first state = paused at spent stops ⊢
  cases stops with
  | finished =>
      obtain ⟨limit, line, impossible⟩ := spent
      cases impossible
  | failed _ outcome => exact ((State.FailsTo.step outcome).unspent none spent).elim
  | spent =>
      have all : count = first := total
      rw [all] at reaches
      exact ⟨last, reaches, rfl, rfl⟩

/-- A run that is not stopped by its budget is the same with a larger one. -/
theorem run_eq_of_unspent {first : Nat} (second : Nat)
    (unspent : ¬ BudgetSpent (machine.run first state).failure) :
    machine.run (first + second) state = machine.run first state := by
  obtain ⟨count, left, last, total, reaches, stops⟩ := machine.run_stops first state
  rw [Int.toNat_natCast] at total
  have enough : (first + second : Int).toNat = count + (left + second) := by
    rw [← Nat.add_assoc, total]
    exact Int.toNat_natCast (first + second)
  rw [run_of_reaches reaches enough]
  exact stops.finish_eq unspent _ second

end Machine

/-- Budgets add up. If a run is stopped by its budget, then it has run as many instructions, and
resuming it with a second budget ends as a run with both budgets in one does: with the same machine
and state, the same failure but for the budget it names, and the events of the first instructions
followed by those of the resumed run. If a run ends in any other way, then a run with more budget
is the same. -/
theorem budgets_add_up (machine : Machine) (state : State) (first second : Nat) :
    let paused := machine.run first state
    let whole := machine.run (first + second) state
    (BudgetSpent paused.failure →
      let resumed := paused.machine.run second paused.state
      ∃ last, Stage.Reaches { machine, state } first last ∧
        whole.machine = resumed.machine ∧ whole.state = resumed.state ∧
        whole.trace = last.trace ++ resumed.trace ∧
        whole.failure = resumed.failure.map (Failure.withBudget (first + second)) ∧
        whole.failure.map (fun failure => failure.fault.classification?) =
          resumed.failure.map (fun failure => failure.fault.classification?)) ∧
    (¬ BudgetSpent paused.failure → whole = paused) := by
  intro paused whole
  constructor
  · intro spent resumed
    obtain ⟨last, reaches, stoppedMachine, stoppedState⟩ := Machine.reaches_of_spent spent
    have ends : whole = last.finish (first + second) second :=
      Machine.run_of_reaches reaches (Int.toNat_natCast (first + second))
    have again : resumed = last.machine.run second last.state := by
      rw [← stoppedMachine, ← stoppedState]
    rw [ends, last.finish_eq_run, ← again]
    refine ⟨last, reaches, rfl, rfl, rfl, rfl, ?_⟩
    cases resumed.failure with
    | none => rfl
    | some failure => exact congrArg some (failure.classification?_withBudget _)
  · exact Machine.run_eq_of_unspent second

/-- A jump out of the instructions uses up the budget before it is found that there is nothing to
run there. -/
theorem budgets_add_up_astray :
    let machine : Machine := .start [.act "turnLeft" 1, .jump (-5) 2]
    let state : State := { world := { width := 2, height := 2 }, robot := { cell := ⟨0, 1⟩ } }
    let paused := machine.run (2 : Nat) state
    let whole := machine.run ((2 : Nat) + (1 : Nat)) state
    paused.failure = some ⟨.instructionLimit 2, none⟩ ∧
      (∃ last, Stage.Reaches { machine, state } 2 last ∧
        whole.trace = last.trace ++ (paused.machine.run (1 : Nat) paused.state).trace) ∧
      whole.failure = none ∧ whole.machine.place = -5 ∧
        machine.run ((3 : Nat) + (7 : Nat)) state = machine.run (3 : Nat) state := by
  intro machine state paused whole
  have spent : paused.failure = some ⟨.instructionLimit 2, none⟩ := by decide +kernel
  have ended : (machine.run (3 : Nat) state).failure = none := by decide +kernel
  have unspent : ¬ BudgetSpent (machine.run (3 : Nat) state).failure := by
    rw [ended]
    rintro ⟨limit, line, impossible⟩
    cases impossible
  refine ⟨spent, ?_, ended, by decide +kernel, (budgets_add_up machine state 3 7).2 unspent⟩
  obtain ⟨last, reaches, -, -, trace, -⟩ :=
    (budgets_add_up machine state 2 1).1 ⟨_, _, spent⟩
  exact ⟨last, reaches, trace⟩

end GridRobot
