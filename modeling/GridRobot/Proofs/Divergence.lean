import GridRobot.Proofs.Compilation
import GridRobot.Proofs.Rerun
import GridRobot.Proofs.Safety
import Mathlib.Data.Finset.Card
import Mathlib.Data.Finset.Prod
import Mathlib.Data.Nat.Find

/-!
# Budgets that tell endless runs apart

An instruction that is run is an action, which is charged a step, or a test or a jump, which leaves
the state as it is. So a machine that comes twice to the same place with the same count of steps is
in the same state there, and it will come to that place again and again, with tests and jumps only
in between.

The count of steps is limited, and so are the places. A run that lasts longer than there are pairs
of a place and a count has met one of the pairs twice, and it never ends.
-/

namespace GridRobot

/-! ## What an instruction costs -/

/-- Whether an instruction is an action. -/
def Instr.Acts : Instr → Prop
  | .act _ _ => True
  | .jump _ _ | .test _ _ _ => False

theorem Action.effect_steps {action : Action} {before after : State}
    (took : action.effect before = .ok after) :
    after.steps = before.steps ∧ after.maxSteps = before.maxSteps := by
  cases action with
  | forward =>
      obtain ⟨-, rfl⟩ := State.moved_eq_ok_iff.mp took
      simp
  | turnLeft =>
      cases took
      exact ⟨rfl, rfl⟩
  | turnRight =>
      cases took
      exact ⟨rfl, rfl⟩
  | pick =>
      obtain ⟨-, rfl⟩ := State.picked_eq_ok_iff.mp took
      exact ⟨rfl, rfl⟩
  | put =>
      obtain ⟨-, rfl⟩ := State.dropped_eq_ok_iff.mp took
      exact ⟨rfl, rfl⟩

namespace State

/-- `before.Charges after` says that a step was left and has been counted. -/
structure Charges (before after : State) : Prop where
  left : before.steps < before.maxSteps
  steps : after.steps = before.steps + 1
  maxSteps : after.maxSteps = before.maxSteps

theorem charges_of_attempt {action : Action} {before after : State}
    (tried : action.attempt before = ⟨after, none⟩) : before.Charges after := by
  obtain ⟨left, took⟩ := Action.attempt_eq_ok_iff.mp tried
  obtain ⟨steps, maxSteps⟩ := action.effect_steps took
  exact ⟨left, steps, maxSteps⟩

theorem charges_of_act {state : State} {name : String}
    (succeeded : (state.act name).fault = none) : state.Charges (state.act name).state := by
  cases meaning : Action.ofName? name with
  | none => simp [act, meaning] at succeeded
  | some action =>
      have acted : state.act name = action.attempt state := by
        simp only [act, meaning]
      rw [acted] at succeeded ⊢
      apply charges_of_attempt
      rw [← succeeded]

/-- `before.Spends after` says that some of the steps that were left have been counted, if any. -/
structure Spends (before after : State) : Prop where
  maxSteps : after.maxSteps = before.maxSteps
  grows : before.steps ≤ after.steps
  bounded : after.steps ≤ max before.steps before.maxSteps

namespace Spends

variable {before middle after : State}

theorem refl (state : State) : state.Spends state :=
  ⟨rfl, Int.le_refl _, Int.le_max_left _ _⟩

theorem charge (spends : before.Spends middle) (charges : middle.Charges after) :
    before.Spends after where
  maxSteps := charges.maxSteps.trans spends.maxSteps
  grows := by
    have grows := spends.grows
    rw [charges.steps]
    omega
  bounded := by
    have left := charges.left
    rw [spends.maxSteps] at left
    rw [charges.steps]
    omega

theorem trans (first : before.Spends middle) (second : middle.Spends after) :
    before.Spends after where
  maxSteps := second.maxSteps.trans first.maxSteps
  grows := Int.le_trans first.grows second.grows
  bounded := by
    have upToMiddle := first.bounded
    have fromMiddle := second.bounded
    rw [first.maxSteps] at fromMiddle
    omega

end Spends

end State

/-- An action that is run is charged, and a test or a jump leaves the state as it is. -/
theorem Machine.step_charges {machine : Machine} {state : State} {executed : Executed}
    (ran : (machine.step state).outcome = .ok (some executed)) :
    (¬ executed.instr.Acts ∧ (machine.step state).state = state) ∨
      (executed.instr.Acts ∧ state.Charges (machine.step state).state) := by
  rcases machine.step_cases state with idle | ⟨instr, -, -, stepped⟩
  · rw [idle] at ran
    cases ran
  · rw [stepped] at ran ⊢
    cases instr with
    | act name line =>
        right
        rw [execute_act_state]
        simp only [execute] at ran
        split at ran
        · cases ran
        · next succeeded =>
            cases ran
            exact ⟨trivial, State.charges_of_act succeeded⟩
    | jump target line =>
        left
        cases ran
        exact ⟨id, rfl⟩
    | test condition target line =>
        left
        simp only [execute] at ran ⊢
        split at ran
        · cases ran
        · cases ran
          exact ⟨id, rfl⟩

/-! ## Stages -/

namespace Stage

variable {stage : Stage}

/-- Whether a run goes on from a stage: the machine is not done, and no step has failed. -/
structure Live (stage : Stage) : Prop where
  running : stage.machine.done = false
  unfailed : stage.fault = none

/-- Whether the next step runs a test or a jump. -/
structure Quiet (stage : Stage) : Prop where
  ran : ∃ executed, (stage.machine.step stage.state).outcome = .ok (some executed) ∧
    ¬ executed.instr.Acts
  state : stage.next.state = stage.state

theorem Live.charges_or_quiet (live : stage.next.Live) :
    stage.Quiet ∨ stage.state.Charges stage.next.state := by
  cases outcome : (stage.machine.step stage.state).outcome with
  | error fault =>
      have unfailed := live.unfailed
      rw [next_of_error outcome] at unfailed
      cases unfailed
  | ok ran =>
      cases ran with
      | none =>
          have running := live.running
          rw [next_machine, Machine.step_none outcome] at running
          cases running
      | some executed =>
          rcases Machine.step_charges outcome with ⟨harmless, same⟩ | ⟨-, charges⟩
          · left
            exact ⟨⟨executed, outcome, harmless⟩, stage.next_state.trans same⟩
          · right
            rwa [next_state]

/-- Machine and state decide whether a run goes on after the next step. -/
theorem Live.next_congr {other : Stage} (machine : stage.machine = other.machine)
    (state : stage.state = other.state) (live : other.next.Live) : stage.next.Live := by
  obtain ⟨running, unfailed⟩ := live
  constructor
  · rw [next_machine] at running ⊢
    rwa [machine, state]
  · cases outcome : (other.machine.step other.state).outcome with
    | error fault =>
        rw [next_of_error outcome] at unfailed
        cases unfailed
    | ok ran =>
        rw [← machine, ← state] at outcome
        rw [next_of_ok outcome]

theorem Quiet.congr {other : Stage} (machine : stage.machine = other.machine)
    (state : stage.state = other.state) (quiet : other.Quiet) : stage.Quiet := by
  obtain ⟨ran, same⟩ := quiet
  constructor
  · rwa [machine, state]
  · rw [next_state] at same ⊢
    rwa [machine, state]

/-- A run that ends at a stage. -/
def ending (stage : Stage) : Run :=
  ⟨stage.machine, stage.state, stage.trace, stage.fault.map fun fault => ⟨fault, none⟩⟩

/-- A run ends with the step that leads to a stage where it does not go on. -/
theorem finish_eq_ending {limit : Int} {budget : Nat} (running : stage.machine.done = false)
    (ends : ¬ stage.next.Live) : stage.finish limit (budget + 1) = stage.next.ending := by
  cases outcome : (stage.machine.step stage.state).outcome with
  | error fault =>
      rw [finish, Machine.runFrom_error running outcome, next_of_error outcome]
      rfl
  | ok ran =>
      have next := next_of_ok outcome
      have done : stage.next.machine.done = true := by
        rw [← Bool.not_eq_false]
        intro further
        apply ends
        exact ⟨further, by rw [next]⟩
      rw [next] at done
      rw [finish, Machine.runFrom_ok running outcome, Machine.runFrom_done done, next]
      rfl

end Stage

/-! ## Runs that last -/

/-- `Lasts code initial steps` says that a run goes on after every number of steps up to the given
one. -/
def Lasts (code : List Instr) (initial : State) (steps : Nat) : Prop :=
  ∀ earlier ≤ steps, (replay code initial earlier).Live

section Runs

variable {code : List Instr} {initial : State} {limit : Int} {steps : Nat}

theorem budgetSpent_of_lasts (lasts : Lasts code initial limit.toNat) :
    BudgetSpent ((Machine.start code).run limit initial).failure := by
  have passes : (Machine.start code).run limit initial =
      (replay code initial limit.toNat).finish limit (limit.toNat - limit.toNat) := by
    apply run_eq_finish_replay
    · exact fun earlier less => (lasts earlier (Nat.le_of_lt less)).running
    · exact fun earlier less => (lasts (earlier + 1) less).unfailed
    · exact Nat.le_refl _
  have live := lasts limit.toNat (Nat.le_refl _)
  rw [passes, Nat.sub_self, Stage.finish, Machine.runFrom_zero live.running]
  exact ⟨_, _, rfl⟩

/-- A run that does not last ends at the first stage where it does not go on, whatever its budget
is. -/
theorem run_eq_ending (earlier : ∀ before < steps, (replay code initial before).Live)
    (ends : ¬ (replay code initial steps).Live) (bound : steps ≤ limit.toNat) :
    (Machine.start code).run limit initial = (replay code initial steps).ending := by
  cases steps with
  | zero =>
      have done : (Machine.start code).done = true := by
        rw [← Bool.not_eq_false]
        intro running
        apply ends
        exact ⟨running, rfl⟩
      rw [Machine.run, Machine.runFrom_done done]
      rfl
  | succ steps =>
      have passes : (Machine.start code).run limit initial =
          (replay code initial steps).finish limit (limit.toNat - steps) := by
        apply run_eq_finish_replay
        · exact fun before less => (earlier before (Nat.lt_succ_of_lt less)).running
        · exact fun before less => (earlier (before + 1) (Nat.succ_lt_succ less)).unfailed
        · exact Nat.le_of_lt bound
      have budget : limit.toNat - steps = limit.toNat - (steps + 1) + 1 := by omega
      have running := (earlier steps (Nat.lt_succ_self steps)).running
      rw [passes, budget, Stage.finish_eq_ending running ends]
      rfl

/-- A run that does not last has a first stage where it does not go on. -/
theorem exists_ending_of_not_lasts (short : ¬ Lasts code initial steps) :
    ∃ last, (∀ other, Lasts code initial other ↔ other < last) ∧
      ∀ limit : Int, last ≤ limit.toNat →
        (Machine.start code).run limit initial = (replay code initial last).ending := by
  classical
  have ends : ∃ last, ¬ (replay code initial last).Live := by
    simp only [Lasts, not_forall] at short
    obtain ⟨last, -, dead⟩ := short
    exact ⟨last, dead⟩
  have earlier : ∀ before < Nat.find ends, (replay code initial before).Live :=
    fun before less => not_not.mp (Nat.find_min ends less)
  refine ⟨Nat.find ends, ?_, ?_⟩
  · intro other
    constructor
    · intro lasts
      rw [← Nat.not_le]
      intro reached
      exact Nat.find_spec ends (lasts _ reached)
    · exact fun less before bound => earlier before (Nat.lt_of_le_of_lt bound less)
  · intro limit bound
    exact run_eq_ending earlier (Nat.find_spec ends) bound

theorem run_eq_run_of_not_lasts {limit other : Int} (ended : ¬ Lasts code initial limit.toNat)
    (otherEnded : ¬ Lasts code initial other.toNat) :
    (Machine.start code).run limit initial = (Machine.start code).run other initial := by
  obtain ⟨last, lasts_iff, ends⟩ := exists_ending_of_not_lasts ended
  rw [lasts_iff, Nat.not_lt] at ended otherEnded
  exact (ends limit ended).trans (ends other otherEnded).symm

theorem fault_ofWorld_replay (known : Code.Known code) {fault : Fault}
    (failed : (replay code initial steps).fault = some fault) : fault.OfWorld := by
  cases steps with
  | zero => cases failed
  | succ steps =>
      rw [replay] at failed
      cases outcome : ((replay code initial steps).machine.step
          (replay code initial steps).state).outcome with
      | ok ran =>
          rw [Stage.next_of_ok outcome] at failed
          cases failed
      | error cause =>
          rw [Stage.next_of_error outcome] at failed
          cases failed
          apply Machine.step_ofWorld _ outcome
          rwa [replay_code]

/-- The budget of a run is used up exactly if the run lasts for as many steps. -/
theorem budgetSpent_iff_lasts (known : Code.Known code) :
    BudgetSpent ((Machine.start code).run limit initial).failure ↔
      Lasts code initial limit.toNat := by
  constructor
  · rintro ⟨named, line, exhausted⟩
    by_contra short
    obtain ⟨last, lasts_iff, ends⟩ := exists_ending_of_not_lasts short
    rw [lasts_iff, Nat.not_lt] at short
    rw [ends limit short] at exhausted
    obtain ⟨fault, failed, same⟩ := Option.map_eq_some_iff.mp exhausted
    cases same
    exact (fault_ofWorld_replay known failed).elim
  · exact budgetSpent_of_lasts

end Runs

/-! ## Coming back -/

section Recurrence

variable {code : List Instr} {initial : State} {steps first second : Nat}

theorem Lasts.spends (lasts : Lasts code initial steps) (order : first ≤ second)
    (bound : second ≤ steps) :
    (replay code initial first).state.Spends (replay code initial second).state := by
  induction second, order using Nat.le_induction with
  | base => exact .refl _
  | succ second order ih =>
      have earlier := ih (Nat.le_of_lt bound)
      have live : (replay code initial second).next.Live := lasts (second + 1) bound
      rw [replay]
      rcases live.charges_or_quiet with quiet | charges
      · rwa [quiet.state]
      · exact earlier.charge charges

/-- As long as no step is counted, only tests and jumps are run. -/
theorem Lasts.quiet (lasts : Lasts code initial steps) (bound : second ≤ steps)
    (same : (replay code initial second).state.steps = (replay code initial first).state.steps)
    {between : Nat} (after : first ≤ between) (before : between < second) :
    (replay code initial between).Quiet := by
  have live : (replay code initial between).next.Live :=
    lasts (between + 1) (Nat.le_trans before bound)
  rcases live.charges_or_quiet with quiet | charges
  · exact quiet
  · have upToHere := (lasts.spends after (Nat.le_of_lt (Nat.lt_of_lt_of_le before bound))).grows
    have next : between + 1 ≤ second := before
    have fromHere := (lasts.spends next bound).grows
    have counted : (replay code initial (between + 1)).state.steps = _ := charges.steps
    omega

/-- `Recurs code initial first second` says that a run has the same machine and state at two stages,
with tests and jumps only in between. -/
structure Recurs (code : List Instr) (initial : State) (first second : Nat) : Prop where
  order : first < second
  machine : (replay code initial second).machine = (replay code initial first).machine
  state : (replay code initial second).state = (replay code initial first).state
  lasts : Lasts code initial second
  quiet : ∀ between, first ≤ between → between < second → (replay code initial between).Quiet

theorem state_eq_of_quiet (order : first ≤ second)
    (quiet : ∀ between, first ≤ between → between < second →
      (replay code initial between).Quiet) :
    (replay code initial second).state = (replay code initial first).state := by
  induction second, order using Nat.le_induction with
  | base => rfl
  | succ second order ih =>
      have earlier := ih fun between after before => quiet between after (Nat.lt_succ_of_lt before)
      rw [replay, (quiet second order (Nat.lt_succ_self second)).state, earlier]

/-- A machine that is at the same place again, with no step counted in between, is where it was. -/
theorem Lasts.recurs_of_place (lasts : Lasts code initial steps) (order : first < second)
    (bound : second ≤ steps)
    (place : (replay code initial second).machine.place = (replay code initial first).machine.place)
    (same : (replay code initial second).state.steps = (replay code initial first).state.steps) :
    Recurs code initial first second where
  order := order
  machine := by
    have running := (lasts first (by omega)).running
    have runningAgain := (lasts second bound).running
    have code := (replay_code code initial second).trans (replay_code code initial first).symm
    generalize (replay _ initial second).machine = later at *
    generalize (replay _ initial first).machine = earlier at *
    cases later
    cases earlier
    simp_all
  state := by
    apply state_eq_of_quiet (Nat.le_of_lt order)
    exact fun between => lasts.quiet bound same
  lasts := fun earlier less => lasts earlier (Nat.le_trans less bound)
  quiet := fun between => lasts.quiet bound same

theorem Code.within_compile {program : List Stmt} (known : Stmt.AllKnown program)
    (compiled : compile program = .ok code) : Within code.length code := by
  have within := within_assemble program 0
  rw [compile_of_known known] at compiled
  cases compiled
  rwa [Nat.zero_add] at within

theorem inRange_replay (within : Code.Within code.length code) (steps : Nat) :
    (replay code initial steps).machine.InRange := by
  induction steps with
  | zero => exact .start within
  | succ steps ih =>
      rw [replay, Stage.next_machine]
      exact ih.step _

/-- The place and the count of steps at a stage of a run that lasts. -/
theorem Lasts.bounds (within : Code.Within code.length code) (lasts : Lasts code initial steps)
    {stage : Nat} (bound : stage ≤ steps) :
    (0 ≤ (replay code initial stage).machine.place ∧
        (replay code initial stage).machine.place < code.length) ∧
      initial.steps ≤ (replay code initial stage).state.steps ∧
        (replay code initial stage).state.steps ≤ max initial.steps initial.maxSteps := by
  have inRange : (replay code initial stage).machine.InRange := inRange_replay within stage
  have inside := inRange.running (lasts stage bound).running
  rw [replay_code] at inside
  have spends := lasts.spends (Nat.zero_le stage) bound
  exact ⟨⟨inRange.low, inside⟩, spends.grows, spends.bounded⟩

/-- A run that lasts for as many steps as there are pairs of a place and a count of steps has met
one of the pairs twice. -/
theorem Lasts.exists_recurs (within : Code.Within code.length code)
    (lasts : Lasts code initial steps)
    (enough : code.length * ((initial.maxSteps - initial.steps).toNat + 1) ≤ steps) :
    ∃ first second, second ≤ steps ∧ Recurs code initial first second := by
  let pair (stage : Nat) :=
    ((replay code initial stage).machine.place.toNat,
      ((replay code initial stage).state.steps - initial.steps).toNat)
  let pairs := Finset.range code.length ×ˢ
    Finset.range ((initial.maxSteps - initial.steps).toNat + 1)
  have crowded : pairs.card < (Finset.range (steps + 1)).card := by
    simp only [pairs, Finset.card_product, Finset.card_range]
    omega
  have lands : Set.MapsTo pair (Finset.range (steps + 1)) pairs := by
    intro stage among
    have bound : stage ≤ steps := Nat.le_of_lt_succ (by simpa using among)
    have bounds := lasts.bounds within bound
    simp only [pairs, pair, Finset.coe_product, Finset.coe_range, Set.mem_prod, Set.mem_Iio]
    omega
  obtain ⟨one, oneAmong, other, otherAmong, differ, same⟩ :=
    Finset.exists_ne_map_eq_of_card_lt_of_maps_to crowded lands
  have oneBound : one ≤ steps := Nat.le_of_lt_succ (by simpa using oneAmong)
  have otherBound : other ≤ steps := Nat.le_of_lt_succ (by simpa using otherAmong)
  have oneBounds := lasts.bounds within oneBound
  have otherBounds := lasts.bounds within otherBound
  simp only [pair, Prod.mk.injEq] at same
  rcases Nat.lt_or_gt_of_ne differ with less | less
  · refine ⟨one, other, otherBound, lasts.recurs_of_place less otherBound ?_ ?_⟩ <;> omega
  · refine ⟨other, one, oneBound, lasts.recurs_of_place less oneBound ?_ ?_⟩ <;> omega

namespace Recurs

variable (recurs : Recurs code initial first second)

include recurs

/-- From the first of the two stages on, every stage has the machine and the state of one between
the two. -/
theorem revisits {later : Nat} (after : first ≤ later) :
    ∃ between, first ≤ between ∧ between < second ∧
      (replay code initial later).machine = (replay code initial between).machine ∧
        (replay code initial later).state = (replay code initial between).state := by
  induction later, after using Nat.le_induction with
  | base => exact ⟨first, Nat.le_refl first, recurs.order, rfl, rfl⟩
  | succ later _ ih =>
      obtain ⟨between, after, before, machine, state⟩ := ih
      have nextMachine : (replay code initial (later + 1)).machine =
          (replay code initial (between + 1)).machine := by
        simp only [replay, Stage.next_machine, machine, state]
      have nextState : (replay code initial (later + 1)).state =
          (replay code initial (between + 1)).state := by
        simp only [replay, Stage.next_state, machine, state]
      rcases Nat.lt_or_eq_of_le (Nat.succ_le_of_lt before) with within | last
      · exact ⟨between + 1, Nat.le_succ_of_le after, within, nextMachine, nextState⟩
      · refine ⟨first, Nat.le_refl first, recurs.order, ?_, ?_⟩
        · rw [nextMachine, ← recurs.machine, ← last]
        · rw [nextState, ← recurs.state, ← last]

theorem lasts_forever (later : Nat) : Lasts code initial later := by
  intro stage _
  rcases Nat.lt_or_ge first stage with after | before
  · obtain ⟨earlier, rfl⟩ : ∃ earlier, stage = earlier + 1 := ⟨stage - 1, by omega⟩
    obtain ⟨between, -, less, machine, state⟩ := recurs.revisits (Nat.le_of_lt_succ after)
    exact .next_congr machine state (recurs.lasts (between + 1) less)
  · exact recurs.lasts stage (Nat.le_of_lt (Nat.lt_of_le_of_lt before recurs.order))

theorem quiet_forever {later : Nat} (after : first ≤ later) :
    (replay code initial later).Quiet := by
  obtain ⟨between, low, high, machine, state⟩ := recurs.revisits after
  exact .congr machine state (recurs.quiet between low high)

end Recurs

end Recurrence

/-- A large budget tells a run that ends from one that does not. The bound is the number of
instructions, times one more than the number of steps that are left. If a run uses up a budget of at
least that size, then a run uses up any budget: behind the bound it tests conditions and jumps for
ever, and never runs an action again. A run that ends with some budget ends in the same way with a
budget of that size. -/
theorem spent_budget_means_divergence (program : List Stmt) (known : Stmt.AllKnown program)
    (code : List Instr) (compiled : Code.compile program = .ok code) (initial : State) :
    let enough : Int := code.length * (max 0 (initial.maxSteps - initial.steps) + 1)
    let run (limit : Int) := (Machine.start code).run limit initial
    (∀ limit, enough ≤ limit → BudgetSpent (run limit).failure →
      (∀ other, BudgetSpent (run other).failure) ∧
        ∀ steps : Nat, enough ≤ steps → ∃ executed,
          ((replay code initial steps).machine.step (replay code initial steps).state).outcome =
              .ok (some executed) ∧ ¬ executed.instr.Acts) ∧
    ∀ limit, ¬ BudgetSpent (run limit).failure →
      ¬ BudgetSpent (run enough).failure ∧ run enough = run limit := by
  intro enough run
  have knownCode := Code.known_compile known compiled
  have within := Code.within_compile known compiled
  obtain ⟨budget, budget_eq⟩ : ∃ budget,
      budget = code.length * ((initial.maxSteps - initial.steps).toNat + 1) := ⟨_, rfl⟩
  have enough_eq : enough = budget := by
    simp only [enough, budget_eq, Int.natCast_mul, Int.natCast_add, Int.natCast_one]
    congr 2
    omega
  have recurs (lasts : Lasts code initial budget) :
      ∃ first second, second ≤ budget ∧ Recurs code initial first second :=
    lasts.exists_recurs within (Nat.le_of_eq budget_eq.symm)
  constructor
  · intro limit atLeast spent
    have lasts : Lasts code initial budget := by
      intro earlier bound
      exact (budgetSpent_iff_lasts knownCode).mp spent earlier (by omega)
    obtain ⟨first, second, bound, recurs⟩ := recurs lasts
    constructor
    · intro other
      exact budgetSpent_of_lasts (recurs.lasts_forever other.toNat)
    · intro steps later
      have order := recurs.order
      exact (recurs.quiet_forever (by omega)).ran
  · intro limit ended
    rw [budgetSpent_iff_lasts knownCode] at ended
    have endsEnough : ¬ Lasts code initial enough.toNat := by
      rw [enough_eq, Int.toNat_natCast]
      intro lasts
      obtain ⟨first, second, -, recurs⟩ := recurs lasts
      exact ended (recurs.lasts_forever limit.toNat)
    rw [budgetSpent_iff_lasts knownCode]
    exact ⟨endsEnough, run_eq_run_of_not_lasts endsEnough ended⟩

/-- A robot in a corner turns until it sees a free cell and then looks at it for ever, unless no
step is left before. -/
theorem spent_budget_means_divergence_cornered :
    let program : List Stmt :=
      [.loop (.not (.atom "won")) [.choice (.atom "obstacleAhead") [.action "turnLeft" 3] none 2] 1]
    let corner (maxSteps : Int) : State :=
      { world := { width := 2, height := 3 }, robot := { cell := ⟨0, 2⟩, facing := .west }
        maxSteps }
    ∃ code, Code.compile program = .ok code ∧ code.length = 5 ∧
      (∀ limit, BudgetSpent ((Machine.start code).run limit (corner 3)).failure) ∧
        (Machine.start code).run 10 (corner 1) = (Machine.start code).run 1000 (corner 1) := by
  intro program corner
  obtain ⟨code, code_eq⟩ : ∃ code, code = Code.assemble 0 program := ⟨_, rfl⟩
  have known : Stmt.AllKnown program :=
    ⟨⟨⟨.won, rfl⟩, ⟨⟨.obstacleAhead, rfl⟩, ⟨⟨.turnLeft, rfl⟩, trivial⟩, trivial⟩, trivial⟩, trivial⟩
  have compiled : Code.compile program = .ok code := by
    rw [code_eq]
    exact Code.compile_of_known known
  have length : code.length = 5 := by
    rw [code_eq]
    rfl
  have divergence (maxSteps : Int) :=
    spent_budget_means_divergence program known code compiled (corner maxSteps)
  refine ⟨code, compiled, length, ?_, ?_⟩
  · have spent : ((Machine.start code).run 20 (corner 3)).failure =
        some ⟨.instructionLimit 20, some 2⟩ := by
      rw [code_eq]
      decide +kernel
    exact ((divergence 3).1 20 (by rw [length]; decide) ⟨_, _, spent⟩).1
  · have failed : ((Machine.start code).run 1000 (corner 1)).failure =
        some ⟨.stepLimit 1, none⟩ := by
      rw [code_eq]
      decide +kernel
    have ended : ¬ BudgetSpent ((Machine.start code).run 1000 (corner 1)).failure := by
      rintro ⟨limit, line, spent⟩
      rw [failed] at spent
      cases spent
    have same := ((divergence 1).2 1000 ended).2
    rw [length] at same
    exact same

end GridRobot
