import GridRobot.Proofs.Compilation
import GridRobot.Proofs.Vocabulary

/-!
# Guarded programs

Three actions can fail: going forward into an obstacle, picking where no beeper lies, and putting
from an empty bag. Each of them has a guard, the condition under which it is possible. In a guarded
program such an action stands directly behind a test of its guard, as the first statement of what a
choice does or a loop repeats. Then it never fails: the test has just held, and nothing has changed
since. All that can stop a run is a limit.

The argument is made for walks, which enter a block through its test only. Machines end like walks,
so none of their jumps leads into a block past its test.
-/

namespace GridRobot

/-! ## Guards of actions -/

/-- The condition under which an action that can fail is possible. Turns need none. -/
def Action.guard? : Action → Option Condition
  | .forward => some (.not (.atom Sensor.obstacleAhead.name))
  | .pick => some (.atom Sensor.beepersHere.name)
  | .put => some (.atom Sensor.beeperInBag.name)
  | .turnLeft | .turnRight => none

/-- An action whose guard holds takes effect, also when it has been charged. -/
theorem Action.effect_of_guard {action : Action} {state : State}
    (holds : ∀ guard ∈ action.guard?, guard.evaluate state = .ok true) :
    ∃ next, action.effect state.charged = .ok next := by
  cases action with
  | forward =>
      have free : state.world.blocked state.robot.cell state.robot.facing = false := by
        simpa [Condition.evaluate, Sensor.read, State.frontClear, State.clear] using holds _ rfl
      exact ⟨_, State.moved_eq_ok_iff.mpr ⟨free, rfl⟩⟩
  | turnLeft => exact ⟨_, rfl⟩
  | turnRight => exact ⟨_, rfl⟩
  | pick =>
      have present : 0 < state.world.beepersAt state.robot.cell := by
        simpa [Condition.evaluate, Sensor.read, State.beepersHere] using holds _ rfl
      exact ⟨_, State.picked_eq_ok_iff.mpr ⟨present, rfl⟩⟩
  | put =>
      have carried : 0 < state.robot.bag := by
        simpa [Condition.evaluate, Sensor.read, State.beeperInBag] using holds _ rfl
      exact ⟨_, State.dropped_eq_ok_iff.mpr ⟨carried, rfl⟩⟩

/-- Whether a fault says that an action could not be done. -/
def Fault.OfAction (fault : Fault) : Prop :=
  ∃ code, fault.classification? = some (.action, code)

/-- Whether a fault says that a limit is reached, of steps or of instructions. -/
def Fault.OfLimit (fault : Fault) : Prop :=
  fault.classification? = some (.limit, "STEP_LIMIT") ∨
    fault.classification? = some (.limit, "INSTRUCTION_LIMIT")

theorem Fault.OfLimit.not_ofAction {fault : Fault} (limit : fault.OfLimit) : ¬ fault.OfAction := by
  rintro ⟨code, action⟩
  rcases limit with same | same <;> simp [same] at action

/-- Nothing but the limit of steps stops an action whose guard holds. -/
theorem Action.attempt_of_guard {action : Action} {state : State} {fault : Fault}
    (holds : ∀ guard ∈ action.guard?, guard.evaluate state = .ok true)
    (failed : (action.attempt state).fault = some fault) : fault.OfLimit := by
  rcases action.attempt_cases state with
    ⟨-, tried⟩ | ⟨-, ⟨cause, effect, tried⟩ | ⟨next, -, tried⟩⟩
  · rw [tried] at failed
    cases failed
    exact .inl rfl
  · obtain ⟨next, took⟩ := effect_of_guard holds
    rw [took] at effect
    cases effect
  · rw [tried] at failed
    cases failed

/-! ## Guarded statements -/

namespace Stmt

/-- The guard of the action that a statement is, if it needs one. -/
def guard? : Stmt → Option Condition
  | .action name _ => (Action.ofName? name).bind Action.guard?
  | .choice _ _ _ _ | .loop _ _ _ | .stray _ => none

mutual

/-- Whether a statement is no action that needs a guard, and guards all such actions inside it. -/
def Guarded : Stmt → Prop
  | .action name line => (action name line).guard? = none
  | .choice condition yes no _ => GuardedBlock condition yes ∧ OtherGuarded no
  | .loop condition body _ => GuardedBlock condition body
  | .stray _ => True

/-- Whether every statement of a list is guarded. -/
def AllGuarded : List Stmt → Prop
  | [] => True
  | statement :: rest => statement.Guarded ∧ AllGuarded rest

/-- Whether every statement of a block is guarded, where its first one may also be an action whose
guard is the condition of the block. -/
def GuardedBlock (condition : Condition) : List Stmt → Prop
  | [] => True
  | statement :: rest =>
      (statement.guard? = some condition ∨ statement.Guarded) ∧ AllGuarded rest

/-- Whether every statement of the other part of a choice is guarded. -/
def OtherGuarded : Option (List Stmt) → Prop
  | none => True
  | some statements => AllGuarded statements

end

theorem AllGuarded.append {first second : List Stmt} (firstGuarded : AllGuarded first)
    (secondGuarded : AllGuarded second) : AllGuarded (first ++ second) := by
  induction first with
  | nil => exact secondGuarded
  | cons statement rest ih => exact ⟨firstGuarded.1, ih firstGuarded.2⟩

theorem OtherGuarded.getD {no : Option (List Stmt)} (guarded : OtherGuarded no) :
    AllGuarded (no.getD []) := by
  cases no with
  | none => exact trivial
  | some statements => exact guarded

end Stmt

open Stmt

/-! ## Walks -/

/-- Whether the statements still to be run are guarded in a state, where the first one may also be
an action whose guard holds there. -/
def State.Ready (state : State) : List Stmt → Prop
  | [] => True
  | statement :: rest =>
      ((∃ guard, statement.guard? = some guard ∧ guard.evaluate state = .ok true) ∨
        statement.Guarded) ∧ AllGuarded rest

namespace State

variable {state : State} {rest : List Stmt}

theorem ready_of_guarded {pending : List Stmt} (guarded : AllGuarded pending) :
    state.Ready pending := by
  cases pending with
  | nil => exact trivial
  | cons statement rest => exact ⟨.inr guarded.1, guarded.2⟩

/-- A block is entered in a state in which its condition holds. -/
theorem ready_block {condition : Condition} {block : List Stmt}
    (guarded : GuardedBlock condition block) (after : AllGuarded rest)
    (holds : condition.evaluate state = .ok true) : state.Ready (block ++ rest) := by
  cases block with
  | nil => exact ready_of_guarded after
  | cons statement others =>
      refine ⟨?_, guarded.2.append after⟩
      rcases guarded.1 with first | first
      · exact .inl ⟨condition, first, holds⟩
      · exact .inr first

/-- An action that comes first fails by a limit only, or because its name means nothing. -/
theorem Ready.act {name : String} {line : Int} {fault : Fault}
    (ready : state.Ready (.action name line :: rest))
    (failed : (state.act name).fault = some fault) :
    fault.OfLimit ∨ fault.classification? = none := by
  unfold State.act at failed
  cases meaning : Action.ofName? name with
  | none =>
      rw [meaning] at failed
      cases failed
      exact .inr rfl
  | some action =>
      rw [meaning] at failed
      refine .inl (Action.attempt_of_guard ?_ failed)
      intro guard needed
      have own : (Stmt.action name line).guard? = some guard := by
        simpa [Stmt.guard?, meaning] using needed
      rcases ready.1 with ⟨tested, first, holds⟩ | first
      · rw [own] at first
        cases first
        exact holds
      · rw [Stmt.Guarded, own] at first
        cases first

end State

theorem Condition.classification?_of_error {condition : Condition} {state : State} {fault : Fault}
    (failed : condition.evaluate state = .error fault) : fault.classification? = none := by
  induction condition with
  | atom name =>
      simp only [evaluate] at failed
      split at failed <;> cases failed
      rfl
  | not inner ih =>
      simp only [evaluate] at failed
      split at failed <;> cases failed
      exact ih ‹_›
  | and left right leftIH rightIH | or left right leftIH rightIH =>
      simp only [evaluate] at failed
      split at failed
      · exact rightIH failed
      · exact leftIH failed
  | stray part =>
      cases failed
      rfl

namespace Walk

/-- Whether walks with a given budget over statements that are ready fail by a limit only, or
because of a name or a part that means nothing. -/
def Secure (limit : Int) (budget : Nat) : Prop :=
  ∀ {pending : List Stmt} {state : State} {trace : Array Event} {failure : Failure},
    state.Ready pending → (go limit budget pending state trace).failure = some failure →
      failure.fault.OfLimit ∨ failure.fault.classification? = none

namespace Secure

variable {limit line : Int} {budget : Nat} {pending yes no rest : List Stmt} {state : State}
variable {trace : Array Event} {failure : Failure}

theorem action {name : String} (secure : Secure limit budget)
    (ready : state.Ready (.action name line :: rest))
    (failed : (go limit (budget + 1) (.action name line :: rest) state trace).failure =
      some failure) :
    failure.fault.OfLimit ∨ failure.fault.classification? = none := by
  rw [go] at failed
  cases fault : (state.act name).fault with
  | some cause =>
      simp only [fault, Option.some.injEq] at failed
      subst failed
      exact ready.act fault
  | none =>
      simp only [fault] at failed
      split at failed
      · cases failed
      · exact secure (State.ready_of_guarded ready.2) failed

/-- Where a condition is tested first, both ways that the walk can go on have to be ready. -/
theorem test {condition : Condition} (secure : Secure limit budget)
    (testsFirst : TestsFirst pending condition line yes no)
    (readyYes : condition.evaluate state = .ok true → state.Ready yes) (readyNo : state.Ready no)
    (failed : (go limit (budget + 1) pending state trace).failure = some failure) :
    failure.fault.OfLimit ∨ failure.fault.classification? = none := by
  rw [testsFirst] at failed
  cases tested : condition.evaluate state with
  | error fault =>
      simp only [tested, Option.some.injEq] at failed
      subst failed
      exact .inr (Condition.classification?_of_error tested)
  | ok value =>
      simp only [tested] at failed
      cases value with
      | false => exact secure readyNo failed
      | true => exact secure (readyYes tested) failed

theorem zero : Secure limit 0 := by
  intro pending state trace failure ready failed
  cases pending with
  | nil =>
      rw [go] at failed
      cases failed
  | cons statement rest =>
      cases statement with
      | action name line | choice condition yes no line | loop condition body line =>
          rw [go] at failed
          cases failed
          exact .inl (.inr rfl)
      | stray part =>
          rw [go] at failed
          cases failed
          exact .inr rfl

theorem all (budget : Nat) : Secure limit budget := by
  induction budget with
  | zero => exact zero
  | succ budget secure =>
      intro pending state trace failure ready failed
      cases pending with
      | nil =>
          rw [go] at failed
          cases failed
      | cons statement rest =>
          cases statement with
          | action name line => exact secure.action ready failed
          | choice condition yes no line =>
              have guarded : (Stmt.choice condition yes no line).Guarded := by
                simpa [Stmt.guard?] using ready.1
              refine secure.test (testsFirst_choice yes no) ?_ ?_ failed
              · exact State.ready_block guarded.1 ready.2
              · exact State.ready_of_guarded (guarded.2.getD.append ready.2)
          | loop condition body line =>
              have guarded : (Stmt.loop condition body line).Guarded := by
                simpa [Stmt.guard?] using ready.1
              refine secure.test (testsFirst_loop body) ?_ ?_ failed
              · exact State.ready_block guarded ⟨guarded, ready.2⟩
              · exact State.ready_of_guarded ready.2
          | stray part =>
              rw [go] at failed
              cases failed
              exact .inr rfl

end Secure

end Walk

/-! ## Runs -/

end GridRobot
