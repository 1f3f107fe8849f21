import GridRobot.World.Basic
import GridRobot.World.Fault

/-!
# Actions

The five things a robot can do. Every attempt is charged one step before the action itself is
tried, unless the steps are used up: then nothing changes at all.

An action is a computation that changes the state piece by piece and may stop in between. What it
does is then said at once, by `Action.effect`: it looks before it changes anything but the count of
steps, so an action that fails leaves no more than its charge.
-/

namespace GridRobot

/-- What a robot can do. -/
inductive Action where
  | forward
  | turnLeft
  | turnRight
  | pick
  | put
  deriving DecidableEq, Repr

namespace Action

/-- All actions. -/
def all : List Action :=
  [.forward, .turnLeft, .turnRight, .pick, .put]

/-- The name of an action in a program. -/
def name : Action → String
  | .forward => "forward"
  | .turnLeft => "turnLeft"
  | .turnRight => "turnRight"
  | .pick => "pick"
  | .put => "put"

/-- The action with a given name. -/
def ofName? (text : String) : Option Action :=
  all.find? fun action => action.name == text

@[simp] theorem mem_all (action : Action) : action ∈ all := by
  cases action <;> decide

@[simp] theorem ofName?_name (action : Action) : ofName? action.name = some action := by
  cases action <;> decide

end Action

/-- The entry that a win leaves in the log. -/
def winEntry : String := "WIN"

namespace State

/-- Notes a win on first reaching the win row. -/
def noteWin (state : State) : State :=
  if !state.won && state.robot.cell.y == state.world.winRow then
    { state with won := true, log := state.log ++ [winEntry] }
  else state

@[simp] theorem noteWin_world (state : State) : state.noteWin.world = state.world := by
  unfold noteWin
  split <;> rfl

@[simp] theorem noteWin_robot (state : State) : state.noteWin.robot = state.robot := by
  unfold noteWin
  split <;> rfl

@[simp] theorem noteWin_steps (state : State) : state.noteWin.steps = state.steps := by
  unfold noteWin
  split <;> rfl

@[simp] theorem noteWin_maxSteps (state : State) :
    state.noteWin.maxSteps = state.maxSteps := by
  unfold noteWin
  split <;> rfl

/-- The state with one more step counted. -/
def charged (state : State) : State :=
  { state with steps := state.steps + 1 }

/-- The robot one cell further on. -/
def advanced (state : State) : State :=
  { state with
    robot := { state.robot with cell := state.robot.cell.neighbour state.robot.facing } }

@[simp] theorem advanced_world (state : State) : state.advanced.world = state.world :=
  rfl

@[simp] theorem advanced_won (state : State) : state.advanced.won = state.won :=
  rfl

@[simp] theorem advanced_cell (state : State) :
    state.advanced.robot.cell = state.robot.cell.neighbour state.robot.facing :=
  rfl

/-- The robot looking another way. -/
def turned (state : State) (facing : Direction) : State :=
  { state with robot := { state.robot with facing } }

/-- The state with a number of beepers in a cell. -/
def withBeepers (state : State) (cell : Cell) (count : Int) : State :=
  { state with world := state.world.setBeepers cell count }

/-- The state with a number of beepers in the robot's bag. -/
def withBag (state : State) (bag : Int) : State :=
  { state with robot := { state.robot with bag } }

end State

/-! ## What the robot does, piece by piece -/

/-- A stretch of what a robot does. It changes the state as it goes along. Where it fails, the state
stays as it is by then. -/
abbrev Effort := EStateM Fault State Unit

namespace Effort

/-- Counts one step, unless none is left. -/
def charge : Effort := do
  let state ← get
  if state.maxSteps ≤ state.steps then throw (.stepLimit state.maxSteps)
  modify State.charged

/-- Goes one cell on, unless something is in the way. -/
def move : Effort := do
  charge
  let state ← get
  if state.world.blocked state.robot.cell state.robot.facing then throw .moveBlocked
  modify State.advanced
  modify State.noteWin

/-- Looks to one side. -/
def turn (side : Direction → Direction) : Effort := do
  charge
  modify fun state => state.turned (side state.robot.facing)

/-- Takes a beeper from the robot's cell into its bag. -/
def pick : Effort := do
  charge
  let state ← get
  let cell := state.robot.cell
  let count := state.world.beepersAt cell
  if count ≤ 0 then throw .noBeeperHere
  modify fun state => state.withBeepers cell (count - 1)
  modify fun state => state.withBag (state.robot.bag + 1)

/-- Puts a beeper from the robot's bag into its cell. -/
def put : Effort := do
  charge
  let state ← get
  if state.robot.bag ≤ 0 then throw .noBeeperInBag
  let cell := state.robot.cell
  modify fun state => state.withBeepers cell (state.world.beepersAt cell + 1)
  modify fun state => state.withBag (state.robot.bag - 1)

end Effort

/-- What a robot does for an action. -/
def Action.effort : Action → Effort
  | .forward => .move
  | .turnLeft => .turn Direction.left
  | .turnRight => .turn Direction.right
  | .pick => .pick
  | .put => .put

/-- The outcome of an attempt: the state after it and, if it failed, why. -/
structure Attempt where
  state : State
  fault : Option Fault := none
  deriving DecidableEq, Repr

/-- Does something as far as it goes. -/
def Effort.attempt (effort : Effort) (state : State) : Attempt :=
  match effort.run state with
  | .ok _ next => ⟨next, none⟩
  | .error fault next => ⟨next, some fault⟩

/-- Tries an action. -/
def Action.attempt (action : Action) (state : State) : Attempt :=
  action.effort.attempt state

/-! ## What an action does -/

namespace State

/-- The robot one cell further on, if nothing is in its way. -/
def moved (state : State) : Except Fault State :=
  if state.world.blocked state.robot.cell state.robot.facing then .error .moveBlocked
  else .ok state.advanced.noteWin

theorem moved_eq_ok_iff {state next : State} :
    state.moved = .ok next ↔
      state.world.blocked state.robot.cell state.robot.facing = false ∧
        next = noteWin { state with
          robot := { state.robot with
            cell := state.robot.cell.neighbour state.robot.facing } } := by
  cases blocked : state.world.blocked state.robot.cell state.robot.facing <;>
    simp [moved, blocked, advanced, eq_comm]

/-- A beeper taken from the robot's cell into its bag. -/
def picked (state : State) : Except Fault State :=
  let cell := state.robot.cell
  let count := state.world.beepersAt cell
  if count ≤ 0 then .error .noBeeperHere
  else
    .ok { state with
      world := state.world.setBeepers cell (count - 1)
      robot := { state.robot with bag := state.robot.bag + 1 } }

theorem picked_eq_ok_iff {state next : State} :
    state.picked = .ok next ↔
      0 < state.world.beepersAt state.robot.cell ∧
        next = { state with
          world := state.world.setBeepers state.robot.cell
            (state.world.beepersAt state.robot.cell - 1)
          robot := { state.robot with bag := state.robot.bag + 1 } } := by
  by_cases empty : state.world.beepersAt state.robot.cell ≤ 0
  · simp [picked, empty, Int.not_lt.mpr empty]
  · simp [picked, empty, Int.not_le.mp empty, eq_comm]

/-- A beeper put from the robot's bag into its cell. -/
def dropped (state : State) : Except Fault State :=
  let cell := state.robot.cell
  if state.robot.bag ≤ 0 then .error .noBeeperInBag
  else
    .ok { state with
      world := state.world.setBeepers cell (state.world.beepersAt cell + 1)
      robot := { state.robot with bag := state.robot.bag - 1 } }

theorem dropped_eq_ok_iff {state next : State} :
    state.dropped = .ok next ↔
      0 < state.robot.bag ∧
        next = { state with
          world := state.world.setBeepers state.robot.cell
            (state.world.beepersAt state.robot.cell + 1)
          robot := { state.robot with bag := state.robot.bag - 1 } } := by
  by_cases empty : state.robot.bag ≤ 0
  · simp [dropped, empty, Int.not_lt.mpr empty]
  · simp [dropped, empty, Int.not_le.mp empty, eq_comm]

end State

/-- What an action does to a state, apart from its charge. -/
def Action.effect (action : Action) (state : State) : Except Fault State :=
  match action with
  | .forward => state.moved
  | .turnLeft => .ok (state.turned state.robot.facing.left)
  | .turnRight => .ok (state.turned state.robot.facing.right)
  | .pick => state.picked
  | .put => state.dropped

namespace Effort

/-- An effort that fails to be charged changes nothing, and any other goes on from its charge. -/
theorem attempt_charge (next : Effort) (state : State) :
    attempt (do charge; next) state =
      if state.maxSteps ≤ state.steps then ⟨state, some (.stepLimit state.maxSteps)⟩
      else next.attempt state.charged := by
  by_cases spent : state.maxSteps ≤ state.steps
  · simp [attempt, charge, spent]
  · simp [attempt, charge, spent]

/-- An effort that looks whether it is refused before it does anything else keeps no more than its
charge if it is. -/
theorem attempt_checked (refused : State → Prop) [DecidablePred refused] (fault : Fault)
    (next : State → Effort) (state : State) :
    attempt (do
      charge
      let state ← get
      if refused state then throw fault
      next state) state =
      if state.maxSteps ≤ state.steps then ⟨state, some (.stepLimit state.maxSteps)⟩
      else if refused state.charged then ⟨state.charged, some fault⟩
      else (next state.charged).attempt state.charged := by
  rw [attempt_charge]
  congr 1
  by_cases holds : refused state.charged
  · simp [attempt, holds]
  · simp [attempt, holds]

end Effort

/-- Each action looks before it changes anything but the count of steps. A failing action keeps its
charge; with no step left nothing is charged. -/
theorem Action.attempt_eq (action : Action) (state : State) :
    action.attempt state =
      if state.maxSteps ≤ state.steps then ⟨state, some (.stepLimit state.maxSteps)⟩
      else
        match action.effect state.charged with
        | .ok next => ⟨next, none⟩
        | .error fault => ⟨state.charged, some fault⟩ := by
  cases action with
  | forward =>
      refine (Effort.attempt_checked _ _ _ state).trans ?_
      congr 1
      simp only [effect, State.moved]
      split <;> rfl
  | turnLeft => exact Effort.attempt_charge _ state
  | turnRight => exact Effort.attempt_charge _ state
  | pick =>
      refine (Effort.attempt_checked _ _ _ state).trans ?_
      congr 1
      simp only [effect, State.picked]
      split <;> rfl
  | put =>
      refine (Effort.attempt_checked _ _ _ state).trans ?_
      congr 1
      simp only [effect, State.dropped]
      split <;> rfl

/-- An attempt finds no step left, or it is charged one and then fails or takes effect. -/
theorem Action.attempt_cases (action : Action) (state : State) :
    (state.maxSteps ≤ state.steps ∧
        action.attempt state = ⟨state, some (.stepLimit state.maxSteps)⟩) ∨
      (state.steps < state.maxSteps ∧
        ((∃ fault, action.effect state.charged = .error fault ∧
            action.attempt state = ⟨state.charged, some fault⟩) ∨
          ∃ next, action.effect state.charged = .ok next ∧
            action.attempt state = ⟨next, none⟩)) := by
  rw [attempt_eq]
  by_cases spent : state.maxSteps ≤ state.steps
  · left
    exact ⟨spent, if_pos spent⟩
  · right
    refine ⟨Int.not_le.mp spent, ?_⟩
    rw [if_neg spent]
    cases action.effect state.charged with
    | error fault => exact .inl ⟨fault, rfl, rfl⟩
    | ok next => exact .inr ⟨next, rfl, rfl⟩

/-- An action succeeds if a step is left and it can take effect. -/
theorem Action.attempt_eq_ok_iff {action : Action} {state next : State} :
    action.attempt state = ⟨next, none⟩ ↔
      state.steps < state.maxSteps ∧ action.effect state.charged = .ok next := by
  rcases action.attempt_cases state with
    ⟨spent, tried⟩ | ⟨left, ⟨fault, effect, tried⟩ | ⟨result, effect, tried⟩⟩
  · simp [tried, Int.not_lt.mpr spent]
  · rw [tried, effect]
    simp
  · rw [tried, effect]
    simp [left]

/-- Tries the action with a given name. A name that means nothing changes nothing. -/
def State.act (state : State) (name : String) : Attempt :=
  match Action.ofName? name with
  | some action => action.attempt state
  | none => ⟨state, some (.unknownName name)⟩

end GridRobot
