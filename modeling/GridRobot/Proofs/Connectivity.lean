import GridRobot.Machine.Step
import GridRobot.Proofs.Reachability

/-!
# Connected cells during play

An edge inside the grid is blocked from both of its cells or from neither, although its wall may be
recorded on one side only. So unblocked steps can be taken back, and wherever the robot goes it
stays connected to the same cells. No action changes the grid, whether it fails or not; hence what
the robot can reach, and with it the sensor for the win row, stays the same throughout play.
-/

namespace GridRobot

namespace World

/-- Whether two worlds have the same grid, walls and win row. They may differ in their beepers. -/
structure SameGrid (first second : World) : Prop where
  width : first.width = second.width
  height : first.height = second.height
  walls : first.walls = second.walls
  winRow : first.winRow = second.winRow

namespace SameGrid

theorem refl (world : World) : world.SameGrid world :=
  ⟨rfl, rfl, rfl, rfl⟩

theorem trans {first second third : World} (earlier : first.SameGrid second)
    (later : second.SameGrid third) : first.SameGrid third where
  width := earlier.width.trans later.width
  height := earlier.height.trans later.height
  walls := earlier.walls.trans later.walls
  winRow := earlier.winRow.trans later.winRow

theorem symm {first second : World} (same : first.SameGrid second) : second.SameGrid first :=
  ⟨same.width.symm, same.height.symm, same.walls.symm, same.winRow.symm⟩

theorem setBeepers (world : World) (cell : Cell) (count : Int) :
    (world.setBeepers cell count).SameGrid world :=
  ⟨rfl, rfl, rfl, rfl⟩

variable {first second : World}

theorem inside_iff (same : first.SameGrid second) (cell : Cell) :
    first.Inside cell ↔ second.Inside cell := by
  simp only [Inside, same.width, same.height]

theorem blocked (same : first.SameGrid second) (cell : Cell) (direction : Direction) :
    first.blocked cell direction = second.blocked cell direction := by
  simp only [World.blocked, same.walls, same.inside_iff]

theorem path {start goal : Cell} (same : first.SameGrid second) (path : first.Path start goal) :
    second.Path start goal := by
  induction path with
  | here => exact .here
  | @step cell direction _ unblocked ih =>
      rw [same.blocked cell direction] at unblocked
      exact .step direction ih unblocked

theorem path_iff (same : first.SameGrid second) (start goal : Cell) :
    first.Path start goal ↔ second.Path start goal :=
  ⟨same.path, same.symm.path⟩

end SameGrid

variable {world : World} {start middle goal : Cell}

/-- An unblocked step inside the grid can be taken back. -/
theorem blocked_opposite {cell : Cell} {direction : Direction} (inside : world.Inside cell)
    (unblocked : world.blocked cell direction = false) :
    world.blocked (cell.neighbour direction) direction.opposite = false := by
  obtain ⟨-, here, there⟩ := (world.blocked_eq_false_iff cell direction).mp unblocked
  rw [blocked_eq_false_iff, Cell.neighbour_opposite, Direction.opposite_opposite]
  exact ⟨inside, there, here⟩

namespace Path

theorem inside (path : world.Path start goal) (inside : world.Inside start) :
    world.Inside goal := by
  cases path with
  | here => exact inside
  | step direction _ unblocked => exact ((world.blocked_eq_false_iff _ _).mp unblocked).1

theorem trans (first : world.Path start middle) (second : world.Path middle goal) :
    world.Path start goal := by
  induction second with
  | here => exact first
  | step direction _ unblocked ih => exact .step direction ih unblocked

/-- Unblocked steps inside the grid lead back as well. -/
theorem symm (inside : world.Inside start) (path : world.Path start goal) :
    world.Path goal start := by
  induction path with
  | here => exact .here
  | @step cell direction earlier unblocked ih =>
      have back := blocked_opposite (earlier.inside inside) unblocked
      have stay : world.Path (cell.neighbour direction) (cell.neighbour direction) := .here
      have taken := stay.step direction.opposite back
      rw [Cell.neighbour_opposite] at taken
      exact taken.trans ih

/-- Connected cells are connected to the same cells. -/
theorem path_iff (inside : world.Inside start) (path : world.Path start middle) :
    world.Path middle goal ↔ world.Path start goal :=
  ⟨path.trans, (path.symm inside).trans⟩

end Path

end World

/-! ## Attempts -/

/-- What one attempt can do as far as cells are concerned: the grid stays, and either the robot
stays where it is and nothing is won, or it takes an unblocked step and wins at most on the win
row. -/
structure State.Travels (before after : State) : Prop where
  grid : after.world.SameGrid before.world
  moves : (after.robot.cell = before.robot.cell ∧ after.won = before.won) ∨
    ∃ direction, before.world.blocked before.robot.cell direction = false ∧
      after.robot.cell = before.robot.cell.neighbour direction ∧
        (after.won = before.won ∨ after.robot.cell.y = after.world.winRow)

namespace State

theorem noteWin_won (state : State) :
    state.noteWin.won = state.won ∨ state.robot.cell.y = state.world.winRow := by
  unfold noteWin
  split
  · next wins =>
      right
      simp only [Bool.and_eq_true, beq_iff_eq] at wins
      exact wins.2
  · exact .inl rfl

namespace Travels

variable {before middle after : State}

theorem stay (grid : after.world.SameGrid before.world)
    (cell : after.robot.cell = before.robot.cell) (won : after.won = before.won) :
    before.Travels after :=
  ⟨grid, .inl ⟨cell, won⟩⟩

theorem of_moved (moved : before.moved = .ok after) : before.Travels after := by
  simp only [State.moved] at moved
  split at moved
  · cases moved
  · next unblocked =>
      cases moved
      refine ⟨by simpa using World.SameGrid.refl before.world, .inr ?_⟩
      refine ⟨before.robot.facing, by simpa using unblocked, by simp, ?_⟩
      simpa using noteWin_won before.advanced

theorem of_effect {action : Action} (took : action.effect before = .ok after) :
    before.Travels after := by
  cases action with
  | forward => exact of_moved took
  | turnLeft =>
      cases took
      exact stay (.refl _) rfl rfl
  | turnRight =>
      cases took
      exact stay (.refl _) rfl rfl
  | pick =>
      simp only [Action.effect, picked] at took
      split at took <;> cases took
      exact stay (.setBeepers _ _ _) rfl rfl
  | put =>
      simp only [Action.effect, dropped] at took
      split at took <;> cases took
      exact stay (.setBeepers _ _ _) rfl rfl

/-- Every attempt travels, also one that fails. -/
theorem of_attempt (action : Action) (state : State) :
    state.Travels (action.attempt state).state := by
  rcases action.attempt_cases state with
    ⟨-, tried⟩ | ⟨-, ⟨fault, -, tried⟩ | ⟨next, took, tried⟩⟩
  · rw [tried]
    exact stay (.refl _) rfl rfl
  · rw [tried]
    exact stay (.refl _) rfl rfl
  · rw [tried]
    obtain ⟨grid, moves⟩ := of_effect took
    exact ⟨grid, moves⟩

theorem path (travels : before.Travels after) :
    before.world.Path before.robot.cell after.robot.cell := by
  rcases travels.moves with ⟨stays, -⟩ | ⟨direction, unblocked, stepped, -⟩
  · rw [stays]
    exact .here
  · rw [stepped]
    exact .step direction .here unblocked

end Travels

/-! ## Play -/

/-- The state after some actions were tried one after the other. Those that fail are passed over. -/
def play (state : State) (actions : List Action) : State :=
  actions.foldl (fun state action => (action.attempt state).state) state

theorem play_append (state : State) (earlier later : List Action) :
    state.play (earlier ++ later) = (state.play earlier).play later :=
  List.foldl_append

/-- What a charge keeps, and what every action that takes effect keeps, holds throughout play. -/
theorem play_induction {motive : State → Prop} {state : State} (start : motive state)
    (charge : ∀ state, motive state → state.steps < state.maxSteps → motive state.charged)
    (effect : ∀ action state next, motive state → Action.effect action state = .ok next →
      motive next)
    (actions : List Action) : motive (state.play actions) := by
  induction actions generalizing state with
  | nil => exact start
  | cons action rest ih =>
      have stepped : motive (action.attempt state).state := by
        rcases action.attempt_cases state with
          ⟨-, tried⟩ | ⟨left, ⟨fault, -, tried⟩ | ⟨next, took, tried⟩⟩
        · rw [tried]
          exact start
        · rw [tried]
          exact charge state start left
        · rw [tried]
          exact effect action state.charged next (charge state start left) took
      exact ih stepped

/-- `state.ConnectedTo final` says that a state has the grid of another, and that its robot is in a
cell that unblocked steps lead to. -/
structure ConnectedTo (state final : State) : Prop where
  grid : final.world.SameGrid state.world
  path : state.world.Path state.robot.cell final.robot.cell

namespace ConnectedTo

variable {state final : State}

theorem refl (state : State) : state.ConnectedTo state :=
  ⟨.refl _, .here⟩

theorem travels {next : State} (connected : state.ConnectedTo final)
    (travels : final.Travels next) : state.ConnectedTo next where
  grid := travels.grid.trans connected.grid
  path := connected.path.trans (connected.grid.path travels.path)

theorem inside (connected : state.ConnectedTo final)
    (inside : state.world.Inside state.robot.cell) :
    final.world.Inside final.robot.cell :=
  (connected.grid.inside_iff _).mpr (connected.path.inside inside)

/-- Play leads to connected states only. -/
theorem play (connected : state.ConnectedTo final) (actions : List Action) :
    state.ConnectedTo (final.play actions) := by
  induction actions generalizing final with
  | nil => exact connected
  | cons action rest ih => exact ih (connected.travels (.of_attempt action final))

/-- From connected states the same cells can be reached. -/
theorem path_iff (connected : state.ConnectedTo final)
    (inside : state.world.Inside state.robot.cell) (cell : Cell) :
    final.world.Path final.robot.cell cell ↔ state.world.Path state.robot.cell cell := by
  rw [connected.grid.path_iff]
  exact connected.path.path_iff inside

theorem winReachable (connected : state.ConnectedTo final)
    (inside : state.world.Inside state.robot.cell) :
    final.winReachable = state.winReachable := by
  rw [Bool.eq_iff_iff]
  simp only [State.winReachable, World.winReachableFrom_iff, connected.path_iff inside,
    connected.grid.winRow]

/-- Where the win row cannot be reached, no attempt wins. -/
theorem won_travels {next : State} (travels : state.Travels next)
    (unreachable : state.winReachable = false) : next.won = state.won := by
  rcases travels.moves with ⟨-, same⟩ | ⟨direction, unblocked, stepped, same | onRow⟩
  · exact same
  · exact same
  · have reachable : state.winReachable = true := by
      rw [State.winReachable, World.winReachableFrom_iff]
      exact ⟨next.robot.cell, travels.path, onRow.trans travels.grid.winRow⟩
    rw [unreachable] at reachable
    cases reachable

end ConnectedTo

/-- Where the win row cannot be reached, no play wins. -/
theorem won_play {state : State} (inside : state.world.Inside state.robot.cell)
    (unreachable : state.winReachable = false) (actions : List Action) :
    (state.play actions).won = state.won := by
  induction actions generalizing state with
  | nil => rfl
  | cons action rest ih =>
      have travels := Travels.of_attempt action state
      have connected := (ConnectedTo.refl state).travels travels
      have later := ih (connected.inside inside) ((connected.winReachable inside).trans unreachable)
      exact later.trans (ConnectedTo.won_travels travels unreachable)

end State

/-! ## Runs -/

namespace Machine

/-- A step tries at most one action. -/
theorem step_plays (machine : Machine) (state : State) :
    ∃ actions, (machine.step state).state = state.play actions := by
  rcases machine.step_cases state with idle | ⟨instr, -, -, ran⟩
  · exact ⟨[], by rw [idle]; rfl⟩
  · rw [ran]
    cases instr with
    | jump target line => exact ⟨[], rfl⟩
    | test condition target line =>
        refine ⟨[], ?_⟩
        simp only [execute]
        split <;> rfl
    | act name line =>
        rw [execute_act_state, State.act]
        cases Action.ofName? name with
        | none => exact ⟨[], rfl⟩
        | some action => exact ⟨[action], rfl⟩

/-- A run tries actions one after the other. -/
theorem runFrom_plays (limit : Int) (budget : Nat) (machine : Machine) (state : State)
    (trace : Array Event) :
    ∃ actions, (machine.runFrom limit budget state trace).state = state.play actions := by
  induction budget generalizing machine state trace with
  | zero =>
      refine ⟨[], ?_⟩
      unfold runFrom
      split <;> rfl
  | succ budget ih =>
      cases running : machine.done with
      | true => exact ⟨[], by rw [runFrom_done running]; rfl⟩
      | false =>
          obtain ⟨first, stepped⟩ := machine.step_plays state
          cases outcome : (machine.step state).outcome with
          | error fault => exact ⟨first, by rw [runFrom_error running outcome, stepped]⟩
          | ok ran =>
              obtain ⟨others, played⟩ :=
                ih (machine.step state).machine (machine.step state).state (observe trace ran)
              refine ⟨first ++ others, ?_⟩
              rw [runFrom_ok running outcome, played, stepped, State.play_append]

end Machine

/-- From a cell of the grid, play never changes which cells the robot can reach, and so the sensor
for the win row has the same value at every point of every play and of every run. Once it reads
false, nothing that follows wins. -/
theorem State.play_reaches_same_cells (state : State)
    (inside : state.world.Inside state.robot.cell) :
    (∀ actions,
      (∀ cell, (state.play actions).world.Path (state.play actions).robot.cell cell ↔
        state.world.Path state.robot.cell cell) ∧
      Sensor.winReachable.read (state.play actions) = Sensor.winReachable.read state) ∧
    (∀ (machine : Machine) (limit : Int),
      Sensor.winReachable.read (machine.run limit state).state =
        Sensor.winReachable.read state) ∧
    (∀ earlier, Sensor.winReachable.read (state.play earlier) = false →
      (∀ later, (state.play (earlier ++ later)).won = (state.play earlier).won) ∧
      ∀ (machine : Machine) (limit : Int),
        (machine.run limit (state.play earlier)).state.won = (state.play earlier).won) := by
  have connected (actions : List Action) : state.ConnectedTo (state.play actions) :=
    (ConnectedTo.refl state).play actions
  refine ⟨?_, ?_, ?_⟩
  · intro actions
    exact ⟨(connected actions).path_iff inside, (connected actions).winReachable inside⟩
  · intro machine limit
    obtain ⟨actions, played⟩ := machine.runFrom_plays limit limit.toNat state #[]
    rw [Machine.run, played]
    exact (connected actions).winReachable inside
  · intro earlier unreachable
    have still := won_play ((connected earlier).inside inside) unreachable
    constructor
    · intro later
      rw [play_append]
      exact still later
    · intro machine limit
      obtain ⟨actions, played⟩ :=
        machine.runFrom_plays limit limit.toNat (state.play earlier) #[]
      rw [Machine.run, played]
      exact still actions

theorem State.play_reaches_same_cells_walled :
    let walled : State :=
      { world := { width := 2, height := 2, walls := [⟨⟨0, 0⟩, .south⟩, ⟨⟨1, 1⟩, .north⟩] }
        robot := { cell := ⟨0, 1⟩ } }
    let attempts : List Action := [.forward, .turnRight, .forward, .pick, .turnLeft, .forward]
    walled.world.Inside walled.robot.cell ∧
      (walled.play [.turnRight, .forward]).robot.cell = ⟨1, 1⟩ ∧
        Sensor.winReachable.read (walled.play attempts) = false ∧
          (walled.play (attempts ++ attempts)).won = false := by
  intro walled attempts
  have inside : walled.world.Inside walled.robot.cell := by decide
  have unreachable : Sensor.winReachable.read walled = false := by decide +kernel
  obtain ⟨same, -, never⟩ := walled.play_reaches_same_cells inside
  refine ⟨inside, by decide, (same attempts).2.trans unreachable, ?_⟩
  exact (never [] unreachable).1 (attempts ++ attempts)

end GridRobot
