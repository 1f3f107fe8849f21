import GridRobot.Proofs.Connectivity
import GridRobot.Proofs.Divergence

/-!
# Retracing a walk

A robot that has walked somewhere can always walk back. It turns about, takes its moves in reverse
with left and right exchanged, and turns about again. On the way back it is in the same cells as on
the way there and looks the other way. What was free to be entered is free to be left again: an edge
counts as blocked whichever of its sides has the wall, and the robot never leaves the grid.

Only steps can run out, since the way back takes as many as the way there and four for the turns.
-/

namespace GridRobot

namespace Direction

@[simp] theorem opposite_left (direction : Direction) :
    direction.left.opposite = direction.opposite.left := by
  cases direction <;> rfl

@[simp] theorem opposite_right (direction : Direction) :
    direction.right.opposite = direction.opposite.right := by
  cases direction <;> rfl

end Direction

/-- The action with left and right exchanged. -/
def Action.mirrored : Action → Action
  | .turnLeft => .turnRight
  | .turnRight => .turnLeft
  | .forward => .forward
  | .pick => .pick
  | .put => .put

namespace State

/-! ## Actions that all succeed -/

/-- Each action that succeeds is charged a step. -/
theorem steps_perform {state final : State} {actions : List Action}
    (performed : state.perform actions = some final) :
    final.steps = state.steps + actions.length ∧ final.maxSteps = state.maxSteps := by
  induction actions generalizing state with
  | nil =>
      cases performed
      exact ⟨(Int.add_zero _).symm, rfl⟩
  | cons action rest ih =>
      obtain ⟨next, tried, others⟩ := perform_cons_eq_some_iff.mp performed
      obtain ⟨steps, maxSteps⟩ := ih others
      have charges := charges_of_attempt tried
      constructor
      · rw [steps, charges.steps, List.length_cons, Int.natCast_succ]
        omega
      · rw [maxSteps, charges.maxSteps]

/-! ## Looking the other way -/

/-- `first.Opposes second` says that two states have the same world, and that their robots differ in
that they look in opposite directions. -/
structure Opposes (first second : State) : Prop where
  world : second.world = first.world
  robot : second.robot = { first.robot with facing := first.robot.facing.opposite }

theorem Opposes.twice {first second third : State} (once : first.Opposes second)
    (again : second.Opposes third) :
    third.robot = first.robot ∧ third.world = first.world := by
  constructor
  · rw [again.robot, once.robot]
    simp
  · rw [again.world, once.world]

/-- Two turns to the left turn the robot about. -/
theorem perform_turnAbout {state : State} (left : state.steps + 2 ≤ state.maxSteps) :
    ∃ turned, state.perform [.turnLeft, .turnLeft] = some turned ∧ state.Opposes turned := by
  let once := state.charged.turned state.robot.facing.left
  let twice := once.charged.turned once.robot.facing.left
  have first : Action.turnLeft.attempt state = ⟨once, none⟩ := by
    apply Action.attempt_eq_ok_iff.mpr
    exact ⟨by omega, rfl⟩
  have second : Action.turnLeft.attempt once = ⟨twice, none⟩ := by
    apply Action.attempt_eq_ok_iff.mpr
    refine ⟨?_, rfl⟩
    have charges := charges_of_attempt first
    rw [charges.steps, charges.maxSteps]
    omega
  refine ⟨twice, ?_, rfl, ?_⟩
  · apply perform_cons_eq_some_iff.mpr
    exact ⟨once, first, perform_cons_eq_some_iff.mpr ⟨twice, second, rfl⟩⟩
  · simp [twice, once, turned, charged]

end State

/-! ## The way back -/

/-- A robot that looks the other way takes a move back by the mirrored one. -/
theorem Action.IsMove.taken_back {move : Action} (isMove : move.IsMove)
    {before after turned : State} (inside : before.world.Inside before.robot.cell)
    (tried : move.attempt before = ⟨after, none⟩) (opposes : after.Opposes turned)
    (left : turned.steps < turned.maxSteps) :
    ∃ back, move.mirrored.attempt turned = ⟨back, none⟩ ∧ before.Opposes back := by
  obtain ⟨-, took⟩ := attempt_eq_ok_iff.mp tried
  obtain ⟨world, robot⟩ := opposes
  cases move with
  | forward =>
      obtain ⟨free, rfl⟩ := State.moved_eq_ok_iff.mp took
      simp only [State.noteWin_world, State.noteWin_robot, State.charged] at world robot
      have freeBack : turned.world.blocked turned.robot.cell turned.robot.facing = false := by
        rw [world, robot]
        -- It is the same edge, seen from its other cell.
        exact World.blocked_opposite inside free
      refine ⟨_, attempt_eq_ok_iff.mpr ⟨left, State.moved_eq_ok_iff.mpr ⟨freeBack, rfl⟩⟩, ?_, ?_⟩
      · simp [State.charged, world]
      · simp [State.charged, robot]
  | turnLeft =>
      cases took
      refine ⟨_, attempt_eq_ok_iff.mpr ⟨left, rfl⟩, world, ?_⟩
      simp [State.turned, State.charged, robot]
  | turnRight =>
      cases took
      refine ⟨_, attempt_eq_ok_iff.mpr ⟨left, rfl⟩, world, ?_⟩
      simp [State.turned, State.charged, robot]
  | pick => exact isMove.elim
  | put => exact isMove.elim

namespace State

theorem inside_of_attempt {action : Action} {before after : State}
    (inside : before.world.Inside before.robot.cell)
    (tried : action.attempt before = ⟨after, none⟩) : after.world.Inside after.robot.cell := by
  have connected := (ConnectedTo.refl before).travels (.of_attempt action before)
  rw [tried] at connected
  exact connected.inside inside

/-- A robot that looks the other way takes moves back by the mirrored ones, the last one first. -/
theorem perform_mirrored {state reached turned : State} {walk : List Action}
    (inside : state.world.Inside state.robot.cell) (onlyMoves : ∀ move ∈ walk, move.IsMove)
    (walked : state.perform walk = some reached) (opposes : reached.Opposes turned)
    (left : turned.steps + walk.length ≤ turned.maxSteps) :
    ∃ back, turned.perform (walk.reverse.map Action.mirrored) = some back ∧
      state.Opposes back := by
  induction walk generalizing state with
  | nil =>
      cases walked
      exact ⟨turned, rfl, opposes⟩
  | cons move rest ih =>
      -- The first move of the walk is the last one of the way back, so the others come before it.
      obtain ⟨next, tried, others⟩ := perform_cons_eq_some_iff.mp walked
      rw [List.length_cons, Int.natCast_succ] at left
      obtain ⟨middle, performed, opposesMiddle⟩ :=
        ih (inside_of_attempt inside tried)
          (fun other among => onlyMoves other (List.mem_cons_of_mem move among)) others (by omega)
      obtain ⟨steps, maxSteps⟩ := steps_perform performed
      have isMove := onlyMoves move List.mem_cons_self
      have stepLeft : middle.steps < middle.maxSteps := by
        rw [steps, maxSteps, List.length_map, List.length_reverse]
        omega
      obtain ⟨back, taken, opposesBack⟩ := isMove.taken_back inside tried opposesMiddle stepLeft
      refine ⟨back, ?_, opposesBack⟩
      rw [List.reverse_cons, List.map_append]
      exact perform_concat performed taken

/-- Every successful walk can be retraced. If the robot is on the grid and makes moves that all
succeed, then turning about, making the moves in reverse with left and right exchanged, and turning
about again succeeds too, provided that there are steps enough for it all. It leaves the robot in
the cell where it was, looking as it did, with the bag it had, in a world that has not changed. -/
theorem walk_can_be_retraced {state reached : State} {walk : List Action}
    (inside : state.world.Inside state.robot.cell) (onlyMoves : ∀ move ∈ walk, move.IsMove)
    (walked : state.perform walk = some reached)
    (enough : state.steps + 2 * walk.length + 4 ≤ state.maxSteps) :
    ∃ final,
      reached.perform ([.turnLeft, .turnLeft] ++ walk.reverse.map Action.mirrored ++
        [.turnLeft, .turnLeft]) = some final ∧
      final.robot = state.robot ∧ final.world = state.world := by
  obtain ⟨steps, maxSteps⟩ := steps_perform walked
  obtain ⟨turned, turns, opposes⟩ : ∃ turned,
      reached.perform [.turnLeft, .turnLeft] = some turned ∧ reached.Opposes turned :=
    perform_turnAbout (by omega)
  obtain ⟨turnedSteps, turnedMax⟩ := steps_perform turns
  simp only [List.length_cons, List.length_nil] at turnedSteps
  obtain ⟨back, returns, opposesBack⟩ :=
    perform_mirrored inside onlyMoves walked opposes (by omega)
  obtain ⟨backSteps, backMax⟩ := steps_perform returns
  rw [List.length_map, List.length_reverse] at backSteps
  obtain ⟨final, turnsAgain, opposesFinal⟩ : ∃ final,
      back.perform [.turnLeft, .turnLeft] = some final ∧ back.Opposes final :=
    perform_turnAbout (by omega)
  refine ⟨final, ?_, opposesBack.twice opposesFinal⟩
  exact perform_append (perform_append turns returns) turnsAgain

/-- A walk past walls that are recorded on one side only, up to the win row, with not a step to
spare. -/
theorem walk_can_be_retraced_walled :
    let walled : State :=
      { world :=
          { width := 3, height := 3, beepers := [(⟨1, 1⟩, 2)]
            walls := [⟨⟨1, 1⟩, .east⟩, ⟨⟨0, 0⟩, .south⟩] }
        robot := { cell := ⟨0, 2⟩, bag := 1 }
        maxSteps := 14 }
    let walk : List Action := [.forward, .turnRight, .forward, .turnLeft, .forward]
    walled.world.Inside walled.robot.cell ∧ (∀ move ∈ walk, move.IsMove) ∧
      ∃ reached final, walled.perform walk = some reached ∧ reached.won = true ∧
        reached.perform [.turnLeft, .turnLeft, .forward, .turnRight, .forward, .turnLeft, .forward,
          .turnLeft, .turnLeft] = some final ∧
        final.robot = walled.robot ∧ final.world = walled.world := by
  intro walled walk
  have inside : walled.world.Inside walled.robot.cell := by decide
  have onlyMoves : ∀ move ∈ walk, move.IsMove := by simp [walk, Action.IsMove]
  obtain ⟨reached, walked, won⟩ : ∃ reached, walled.perform walk = some reached ∧
      reached.won = true := ⟨_, rfl, rfl⟩
  obtain ⟨final, returns, robot, world⟩ :=
    walk_can_be_retraced inside onlyMoves walked (by decide)
  exact ⟨inside, onlyMoves, reached, final, walked, won, returns, robot, world⟩

end State

end GridRobot
