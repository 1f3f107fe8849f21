import GridRobot.World.Action
import GridRobot.World.Sensor
import Mathlib.Data.List.Nodup
import Mathlib.Data.List.Perm.Subperm
import Mathlib.Data.List.ProdSigma

/-!
# Reachability of the win row

The search for the win row ends, and it answers yes exactly if unblocked steps lead from the robot's
cell to the win row. `Searching` is what every round of the search keeps: the cells seen so far can
be reached, and only those in the queue may have exits that were not seen yet.

Unblocked steps are what the robot itself can take, given steps enough: it turns until it looks the
right way and goes forward.
-/

namespace GridRobot

theorem Direction.eq_of_deltas {first second : Direction} (columns : first.dx = second.dx)
    (rows : first.dy = second.dy) : first = second := by
  cases first <;> cases second <;> simp_all [dx, dy]

theorem Cell.neighbour_injective (cell : Cell) : Function.Injective cell.neighbour := by
  intro first second equal
  simp only [neighbour, mk.injEq] at equal
  exact Direction.eq_of_deltas (by omega) (by omega)

namespace World

variable {world : World} {start : Cell}

theorem nodup_freshExits (seen : List Cell) (cell : Cell) :
    (world.freshExits seen cell).Nodup := by
  have distinct : Direction.all.Nodup := by decide
  exact ((distinct.filter _).map cell.neighbour_injective).filter _

theorem inside_of_mem_exits {cell exit : Cell} (found : exit ∈ world.exits cell) :
    world.Inside exit := by
  obtain ⟨direction, unblocked, rfl⟩ := (world.mem_exits_iff cell exit).mp found
  exact ((world.blocked_eq_false_iff cell direction).mp unblocked).1

/-! ## The cells of the grid -/

/-- The cells of the grid. -/
def gridCells (world : World) : List Cell :=
  (List.range world.width.toNat ×ˢ List.range world.height.toNat).map fun place =>
    ⟨place.1, place.2⟩

theorem length_gridCells : world.gridCells.length = world.cellCount := by
  simp [gridCells, cellCount, List.length_product]

theorem mem_gridCells {cell : Cell} (inside : world.Inside cell) : cell ∈ world.gridCells := by
  obtain ⟨left, right, top, bottom⟩ := inside
  simp only [gridCells, List.mem_map, List.mem_product, List.mem_range, Prod.exists]
  refine ⟨cell.x.toNat, cell.y.toNat, ⟨by omega, by omega⟩, ?_⟩
  ext <;> simp <;> omega

/-! ## The search -/

/-- What holds between two rounds of a search from a cell. -/
structure Searching (world : World) (start : Cell) (queue seen : List Cell) : Prop where
  nodup : seen.Nodup
  seenStart : start ∈ seen
  onGrid : ∀ cell ∈ seen, cell = start ∨ world.Inside cell
  reached : ∀ cell ∈ seen, world.Path start cell
  queued : ∀ cell ∈ queue, cell ∈ seen
  closed : ∀ cell ∈ seen, cell ∉ queue →
    cell.y ≠ world.winRow ∧ ∀ exit ∈ world.exits cell, exit ∈ seen

namespace Searching

variable {queue seen : List Cell} {cell : Cell}

theorem first (world : World) (start : Cell) : world.Searching start [start] [start] where
  nodup := List.nodup_singleton start
  seenStart := List.mem_singleton_self start
  onGrid := by simp
  reached := by
    intro cell found
    rw [List.mem_singleton] at found
    exact found ▸ .here
  queued := by simp
  closed := by simp

/-- No more cells are seen than the grid has, apart from the first. -/
theorem length_le (searching : world.Searching start queue seen) :
    seen.length ≤ world.cellCount + 1 := by
  have bounded : seen ⊆ start :: world.gridCells := by
    intro cell found
    rcases searching.onGrid cell found with equal | inside
    · simp [equal]
    · exact List.mem_cons_of_mem start (mem_gridCells inside)
  have shorter := (searching.nodup.subperm bounded).length_le
  simpa [length_gridCells] using shorter

/-- Taking a cell off the queue and its new exits into it keeps what a search knows. -/
theorem next (searching : world.Searching start (cell :: queue) seen)
    (elsewhere : cell.y ≠ world.winRow) :
    world.Searching start (queue ++ world.freshExits seen cell)
      (world.freshExits seen cell ++ seen) := by
  have grows : ∀ place ∈ seen, place ∈ world.freshExits seen cell ++ seen :=
    fun place found => List.mem_append_right _ found
  have cellSeen : cell ∈ seen := searching.queued cell (by simp)
  constructor
  case nodup =>
    refine List.Nodup.append (nodup_freshExits seen cell) searching.nodup ?_
    intro place fresh old
    exact ((world.mem_freshExits_iff seen cell place).mp fresh).2 old
  case seenStart => exact grows start searching.seenStart
  case onGrid =>
    intro place found
    rcases List.mem_append.mp found with fresh | old
    · right
      exact inside_of_mem_exits ((world.mem_freshExits_iff seen cell place).mp fresh).1
    · exact searching.onGrid place old
  case reached =>
    intro place found
    rcases List.mem_append.mp found with fresh | old
    · have exit := ((world.mem_freshExits_iff seen cell place).mp fresh).1
      obtain ⟨direction, unblocked, rfl⟩ := (world.mem_exits_iff cell place).mp exit
      exact .step direction (searching.reached cell cellSeen) unblocked
    · exact searching.reached place old
  case queued =>
    intro place found
    rcases List.mem_append.mp found with old | fresh
    · exact grows place (searching.queued place (by simp [old]))
    · exact List.mem_append_left _ fresh
  case closed =>
    intro place found waiting
    simp only [List.mem_append, not_or] at waiting
    have old : place ∈ seen := (List.mem_append.mp found).resolve_left waiting.2
    by_cases taken : place = cell
    · subst taken
      refine ⟨elsewhere, fun exit leads => ?_⟩
      by_cases known : exit ∈ seen
      · exact grows exit known
      · exact List.mem_append_left _ ((world.mem_freshExits_iff seen place exit).mpr ⟨leads, known⟩)
    · obtain ⟨away, exits⟩ := searching.closed place old (by simp [taken, waiting.1])
      exact ⟨away, fun exit leads => grows exit (exits exit leads)⟩

/-- Once the queue is empty, every cell that can be reached was seen, and none is on the win row. -/
theorem exhausted (searching : world.Searching start [] seen) {goal : Cell}
    (path : world.Path start goal) : goal ∈ seen ∧ goal.y ≠ world.winRow := by
  have found : goal ∈ seen := by
    induction path with
    | here => exact searching.seenStart
    | @step cell direction _ unblocked ih =>
        have exit : cell.neighbour direction ∈ world.exits cell :=
          (world.mem_exits_iff cell _).mpr ⟨direction, unblocked, rfl⟩
        exact (searching.closed cell ih (by simp)).2 _ exit
  exact ⟨found, (searching.closed goal found (by simp)).1⟩

end Searching

/-- A search that is given a round for each cell in the queue, for each cell of the grid not seen
yet, and for the end, has an answer, and the answer is right. -/
theorem searchWin_eq_some {queue seen : List Cell}
    (searching : world.Searching start queue seen) {rounds : Nat}
    (enough : queue.length + (world.cellCount + 1 - seen.length) < rounds) :
    ∃ answer, world.searchWin rounds queue seen = some answer ∧
      (answer = true ↔ ∃ goal, world.Path start goal ∧ goal.y = world.winRow) := by
  induction rounds generalizing queue seen with
  | zero => omega
  | succ rounds ih =>
      cases queue with
      | nil =>
          refine ⟨false, rfl, ?_⟩
          simp only [Bool.false_eq_true, false_iff, not_exists, not_and]
          exact fun goal path => (searching.exhausted path).2
      | cons cell queue =>
          rw [searchWin]
          by_cases here : cell.y = world.winRow
          · rw [if_pos here]
            refine ⟨true, rfl, ?_⟩
            have path := searching.reached cell (searching.queued cell (by simp))
            simpa using ⟨cell, path, here⟩
          · rw [if_neg here]
            have next := searching.next here
            have bounded := next.length_le
            refine ih next ?_
            simp only [List.length_append, List.length_cons] at bounded enough ⊢
            omega

/-- The search from a cell has an answer after a round for each cell of the grid and two more, and
the answer is right. -/
theorem searchWin_start (world : World) (start : Cell) {rounds : Nat}
    (enough : world.cellCount + 2 ≤ rounds) :
    ∃ answer, world.searchWin rounds [start] [start] = some answer ∧
      (answer = true ↔ ∃ goal, world.Path start goal ∧ goal.y = world.winRow) := by
  refine searchWin_eq_some (Searching.first world start) ?_
  simp only [List.length_singleton]
  omega

theorem winReachableFrom_iff (world : World) (start : Cell) :
    world.winReachableFrom start = true ↔
      ∃ goal, world.Path start goal ∧ goal.y = world.winRow := by
  obtain ⟨answer, found, right⟩ := world.searchWin_start start (Nat.le_refl _)
  rw [winReachableFrom, found]
  simpa using right

/-- More rounds than are needed do not change the answer. -/
theorem searchWin_eq_winReachableFrom (world : World) (start : Cell) {rounds : Nat}
    (enough : world.cellCount + 2 ≤ rounds) :
    world.searchWin rounds [start] [start] = some (world.winReachableFrom start) := by
  obtain ⟨answer, found, right⟩ := world.searchWin_start start enough
  rw [found, Option.some.injEq, Bool.eq_iff_iff, right, winReachableFrom_iff]

end World

/-! ## Moves of the robot -/

/-- Whether an action moves or turns the robot. -/
def Action.IsMove : Action → Prop
  | .forward | .turnLeft | .turnRight => True
  | .pick | .put => False

/-- The state after actions that all succeed. -/
def State.perform (state : State) : List Action → Option State
  | [] => some state
  | action :: rest =>
      match action.attempt state with
      | ⟨next, none⟩ => next.perform rest
      | ⟨_, some _⟩ => none

namespace State

theorem perform_cons_eq_some_iff {state final : State} {action : Action}
    {rest : List Action} :
    state.perform (action :: rest) = some final ↔
      ∃ next, action.attempt state = ⟨next, none⟩ ∧ next.perform rest = some final := by
  rw [perform]
  cases tried : action.attempt state with
  | mk next fault => cases fault <;> simp

theorem perform_append {state middle final : State} {earlier later : List Action}
    (first : state.perform earlier = some middle) (second : middle.perform later = some final) :
    state.perform (earlier ++ later) = some final := by
  induction earlier generalizing state with
  | nil =>
      cases first
      exact second
  | cons action rest ih =>
      obtain ⟨next, tried, others⟩ := perform_cons_eq_some_iff.mp first
      exact perform_cons_eq_some_iff.mpr ⟨next, tried, ih others⟩

theorem perform_concat {state middle final : State} {actions : List Action} {action : Action}
    (performed : state.perform actions = some middle)
    (tried : action.attempt middle = ⟨final, none⟩) :
    state.perform (actions ++ [action]) = some final := by
  apply perform_append performed
  exact perform_cons_eq_some_iff.mpr ⟨final, tried, rfl⟩

end State

/-- What a move that succeeds does: the world stays, and the robot stays in its cell or takes an
unblocked step. -/
theorem Action.IsMove.effect {action : Action} (move : action.IsMove) {state next : State}
    (took : action.effect state = .ok next) :
    next.world = state.world ∧
      (next.robot.cell = state.robot.cell ∨
        ∃ direction, state.world.blocked state.robot.cell direction = false ∧
          next.robot.cell = state.robot.cell.neighbour direction) := by
  cases action with
  | forward =>
      simp only [Action.effect, State.moved] at took
      split at took
      · cases took
      · next unblocked =>
          cases took
          refine ⟨by simp, .inr ⟨state.robot.facing, by simpa using unblocked, by simp⟩⟩
  | turnLeft =>
      cases took
      exact ⟨rfl, .inl rfl⟩
  | turnRight =>
      cases took
      exact ⟨rfl, .inl rfl⟩
  | pick => exact move.elim
  | put => exact move.elim

/-- Moves that succeed lead along unblocked steps. -/
theorem State.perform_path {world : World} {start : Cell} {state final : State}
    {moves : List Action} (same : state.world = world)
    (path : world.Path start state.robot.cell) (onlyMoves : ∀ move ∈ moves, move.IsMove)
    (performed : state.perform moves = some final) :
    final.world = world ∧ world.Path start final.robot.cell := by
  induction moves generalizing state with
  | nil =>
      cases performed
      exact ⟨same, path⟩
  | cons move rest ih =>
      obtain ⟨next, tried, others⟩ := perform_cons_eq_some_iff.mp performed
      have took := (Action.attempt_eq_ok_iff.mp tried).2
      obtain ⟨worldSame, cell⟩ := (onlyMoves move (by simp)).effect took
      have further : world.Path start next.robot.cell := by
        rcases cell with stays | ⟨direction, unblocked, stepped⟩
        · rw [stays]
          exact path
        · rw [stepped]
          exact .step direction path (same ▸ unblocked)
      exact ih (worldSame.trans same) further
        (fun other found => onlyMoves other (by simp [found])) others

/-- Every direction is reached by turning left. -/
theorem Direction.left_induction {motive : Direction → Prop} {facing : Direction}
    (start : motive facing) (turn : ∀ direction, motive direction → motive direction.left)
    (direction : Direction) : motive direction := by
  have once := turn _ start
  have twice := turn _ once
  have thrice := turn _ twice
  cases facing <;> cases direction <;> assumption

/-- `Leads state moves cell facing` says that moves take the robot to a cell and leave it looking in
a direction, whenever as many steps are allowed as there are moves. -/
structure State.Leads (state : State) (moves : List Action) (cell : Cell)
    (facing : Direction) : Prop where
  onlyMoves : ∀ move ∈ moves, move.IsMove
  performs : ∀ maxSteps : Int, state.steps + moves.length ≤ maxSteps →
    ∃ final, { state with maxSteps }.perform moves = some final ∧
      final.world = state.world ∧ final.robot.cell = cell ∧ final.robot.facing = facing ∧
        final.steps = state.steps + moves.length ∧ final.maxSteps = maxSteps

namespace State.Leads

variable {state : State} {moves : List Action} {cell : Cell} {facing : Direction}

theorem stay (state : State) : state.Leads [] state.robot.cell state.robot.facing where
  onlyMoves := by simp
  performs := by
    intro maxSteps _
    exact ⟨{ state with maxSteps }, rfl, rfl, rfl, rfl, by simp, rfl⟩

/-- One more move, if it can take effect wherever the moves before it lead. -/
theorem concat {move : Action} {nextCell : Cell} {nextFacing : Direction}
    (leads : state.Leads moves cell facing) (isMove : move.IsMove)
    (takes : ∀ middle : State, middle.world = state.world → middle.robot.cell = cell →
      middle.robot.facing = facing →
        ∃ final, move.effect middle = .ok final ∧ final.world = middle.world ∧
          final.robot.cell = nextCell ∧ final.robot.facing = nextFacing ∧
            final.steps = middle.steps ∧ final.maxSteps = middle.maxSteps) :
    state.Leads (moves ++ [move]) nextCell nextFacing where
  onlyMoves := by
    intro other found
    rcases List.mem_append.mp found with earlier | last
    · exact leads.onlyMoves other earlier
    · rw [List.mem_singleton.mp last]
      exact isMove
  performs := by
    intro maxSteps enough
    simp only [List.length_append, List.length_singleton, Int.natCast_add] at enough ⊢
    obtain ⟨middle, performed, world, there, looks, steps, allowed⟩ :=
      leads.performs maxSteps (by omega)
    obtain ⟨final, took, finalWorld, finalCell, finalFacing, finalSteps, finalAllowed⟩ :=
      takes middle.charged world there looks
    have tried : move.attempt middle = ⟨final, none⟩ :=
      Action.attempt_eq_ok_iff.mpr ⟨by omega, took⟩
    refine ⟨final, perform_concat performed tried, finalWorld.trans world, finalCell,
      finalFacing, ?_, finalAllowed.trans allowed⟩
    simp only [finalSteps, charged, steps]
    omega

theorem turnLeft (leads : state.Leads moves cell facing) :
    state.Leads (moves ++ [.turnLeft]) cell facing.left := by
  refine leads.concat trivial ?_
  intro middle _ there looks
  exact ⟨_, rfl, rfl, there, congrArg Direction.left looks, rfl, rfl⟩

theorem forward (leads : state.Leads moves cell facing)
    (unblocked : state.world.blocked cell facing = false) :
    state.Leads (moves ++ [.forward]) (cell.neighbour facing) facing := by
  refine leads.concat trivial ?_
  intro middle world there looks
  refine ⟨noteWin { middle with
    robot := { middle.robot with cell := cell.neighbour facing } }, ?_, ?_⟩
  · simp [Action.effect, moved, advanced, world, there, looks, unblocked]
  · simp [looks]

/-- The robot can turn to any direction where it is. -/
theorem turnTo (leads : state.Leads moves cell facing) (direction : Direction) :
    ∃ further, state.Leads further cell direction := by
  refine Direction.left_induction (motive := fun turned => ∃ further,
    state.Leads further cell turned) ⟨moves, leads⟩ ?_ direction
  rintro turned ⟨further, led⟩
  exact ⟨_, led.turnLeft⟩

/-- The robot can follow unblocked steps. -/
theorem of_path {goal : Cell} (path : state.world.Path state.robot.cell goal) :
    ∃ moves facing, state.Leads moves goal facing := by
  induction path with
  | here => exact ⟨[], state.robot.facing, stay state⟩
  | step direction _ unblocked ih =>
      obtain ⟨moves, facing, leads⟩ := ih
      obtain ⟨further, turned⟩ := leads.turnTo direction
      exact ⟨_, direction, turned.forward unblocked⟩

end State.Leads

/-- Unblocked steps lead to the win row exactly if the robot can move there, given steps enough. -/
theorem State.path_iff_perform (state : State) :
    (∃ goal, state.world.Path state.robot.cell goal ∧ goal.y = state.world.winRow) ↔
      ∃ (maxSteps : Int) (moves : List Action) (final : State),
        (∀ move ∈ moves, move.IsMove) ∧ { state with maxSteps }.perform moves = some final ∧
          final.robot.cell.y = state.world.winRow := by
  constructor
  · rintro ⟨goal, path, onRow⟩
    obtain ⟨moves, facing, leads⟩ := Leads.of_path path
    obtain ⟨final, performed, -, there, -⟩ :=
      leads.performs (state.steps + moves.length) (Int.le_refl _)
    exact ⟨_, moves, final, leads.onlyMoves, performed, by rw [there, onRow]⟩
  · rintro ⟨maxSteps, moves, final, onlyMoves, performed, onRow⟩
    have path : state.world.Path state.robot.cell final.robot.cell :=
      (perform_path rfl .here onlyMoves performed).2
    exact ⟨final.robot.cell, path, onRow⟩

/-- The search for the win row ends after at most two rounds more than the grid has cells, and more
rounds would not change its answer. It answers yes exactly if unblocked steps lead from the robot's
cell to the win row, which is exactly if the robot can move there by moves that all succeed, given
steps enough. -/
theorem State.winReachable_decides (state : State) :
    (∀ rounds, state.world.cellCount + 2 ≤ rounds →
        state.world.searchWin rounds [state.robot.cell] [state.robot.cell] =
          some state.winReachable) ∧
      (state.winReachable = true ↔
        ∃ goal, state.world.Path state.robot.cell goal ∧ goal.y = state.world.winRow) ∧
      (state.winReachable = true ↔
        ∃ (maxSteps : Int) (moves : List Action) (final : State),
          (∀ move ∈ moves, move.IsMove) ∧ { state with maxSteps }.perform moves = some final ∧
            final.robot.cell.y = state.world.winRow) := by
  have right := state.world.winReachableFrom_iff state.robot.cell
  refine ⟨?_, right, right.trans state.path_iff_perform⟩
  intro rounds enough
  exact state.world.searchWin_eq_winReachableFrom state.robot.cell enough

end GridRobot
