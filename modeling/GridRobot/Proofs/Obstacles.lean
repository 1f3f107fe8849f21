import GridRobot.Level
import GridRobot.Proofs.Connectivity

/-!
# Blocked cells

A level is laid out by writing walls into one list: those of the border, and for each blocked cell
those around it, on both sides of an edge where there is a cell on the other side. Between two cells
of the grid there is a wall then exactly if one of the two is blocked. So the robot, which never
starts in a blocked cell, never gets into one.

Which cells are blocked depends on the order in which a generator puts the cells that may be. All
that matters about it is that no cell is lost or made.
-/

namespace GridRobot

/-- The wall on the other side of the same edge. -/
def Wall.mirrored (wall : Wall) : Wall :=
  ⟨wall.cell.neighbour wall.side, wall.side.opposite⟩

@[simp] theorem Wall.mirrored_mirrored (wall : Wall) : wall.mirrored.mirrored = wall := by
  simp [mirrored]

namespace World

variable {world : World} {cells : List Cell} {wall : Wall}

/-! ## The walls of a level -/

theorem addWalls_append (world : World) (first second : List Wall) :
    world.addWalls (first ++ second) = (world.addWalls first).addWalls second :=
  List.foldl_append

/-- Adding walls changes the walls and nothing else. -/
theorem addWalls_eq (world : World) (walls : List Wall) :
    world.addWalls walls = { world with walls := (world.addWalls walls).walls } := by
  induction walls generalizing world with
  | nil => rfl
  | cons wall rest ih => exact ih (world.addWall wall)

@[simp] theorem mem_walls_addWalls (walls : List Wall) :
    wall ∈ (world.addWalls walls).walls ↔ wall ∈ walls ∨ wall ∈ world.walls := by
  induction walls generalizing world with
  | nil => simp [addWalls]
  | cons first rest ih =>
      have later : wall ∈ ((world.addWall first).addWalls rest).walls ↔ _ := ih
      rw [addWalls, List.foldl_cons, ← addWalls, later, mem_walls_addWall, List.mem_cons]
      tauto

/-- The walls around a blocked cell, on both sides of each edge inside the grid. -/
def wallsAround (world : World) (cell : Cell) : List Wall :=
  Direction.all.flatMap fun side => world.edgeWalls ⟨cell, side⟩

theorem edgeWalls_addWalls (world : World) (walls : List Wall) (wall : Wall) :
    (world.addWalls walls).edgeWalls wall = world.edgeWalls wall := by
  rw [addWalls_eq]
  rfl

theorem addBlocked_addWalls (world : World) (walls : List Wall) (cell : Cell) :
    (world.addWalls walls).addBlocked cell = world.addWalls (walls ++ world.wallsAround cell) := by
  simp only [addBlocked, wallsAround, Direction.all, addEdge, List.foldl_cons, List.foldl_nil,
    List.flatMap_cons, List.flatMap_nil, List.append_nil, ← addWalls_append, edgeWalls_addWalls,
    List.append_assoc]

/-- A level has its border and, in any order, the walls around its blocked cells. -/
theorem addObstacles_eq (world : World) (cells : List Cell) :
    world.addObstacles cells =
      world.addWalls (world.borderWalls ++ cells.flatMap world.wallsAround) := by
  unfold addObstacles addBorder
  generalize world.borderWalls = walls
  induction cells generalizing walls with
  | nil => simp
  | cons cell rest ih =>
      rw [List.foldl_cons, addBlocked_addWalls, ih, List.flatMap_cons, List.append_assoc]

theorem mem_edgeWalls_iff {other : Wall} :
    wall ∈ world.edgeWalls other ↔
      wall = other ∨ (world.Inside other.mirrored.cell ∧ wall = other.mirrored) := by
  simp only [edgeWalls, Wall.mirrored]
  split <;> simp [*]

theorem mem_wallsAround_iff {cell : Cell} :
    wall ∈ world.wallsAround cell ↔
      wall.cell = cell ∨ (world.Inside wall.cell ∧ wall.mirrored.cell = cell) := by
  simp only [wallsAround, List.mem_flatMap, Direction.mem_all, true_and, mem_edgeWalls_iff]
  constructor
  · rintro ⟨side, rfl | ⟨inside, rfl⟩⟩
    · exact .inl rfl
    · right
      rw [Wall.mirrored_mirrored]
      exact ⟨inside, rfl⟩
  · rintro (rfl | ⟨inside, rfl⟩)
    · exact ⟨wall.side, .inl rfl⟩
    · refine ⟨wall.mirrored.side, .inr ?_⟩
      have same : (⟨wall.mirrored.cell, wall.mirrored.side⟩ : Wall).mirrored = wall :=
        wall.mirrored_mirrored
      rw [same]
      exact ⟨inside, rfl⟩

/-- The walls of the border lead off the grid. -/
theorem not_inside_of_mem_borderWalls (among : wall ∈ world.borderWalls) :
    ¬ world.Inside wall.mirrored.cell := by
  simp only [borderWalls, upTo, List.mem_append, List.mem_flatMap, List.mem_map, List.mem_cons,
    List.not_mem_nil, or_false] at among
  rcases among with ⟨x, -, rfl | rfl⟩ | ⟨y, -, rfl | rfl⟩ <;>
    simp only [Wall.mirrored, Cell.neighbour, Direction.dx, Direction.dy, Inside] <;> omega

/-- The walls of a level on an empty grid. -/
theorem mem_walls_addObstacles_iff (empty : world.walls = []) :
    wall ∈ (world.addObstacles cells).walls ↔
      wall ∈ world.borderWalls ∨ wall.cell ∈ cells ∨
        (world.Inside wall.cell ∧ wall.mirrored.cell ∈ cells) := by
  simp only [addObstacles_eq, mem_walls_addWalls, empty, List.not_mem_nil, or_false,
    List.mem_append, List.mem_flatMap, mem_wallsAround_iff]
  constructor
  · rintro (border | ⟨cell, among, rfl | ⟨inside, rfl⟩⟩)
    · exact .inl border
    · exact .inr (.inl among)
    · exact .inr (.inr ⟨inside, among⟩)
  · rintro (border | among | ⟨inside, among⟩)
    · exact .inl border
    · exact .inr ⟨_, among, .inl rfl⟩
    · exact .inr ⟨_, among, .inr ⟨inside, rfl⟩⟩

/-- Between two cells of the grid there is a wall exactly if one of them is blocked. -/
theorem mem_walls_between_iff (empty : world.walls = []) (inside : world.Inside wall.cell)
    (opposite : world.Inside wall.mirrored.cell) :
    wall ∈ (world.addObstacles cells).walls ↔ wall.cell ∈ cells ∨ wall.mirrored.cell ∈ cells := by
  have within : wall ∉ world.borderWalls :=
    fun border => not_inside_of_mem_borderWalls border opposite
  rw [mem_walls_addObstacles_iff empty]
  simp only [within, inside, true_and, false_or]

theorem inside_addObstacles_iff (cell : Cell) :
    (world.addObstacles cells).Inside cell ↔ world.Inside cell := by
  rw [addObstacles_eq, addWalls_eq]
  rfl

theorem winRow_addObstacles : (world.addObstacles cells).winRow = world.winRow := by
  rw [addObstacles_eq, addWalls_eq]

theorem blocked_addObstacles_iff (empty : world.walls = []) {cell : Cell}
    (inside : world.Inside cell) (direction : Direction) :
    (world.addObstacles cells).blocked cell direction = true ↔
      ¬ world.Inside (cell.neighbour direction) ∨ cell ∈ cells ∨
        cell.neighbour direction ∈ cells := by
  let wall : Wall := ⟨cell, direction⟩
  have blocked_iff : (world.addObstacles cells).blocked cell direction = true ↔
      ¬ world.Inside wall.mirrored.cell ∨ wall ∈ (world.addObstacles cells).walls ∨
        wall.mirrored ∈ (world.addObstacles cells).walls := by
    simp [blocked, inside_addObstacles_iff, wall, Wall.mirrored, or_assoc]
  rw [blocked_iff]
  by_cases opposite : world.Inside wall.mirrored.cell
  · have back : world.Inside wall.mirrored.mirrored.cell := by
      rwa [Wall.mirrored_mirrored]
    rw [mem_walls_between_iff empty inside opposite, mem_walls_between_iff empty opposite back,
      Wall.mirrored_mirrored, or_comm (a := wall.mirrored.cell ∈ cells), or_self]
    rfl
  · exact iff_of_true (.inl opposite) (.inl opposite)

/-- A wall with a cell of the grid on its other side is there on both sides. -/
theorem mirrored_mem_addObstacles (empty : world.walls = [])
    (onGrid : ∀ cell ∈ cells, world.Inside cell) (among : wall ∈ (world.addObstacles cells).walls)
    (opposite : world.Inside wall.mirrored.cell) :
    wall.mirrored ∈ (world.addObstacles cells).walls := by
  have inside : world.Inside wall.cell := by
    rcases (mem_walls_addObstacles_iff empty).mp among with border | blocked | ⟨inside, -⟩
    · exact (not_inside_of_mem_borderWalls border opposite).elim
    · exact onGrid _ blocked
    · exact inside
  have back : world.Inside wall.mirrored.mirrored.cell := by
    rwa [Wall.mirrored_mirrored]
  rw [mem_walls_between_iff empty opposite back, Wall.mirrored_mirrored, or_comm]
  exact (mem_walls_between_iff empty inside opposite).mp among

/-- Unblocked steps do not lead into a blocked cell. -/
theorem Path.not_mem_blocked {start goal : Cell} (empty : world.walls = [])
    (inside : world.Inside start) (free : start ∉ cells)
    (path : (world.addObstacles cells).Path start goal) : goal ∉ cells := by
  induction path with
  | here => exact free
  | @step cell direction earlier unblocked ih =>
      have onGrid : world.Inside cell := by
        rw [← inside_addObstacles_iff] at inside ⊢
        exact earlier.inside inside
      have passable : ¬ (world.addObstacles cells).blocked cell direction = true := by
        simp [unblocked]
      rw [blocked_addObstacles_iff empty onGrid, not_or, not_or] at passable
      exact passable.2.2

end World

/-- A robot that starts outside the blocked cells of a level never gets into one. -/
theorem State.play_not_mem_blocked {state : State} {grid : World} {cells : List Cell}
    (laid : state.world = grid.addObstacles cells) (empty : grid.walls = [])
    (inside : grid.Inside state.robot.cell) (free : state.robot.cell ∉ cells)
    (actions : List Action) : (state.play actions).robot.cell ∉ cells := by
  have path := ((ConnectedTo.refl state).play actions).path
  rw [laid] at path
  exact path.not_mem_blocked empty inside free

/-! ## The choice of cells -/

namespace Random

variable {α : Type}

theorem exchange_perm (items : Array α) (places : Nat × Nat) :
    (exchange items places).toList.Perm items.toList := by
  rw [exchange, Array.swapIfInBounds_def]
  split
  · split
    · exact (Array.swap_perm _ _).toList
    · exact .refl _
  · exact .refl _

theorem foldl_exchange_perm (places : List (Nat × Nat)) (items : Array α) :
    (places.foldl exchange items).toList.Perm items.toList := by
  induction places generalizing items with
  | nil => exact .refl _
  | cons first rest ih => exact (ih (exchange items first)).trans (exchange_perm items first)

/-- Shuffling neither loses nor makes items. -/
theorem shuffle_perm (seed : Int) (items : List α) : (shuffle seed items).Perm items :=
  foldl_exchange_perm _ items.toArray

end Random

namespace Level

theorem inOrderOf_perm {α : Type} (seed : Option Int) (items : List α) :
    (inOrderOf seed items).Perm items := by
  cases seed with
  | none => exact .refl _
  | some seed => exact Random.shuffle_perm seed items

theorem firstItems_sublist {α : Type} (items : List α) (count : Int) :
    (firstItems items count).Sublist items := by
  unfold firstItems
  split <;> exact List.take_sublist _ _

theorem mem_upTo_iff {size value : Int} : value ∈ World.upTo size ↔ 0 ≤ value ∧ value < size := by
  simp only [World.upTo, List.mem_map, List.mem_range]
  constructor
  · rintro ⟨index, small, rfl⟩
    simp only [Int.ofNat_eq_natCast]
    omega
  · rintro ⟨low, high⟩
    exact ⟨value.toNat, by omega, Int.toNat_of_nonneg low⟩

theorem mem_candidates_iff {width height : Int} {excluded : List Cell} {forbiddenRow : Option Int}
    {cell : Cell} :
    cell ∈ candidates width height excluded forbiddenRow ↔
      World.Inside { width, height } cell ∧ some cell.y ≠ forbiddenRow ∧ cell ∉ excluded := by
  simp only [candidates, List.mem_flatMap, List.mem_filter, List.mem_map, mem_upTo_iff,
    bne_iff_ne, Bool.not_eq_true', List.contains_eq_mem, decide_eq_false_iff_not, World.Inside]
  constructor
  · rintro ⟨y, ⟨⟨top, bottom⟩, row⟩, ⟨x, ⟨left, right⟩, rfl⟩, kept⟩
    exact ⟨⟨left, right, top, bottom⟩, row, kept⟩
  · rintro ⟨⟨left, right, top, bottom⟩, row, kept⟩
    exact ⟨cell.y, ⟨⟨top, bottom⟩, row⟩, ⟨cell.x, ⟨left, right⟩, rfl⟩, kept⟩

/-- Whether cells to block are the first ones, as many as the count says, of those that may be
blocked, in some order. -/
def Chosen (width height count : Int) (excluded : List Cell) (forbiddenRow : Option Int)
    (cells : List Cell) : Prop :=
  ∃ order, order.Perm (candidates width height excluded forbiddenRow) ∧
    cells = firstItems order count

theorem chosen_blockedCells (width height count : Int) (excluded : List Cell)
    (forbiddenRow seed : Option Int) :
    Chosen width height count excluded forbiddenRow
      (blockedCells width height count excluded forbiddenRow seed) :=
  ⟨_, inOrderOf_perm seed _, rfl⟩

theorem Chosen.mem_candidates {width height count : Int} {excluded cells : List Cell}
    {forbiddenRow : Option Int} (chosen : Chosen width height count excluded forbiddenRow cells)
    {cell : Cell} (among : cell ∈ cells) :
    cell ∈ candidates width height excluded forbiddenRow := by
  obtain ⟨order, perm, rfl⟩ := chosen
  exact perm.subset ((firstItems_sublist order count).subset among)

/-! ## Levels -/

/-- Whether the blocked cells of a state mean what they should: its walls are those of the border
and of these cells, which are on the grid but not on the win row, and the robot is in none of them,
whatever it tries. -/
structure Obstructs (cells : List Cell) (state : State) : Prop where
  laid : ∃ grid : World, grid.walls = [] ∧ (∀ cell ∈ cells, grid.Inside cell) ∧
    state.world = grid.addObstacles cells
  row : ∀ cell ∈ cells, cell.y ≠ state.world.winRow
  start : state.robot.cell ∉ cells
  play : ∀ actions, (state.play actions).robot.cell ∉ cells

theorem obstructs_of_chosen {state : State} {grid : World} {count : Int} {cells : List Cell}
    (laid : state.world = grid.addObstacles cells) (empty : grid.walls = [])
    (inside : grid.Inside state.robot.cell)
    (chosen : Chosen grid.width grid.height count [state.robot.cell] (some grid.winRow) cells) :
    Obstructs cells state := by
  have allowed (cell : Cell) (among : cell ∈ cells) :=
    mem_candidates_iff.mp (chosen.mem_candidates among)
  have free : state.robot.cell ∉ cells := by
    intro among
    exact (allowed _ among).2.2 (List.mem_singleton_self _)
  constructor
  · exact ⟨grid, empty, fun cell among => (allowed cell among).1, laid⟩
  · intro cell among onRow
    rw [laid, World.winRow_addObstacles] at onRow
    exact (allowed cell among).2.1 (congrArg some onRow)
  · exact free
  · exact State.play_not_mem_blocked laid empty inside free

/-- The walls of a level mean exactly its blocked cells. On an empty grid with some of its cells
blocked, a step from one cell is stopped exactly if it leads off the grid, or if one of the two
cells is blocked; and a wall between two cells of the grid is there on both sides. The cells of a
new level, and those chosen anew for a state, come from an order of the cells that may be blocked.
Whatever this order is, none of them is on the win row, the robot starts in none of them, and it
gets into none of them, whatever it tries. -/
theorem walls_mean_blocked_cells :
    (∀ (world : World) (cells : List Cell), world.walls = [] →
      (∀ cell ∈ cells, world.Inside cell) →
        (∀ cell direction, world.Inside cell →
          ((world.addObstacles cells).blocked cell direction = true ↔
            ¬ world.Inside (cell.neighbour direction) ∨ cell ∈ cells ∨
              cell.neighbour direction ∈ cells)) ∧
        ∀ wall ∈ (world.addObstacles cells).walls, world.Inside wall.mirrored.cell →
          wall.mirrored ∈ (world.addObstacles cells).walls) ∧
    (∀ plan : Plan, World.Inside { width := plan.width, height := plan.height } plan.startCell →
      let Choice := Chosen plan.width plan.height plan.obstacles [plan.startCell] (some 0)
      plan.build = .ok (plan.level plan.blocked) ∧ Choice plan.blocked ∧
        ∀ cells, Choice cells → Obstructs cells (plan.level cells)) ∧
    ∀ (state : State) (count : Int), state.world.Inside state.robot.cell →
      let Choice := Chosen state.world.width state.world.height count [state.robot.cell]
        (some state.world.winRow)
      (∀ seed, reroll state count seed = reblocked state (rerolled state count seed) ∧
        Choice (rerolled state count seed)) ∧
        ∀ cells, Choice cells → Obstructs cells (reblocked state cells) := by
  refine ⟨?_, ?_, ?_⟩
  · intro world cells empty onGrid
    constructor
    · intro cell direction inside
      exact World.blocked_addObstacles_iff empty inside direction
    · intro wall among opposite
      exact World.mirrored_mem_addObstacles empty onGrid among opposite
  · intro plan inside Choice
    refine ⟨?_, chosen_blockedCells _ _ _ _ _ _, ?_⟩
    · obtain ⟨left, right, top, bottom⟩ := inside
      exact if_neg (by simp only at right bottom; omega)
    · intro cells chosen
      exact obstructs_of_chosen rfl rfl inside chosen
  · intro state count inside Choice
    constructor
    · exact fun seed => ⟨rfl, chosen_blockedCells _ _ _ _ _ _⟩
    · intro cells chosen
      have laid : (reblocked state cells).world =
          World.addObstacles { state.world with walls := [] } cells := rfl
      exact obstructs_of_chosen laid rfl inside chosen

theorem walls_mean_blocked_cells_middle :
    let plan : Plan := { width := 3, height := 3, obstacles := 2, start := some ⟨1, 2⟩ }
    let grid : World := { width := 3, height := 3 }
    let cells : List Cell := [⟨1, 1⟩, ⟨2, 1⟩]
    let attempts : List Action :=
      [.forward, .turnLeft, .forward, .turnRight, .forward, .turnRight, .forward, .forward]
    (grid.addObstacles cells).blocked ⟨1, 0⟩ .south = true ∧
      Chosen plan.width plan.height plan.obstacles [plan.startCell] (some 0) cells ∧
        Obstructs cells (plan.level cells) ∧
          ((plan.level cells).play attempts).robot.cell = ⟨0, 1⟩ := by
  intro plan grid cells attempts
  have onGrid : ∀ cell ∈ cells, grid.Inside cell := by decide
  have beside : Cell.neighbour ⟨1, 0⟩ .south ∈ cells := by decide
  have means := (walls_mean_blocked_cells.1 grid cells rfl onGrid).1 ⟨1, 0⟩ .south (by decide)
  have chosen : Chosen plan.width plan.height plan.obstacles [plan.startCell] (some 0) cells :=
    ⟨[⟨1, 1⟩, ⟨2, 1⟩, ⟨0, 1⟩, ⟨2, 2⟩, ⟨0, 2⟩], by decide, rfl⟩
  have obstructs := (walls_mean_blocked_cells.2.1 plan (by decide)).2.2 cells chosen
  exact ⟨means.mpr (.inr (.inr beside)), chosen, obstructs, by decide +kernel⟩

end Level

end GridRobot
