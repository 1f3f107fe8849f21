import GridRobot.World.Direction

/-!
# The world

A grid with walls and beepers, a robot in it, and the record of a run. A wall belongs to one side
of one cell; an edge counts as blocked when either of its two sides has a wall, so a wall may be
recorded on one side only.
-/

namespace GridRobot

/-- A wall on one side of a cell. -/
structure Wall where
  cell : Cell
  side : Direction
  deriving DecidableEq, Repr

/-- A grid with its walls and its piles of beepers. The robot wins on the win row. -/
structure World where
  width : Int
  height : Int
  walls : List Wall := []
  beepers : List (Cell × Int) := []
  winRow : Int := 0
  deriving DecidableEq, Repr

namespace World

/-- Whether a cell lies on the grid. -/
def Inside (world : World) (cell : Cell) : Prop :=
  0 ≤ cell.x ∧ cell.x < world.width ∧ 0 ≤ cell.y ∧ cell.y < world.height

instance (world : World) (cell : Cell) : Decidable (world.Inside cell) :=
  inferInstanceAs (Decidable (_ ∧ _))

/-- Whether a step out of a cell is stopped by the edge of the grid or by a wall. -/
def blocked (world : World) (cell : Cell) (direction : Direction) : Bool :=
  let next := cell.neighbour direction
  !decide (world.Inside next) || world.walls.contains ⟨cell, direction⟩ ||
    world.walls.contains ⟨next, direction.opposite⟩

/-- The number of beepers recorded for a cell in a list of piles. -/
def pile (piles : List (Cell × Int)) (cell : Cell) : Int :=
  (piles.lookup cell).getD 0

/-- Records the number of beepers of a cell. -/
def setPile (piles : List (Cell × Int)) (cell : Cell) (count : Int) : List (Cell × Int) :=
  match piles with
  | [] => [(cell, count)]
  | (place, old) :: rest =>
      if place = cell then (place, count) :: rest else (place, old) :: setPile rest cell count

/-- The number of beepers in a cell. -/
def beepersAt (world : World) (cell : Cell) : Int :=
  pile world.beepers cell

/-- The world with the number of beepers of a cell changed. -/
def setBeepers (world : World) (cell : Cell) (count : Int) : World :=
  { world with beepers := setPile world.beepers cell count }

/-- The world with one more wall, on one side only. -/
def addWall (world : World) (wall : Wall) : World :=
  { world with walls := world.walls.insert wall }

theorem blocked_eq_false_iff (world : World) (cell : Cell) (direction : Direction) :
    world.blocked cell direction = false ↔
      world.Inside (cell.neighbour direction) ∧ ⟨cell, direction⟩ ∉ world.walls ∧
        ⟨cell.neighbour direction, direction.opposite⟩ ∉ world.walls := by
  simp [blocked, and_assoc]

@[simp] theorem mem_walls_addWall (world : World) (wall other : Wall) :
    other ∈ (world.addWall wall).walls ↔ other = wall ∨ other ∈ world.walls := by
  simp [addWall, List.mem_insert_iff]

end World

/-- The robot: where it is, where it looks, and how many beepers it carries. -/
structure Robot where
  cell : Cell
  facing : Direction := .north
  bag : Int := 0
  deriving DecidableEq, Repr

/-- The state of a run. -/
structure State where
  world : World
  robot : Robot
  steps : Int := 0
  maxSteps : Int := 2000
  log : List String := []
  won : Bool := false
  deriving DecidableEq, Repr

end GridRobot
