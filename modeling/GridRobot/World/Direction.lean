/-!
# Directions and cells

Row zero is the top of the grid, so a step to the north lowers the row number.
-/

namespace GridRobot

/-- The four directions of the grid. -/
inductive Direction where
  | north
  | east
  | south
  | west
  deriving DecidableEq, Repr

namespace Direction

/-- All directions, clockwise from north. -/
def all : List Direction :=
  [.north, .east, .south, .west]

/-- A quarter turn to the left. -/
def left : Direction → Direction
  | .north => .west
  | .west => .south
  | .south => .east
  | .east => .north

/-- A quarter turn to the right. -/
def right : Direction → Direction
  | .north => .east
  | .east => .south
  | .south => .west
  | .west => .north

/-- A half turn. -/
def opposite : Direction → Direction
  | .north => .south
  | .south => .north
  | .east => .west
  | .west => .east

/-- The change of column in one step. -/
def dx : Direction → Int
  | .east => 1
  | .west => -1
  | .north | .south => 0

/-- The change of row in one step. -/
def dy : Direction → Int
  | .south => 1
  | .north => -1
  | .east | .west => 0

/-- The letter that stands for a direction. -/
def letter : Direction → String
  | .north => "N"
  | .east => "E"
  | .south => "S"
  | .west => "W"

/-- The direction that a letter stands for. -/
def ofLetter? (text : String) : Option Direction :=
  all.find? fun direction => direction.letter == text

@[simp] theorem mem_all (direction : Direction) : direction ∈ all := by
  cases direction <;> decide

@[simp] theorem left_right (direction : Direction) : direction.right.left = direction := by
  cases direction <;> rfl

@[simp] theorem right_left (direction : Direction) : direction.left.right = direction := by
  cases direction <;> rfl

@[simp] theorem left_left (direction : Direction) :
    direction.left.left = direction.opposite := by
  cases direction <;> rfl

@[simp] theorem opposite_opposite (direction : Direction) :
    direction.opposite.opposite = direction := by
  cases direction <;> rfl

@[simp] theorem dx_opposite (direction : Direction) :
    direction.opposite.dx = -direction.dx := by
  cases direction <;> rfl

@[simp] theorem dy_opposite (direction : Direction) :
    direction.opposite.dy = -direction.dy := by
  cases direction <;> rfl

end Direction

/-- A place on the grid, or off it. -/
@[ext] structure Cell where
  x : Int
  y : Int
  deriving DecidableEq, Repr

namespace Cell

/-- The neighbour in a direction. -/
def neighbour (cell : Cell) (direction : Direction) : Cell :=
  ⟨cell.x + direction.dx, cell.y + direction.dy⟩

/-- Cells in the order of their columns, and in a column from the top. -/
def before (first second : Cell) : Bool :=
  first.x < second.x || (first.x == second.x && first.y ≤ second.y)

@[simp] theorem neighbour_opposite (cell : Cell) (direction : Direction) :
    (cell.neighbour direction).neighbour direction.opposite = cell := by
  ext
  · rw [neighbour, neighbour, Direction.dx_opposite, Int.add_neg_cancel_right]
  · rw [neighbour, neighbour, Direction.dy_opposite, Int.add_neg_cancel_right]

end Cell

end GridRobot
