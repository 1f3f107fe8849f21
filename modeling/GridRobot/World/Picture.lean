import GridRobot.World.Basic

/-!
# Picture of a state

The grid as text: an arrow for the robot, `#` for a cell closed on all sides, the number of beepers
up to nine, and a dot for an empty cell. The win row is marked.
-/

namespace GridRobot

/-- The arrow for a direction. -/
def Direction.arrow : Direction → String
  | .north => "^"
  | .east => ">"
  | .south => "v"
  | .west => "<"

namespace State

/-- One cell of the picture. -/
def cellPicture (state : State) (cell : Cell) : String :=
  let beepers := state.world.beepersAt cell
  if cell = state.robot.cell then state.robot.facing.arrow
  else if Direction.all.all (state.world.blocked cell) then "#"
  else if beepers ≠ 0 then toString (min beepers 9)
  else "."

/-- One row of the picture. -/
def rowPicture (state : State) (row : Int) : String :=
  let cells := (List.range state.world.width.toNat).map fun (column : Nat) =>
    state.cellPicture ⟨column, row⟩
  " ".intercalate cells ++ (if row = state.world.winRow then " <- win" else "")

/-- The whole picture. -/
def picture (state : State) : String :=
  let rows := (List.range state.world.height.toNat).map fun (row : Nat) => state.rowPicture row
  "\n".intercalate rows

end State

end GridRobot
