import GridRobot.Log
import GridRobot.Random.Shuffle
import GridRobot.World.Basic

/-!
# Levels

A level is a grid with a wall all around it and some blocked cells, which are closed on all four
sides. The robot starts in the bottom left corner and looks north; the win row is the top row, and
no cell of it is blocked.
-/

namespace GridRobot

namespace World

/-- The whole numbers from zero up to a size. -/
def upTo (size : Int) : List Int :=
  (List.range size.toNat).map Int.ofNat

/-- The world with several more walls. -/
def addWalls (world : World) (walls : List Wall) : World :=
  walls.foldl addWall world

/-- The walls along the four edges of a grid. -/
def borderWalls (world : World) : List Wall :=
  (upTo world.width).flatMap
      (fun x => [⟨⟨x, 0⟩, .north⟩, ⟨⟨x, world.height - 1⟩, .south⟩]) ++
    (upTo world.height).flatMap
      (fun y => [⟨⟨0, y⟩, .west⟩, ⟨⟨world.width - 1, y⟩, .east⟩])

/-- The world with walls along its four edges. -/
def addBorder (world : World) : World :=
  world.addWalls world.borderWalls

/-- The walls that block an edge: one on this side, and one on the other side if that is on the
grid. -/
def edgeWalls (world : World) (wall : Wall) : List Wall :=
  let next := wall.cell.neighbour wall.side
  if world.Inside next then [wall, ⟨next, wall.side.opposite⟩] else [wall]

/-- The world with an edge blocked. -/
def addEdge (world : World) (wall : Wall) : World :=
  world.addWalls (world.edgeWalls wall)

/-- The world with a cell closed on all four sides. -/
def addBlocked (world : World) (cell : Cell) : World :=
  Direction.all.foldl (fun world side => world.addEdge ⟨cell, side⟩) world

/-- The world with a border and blocked cells. -/
def addObstacles (world : World) (cells : List Cell) : World :=
  cells.foldl addBlocked world.addBorder

end World

namespace Level

/-- The cells that may be blocked: all but the excluded ones and those of the forbidden row, row by
row from the top. -/
def candidates (width height : Int) (excluded : List Cell) (forbiddenRow : Option Int) :
    List Cell :=
  ((World.upTo height).filter fun y => some y != forbiddenRow).flatMap fun y =>
    ((World.upTo width).map fun x => (⟨x, y⟩ : Cell)).filter fun cell => !excluded.contains cell

/-- The first items of a list; a negative count leaves out that many at the end. -/
def firstItems {α : Type} (items : List α) (count : Int) : List α :=
  if 0 ≤ count then items.take count.toNat else items.take (items.length - count.natAbs)

/-- Items in the order that a seed gives. Without a seed they stay as they are. -/
def inOrderOf {α : Type} (seed : Option Int) (items : List α) : List α :=
  match seed with
  | some seed => Random.shuffle seed items
  | none => items

/-- Chooses cells to block. -/
def blockedCells (width height count : Int) (excluded : List Cell) (forbiddenRow : Option Int)
    (seed : Option Int) : List Cell :=
  firstItems (inOrderOf seed (candidates width height excluded forbiddenRow)) count

/-- What a level is made from. -/
structure Plan where
  width : Int := 8
  height : Int := 8
  obstacles : Int := 8
  maxSteps : Int := 2000
  start : Option Cell := none
  facing : Direction := .north
  seed : Option Int := none
  deriving DecidableEq, Repr

/-- A level with no cell. -/
structure EmptyGrid where
  width : Int
  height : Int
  deriving DecidableEq, Repr

/-- The wording for a level with no cell. -/
def EmptyGrid.message (grid : EmptyGrid) : String :=
  "Grid size must be positive, got " ++ toString grid.width ++ "x" ++ toString grid.height

/-- The cell in which the robot starts. -/
def Plan.startCell (plan : Plan) : Cell :=
  plan.start.getD ⟨0, plan.height - 1⟩

/-- The blocked cells of a level. -/
def Plan.blocked (plan : Plan) : List Cell :=
  blockedCells plan.width plan.height plan.obstacles [plan.startCell] (some 0) plan.seed

/-- The state at the start of a level in which some cells are blocked. -/
def Plan.level (plan : Plan) (cells : List Cell) : State :=
  let grid : World := { width := plan.width, height := plan.height }
  { world := grid.addObstacles cells
    robot := { cell := plan.startCell, facing := plan.facing }
    maxSteps := plan.maxSteps }

/-- The state at the start of a level. -/
def Plan.build (plan : Plan) : Except EmptyGrid State :=
  if plan.width ≤ 0 ∨ plan.height ≤ 0 then .error ⟨plan.width, plan.height⟩
  else .ok (plan.level plan.blocked)

/-- What is noted while a level is built. -/
def Plan.records (plan : Plan) : List Log.Record :=
  match plan.build with
  | .error _ => []
  | .ok _ =>
      [⟨.debug, "levels", "Built " ++ toString plan.width ++ "x" ++ toString plan.height ++
        " level with " ++ toString plan.blocked.length ++ " blocked cell(s)"⟩]

/-- The state with other blocked cells. Robot, beepers and step limit stay, and the record of the
run starts over. -/
def reblocked (state : State) (cells : List Cell) : State :=
  { state with
    world := { state.world with walls := [] }.addObstacles cells
    steps := 0
    log := []
    won := false }

/-- The blocked cells that take the place of those in a state. -/
def rerolled (state : State) (count : Int) (seed : Option Int) : List Cell :=
  let world := state.world
  blockedCells world.width world.height count [state.robot.cell] (some world.winRow) seed

/-- The state with blocked cells chosen anew. -/
def reroll (state : State) (count : Int) (seed : Option Int) : State :=
  reblocked state (rerolled state count seed)

end Level

end GridRobot
