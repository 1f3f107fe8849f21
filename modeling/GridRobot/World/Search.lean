import GridRobot.World.Basic

/-!
# Reaching the win row

A breadth-first search over cells joined by unblocked steps. Every cell that the search meets after
the first lies on the grid and is met once, so the number of cells bounds it.

The search goes in rounds, one for each cell taken from the queue, and one more to find the queue
empty. Asked for too few rounds it has no answer.
-/

namespace GridRobot.World

/-- The cells one unblocked step away. -/
def exits (world : World) (cell : Cell) : List Cell :=
  (Direction.all.filter fun direction => !world.blocked cell direction).map cell.neighbour

theorem mem_exits_iff (world : World) (cell exit : Cell) :
    exit ∈ world.exits cell ↔
      ∃ direction, world.blocked cell direction = false ∧ cell.neighbour direction = exit := by
  simp [exits]

/-- The cells one unblocked step away that were not seen before. -/
def freshExits (world : World) (seen : List Cell) (cell : Cell) : List Cell :=
  (world.exits cell).filter fun exit => !seen.contains exit

theorem mem_freshExits_iff (world : World) (seen : List Cell) (cell exit : Cell) :
    exit ∈ world.freshExits seen cell ↔ exit ∈ world.exits cell ∧ exit ∉ seen := by
  simp [freshExits]

/-- Searches from the cells of a queue, nearest first, in at most a given number of rounds. `seen`
holds every cell that was ever put in the queue. -/
def searchWin (world : World) : (rounds : Nat) → (queue seen : List Cell) → Option Bool
  | 0, _, _ => none
  | _ + 1, [], _ => some false
  | rounds + 1, cell :: queue, seen =>
      if cell.y = world.winRow then some true
      else
        let fresh := world.freshExits seen cell
        world.searchWin rounds (queue ++ fresh) (fresh ++ seen)

/-- The number of cells on the grid. -/
def cellCount (world : World) : Nat :=
  world.width.toNat * world.height.toNat

/-- Whether unblocked steps lead from a cell to the win row. -/
def winReachableFrom (world : World) (cell : Cell) : Bool :=
  world.searchWin (world.cellCount + 2) [cell] [cell] == some true

/-- `Path world start finish` says that unblocked steps lead from one cell to the other. -/
inductive Path (world : World) (start : Cell) : Cell → Prop where
  | here : Path world start start
  | step {cell : Cell} (direction : Direction) :
      Path world start cell → world.blocked cell direction = false →
        Path world start (cell.neighbour direction)

end GridRobot.World
