import GridRobot.World.Search

/-!
# Sensors

The eight facts about a state that a condition can ask for.
-/

namespace GridRobot

/-- A fact that a condition can ask for. -/
inductive Sensor where
  | obstacleAhead
  | obstacleLeft
  | obstacleRight
  | notAtLine8
  | beepersHere
  | beeperInBag
  | won
  | winReachable
  deriving DecidableEq, Repr

namespace Sensor

/-- All sensors. -/
def all : List Sensor :=
  [.obstacleAhead, .obstacleLeft, .obstacleRight, .notAtLine8, .beepersHere, .beeperInBag, .won,
    .winReachable]

/-- The name of a sensor in a program. -/
def name : Sensor → String
  | .obstacleAhead => "obstacleAhead"
  | .obstacleLeft => "obstacleLeft"
  | .obstacleRight => "obstacleRight"
  | .notAtLine8 => "notAtLine8"
  | .beepersHere => "beepersHere"
  | .beeperInBag => "beeperInBag"
  | .won => "won"
  | .winReachable => "winReachable"

/-- The sensor with a given name. -/
def ofName? (text : String) : Option Sensor :=
  all.find? fun sensor => sensor.name == text

@[simp] theorem mem_all (sensor : Sensor) : sensor ∈ all := by
  cases sensor <;> decide

@[simp] theorem ofName?_name (sensor : Sensor) : ofName? sensor.name = some sensor := by
  cases sensor <;> decide

end Sensor

namespace State

/-- Whether the robot could step in a direction. -/
def clear (state : State) (direction : Direction) : Bool :=
  !state.world.blocked state.robot.cell direction

/-- Whether the robot could step ahead. -/
def frontClear (state : State) : Bool :=
  state.clear state.robot.facing

/-- Whether the robot could step to its left. -/
def leftClear (state : State) : Bool :=
  state.clear state.robot.facing.left

/-- Whether the robot could step to its right. -/
def rightClear (state : State) : Bool :=
  state.clear state.robot.facing.right

/-- Whether a beeper lies in the robot's cell. -/
def beepersHere (state : State) : Bool :=
  0 < state.world.beepersAt state.robot.cell

/-- Whether the robot carries a beeper. -/
def beeperInBag (state : State) : Bool :=
  0 < state.robot.bag

/-- Whether unblocked steps lead from the robot to the win row. -/
def winReachable (state : State) : Bool :=
  state.world.winReachableFrom state.robot.cell

end State

/-- The value of a sensor. -/
def Sensor.read (sensor : Sensor) (state : State) : Bool :=
  match sensor with
  | .obstacleAhead => !state.frontClear
  | .obstacleLeft => !state.leftClear
  | .obstacleRight => !state.rightClear
  | .notAtLine8 => !state.won
  | .beepersHere => state.beepersHere
  | .beeperInBag => state.beeperInBag
  | .won => state.won
  | .winReachable => state.winReachable

end GridRobot
