import GridRobot.World.Fault
import GridRobot.World.Sensor

/-!
# Conditions

A condition combines named sensors with negation, conjunction and disjunction. Names are kept as
they are written, so a condition put together by hand may hold a name that means nothing, or a part
that is no condition at all. Reading such a part is a fault, and it is found only when evaluation
gets there.
-/

namespace GridRobot

/-- A part of a hand-made tree that does not belong where it stands: the name of its kind and the
text that messages show for it. -/
structure Stray where
  kind : String
  shown : String
  deriving DecidableEq, Repr, Inhabited

/-- A condition of a program. -/
inductive Condition where
  | atom (name : String)
  | not (inner : Condition)
  | and (left right : Condition)
  | or (left right : Condition)
  | stray (part : Stray)
  deriving DecidableEq, Repr, Inhabited

namespace Condition

/-- The condition as text, with every operator in parentheses. -/
def text : Condition → String
  | .atom name => name
  | .not inner => "!(" ++ inner.text ++ ")"
  | .and left right => "(" ++ left.text ++ " && " ++ right.text ++ ")"
  | .or left right => "(" ++ left.text ++ " || " ++ right.text ++ ")"
  | .stray part => part.shown

/-- The condition as nested constructors, for debugging output. -/
def construction : Condition → String
  | .atom name => "Atom(name=" ++ Text.quoted name ++ ")"
  | .not inner => "Not(inner=" ++ inner.construction ++ ")"
  | .and left right => "And(left=" ++ left.construction ++ ", right=" ++ right.construction ++ ")"
  | .or left right => "Or(left=" ++ left.construction ++ ", right=" ++ right.construction ++ ")"
  | .stray part => part.shown

/-- The first part, from the left, that is no condition. -/
def stray? : Condition → Option Stray
  | .atom _ => none
  | .not inner => inner.stray?
  | .and left right | .or left right => left.stray? <|> right.stray?
  | .stray part => some part

/-- The value of a condition. The right side of a connective is read only if the left side does
not settle it. -/
def evaluate (state : State) : Condition → Except Fault Bool
  | .atom name =>
      match Sensor.ofName? name with
      | some sensor => .ok (sensor.read state)
      | none => .error (.unknownName name)
  | .not inner =>
      match inner.evaluate state with
      | .ok value => .ok (!value)
      | .error fault => .error fault
  | .and left right =>
      match left.evaluate state with
      | .ok true => right.evaluate state
      | settled => settled
  | .or left right =>
      match left.evaluate state with
      | .ok false => right.evaluate state
      | settled => settled
  | .stray part => .error (.notCondition part.shown)

/-- Whether every name of a condition belongs to a sensor and it has no stray part. -/
def Known : Condition → Prop
  | .atom name => ∃ sensor : Sensor, sensor.name = name
  | .not inner => inner.Known
  | .and left right | .or left right => left.Known ∧ right.Known
  | .stray _ => False

end Condition

end GridRobot
