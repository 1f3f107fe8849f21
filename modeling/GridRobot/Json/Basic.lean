import GridRobot.Text.Basic

/-!
# Structured data

The values of a data document. Whole numbers and floating-point numbers are different values, and
the fields of an object keep the order in which they were first written.
-/

namespace GridRobot

/-- A value of a data document. -/
inductive Json where
  | null
  | bool (value : Bool)
  | int (value : Int)
  | float (value : Float)
  | str (text : Text)
  | arr (items : List Json)
  | obj (fields : List (Text × Json))
  deriving Inhabited

namespace Json

/-- The value of a field in a list of fields. -/
def field? (fields : List (Text × Json)) (key : Text) : Option Json :=
  fields.lookup key

/-- Writes a field. A field that is there already keeps its place. -/
def setField (fields : List (Text × Json)) (key : Text) (value : Json) : List (Text × Json) :=
  match fields with
  | [] => [(key, value)]
  | (name, old) :: rest =>
      if name = key then (name, value) :: rest else (name, old) :: setField rest key value

/-- The value of a field of an object. -/
def get? : Json → Text → Option Json
  | .obj fields, key => field? fields key
  | _, _ => none

/-- The string that a value is. A text with a lone half of a surrogate pair is none. -/
def string? : Json → Option String
  | .str text => text.toString?
  | _ => none

/-- Whether a value counts as nothing: no value, false, zero, or empty. -/
def isBare : Json → Bool
  | .null => true
  | .bool value => !value
  | .int value => value == 0
  | .float value => value == 0.0
  | .str text => text.isEmpty
  | .arr items => items.isEmpty
  | .obj fields => fields.isEmpty

/-- The name of a value's type, as messages give it. -/
def typeName : Json → String
  | .null => "NoneType"
  | .bool _ => "bool"
  | .int _ => "int"
  | .float _ => "float"
  | .str _ => "str"
  | .arr _ => "list"
  | .obj _ => "dict"

mutual

/-- How many values stand inside one another in a value, itself counted. -/
def levels : Json → Nat
  | .arr items => levelsOfItems items + 1
  | .obj fields => levelsOfFields fields + 1
  | .null | .bool _ | .int _ | .float _ | .str _ => 1

/-- How many values stand inside one another in the items of an array. -/
def levelsOfItems : List Json → Nat
  | [] => 0
  | item :: rest => max item.levels (levelsOfItems rest)

/-- How many values stand inside one another in the fields of an object. -/
def levelsOfFields : List (Text × Json) → Nat
  | [] => 0
  | (_, value) :: rest => max value.levels (levelsOfFields rest)

end

/-- `Within value part` says that `part` is `value` itself or is reached from it through items of
arrays and fields of objects. -/
inductive Within : Json → Json → Prop where
  | self (value : Json) : Within value value
  | item {items : List Json} {item part : Json} :
      item ∈ items → Within item part → Within (.arr items) part
  | field {fields : List (Text × Json)} {key : Text} {value part : Json} :
      (key, value) ∈ fields → Within value part → Within (.obj fields) part

end Json

end GridRobot
