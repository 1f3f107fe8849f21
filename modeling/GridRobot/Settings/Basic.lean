import GridRobot.Json.Printer
import GridRobot.Log
import GridRobot.Machine.Step

/-!
# Settings of a run

The size and content of a level, the limits of a run, and whether it is shown step by step. A
settings file may give any value for a key; whether the value can be used shows when the run comes
to it.
-/

namespace GridRobot

/-- The settings of a run, each with the value it was given. -/
structure Settings where
  width : Json := .int 8
  height : Json := .int 8
  obstacles : Json := .int 8
  maxSteps : Json := .int 2000
  seed : Json := .null
  maxInstructions : Json := .int defaultBudget
  trace : Json := .bool false

namespace Settings

/-- The settings there are. -/
inductive Key where
  | width
  | height
  | obstacles
  | maxSteps
  | seed
  | maxInstructions
  | trace
  deriving DecidableEq, Repr

namespace Key

/-- All keys, in the order in which settings are written. -/
def all : List Key :=
  [.width, .height, .obstacles, .maxSteps, .seed, .maxInstructions, .trace]

/-- The name of a key. -/
def name : Key → String
  | .width => "width"
  | .height => "height"
  | .obstacles => "obstacles"
  | .maxSteps => "max_steps"
  | .seed => "seed"
  | .maxInstructions => "max_instructions"
  | .trace => "trace"

/-- The key with a given name. -/
def ofName? (name : Text) : Option Key :=
  all.find? fun key => Text.ofString key.name = name

end Key

/-- The value of a key. -/
def get (settings : Settings) : Key → Json
  | .width => settings.width
  | .height => settings.height
  | .obstacles => settings.obstacles
  | .maxSteps => settings.maxSteps
  | .seed => settings.seed
  | .maxInstructions => settings.maxInstructions
  | .trace => settings.trace

/-- The settings with another value for a key. -/
def set (settings : Settings) (key : Key) (value : Json) : Settings :=
  match key with
  | .width => { settings with width := value }
  | .height => { settings with height := value }
  | .obstacles => { settings with obstacles := value }
  | .maxSteps => { settings with maxSteps := value }
  | .seed => { settings with seed := value }
  | .maxInstructions => { settings with maxInstructions := value }
  | .trace => { settings with trace := value }

/-- A key has the value it was given last. -/
@[simp] theorem get_set (settings : Settings) (key : Key) (value : Json) :
    (settings.set key value).get key = value := by
  cases key <;> rfl

/-- The names of the keys and their values. -/
def fields (settings : Settings) : List (Text × Json) :=
  Key.all.map fun key => (.ofString key.name, settings.get key)

/-- The settings that a table gives. Keys that mean nothing are left out. -/
def ofTable (table : List (Text × Json)) : Settings :=
  table.foldl
    (fun settings (name, value) =>
      match Key.ofName? name with
      | some key => settings.set key value
      | none => settings)
    {}

/-- What is noted about the keys of a table that mean nothing. -/
def tableRecords (table : List (Text × Json)) : List Log.Record :=
  table.filterMap fun (name, _) =>
    match Key.ofName? name with
    | some _ => none
    | none => some ⟨.warning, "config", "Ignoring unknown config key " ++ Text.quoted name⟩

/-- The settings with other values for some keys. A null value changes nothing. -/
def override (settings : Settings) (changes : List (Key × Json)) : Settings :=
  changes.foldl
    (fun settings (key, value) =>
      match value with
      | .null => settings
      | value => settings.set key value)
    settings

/-- A change to a setting that there is not. -/
structure UnknownKey where
  name : Text
  deriving DecidableEq, Repr

/-- The wording for a setting that there is not. -/
def UnknownKey.message (fault : UnknownKey) : Text :=
  "RunConfig.__init__() got an unexpected keyword argument '" ++ fault.name ++ "'"

/-- The changes that a table asks for. A null value asks for none, whatever its key. -/
def changesOf (table : List (Text × Json)) : Except UnknownKey (List (Key × Json)) :=
  (table.filter fun (_, value) => !value matches .null).mapM fun (name, value) =>
    match Key.ofName? name with
    | some key => .ok (key, value)
    | none => .error ⟨name⟩

end Settings

end GridRobot
