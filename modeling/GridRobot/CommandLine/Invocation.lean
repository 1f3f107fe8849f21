import GridRobot.CommandLine.Arguments
import GridRobot.CommandLine.Help
import GridRobot.Settings.Basic

/-!
# Invocations

What the arguments of the program ask for.
-/

namespace GridRobot.CommandLine

/-- What a command does with a program file. -/
inductive Task where
  | run (config : Option String) (changes : List (Settings.Key × Json))
  | check
  | tokens
  | dump

/-- A command on a file. -/
structure Command where
  file : String
  task : Task

/-- What the arguments ask for. -/
structure Invocation where
  verbose : Bool
  command : Option Command

/-- Why nothing is carried out: a help page was asked for, or the arguments are wrong. -/
inductive Refusal where
  | help (page : String)
  | complaint (text : String)

/-- The refusal when reading the arguments of a command ends early. -/
def Stop.refusal (interface : Interface) : Stop → Refusal
  | .help => .help interface.helpPage
  | .fault cause => .complaint (interface.complaint cause.message)

/-- The value of a switch as the value of a setting. -/
def Value.setting : Value → Json
  | .flag => .bool true
  | .text value => .str value
  | .number value => .int value

/-- The text that was given last for a key. -/
def Reading.text? (reading : Reading) (key : String) : Option String :=
  reading.values.reverse.findSome? fun (name, value) =>
    match value with
    | .text text => if name = key then some text else none
    | _ => none

/-- The settings that switches change. -/
def Reading.changes (reading : Reading) : List (Settings.Key × Json) :=
  reading.values.filterMap fun (name, value) =>
    (Settings.Key.ofName? name).map fun key => (key, value.setting)

/-- What a command with a given name does. -/
def Reading.task (reading : Reading) (name : String) : Task :=
  match name with
  | "check" => .check
  | "tokens" => .tokens
  | "dump" => .dump
  | _ => .run (reading.text? "config") reading.changes

/-- Refuses arguments that nothing takes. -/
def refuseLeftOver (leftOver : List String) : Except Refusal Unit :=
  if leftOver.isEmpty then .ok ()
  else .error (.complaint (mainInterface.complaint (ArgumentFault.leftOver leftOver).message))

/-- Reads the arguments of the program. What neither the program nor the command takes is complained
about last. -/
def Invocation.ofArguments (arguments : List String) : Except Refusal Invocation := do
  let reading ← (mainInterface.read arguments).mapError (Stop.refusal mainInterface)
  let verbose := reading.values.any fun (name, _) => name == "verbose"
  match reading.operand with
  | [] => do
      refuseLeftOver reading.leftOver
      return ⟨verbose, none⟩
  | name :: rest => do
      let interface := commandInterface name
      let inner ← (interface.read rest).mapError (Stop.refusal interface)
      refuseLeftOver (reading.leftOver ++ inner.leftOver)
      return ⟨verbose, some ⟨inner.operand.headD "", inner.task name⟩⟩

end GridRobot.CommandLine
