/-!
# The interface of the command line

Which switches and operands each command takes, as data. The help texts and the reading of
arguments both go by it.
-/

namespace GridRobot.CommandLine

/-- What a switch does with the argument after it. -/
inductive SwitchKind where
  | help
  | flag
  | text
  | number
  deriving DecidableEq, Repr

/-- A switch: its spellings, the key of what it sets, and what the help says about it. -/
structure Switch where
  names : List String
  key : String
  kind : SwitchKind
  help : String
  deriving DecidableEq, Repr

namespace Switch

/-- Whether a switch needs an argument. -/
def takesValue (option : Switch) : Bool :=
  match option.kind with
  | .help | .flag => false
  | .text | .number => true

/-- The name that stands for the argument of a switch. -/
def placeholder (option : Switch) : String :=
  option.key.toUpper

/-- A spelling of a switch, with its argument if it takes one. -/
def shown (option : Switch) (name : String) : String :=
  if option.takesValue then name ++ " " ++ option.placeholder else name

/-- How messages name a switch. -/
def title (option : Switch) : String :=
  "/".intercalate option.names

end Switch

/-- What a command takes besides switches: a file, or a further command with arguments of its
own. -/
inductive Operand where
  | file (help : String)
  | command (choices : List (String × String)) (help : String)
  deriving DecidableEq, Repr

namespace Operand

/-- How messages name an operand. -/
def title : Operand → String
  | .file _ => "file"
  | .command _ _ => "cmd"

/-- The choices in braces, or the name of the operand. -/
def shown : Operand → String
  | .file _ => "file"
  | .command choices _ => "\x7b" ++ ",".intercalate (choices.map Prod.fst) ++ "\x7d"

end Operand

/-- What a command takes. -/
structure Interface where
  program : String
  description : Option String := none
  switches : List Switch
  operand : Operand

/-- The switch that asks for help. -/
def helpSwitch : Switch :=
  ⟨["-h", "--help"], "help", .help, "show this help message and exit"⟩

/-- The interface of the program itself. -/
def mainInterface : Interface where
  program := "robolang"
  description := some "Grid robot language toolchain"
  switches := [helpSwitch, ⟨["--verbose"], "verbose", .flag, "Enable debug logging"⟩]
  operand := .command
    [("run", "Run a program on a generated level"),
     ("check", "Parse a program and print its statement tree"),
     ("tokens", "Print the token stream of a program"),
     ("dump", "Print the compiled instructions")]
    "subcommands"

/-- The interface of the command that runs a program. -/
def runInterface : Interface where
  program := "robolang run"
  switches := [
    helpSwitch,
    ⟨["--config"], "config", .text, "Config file (json/toml)"⟩,
    ⟨["--width"], "width", .number, "Grid width"⟩,
    ⟨["--height"], "height", .number, "Grid height"⟩,
    ⟨["--obstacles"], "obstacles", .number, "Number of blocked cells"⟩,
    ⟨["--max-steps"], "max_steps", .number, "Step limit for actions"⟩,
    ⟨["--seed"], "seed", .number, "Seed for obstacle placement"⟩,
    ⟨["--trace"], "trace", .flag, "Print every executed step"⟩]
  operand := .file "Program file (text or JSON)"

/-- The interface of a command that only shows something about a program. -/
def showInterface (name : String) : Interface where
  program := "robolang " ++ name
  switches := [helpSwitch]
  operand := .file "Program file"

/-- The interface of a command. -/
def commandInterface (name : String) : Interface :=
  if name = "run" then runInterface else showInterface name

end GridRobot.CommandLine
