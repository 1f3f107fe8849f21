import GridRobot.CommandLine.Interface
import GridRobot.Text.Align

/-!
# Usage and help texts

The usage line of a command and its help page. Lines are at most 78 characters wide. Help texts
start in one column, which leaves room for the longest entry but is never right of column 24.
-/

namespace GridRobot.CommandLine

/-- The width of a line. -/
def lineWidth : Nat := 78

/-- The rightmost column in which help texts may start. -/
def helpColumnLimit : Nat := 24

/-- A number of spaces. -/
def blanks (count : Nat) : String :=
  "".pushn ' ' count

/-- Puts parts on lines, each as full as the width allows. `used` counts what stands on the current
line, with a blank after each part, and `line` holds its parts. -/
def fillLines (indent used : Nat) (line : List String) : List String → List (List String)
  | [] => if line.isEmpty then [] else [line]
  | part :: rest =>
      if lineWidth < used + part.length ∧ ¬ line.isEmpty then
        line :: fillLines indent (indent + part.length + 1) [part] rest
      else fillLines indent (used + part.length + 1) (line ++ [part]) rest

namespace Interface

/-- The switches in the usage line. -/
def usageSwitches (interface : Interface) : List String :=
  interface.switches.map fun option =>
    "[" ++ option.shown (option.names.headD "") ++ "]"

/-- The operands in the usage line. -/
def usageOperands (interface : Interface) : List String :=
  match interface.operand with
  | .file _ => [interface.operand.shown]
  | .command _ _ => [interface.operand.shown ++ " ..."]

/-- The usage of a command: on one line if it fits, else with the operands on lines of their
own. -/
def usage (interface : Interface) : String :=
  let start := "usage: "
  let parts := interface.usageSwitches ++ interface.usageOperands
  let single := start ++ " ".intercalate (interface.program :: parts)
  if single.length ≤ lineWidth then single ++ "\n"
  else
    let indent := start.length + interface.program.length + 1
    let filled :=
      fillLines indent start.length [] (interface.program :: interface.usageSwitches) ++
        fillLines indent indent [] interface.usageOperands
    let lines := filled.map (" ".intercalate ·)
    start ++ ("\n" ++ blanks indent).intercalate lines ++ "\n"

/-- An entry of the help page. -/
structure Entry where
  indent : Nat
  header : String
  help : String

/-- The entries for operands. -/
def operandEntries (interface : Interface) : List Entry :=
  match interface.operand with
  | .file help => [⟨2, interface.operand.shown, help⟩]
  | .command choices help =>
      ⟨2, interface.operand.shown, help⟩ :: choices.map fun (name, about) => ⟨4, name, about⟩

/-- The entries for switches. -/
def switchEntries (interface : Interface) : List Entry :=
  interface.switches.map fun option =>
    ⟨2, ", ".intercalate (option.names.map option.shown), option.help⟩

/-- The column in which help texts start. -/
def helpColumn (interface : Interface) : Nat :=
  let longest := (interface.operandEntries ++ interface.switchEntries).foldl
    (fun longest entry => max longest entry.header.length) 0
  min (longest + 4) helpColumnLimit

/-- The lines of an entry. A header that reaches into the column of help texts has a line of its
own. -/
def Entry.render (column : Nat) (entry : Entry) : String :=
  if entry.indent + entry.header.length + 2 ≤ column then
    Text.alignLeft column (blanks entry.indent ++ entry.header) ++ entry.help ++ "\n"
  else
    blanks entry.indent ++ entry.header ++ "\n" ++ blanks column ++ entry.help ++ "\n"

/-- A titled section of the help page. -/
def helpSection (interface : Interface) (title : String) (entries : List Entry) : String :=
  "\n" ++ title ++ ":\n" ++ String.join (entries.map (Entry.render interface.helpColumn))

/-- The help page of a command. -/
def helpPage (interface : Interface) : String :=
  let about :=
    match interface.description with
    | none => ""
    | some description => "\n" ++ description ++ "\n"
  interface.usage ++ about ++
    interface.helpSection "positional arguments" interface.operandEntries ++
    interface.helpSection "options" interface.switchEntries

/-- What is shown when the arguments of a command are wrong. -/
def complaint (interface : Interface) (message : String) : String :=
  interface.usage ++ interface.program ++ ": error: " ++ message ++ "\n"

end Interface

end GridRobot.CommandLine
