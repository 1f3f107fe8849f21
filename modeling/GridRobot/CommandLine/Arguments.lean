import GridRobot.CommandLine.Interface
import GridRobot.Text.Digit
import GridRobot.Text.Numeral
import GridRobot.Text.Quoted

/-!
# Reading arguments

Arguments are sorted first and then taken from left to right. A long switch may be cut short as long
as only one switch fits, and its value may follow after an equals sign. Everything after `--` is
plain. Arguments that nothing takes are left over.
-/

namespace GridRobot.CommandLine

/-- What is wrong with arguments. -/
inductive ArgumentFault where
  | ambiguous (argument : String) (matching : List String)
  | unwantedValue (option : Switch) (value : String)
  | missingValue (option : Switch)
  | notNumber (option : Switch) (value : String)
  | badChoice (operand : Operand) (choices : List String) (value : String)
  | missingOperand (operand : Operand)
  | leftOver (arguments : List String)
  deriving DecidableEq, Repr

/-- The wording of a fault. -/
def ArgumentFault.message : ArgumentFault → String
  | .ambiguous argument matching =>
      "ambiguous option: " ++ argument ++ " could match " ++ ", ".intercalate matching
  | .unwantedValue option value =>
      "argument " ++ option.title ++ ": ignored explicit argument " ++ Text.quoted value
  | .missingValue option => "argument " ++ option.title ++ ": expected one argument"
  | .notNumber option value =>
      "argument " ++ option.title ++ ": invalid int value: " ++ Text.quoted value
  | .badChoice operand choices value =>
      let shown := choices.map fun (choice : String) => Text.quoted choice
      "argument " ++ operand.title ++ ": invalid choice: " ++ Text.quoted value ++
        " (choose from " ++ ", ".intercalate shown ++ ")"
  | .missingOperand operand => "the following arguments are required: " ++ operand.title
  | .leftOver arguments => "unrecognized arguments: " ++ " ".intercalate arguments

/-- How a value is attached to a switch in the same argument. -/
inductive Attached where
  | nothing
  | afterEquals (value : String)
  | directly (value : String)
  deriving DecidableEq, Repr

/-- What kind of argument it is. -/
inductive ArgumentKind where
  | plain
  | dashes
  | switch (option : Switch) (attached : Attached)
  | unknown
  deriving DecidableEq, Repr

/-- An argument as it was given, with its kind. -/
structure Argument where
  text : String
  kind : ArgumentKind
  deriving DecidableEq, Repr

/-- The text before the first equals sign and, if there is one, the text after it. -/
def splitEquals (argument : String) : String × Option String :=
  let chars := argument.toList
  let before := String.ofList (chars.takeWhile (· != '='))
  match chars.dropWhile (· != '=') with
  | [] => (before, none)
  | _ :: after => (before, some (String.ofList after))

/-- A value after an equals sign, if there is one. -/
def Attached.ofEquals : Option String → Attached
  | none => .nothing
  | some value => .afterEquals value

namespace Interface

/-- The spellings of all switches, in order. -/
def spellings (interface : Interface) : List (String × Switch) :=
  interface.switches.flatMap fun option => option.names.map fun name => (name, option)

/-- The switch with an exact spelling. -/
def switch? (interface : Interface) (name : String) : Option Switch :=
  ((interface.spellings.find? fun (spelling, _) => spelling = name).map Prod.snd)

/-- The switches that an argument may stand for without being an exact spelling. -/
def candidates (interface : Interface) (argument : String) :
    List (String × Switch × Attached) :=
  match argument.toList with
  | '-' :: '-' :: _ =>
      let (start, value) := splitEquals argument
      interface.spellings.filterMap fun (spelling, option) =>
        if spelling.startsWith start then some (spelling, option, .ofEquals value) else none
  | first :: second :: rest =>
      interface.spellings.filterMap fun (spelling, option) =>
        if spelling = String.ofList [first, second] then
          some (spelling, option, .directly (String.ofList rest))
        else if spelling.startsWith argument then some (spelling, option, .nothing)
        else none
  | _ => []

end Interface

/-- Whether characters are all digits, and at least one. -/
def isDigits (chars : List Char) : Bool :=
  !chars.isEmpty && chars.all fun char => (Text.digitValue? char).isSome

/-- Whether an argument looks like a negative number. A line end after it does not count. -/
def looksNegative (argument : String) : Bool :=
  match argument.toList with
  | '-' :: rest =>
      let digits :=
        match rest.reverse with
        | '\n' :: others => others.reverse
        | _ => rest
      isDigits digits ||
        match digits.dropWhile fun char => (Text.digitValue? char).isSome with
        | '.' :: fraction => isDigits fraction
        | _ => false
  | _ => false

/-- The kind of an argument that does not come after `--`. -/
def Interface.kindOf (interface : Interface) (argument : String) :
    Except ArgumentFault ArgumentKind :=
  if ¬ argument.startsWith "-" ∨ argument = "-" then .ok .plain
  else
    match interface.switch? argument with
    | some option => .ok (.switch option .nothing)
    | none =>
        let (name, value) := splitEquals argument
        match interface.switch? name, value with
        | some option, some value => .ok (.switch option (.afterEquals value))
        | _, _ =>
            match interface.candidates argument with
            | [(_, option, attached)] => .ok (.switch option attached)
            | [] =>
                if looksNegative argument || argument.toList.contains ' ' then .ok .plain
                else .ok .unknown
            | several => .error (.ambiguous argument (several.map Prod.fst))

/-- Sorts arguments. -/
def Interface.sort (interface : Interface) : List String → Except ArgumentFault (List Argument)
  | [] => .ok []
  | text :: rest =>
      if text = "--" then .ok (⟨text, .dashes⟩ :: rest.map (⟨·, .plain⟩))
      else do
        let kind ← interface.kindOf text
        let others ← interface.sort rest
        return ⟨text, kind⟩ :: others

/-- The value of a switch. -/
inductive Value where
  | flag
  | text (value : String)
  | number (value : Int)
  deriving DecidableEq, Repr

/-- What was read: the values of switches by key, the operand, and what was left over. -/
structure Reading where
  values : List (String × Value) := []
  operand : List String := []
  leftOver : List String := []
  deriving DecidableEq, Repr

/-- Why reading ended early. -/
inductive Stop where
  | help
  | fault (fault : ArgumentFault)
  deriving DecidableEq, Repr

/-- The value of a switch that needs one. -/
def Switch.value (option : Switch) (argument : String) : Except Stop Value :=
  if option.kind = .number then
    match Text.integer? argument with
    | some number => .ok (.number number)
    | none => .error (.fault (.notNumber option argument))
  else .ok (.text argument)

/-- Whether letters that follow a one-letter switch without a value are acceptable: each of them is
a switch as well, up to the first that is none. -/
def Interface.checkLetters (interface : Interface) (option : Switch) :
    List Char → Except ArgumentFault Unit
  | [] => .ok ()
  | char :: rest =>
      if char = '-' then .error (.unwantedValue option (String.ofList (char :: rest)))
      else
        match interface.switch? (String.ofList ['-', char]) with
        | none => .ok ()
        | some next =>
            match rest with
            | '=' :: value => .error (.unwantedValue next (String.ofList value))
            | _ => interface.checkLetters next rest

/-- Records the value of a switch. -/
def Reading.addValue (reading : Reading) (option : Switch) (value : Value) : Reading :=
  { reading with values := reading.values ++ [(option.key, value)] }

/-- Records an argument that nothing takes. -/
def Reading.addLeftOver (reading : Reading) (argument : Argument) : Reading :=
  { reading with leftOver := reading.leftOver ++ [argument.text] }

/-- Takes a switch: what was read, and how many of the arguments after it were taken. -/
def Interface.takeSwitch (interface : Interface) (reading : Reading) (option : Switch)
    (attached : Attached) (rest : List Argument) : Except Stop (Reading × Nat) :=
  if option.takesValue then
    match attached, rest with
    | .afterEquals value, _ | .directly value, _ => do
        return (reading.addValue option (← option.value value), 0)
    | .nothing, ⟨text, .plain⟩ :: _ => do
        return (reading.addValue option (← option.value text), 1)
    | .nothing, _ => .error (.fault (.missingValue option))
  else do
    let checked : Except ArgumentFault Unit :=
      match attached with
      | .nothing => .ok ()
      | .afterEquals value => .error (.unwantedValue option value)
      | .directly value => interface.checkLetters option value.toList
    checked.mapError .fault
    if option.kind = .help then .error .help else .ok (reading.addValue option .flag, 0)

/-- Takes an argument that is no switch: what was read, and how many of the arguments after it were
taken. A file may have the dashes before or after it. A command takes all that follows, and the
dashes then stand in the place of its name. -/
def Interface.takePlain (interface : Interface) (reading : Reading) (argument : Argument)
    (rest : List Argument) : Reading × Nat :=
  if ¬ reading.operand.isEmpty ∨ (argument.kind = .dashes ∧ rest.isEmpty) then
    (reading.addLeftOver argument, 0)
  else
    match interface.operand with
    | .command _ _ =>
        ({ reading with operand := argument.text :: rest.map Argument.text }, rest.length)
    | .file _ =>
        match argument.kind, rest with
        | .dashes, next :: _ => ({ reading with operand := [next.text] }, 1)
        | _, ⟨_, .dashes⟩ :: _ => ({ reading with operand := [argument.text] }, 1)
        | _, _ => ({ reading with operand := [argument.text] }, 0)

/-- Takes sorted arguments from left to right. `skip` counts those that were taken already. -/
def Interface.take (interface : Interface) :
    (skip : Nat) → Reading → List Argument → Except Stop Reading
  | _, reading, [] => .ok reading
  | skip + 1, reading, _ :: rest => interface.take skip reading rest
  | 0, reading, argument :: rest =>
      match argument.kind with
      | .unknown => interface.take 0 (reading.addLeftOver argument) rest
      | .switch option attached => do
          let (after, taken) ← interface.takeSwitch reading option attached rest
          interface.take taken after rest
      | .plain | .dashes =>
          let (after, taken) := interface.takePlain reading argument rest
          interface.take taken after rest

/-- Reads arguments. A file has to be given, and a command has to be one of the choices. -/
def Interface.read (interface : Interface) (arguments : List String) : Except Stop Reading := do
  let sorted ← (interface.sort arguments).mapError .fault
  let reading ← interface.take 0 {} sorted
  match interface.operand, reading.operand with
  | .file _, [] => .error (.fault (.missingOperand interface.operand))
  | .command choices _, name :: _ =>
      let names := choices.map Prod.fst
      if name ∈ names then .ok reading
      else .error (.fault (.badChoice interface.operand names name))
  | _, _ => .ok reading

end GridRobot.CommandLine
