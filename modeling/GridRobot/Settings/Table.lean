import GridRobot.Json.Reader
import GridRobot.Text.Lines

/-!
# Settings tables

The plain form of a settings file: lines of `key = value`, comments from `#` on, and headers in
brackets that start a named table. Dots lead to a table within a table, and a header in double
brackets adds a table to a list of them. Values are numbers, truth values, quoted text, and lists of
values of one kind. A key may be given only once in a table, and a table only once in a file.
-/

namespace GridRobot.Settings

/-- A character of a key that needs no quotes. -/
def isKeyChar (char : Char) : Bool :=
  ('a' ≤ char && char ≤ 'z') || ('A' ≤ char && char ≤ 'Z') || ('0' ≤ char && char ≤ '9') ||
    char == '_' || char == '-'

/-- A space or tab. -/
def isInnerBlank (char : Char) : Bool :=
  char == ' ' || char == '\t'

/-- The text without blanks at either end. -/
def strip (text : List Char) : List Char :=
  ((text.dropWhile isInnerBlank).reverse.dropWhile isInnerBlank).reverse

/-- Whether nothing but blanks or a comment is left of a line. -/
def isRestOfLine (text : List Char) : Bool :=
  match text.dropWhile isInnerBlank with
  | [] => true
  | char :: _ => char == '#'

/-- A quoted text up to its closing quote, with what follows it. Only double quotes have escapes,
and these may not leave half of a surrogate pair alone. -/
def readQuoted? : List Char → Option (String × List Char)
  | '"' :: rest =>
      match Json.readString 0 0 [] rest with
      | .ok (content, after) => content.toString?.map (·, after)
      | .error _ => none
  | '\'' :: rest =>
      match rest.dropWhile (· != '\'') with
      | _ :: after => some (String.ofList (rest.takeWhile (· != '\'')), after)
      | [] => none
  | _ => none

/-- A key at the front of a text, with what follows it. -/
def readKey? (text : List Char) : Option (Text × List Char) :=
  match readQuoted? text with
  | some (key, after) => some (.ofString key, after)
  | none =>
      match text.takeWhile isKeyChar with
      | [] => none
      | key => some (.ofString (String.ofList key), text.dropWhile isKeyChar)

/-- Keys separated by dots, with what follows them and the blanks after them. -/
def readPath? : (fuel : Nat) → List Char → Option (List Text × List Char)
  | 0, _ => none
  | fuel + 1, text => do
      let (key, after) ← readKey? (text.dropWhile isInnerBlank)
      match after.dropWhile isInnerBlank with
      | '.' :: rest =>
          let (others, last) ← readPath? fuel rest
          return (key :: others, last)
      | rest => return ([key], rest)

/-- The text without the single underscores between its characters, or nothing when an underscore
stands anywhere else. -/
def joined? : List Char → Option (List Char)
  | [] => some []
  | '_' :: _ => none
  | first :: '_' :: next :: rest =>
      if Json.hexValue? first |>.isSome then (joined? (next :: rest)).map (first :: ·) else none
  | [_, '_'] => none
  | first :: rest => (joined? rest).map (first :: ·)

/-- The number with given digits in a base, or nothing when one of them is no digit of it. -/
def inBase? (base : Nat) (digits : List Char) : Option Nat :=
  if digits.isEmpty then none
  else
    digits.foldlM (fun total char => do
      let digit ← Json.hexValue? char
      if digit < base then some (total * base + digit) else none) 0

/-- A whole number: decimal, without superfluous zeros in front and not too long, or in another base
after its mark. -/
def wholeNumber? (text : List Char) : Option Nat :=
  match text with
  | '0' :: 'x' :: digits => inBase? 16 digits
  | '0' :: 'o' :: digits => inBase? 8 digits
  | '0' :: 'b' :: digits => inBase? 2 digits
  | digits =>
      if (1 < digits.length ∧ digits.head? = some '0') ∨ Text.numeralLimit < digits.length then none
      else inBase? 10 digits

/-- A floating-point number. -/
def realNumber? (text : List Char) : Option Float :=
  if text = "inf".toList then some (1.0 / 0.0)
  else if text = "nan".toList then some (0.0 / 0.0)
  else
    match Json.readNumber? text with
    | some (.float value, []) => if text.head? = some '-' then none else some value
    | _ => none

/-- A number, possibly with a sign. -/
def number? (text : List Char) : Option Json := do
  let (negative, given) :=
    match text with
    | '-' :: rest => (true, rest)
    | '+' :: rest => (false, rest)
    | rest => (false, rest)
  let unsigned ← joined? given
  match wholeNumber? unsigned with
  | some value => return .int (if negative then -(value : Int) else value)
  | none =>
      let value ← realNumber? unsigned
      return .float (if negative then -value else value)

/-- A value that is written without quotes and brackets. -/
def scalar? (text : List Char) : Option Json :=
  if text = "true".toList then some (.bool true)
  else if text = "false".toList then some (.bool false)
  else number? text

/-- A character of a value that is written without quotes and brackets. -/
def isScalarChar (char : Char) : Bool :=
  char != ',' && char != ']' && char != '#'

/-- Whether a value may follow others in a list: it has to be of the kind of the first. -/
def fits (items : List Json) (item : Json) : Bool :=
  items.all fun other => other.typeName == item.typeName

mutual

/-- Reads the value at the front of a text. -/
def readValue? (fuel : Nat) (text : List Char) : Option (Json × List Char) :=
  match fuel with
  | 0 => none
  | fuel + 1 =>
      match text.dropWhile isInnerBlank with
      | '[' :: rest => readItems? fuel [] rest
      | start =>
          match readQuoted? start with
          | some (content, after) => some (.str content, after)
          | none =>
              (scalar? (strip (start.takeWhile isScalarChar))).map
                (·, start.dropWhile isScalarChar)

/-- Reads the items of a list and its closing bracket, after the items read so far. -/
def readItems? (fuel : Nat) (items : List Json) (text : List Char) :
    Option (Json × List Char) :=
  match fuel with
  | 0 => none
  | fuel + 1 =>
      match text.dropWhile isInnerBlank with
      | ']' :: rest => some (.arr items, rest)
      | start => do
          let (item, after) ← readValue? fuel start
          if !fits items item then none
          else
            match after.dropWhile isInnerBlank with
            | ',' :: rest => readItems? fuel (items ++ [item]) rest
            | ']' :: rest => some (.arr (items ++ [item]), rest)
            | _ => none

end

/-- The value after an equals sign, up to the end of the line. -/
def value? (text : List Char) : Option Json := do
  let (value, rest) ← readValue? (2 * text.length + 2) text
  if isRestOfLine rest then some value else none

/-- What a line of a settings file says. -/
inductive Line where
  | blank
  | header (path : List Text)
  | listHeader (path : List Text)
  | entry (path : List Text) (value : Json)

/-- The path of a header, up to the end of the line. -/
def readHeader? (brackets : Nat) (text : List Char) : Option (List Text) := do
  let (path, after) ← readPath? (text.length + 1) text
  if after.take brackets = List.replicate brackets ']' ∧ isRestOfLine (after.drop brackets) then
    some path
  else none

/-- Reads a line. -/
def readLine? (text : List Char) : Option Line :=
  if isRestOfLine text then some .blank
  else
    match text.dropWhile isInnerBlank with
    | '[' :: '[' :: rest => (readHeader? 2 rest).map .listHeader
    | '[' :: rest => (readHeader? 1 rest).map .header
    | start => do
        let (path, after) ← readPath? (start.length + 1) start
        match after with
        | '=' :: rest => (value? rest).map (.entry path)
        | _ => none

/-- What a table may become. -/
abbrev Change := List (Text × Json) → Option (List (Text × Json))

/-- Adds a field that is not there yet. -/
def addField (key : Text) (value : Json) : Change := fun fields =>
  if (Json.field? fields key).isSome then none else some (fields ++ [(key, value)])

/-- Adds an empty table to a list of tables, which is made if it is missing. -/
def addTable (key : Text) : Change := fun fields =>
  match Json.field? fields key with
  | none => some (fields ++ [(key, .arr [.obj []])])
  | some (.arr items) => some (Json.setField fields key (.arr (items ++ [.obj []])))
  | some _ => none

/-- Changes the table that a path of keys leads to. Tables on the way are made if they are missing,
and a list of tables stands for its last one. -/
def changeAt (change : Change) : (path : List Text) → Change
  | [], fields => change fields
  | key :: rest, fields =>
      match Json.field? fields key with
      | none => do
          let made ← changeAt change rest []
          return fields ++ [(key, .obj made)]
      | some (.obj inner) => do
          let changed ← changeAt change rest inner
          return Json.setField fields key (.obj changed)
      | some (.arr items) =>
          match items.getLast? with
          | some (.obj inner) => do
              let changed ← changeAt change rest inner
              return Json.setField fields key (.arr (items.dropLast ++ [.obj changed]))
          | _ => none
      | some _ => none

/-- The fields of a file, the headers it has had, and the table that entries go to. -/
structure Tables where
  fields : List (Text × Json) := []
  headers : List (List Text) := []
  current : List Text := []

/-- Adds a line to the tables so far. -/
def Tables.add? (tables : Tables) : Line → Option Tables
  | .blank => some tables
  | .header path =>
      if path ∈ tables.headers then none
      else do
        let fields ← changeAt some path tables.fields
        return ⟨fields, path :: tables.headers, path⟩
  | .listHeader path => do
      let key ← path.getLast?
      let fields ← changeAt (addTable key) path.dropLast tables.fields
      return { tables with fields, current := path }
  | .entry path value => do
      let key ← path.getLast?
      let fields ← changeAt (addField key value) (tables.current ++ path.dropLast) tables.fields
      return { tables with fields }

/-- Reads a settings file in its plain form. -/
def readTable? (text : List Char) : Option Json := do
  let tables ← (Text.lines text).foldlM
    (fun tables line => do tables.add? (← readLine? line)) ({} : Tables)
  return .obj tables.fields

end GridRobot.Settings
