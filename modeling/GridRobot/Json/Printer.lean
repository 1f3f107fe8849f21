import GridRobot.Decimal.Layout
import GridRobot.Json.Basic
import GridRobot.Text.Quoted

/-!
# Text of structured data

Two written forms. The data form can be read back: it uses only ASCII, one space after each comma
and colon, and keeps the order of fields. The display form is used inside messages and shows text
in quotes.
-/

namespace GridRobot.Json

/-- A code unit as a `\uXXXX` escape. -/
def unitEscape (unit : Nat) : List Char :=
  '\\' :: 'u' :: Text.hex 4 unit

/-- One character of a string in the data form. Characters above the basic plane are written as
two escapes. -/
def escapedChar (char : Char) : List Char :=
  if char = '"' then ['\\', '"']
  else if char = '\\' then ['\\', '\\']
  else if char = '\n' then ['\\', 'n']
  else if char = '\r' then ['\\', 'r']
  else if char = '\t' then ['\\', 't']
  else if char.toNat = 8 then ['\\', 'b']
  else if char.toNat = 12 then ['\\', 'f']
  else if 32 ≤ char.toNat ∧ char.toNat < 127 then [char]
  else if char.toNat < 0x10000 then unitEscape char.toNat
  else
    let offset := char.toNat - 0x10000
    unitEscape (0xd800 + offset / 0x400) ++ unitEscape (0xdc00 + offset % 0x400)

/-- One code point of a string in the data form. -/
def escapedPoint : CodePoint → List Char
  | .char char => escapedChar char
  | half => unitEscape half.value

/-- A string in the data form. -/
def stringText (text : Text) : String :=
  "\"" ++ String.ofList (text.points.flatMap escapedPoint) ++ "\""

/-- The special floating-point values in the data form. -/
def dataNames : Decimal.SpecialNames := ⟨"NaN", "Infinity"⟩

/-- The special floating-point values in the display form. -/
def displayNames : Decimal.SpecialNames := ⟨"nan", "inf"⟩

mutual

/-- The data form of a value. -/
def text : Json → String
  | .null => "null"
  | .bool true => "true"
  | .bool false => "false"
  | .int value => toString value
  | .float value => Decimal.write dataNames value
  | .str text => stringText text
  | .arr items => "[" ++ ", ".intercalate (itemTexts items) ++ "]"
  | .obj fields => "\x7b" ++ ", ".intercalate (fieldTexts fields) ++ "\x7d"

/-- The data forms of the items of an array. -/
def itemTexts : List Json → List String
  | [] => []
  | item :: rest => text item :: itemTexts rest

/-- The data forms of the fields of an object. -/
def fieldTexts : List (Text × Json) → List String
  | [] => []
  | (key, value) :: rest => (stringText key ++ ": " ++ text value) :: fieldTexts rest

end

mutual

/-- The display form of a value. -/
def display : Json → String
  | .null => "None"
  | .bool true => "True"
  | .bool false => "False"
  | .int value => toString value
  | .float value => Decimal.write displayNames value
  | .str text => Text.quoted text
  | .arr items => "[" ++ ", ".intercalate (itemDisplays items) ++ "]"
  | .obj fields => "\x7b" ++ ", ".intercalate (fieldDisplays fields) ++ "\x7d"

/-- The display forms of the items of an array. -/
def itemDisplays : List Json → List String
  | [] => []
  | item :: rest => display item :: itemDisplays rest

/-- The display forms of the fields of an object. -/
def fieldDisplays : List (Text × Json) → List String
  | [] => []
  | (key, value) :: rest =>
      (Text.quoted key ++ ": " ++ display value) :: fieldDisplays rest

end

/-- A value as part of a message: a text as it is, and any other value in its display form. -/
def shown : Json → Text
  | .str text => text
  | other => other.display

/-- The most characters that a quotation of a value may have. -/
def fragmentLimit : Nat := 80

/-- A quotation of a value: its data form, cut off with three dots when it is too long. -/
def fragment (value : Json) : String :=
  let whole := value.text
  if whole.length ≤ fragmentLimit then whole
  else String.ofList (whole.toList.take (fragmentLimit - 3)) ++ "..."

end GridRobot.Json
