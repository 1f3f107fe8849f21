import GridRobot.Text.Basic
import GridRobot.Text.Printable

/-!
# Quoted text

Text between quotes, as messages and listings show it. Single quotes are used unless the text
holds a single quote and no double quote. The backslash, the quote in use and everything without
a visible form are escaped, lone halves of surrogate pairs among it.
-/

namespace GridRobot.Text

/-- A number in lower-case hexadecimal, with leading zeros up to a width. -/
def hex (width : Nat) (value : Nat) : List Char :=
  let digits := Nat.toDigits 16 value
  List.replicate (width - digits.length) '0' ++ digits

/-- One character of quoted text. -/
def quotedChar (quote : Char) (char : Char) : List Char :=
  if char = quote ∨ char = '\\' then ['\\', char]
  else if char = '\n' then ['\\', 'n']
  else if char = '\r' then ['\\', 'r']
  else if char = '\t' then ['\\', 't']
  else if isPrintable char then [char]
  else if char.toNat < 0x100 then '\\' :: 'x' :: hex 2 char.toNat
  else if char.toNat < 0x10000 then '\\' :: 'u' :: hex 4 char.toNat
  else '\\' :: 'U' :: hex 8 char.toNat

/-- One code point of quoted text. -/
def quotedPoint (quote : Char) : CodePoint → List Char
  | .char char => quotedChar quote char
  | half => '\\' :: 'u' :: hex 4 half.value

/-- The quote that a text is shown in. -/
def quoteFor (points : List CodePoint) : Char :=
  if points.contains (.char '\'') && !points.contains (.char '"') then '"' else '\''

/-- The text between quotes. -/
def quoted (text : Text) : String :=
  let quote := quoteFor text.points
  String.ofList (quote :: text.points.flatMap (quotedPoint quote) ++ [quote])

/-- The text with lone halves of surrogate pairs written as escapes, for output that takes only
characters. -/
def printable (text : Text) : String :=
  String.ofList (text.points.flatMap fun point =>
    match point with
    | .char char => [char]
    | half => '\\' :: 'u' :: hex 4 half.value)

end GridRobot.Text
