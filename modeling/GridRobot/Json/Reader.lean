import GridRobot.Json.Basic
import GridRobot.Text.Numeral

/-!
# Reading structured data

A reader of data documents. Beyond the standard grammar it accepts the words `NaN`, `Infinity` and
`-Infinity`. A failure says what was expected and where. Arrays and objects may be nested only up
to a given depth, and a whole number may have only so many digits.
-/

namespace GridRobot.Json

/-- What is wrong with a data document. -/
inductive Cause where
  | byteOrderMark
  | value
  | comma
  | colon
  | name
  | unterminated
  | control
  | escape
  | unicodeEscape
  | extra
  | depth
  | oversize (digits : Nat)
  deriving DecidableEq, Repr

/-- A failure and how much of the text was left where it happened. -/
structure Failure where
  cause : Cause
  remaining : Nat
  deriving DecidableEq, Repr

/-- White space between the parts of a document. -/
def isSpace (char : Char) : Bool :=
  char == ' ' || char == '\t' || char == '\n' || char == '\r'

/-- The text after white space. -/
def skipSpace (text : List Char) : List Char :=
  text.dropWhile isSpace

/-- The value of a hexadecimal digit. -/
def hexValue? (char : Char) : Option Nat :=
  if '0' ≤ char ∧ char ≤ '9' then some (char.toNat - 48)
  else if 'a' ≤ char ∧ char ≤ 'f' then some (char.toNat - 87)
  else if 'A' ≤ char ∧ char ≤ 'F' then some (char.toNat - 55)
  else none

/-- The value of four hexadecimal digits. -/
def hexUnit? (a b c d : Char) : Option Nat := do
  let first ← hexValue? a
  let second ← hexValue? b
  let third ← hexValue? c
  let fourth ← hexValue? d
  return ((first * 16 + second) * 16 + third) * 16 + fourth

/-- The character of a short escape. -/
def shortEscape? (char : Char) : Option Char :=
  match char with
  | '"' => some '"'
  | '\\' => some '\\'
  | '/' => some '/'
  | 'b' => some (Char.ofNat 8)
  | 'f' => some (Char.ofNat 12)
  | 'n' => some '\n'
  | 'r' => some '\r'
  | 't' => some '\t'
  | _ => none

/-- The character of a pair of halves, if the second half fits the first. -/
def pairChar? (first second : Nat) : Option Char :=
  if 0xd800 ≤ first ∧ first < 0xdc00 ∧ 0xdc00 ≤ second ∧ second < 0xe000 then
    some (Char.ofNat (0x10000 + (first - 0xd800) * 0x400 + (second - 0xdc00)))
  else none

/-- The code point of an escape, from the text after its backslash, and how many characters of that
text belong to it. A pair of halves is one character written as two escapes, and a half without its
counterpart stands for itself. `opening` is how much text was left at the opening quote. -/
def readEscape (opening : Nat) : List Char → Except Failure (CodePoint × Nat)
  | [] => .error ⟨.unterminated, opening⟩
  | 'u' :: digits =>
      match digits with
      | a :: b :: c :: d :: next :: more =>
          match hexUnit? a b c d with
          | none => .error ⟨.unicodeEscape, digits.length + 1⟩
          | some unit =>
              match next, more with
              | '\\', 'u' :: e :: f :: g :: h :: last :: others =>
                  if 0xd800 ≤ unit ∧ unit < 0xdc00 then
                    match hexUnit? e f g h with
                    | none => .error ⟨.unicodeEscape, (last :: others).length + 5⟩
                    | some second =>
                        match pairChar? unit second with
                        | some char => .ok (.char char, 11)
                        | none => .ok (.ofUnit unit, 5)
                  else .ok (.ofUnit unit, 5)
              | _, _ => .ok (.ofUnit unit, 5)
      | _ => .error ⟨.unicodeEscape, digits.length + 1⟩
  | escaped :: rest =>
      match shortEscape? escaped with
      | some char => .ok (.char char, 1)
      | none => .error ⟨.escape, rest.length + 2⟩

/-- Reads a string up to its closing quote. `opening` is how much text was left at the opening
quote, `skip` counts characters that belong to the escape just read, and `read` holds the code
points so far, the last one first. -/
def readString (opening : Nat) (skip : Nat) (read : List CodePoint) :
    List Char → Except Failure (Text × List Char)
  | [] => .error ⟨.unterminated, opening⟩
  | char :: rest =>
      match skip with
      | skip + 1 => readString opening skip read rest
      | 0 =>
          if char = '"' then .ok (⟨read.reverse⟩, rest)
          else if char = '\\' then
            match readEscape opening rest with
            | .error failure => .error failure
            | .ok (escaped, size) => readString opening size (escaped :: read) rest
          else if char.toNat < 32 then .error ⟨.control, rest.length + 1⟩
          else readString opening 0 (.char char :: read) rest

/-- An ASCII digit. -/
def isDigit (char : Char) : Bool :=
  '0' ≤ char && char ≤ '9'

/-- The number that ASCII digits stand for. -/
def digitsValue (digits : List Char) : Nat :=
  Text.ofDigits (digits.map fun digit => digit.toNat - 48)

/-- The digits before the point: a single zero, or digits that do not start with zero. -/
def wholePart? : List Char → Option (List Char × List Char)
  | '0' :: rest => some (['0'], rest)
  | first :: rest =>
      if isDigit first then some (first :: rest.takeWhile isDigit, rest.dropWhile isDigit)
      else none
  | [] => none

/-- The digits after the point, when a point and a digit follow. -/
def fractionPart? : List Char → Option (List Char × List Char)
  | '.' :: first :: rest =>
      if isDigit first then some (first :: rest.takeWhile isDigit, rest.dropWhile isDigit)
      else none
  | _ => none

/-- The exponent, when its letter and at least one digit follow. -/
def exponentPart? : List Char → Option (Int × List Char)
  | letter :: rest =>
      if letter = 'e' ∨ letter = 'E' then
        let (negative, digits) :=
          match rest with
          | '-' :: more => (true, more)
          | '+' :: more => (false, more)
          | more => (false, more)
        match digits.takeWhile isDigit with
        | [] => none
        | found =>
            let size : Int := digitsValue found
            some (if negative then -size else size, digits.dropWhile isDigit)
      else none
  | [] => none

/-- The floating-point number nearest to `digits * 10 ^ exponent`. Powers far outside the range
are settled before any large number is built. -/
def nearestFloat (negative : Bool) (digits : List Char) (exponent : Int) : Float :=
  let mantissa := digitsValue digits
  let top := exponent + digits.length
  let size :=
    if mantissa = 0 ∨ top < -400 then 0.0
    else if 400 < exponent then Float.ofScientific 1 false 400
    else Float.ofScientific mantissa (exponent < 0) exponent.natAbs
  if negative then -size else size

/-- Reads a number. A number with a fraction or an exponent is floating-point. -/
def readNumber? (text : List Char) : Option (Json × List Char) := do
  let (negative, unsigned) :=
    match text with
    | '-' :: rest => (true, rest)
    | rest => (false, rest)
  let (whole, afterWhole) ← wholePart? unsigned
  let (fraction, afterFraction) := (fractionPart? afterWhole).getD ([], afterWhole)
  match exponentPart? afterFraction with
  | some (exponent, rest) =>
      return (.float (nearestFloat negative (whole ++ fraction) (exponent - fraction.length)), rest)
  | none =>
      if fraction.isEmpty then
        let size : Int := digitsValue whole
        return (.int (if negative then -size else size), afterFraction)
      else
        return (.float (nearestFloat negative (whole ++ fraction) (-fraction.length)),
          afterFraction)

/-- The values that are written as words. -/
def words : List (List Char × Json) :=
  [("null".toList, .null), ("true".toList, .bool true), ("false".toList, .bool false),
   ("NaN".toList, .float (0.0 / 0.0)), ("Infinity".toList, .float (1.0 / 0.0)),
   ("-Infinity".toList, .float (-1.0 / 0.0))]

/-- How many digits stand in a text before the rest of it. -/
def digitCount (text rest : List Char) : Nat :=
  (text.take (text.length - rest.length)).countP isDigit

/-- Reads a word or a number. -/
def readScalar (text : List Char) : Except Failure (Json × List Char) :=
  match words.find? fun (word, _) => word.isPrefixOf text with
  | some (word, value) => .ok (value, text.drop word.length)
  | none =>
      match readNumber? text with
      | some (.int value, rest) =>
          let digits := digitCount text rest
          if Text.numeralLimit < digits then .error ⟨.oversize digits, text.length⟩
          else .ok (.int value, rest)
      | some result => .ok result
      | none => .error ⟨.value, text.length⟩

mutual

/-- Reads the value at the front of a text. `fuel` bounds the recursion and `room` the nesting. -/
def readValue (fuel room : Nat) (text : List Char) : Except Failure (Json × List Char) :=
  match fuel with
  | 0 => .error ⟨.depth, text.length⟩
  | fuel + 1 =>
      match text with
      | '"' :: rest => do
          let (content, next) ← readString text.length 0 [] rest
          return (.str content, next)
      | '[' :: rest =>
          match room with
          | 0 => .error ⟨.depth, text.length⟩
          | room + 1 =>
              match skipSpace rest with
              | ']' :: next => .ok (.arr [], next)
              | more => do
                  let (items, next) ← readItems fuel room more
                  return (.arr items, next)
      | '\x7b' :: rest =>
          match room with
          | 0 => .error ⟨.depth, text.length⟩
          | room + 1 =>
              match skipSpace rest with
              | '\x7d' :: next => .ok (.obj [], next)
              | more => do
                  let (fields, next) ← readFields fuel room [] more
                  return (.obj fields, next)
      | _ => readScalar text

/-- Reads the items of an array and its closing bracket. -/
def readItems (fuel room : Nat) (text : List Char) : Except Failure (List Json × List Char) :=
  match fuel with
  | 0 => .error ⟨.depth, text.length⟩
  | fuel + 1 => do
      let (item, next) ← readValue fuel room text
      match skipSpace next with
      | ']' :: rest => return ([item], rest)
      | ',' :: rest =>
          let (items, last) ← readItems fuel room (skipSpace rest)
          return (item :: items, last)
      | other => .error ⟨.comma, other.length⟩

/-- Reads the fields of an object and its closing brace, after the fields read so far. -/
def readFields (fuel room : Nat) (fields : List (Text × Json)) (text : List Char) :
    Except Failure (List (Text × Json) × List Char) :=
  match fuel with
  | 0 => .error ⟨.depth, text.length⟩
  | fuel + 1 =>
      match text with
      | '"' :: rest => do
          let (key, afterKey) ← readString text.length 0 [] rest
          match skipSpace afterKey with
          | ':' :: afterColon =>
              let (value, next) ← readValue fuel room (skipSpace afterColon)
              let updated := setField fields key value
              match skipSpace next with
              | '\x7d' :: last => return (updated, last)
              | ',' :: more => readFields fuel room updated (skipSpace more)
              | other => .error ⟨.comma, other.length⟩
          | other => .error ⟨.colon, other.length⟩
      | other => .error ⟨.name, other.length⟩

end

/-- Reads a whole document whose values are nested at most `room` deep. -/
def read (room : Nat) (text : List Char) : Except Failure Json :=
  if text.head? = some '\ufeff' then .error ⟨.byteOrderMark, text.length⟩
  else do
    let (value, next) ← readValue (2 * text.length + 2) room (skipSpace text)
    match skipSpace next with
    | [] => return value
    | extra => .error ⟨.extra, extra.length⟩

/-- The wording of a cause. -/
def Cause.message : Cause → String
  | .byteOrderMark => "Unexpected UTF-8 BOM (decode using utf-8-sig)"
  | .value => "Expecting value"
  | .comma => "Expecting ',' delimiter"
  | .colon => "Expecting ':' delimiter"
  | .name => "Expecting property name enclosed in double quotes"
  | .unterminated => "Unterminated string starting at"
  | .control => "Invalid control character at"
  | .escape => "Invalid \\escape"
  | .unicodeEscape => "Invalid \\uXXXX escape"
  | .extra => "Extra data"
  | .depth => "nested too deeply"
  | .oversize digits => Text.oversizeMessage digits

/-- The text before a failure. -/
def Failure.passed (failure : Failure) (text : List Char) : List Char :=
  text.take (text.length - failure.remaining)

/-- The line of a failure, counted from one. -/
def Failure.line (failure : Failure) (text : List Char) : Nat :=
  (failure.passed text).count '\n' + 1

/-- The column of a failure, counted from one. -/
def Failure.column (failure : Failure) (text : List Char) : Nat :=
  ((failure.passed text).reverse.takeWhile (· != '\n')).length + 1

/-- The wording of a failure with its place in the text. A number that is too long has none. -/
def Failure.message (failure : Failure) (text : List Char) : String :=
  match failure.cause with
  | .oversize digits => Text.oversizeMessage digits
  | cause =>
      cause.message ++ ": line " ++ toString (failure.line text) ++ " column " ++
        toString (failure.column text) ++ " (char " ++
        toString (failure.passed text).length ++ ")"

end GridRobot.Json
