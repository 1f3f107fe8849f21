import GridRobot.Text.Blank
import GridRobot.Text.Digit

/-!
# Numerals given by a user

A whole number may stand between blanks, carry one sign, use the decimal digits of any script, and
have single underscores between its digits.
-/

namespace GridRobot.Text

/-- Blanks that may stand around a numeral: all but the four information separators. -/
def isNumeralBlank (char : Char) : Bool :=
  isBlank char && !(28 ≤ char.toNat && char.toNat ≤ 31)

/-- The digits of a numeral, underscores taken out, or nothing when it is not well formed. An
underscore is allowed only between two digits. -/
def numeralDigits : List Char → Option (List Nat)
  | [] => none
  | char :: rest =>
      match digitValue? char with
      | none => none
      | some value =>
          match rest with
          | [] => some [value]
          | '_' :: more => (numeralDigits more).map (value :: ·)
          | more => (numeralDigits more).map (value :: ·)

/-- The longest run of digits that a numeral may have. -/
def numeralLimit : Nat := 4300

/-- The wording for a number with too many digits. -/
def oversizeMessage (digits : Nat) : String :=
  "Exceeds the limit (" ++ toString numeralLimit ++
    " digits) for integer string conversion: value has " ++ toString digits ++
    " digits; use sys.set_int_max_str_digits() to increase the limit"

/-- The number that a digit sequence stands for. -/
def ofDigits (digits : List Nat) : Nat :=
  digits.foldl (fun total digit => 10 * total + digit) 0

/-- An unsigned numeral. -/
def natural? (text : List Char) : Option Nat := do
  let digits ← numeralDigits text
  if digits.length ≤ numeralLimit then some (ofDigits digits) else none

/-- A whole number as a user writes it. -/
def integer? (text : String) : Option Int :=
  let inner := ((text.toList.dropWhile isNumeralBlank).reverse.dropWhile isNumeralBlank).reverse
  match inner with
  | '-' :: rest => (natural? rest).map fun value => -(value : Int)
  | '+' :: rest => (natural? rest).map fun value => (value : Int)
  | rest => (natural? rest).map fun value => (value : Int)

end GridRobot.Text
