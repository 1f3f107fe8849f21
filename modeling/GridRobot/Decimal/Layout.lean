import GridRobot.Decimal.Binary
import GridRobot.Decimal.Shortest

/-!
# Written form of a floating-point number

The shortest decimal is written positionally when its first digit has a place from `10 ^ -4` to
`10 ^ 15`, and with an exponent otherwise. A positional form keeps at least one digit after the
point, and an exponent has a sign and at least two digits.
-/

namespace GridRobot.Decimal

/-- Digits without zeros at their end; the number of zeros dropped goes to the exponent. -/
def dropZeros (digits : List Char) : List Char :=
  (digits.reverse.dropWhile (· == '0')).reverse

/-- An exponent: its sign and at least two digits. -/
def exponentText (exponent : Int) : List Char :=
  let digits := Nat.toDigits 10 exponent.natAbs
  let sign := if exponent < 0 then '-' else '+'
  'e' :: sign :: (List.replicate (2 - digits.length) '0' ++ digits)

/-- The written form of an unsigned decimal. -/
def Scaled.layout (value : Scaled) : List Char :=
  if value.digits = 0 then ['0', '.', '0']
  else
    let all := Nat.toDigits 10 value.digits
    let digits := dropZeros all
    let point : Int := all.length + value.exponent
    if point ≤ -4 ∨ 16 < point then
      match digits with
      | first :: second :: rest =>
          first :: '.' :: second :: rest ++ exponentText (point - 1)
      | short => short ++ exponentText (point - 1)
    else if point ≤ 0 then
      '0' :: '.' :: (List.replicate (-point).toNat '0' ++ digits)
    else
      let whole := point.toNat
      if digits.length ≤ whole then
        digits ++ List.replicate (whole - digits.length) '0' ++ ['.', '0']
      else digits.take whole ++ '.' :: digits.drop whole

/-- The names of the values that have no digits. -/
structure SpecialNames where
  nan : String
  infinity : String

/-- The written form of a floating-point number. -/
def write (names : SpecialNames) (number : Float) : String :=
  match Binary.ofFloat number with
  | .nan => names.nan
  | .infinite negative => (if negative then "-" else "") ++ names.infinity
  | .finite negative mantissa exponent narrowBelow =>
      let value := if mantissa = 0 then ⟨0, 0⟩ else shortest mantissa exponent narrowBelow
      (if negative then "-" else "") ++ String.ofList value.layout

end GridRobot.Decimal
