/-!
# Binary numbers

The exact value of a floating-point number, read from its bits.
-/

namespace GridRobot.Decimal

/-- A floating-point number: `mantissa * 2 ^ exponent` with a sign, or one of the special values.
`narrowBelow` says that the next number towards zero is only half as far as the next one away from
it. -/
inductive Binary where
  | nan
  | infinite (negative : Bool)
  | finite (negative : Bool) (mantissa : Nat) (exponent : Int) (narrowBelow : Bool)
  deriving DecidableEq, Repr

namespace Binary

/-- Reads the binary fields of a floating-point number. -/
def ofFloat (number : Float) : Binary :=
  let bits : Nat := number.toBits.toNat
  let negative := bits / Nat.pow 2 63 == 1
  let biased : Nat := bits / Nat.pow 2 52 % Nat.pow 2 11
  let fraction : Nat := bits % Nat.pow 2 52
  if biased = 2047 then
    if fraction = 0 then .infinite negative else .nan
  else if biased = 0 then .finite negative fraction (-1074) false
  else
    .finite negative (Nat.pow 2 52 + fraction) (Int.ofNat biased - 1075) (fraction = 0 ∧ 1 < biased)

/-- The least whole number that is not below `mantissa * 2 ^ exponent`, taken with its sign. -/
def ceiling (negative : Bool) (mantissa : Nat) (exponent : Int) : Int :=
  let numerator : Int := mantissa * Int.pow 2 exponent.toNat
  let denominator : Int := Int.pow 2 (-exponent).toNat
  if negative then -(numerator / denominator) else -((-numerator) / denominator)

end Binary

end GridRobot.Decimal
