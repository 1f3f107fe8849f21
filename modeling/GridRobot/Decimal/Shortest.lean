/-!
# The shortest decimal of a binary number

A binary number `mantissa * 2 ^ exponent` stands for every real that rounds to it. Of the decimals
in that interval, the shortest is the one with the fewest digits, and of those the nearest. All
arithmetic is exact.
-/

namespace GridRobot.Decimal

/-- The decimal `digits * 10 ^ exponent`. -/
structure Scaled where
  digits : Nat
  exponent : Int
  deriving DecidableEq, Repr

/-- The reals that round to a binary number, as numerators over one denominator. -/
structure Interval where
  low : Nat
  value : Nat
  high : Nat
  denominator : Nat
  closed : Bool

namespace Interval

/-- The interval around `mantissa * 2 ^ exponent`. Below a power of two the neighbour is only half
as far, unless the number is at the bottom of the range. -/
def around (mantissa : Nat) (exponent : Int) (narrowBelow : Bool) : Interval :=
  let scale := exponent - 2
  let up := Nat.pow 2 scale.toNat
  let low := if narrowBelow then 4 * mantissa - 1 else 4 * mantissa - 2
  { low := low * up
    value := 4 * mantissa * up
    high := (4 * mantissa + 2) * up
    denominator := Nat.pow 2 (-scale).toNat
    closed := mantissa % 2 == 0 }

/-- The interval divided by a power of ten. -/
def shift (interval : Interval) (power : Int) : Interval :=
  let up := Nat.pow 10 (-power).toNat
  { low := interval.low * up
    value := interval.value * up
    high := interval.high * up
    denominator := interval.denominator * Nat.pow 10 power.toNat
    closed := interval.closed }

/-- Whether a whole number lies in the interval. -/
def contains (interval : Interval) (point : Nat) : Bool :=
  let scaled := point * interval.denominator
  if interval.closed then interval.low ≤ scaled && scaled ≤ interval.high
  else interval.low < scaled && scaled < interval.high

/-- The whole number in the interval that is nearest to its value, if it holds one of the value's
two neighbours. A tie goes to the even neighbour. -/
def nearest? (interval : Interval) : Option Nat :=
  let below := interval.value / interval.denominator
  let above := below + 1
  let down := interval.value - below * interval.denominator
  let up := above * interval.denominator - interval.value
  match interval.contains below, interval.contains above with
  | false, false => none
  | true, false => some below
  | false, true => some above
  | true, true =>
      if down < up then some below
      else if up < down then some above
      else if below % 2 = 0 then some below else some above

end Interval

/-- How many zeros follow the point of a fraction below one, looked for within a limit. -/
def leadingZeros : Nat → Nat → Nat → Nat
  | 0, _, _ => 0
  | limit + 1, numerator, denominator =>
      if numerator * 10 < denominator then leadingZeros limit (numerator * 10) denominator + 1
      else 0

/-- How many digits stand before the point. A fraction below one has none, less the zeros after
its point. -/
def pointPosition (numerator denominator : Nat) : Int :=
  if numerator < denominator then -(leadingZeros 400 numerator denominator : Int)
  else (Nat.toDigits 10 (numerator / denominator)).length

/-- The shortest decimal in the interval with at least `count` digits. -/
def search (interval : Interval) (point : Int) : Nat → Nat → Scaled
  | 0, _ => ⟨0, 0⟩
  | limit + 1, count =>
      let power := point - count
      match (interval.shift power).nearest? with
      | some digits => ⟨digits, power⟩
      | none => search interval point limit (count + 1)

/-- The shortest decimal that rounds to `mantissa * 2 ^ exponent`. -/
def shortest (mantissa : Nat) (exponent : Int) (narrowBelow : Bool) : Scaled :=
  let interval := Interval.around mantissa exponent narrowBelow
  search interval (pointPosition interval.value interval.denominator) 20 1

end GridRobot.Decimal
