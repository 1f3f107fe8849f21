import GridRobot.Decimal.Binary
import GridRobot.Random.Digest

/-!
# Seeds

The generator is started with a whole number. A real number and a text stand for whole numbers as
well.
-/

namespace GridRobot.Random

/-- The prime by which real numbers are reduced. Two to the power 61 leaves one. -/
def residuePrime : Nat := Nat.pow 2 61 - 1

/-- The residue of a negative number, as an unsigned word of 64 bits. Minus one is not used, and
minus two stands for it. -/
def negativeWord (residue : Nat) : Nat :=
  Nat.pow 2 64 - (if residue = 1 then 2 else residue)

/-- The residue of a number with its sign, as an unsigned word of 64 bits. -/
def signedWord (negative : Bool) (residue : Nat) : Nat :=
  if negative && residue != 0 then negativeWord residue else residue

/-- The seed that a real number stands for: its residue modulo a prime, so that a whole number
stands for itself as long as it is small. What is no number stands for none. -/
def realSeed? (number : Float) : Option Nat :=
  match Decimal.Binary.ofFloat number with
  | .nan => none
  | .infinite negative => some (signedWord negative 314159)
  | .finite negative mantissa exponent _ =>
      some (signedWord negative (mantissa * Nat.pow 2 (exponent % 61).toNat % residuePrime))

/-- The seed that a text stands for: its bytes and their digest, read as one number. -/
def textSeed (text : String) : Nat :=
  let bytes := text.toUTF8.data.toList
  (bytes ++ Digest.sha512 bytes).foldl (fun total byte => total * 256 + byte.toNat) 0

end GridRobot.Random
