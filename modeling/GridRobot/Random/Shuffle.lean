import GridRobot.Random.Twister

/-!
# Shuffling

A list is shuffled by exchanging each of its items, from the last to the second, with a random item
that does not come after it. Which places are exchanged depends on the seed and the length alone.
-/

namespace GridRobot.Random

/-- The number of bits of a number. -/
def bitLength (value : Nat) : Nat :=
  if value = 0 then 0 else value.log2 + 1

/-- Draws a number below a bound: words are cut to the length of the bound and drawn again while
they are too large. -/
def below (bound : Nat) : (fuel : Nat) → Twister → Nat × Twister
  | 0, twister => (0, twister)
  | fuel + 1, twister =>
      let (drawn, next) := twister.next
      let value := (drawn >>> (32 - bitLength bound).toUInt32).toNat
      if value < bound then (value, next) else below bound fuel next

/-- How often a number is drawn again before zero is taken instead. Each draw succeeds with a chance
of at least one half. -/
def patience : Nat := 10000

/-- The places to exchange in the items up to a length, the last item first. -/
def exchanges (twister : Twister) : (length : Nat) → List (Nat × Nat)
  | 0 => []
  | 1 => []
  | last + 2 =>
      let (place, next) := below (last + 2) patience twister
      (last + 1, place) :: exchanges next (last + 1)

/-- Exchanges two items. -/
def exchange {α : Type} (items : Array α) (places : Nat × Nat) : Array α :=
  items.swapIfInBounds places.1 places.2

/-- The items of a list in the order that a seed gives. -/
def shuffle {α : Type} (seed : Int) (items : List α) : List α :=
  ((exchanges (Twister.ofSeed seed) items.length).foldl exchange items.toArray).toList

end GridRobot.Random
