/-!
# A seeded source of random words

The Mersenne twister with a period of `2 ^ 19937 - 1`: 624 words of 32 bits, seeded by an array of
words and drawn in order after tempering.
-/

namespace GridRobot.Random

/-- The number of words of the generator. -/
def size : Nat := 624

/-- The state of the generator: its words and the index of the next one to draw. -/
structure Twister where
  words : Array UInt32
  index : Nat

/-- The word at an index. -/
def word (words : Array UInt32) (index : Nat) : UInt32 :=
  words.getD index 0

/-- The words grown from a single seed word. -/
def spread (seed : UInt32) : Array UInt32 :=
  (List.range (size - 1)).foldl
    (fun words index =>
      let last := word words index
      words.push ((last ^^^ (last >>> 30)) * 1812433253 + (index + 1).toUInt32))
    #[seed]

/-- The next index after one of the words, where index zero is never used again: past the end, the
last word is copied to the front. -/
def advance (words : Array UInt32) (index : Nat) : Array UInt32 × Nat :=
  if size ≤ index + 1 then (words.setIfInBounds 0 (word words (size - 1)), 1)
  else (words, index + 1)

/-- Mixes the words of a key into the words of the generator. -/
def mixKey (key : Array UInt32) :
    (rounds : Nat) → Array UInt32 → (index position : Nat) → Array UInt32 × Nat
  | 0, words, index, _ => (words, index)
  | rounds + 1, words, index, position =>
      let last := word words (index - 1)
      let mixed := (word words index ^^^ ((last ^^^ (last >>> 30)) * 1664525)) +
        key.getD position 0 + position.toUInt32
      let (next, place) := advance (words.setIfInBounds index mixed) index
      mixKey key rounds next place (if key.size ≤ position + 1 then 0 else position + 1)

/-- Mixes the words of the generator among themselves. -/
def mixWords : (rounds : Nat) → Array UInt32 → (index : Nat) → Array UInt32
  | 0, words, _ => words
  | rounds + 1, words, index =>
      let last := word words (index - 1)
      let mixed := (word words index ^^^ ((last ^^^ (last >>> 30)) * 1566083941)) -
        index.toUInt32
      let (next, place) := advance (words.setIfInBounds index mixed) index
      mixWords rounds next place

/-- The words of a natural number, the lowest first. -/
def keyWords : (fuel : Nat) → Nat → List UInt32
  | 0, _ => []
  | fuel + 1, value =>
      value.toUInt32 :: (if value < Nat.pow 2 32 then [] else keyWords fuel (value / Nat.pow 2 32))

/-- The generator for a seed. The sign of a seed does not matter. -/
def Twister.ofSeed (seed : Int) : Twister :=
  let value := seed.natAbs
  let key := (keyWords (value.log2 + 1) value).toArray
  let (words, index) := mixKey key (max size key.size) (spread 19650218) 1 0
  let mixed := mixWords (size - 1) words index
  ⟨mixed.setIfInBounds 0 0x80000000, size⟩

/-- One word of the next generation, made of the word at an index and the two that it meets. -/
def twist (words : Array UInt32) (index : Nat) : Array UInt32 :=
  let high := word words index &&& 0x80000000
  let low := word words ((index + 1) % size) &&& 0x7fffffff
  let both := high ||| low
  let odd : UInt32 := if both &&& 1 = 0 then 0 else 0x9908b0df
  words.setIfInBounds index (word words ((index + 397) % size) ^^^ (both >>> 1) ^^^ odd)

/-- The words of the next generation. -/
def renew (words : Array UInt32) : Array UInt32 :=
  (List.range size).foldl twist words

/-- Spreads the bits of a word before it is handed out. -/
def temper (raw : UInt32) : UInt32 :=
  let first := raw ^^^ (raw >>> 11)
  let second := first ^^^ ((first <<< 7) &&& 0x9d2c5680)
  let third := second ^^^ ((second <<< 15) &&& 0xefc60000)
  third ^^^ (third >>> 18)

/-- Draws the next word. -/
def Twister.next (twister : Twister) : UInt32 × Twister :=
  let (words, index) :=
    if size ≤ twister.index then (renew twister.words, 0) else (twister.words, twister.index)
  (temper (word words index), ⟨words, index + 1⟩)

end GridRobot.Random
