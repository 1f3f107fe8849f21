/-!
# A digest of 512 bits

The digest SHA-512 of a sequence of bytes. Its constants are the first 64 bits after the point of
the square roots of the first 8 primes and of the cube roots of the first 80, so they are computed
here and not listed.
-/

namespace GridRobot.Random.Digest

/-- The largest number below a power of two whose power with a given exponent is not above a
target. -/
def root (exponent target : Nat) : (bits : Nat) → (found : Nat) → Nat
  | 0, found => found
  | bits + 1, found =>
      let tried := found + Nat.pow 2 bits
      root exponent target bits (if Nat.pow tried exponent ≤ target then tried else found)

/-- Whether a number has no divisor from two on below it. -/
def isPrime (number : Nat) : Bool :=
  2 ≤ number && (List.range number).all fun divisor => divisor < 2 || number % divisor != 0

/-- The first primes; all primes below 410 are 80. -/
def primes : List Nat :=
  (List.range 410).filter isPrime

/-- The first 64 bits after the point of a root of a whole number. -/
def rootBits (exponent number : Nat) : UInt64 :=
  (root exponent (number * Nat.pow 2 (64 * exponent)) 72 0).toUInt64

/-- The constants of the 80 rounds. -/
def roundConstants : List UInt64 :=
  primes.map (rootBits 3)

/-- Eight words of working state. -/
structure Words where
  a : UInt64
  b : UInt64
  c : UInt64
  d : UInt64
  e : UInt64
  f : UInt64
  g : UInt64
  h : UInt64

namespace Words

/-- The words as a list. -/
def toList (words : Words) : List UInt64 :=
  [words.a, words.b, words.c, words.d, words.e, words.f, words.g, words.h]

/-- The sums of words. -/
def add (first second : Words) : Words :=
  ⟨first.a + second.a, first.b + second.b, first.c + second.c, first.d + second.d,
   first.e + second.e, first.f + second.f, first.g + second.g, first.h + second.h⟩

/-- The words at the start. -/
def initial : Words :=
  ⟨rootBits 2 2, rootBits 2 3, rootBits 2 5, rootBits 2 7, rootBits 2 11, rootBits 2 13,
   rootBits 2 17, rootBits 2 19⟩

end Words

/-- A word rotated to the right. -/
def rotate (word : UInt64) (places : UInt64) : UInt64 :=
  (word >>> places) ||| (word <<< (64 - places))

/-- One round, with its constant and its word of the message. -/
def round (words : Words) (constant message : UInt64) : Words :=
  let mixE := rotate words.e 14 ^^^ rotate words.e 18 ^^^ rotate words.e 41
  let choice := (words.e &&& words.f) ^^^ (~~~words.e &&& words.g)
  let first := words.h + mixE + choice + constant + message
  let mixA := rotate words.a 28 ^^^ rotate words.a 34 ^^^ rotate words.a 39
  let majority := (words.a &&& words.b) ^^^ (words.a &&& words.c) ^^^ (words.b &&& words.c)
  ⟨first + mixA + majority, words.a, words.b, words.c, words.d + first, words.e, words.f, words.g⟩

/-- The words of a block, extended to one for every round. Words are kept with the latest first. -/
def extend : (count : Nat) → List UInt64 → List UInt64
  | 0, words => words
  | count + 1, words =>
      let near := words.getD 1 0
      let far := words.getD 14 0
      let mixNear := rotate near 19 ^^^ rotate near 61 ^^^ (near >>> 6)
      let mixFar := rotate far 1 ^^^ rotate far 8 ^^^ (far >>> 7)
      extend count ((mixNear + words.getD 6 0 + mixFar + words.getD 15 0) :: words)

/-- Works a block of 16 words into the state. -/
def compress (state : Words) (block : List UInt64) : Words :=
  let schedule := (extend 64 block.reverse).reverse
  state.add ((roundConstants.zip schedule).foldl (fun words (constant, message) =>
    round words constant message) state)

/-- The 64-bit word of the first 8 bytes, the highest first. -/
def word (bytes : List UInt8) : UInt64 :=
  (bytes.take 8).foldl (fun total byte => total * 256 + byte.toUInt64) 0

/-- The bytes of a number, the highest first. -/
def bytesOf (count number : Nat) : List UInt8 :=
  (List.range count).map fun place => (number / Nat.pow 256 (count - 1 - place)).toUInt8

/-- The message with a mark, zeros and its length in bits, filled up to whole blocks of 128
bytes. -/
def padded (bytes : List UInt8) : List UInt8 :=
  let zeros := (239 - bytes.length % 128) % 128
  bytes ++ 0x80 :: List.replicate zeros 0 ++ bytesOf 16 (bytes.length * 8)

/-- The words of a sequence of blocks, one list for each block. -/
def blocks (bytes : List UInt8) : List (List UInt64) :=
  (List.range (bytes.length / 128)).map fun index =>
    (List.range 16).map fun place => word (bytes.drop (128 * index + 8 * place))

/-- The digest of a sequence of bytes. -/
def sha512 (bytes : List UInt8) : List UInt8 :=
  ((blocks (padded bytes)).foldl compress Words.initial).toList.flatMap fun word =>
    bytesOf 8 word.toNat

end GridRobot.Random.Digest
