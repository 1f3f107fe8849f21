import GridRobot.Text.Lines
import GridRobot.Text.Quoted

/-!
# Text from bytes

The encodings in which a file may be stored. Bytes that are not in the chosen encoding are a fault,
which says where the bad bytes stand and what is wrong with them.
-/

namespace GridRobot.Text

/-- How a file is stored. -/
inductive Encoding where
  | utf8
  | utf8Marked
  | utf16
  | latin1
  deriving DecidableEq, Repr

/-- The encoding with a given name. -/
def Encoding.ofName? (name : String) : Option Encoding :=
  match name with
  | "utf-8" => some .utf8
  | "utf-8-sig" => some .utf8Marked
  | "utf-16" => some .utf16
  | "latin-1" => some .latin1
  | _ => none

/-- What is wrong with a byte sequence. -/
inductive ByteCause where
  | badStart
  | badContinuation
  | cutOff
  deriving DecidableEq, Repr

/-- The wording of a cause. -/
def ByteCause.message : ByteCause → String
  | .badStart => "invalid start byte"
  | .badContinuation => "invalid continuation byte"
  | .cutOff => "unexpected end of data"

/-- A bad byte sequence: its first byte, where it starts, how long it is, and what is wrong. -/
structure ByteFault where
  first : UInt8
  start : Nat
  size : Nat
  cause : ByteCause
  deriving DecidableEq, Repr

/-- The wording of a bad byte sequence. -/
def ByteFault.message (fault : ByteFault) : String :=
  let place :=
    if fault.size = 1 then
      "byte 0x" ++ String.ofList (hex 2 fault.first.toNat) ++ " in position " ++
        toString fault.start
    else
      "bytes in position " ++ toString fault.start ++ "-" ++
        toString (fault.start + fault.size - 1)
  "'utf-8' codec can't decode " ++ place ++ ": " ++ fault.cause.message

/-- How many bytes follow a first byte, with the bits that it brings. -/
def followers? (first : Nat) : Option (Nat × Nat) :=
  if first < 0x80 then some (0, first)
  else if first < 0xc2 then none
  else if first < 0xe0 then some (1, first - 0xc0)
  else if first < 0xf0 then some (2, first - 0xe0)
  else if first < 0xf5 then some (3, first - 0xf0)
  else none

/-- Whether a byte may come second, after a given first byte. This rules out forms that are longer
than needed, halves of pairs, and numbers that are no code points. -/
def fitsSecond (first second : Nat) : Bool :=
  0x80 ≤ second && second < 0xc0 &&
    (first != 0xe0 || 0xa0 ≤ second) && (first != 0xed || second < 0xa0) &&
    (first != 0xf0 || 0x90 ≤ second) && (first != 0xf4 || second < 0x90)

/-- Reads the bytes that follow the first one: the number so far, how many were read, and how many
are still to come. -/
def readFollowers (first : Nat) :
    (total read left : Nat) → List UInt8 → Except (Nat × ByteCause) Nat
  | total, _, 0, _ => .ok total
  | _, read, _ + 1, [] => .error (read + 1, .cutOff)
  | total, read, left + 1, byte :: rest =>
      let value := byte.toNat
      let fits := if read = 0 then fitsSecond first value else 0x80 ≤ value && value < 0xc0
      if fits then readFollowers first (total * 64 + (value - 0x80)) (read + 1) left rest
      else .error (read + 1, .badContinuation)

/-- Decodes bytes, the first of which stands at a given place. `skip` counts bytes of the character
just read. -/
def decodeUtf8 : (skip place : Nat) → List UInt8 → Except ByteFault (List Char)
  | _, _, [] => .ok []
  | skip + 1, place, _ :: rest => decodeUtf8 skip (place + 1) rest
  | 0, place, byte :: rest =>
      match followers? byte.toNat with
      | none => .error ⟨byte, place, 1, .badStart⟩
      | some (count, bits) =>
          match readFollowers byte.toNat bits 0 count rest with
          | .error (size, cause) => .error ⟨byte, place, size, cause⟩
          | .ok code =>
              match decodeUtf8 count (place + 1) rest with
              | .ok chars => .ok (Char.ofNat code :: chars)
              | .error fault => .error fault

/-- The 16-bit units of bytes, or nothing if a byte is left over. -/
def units? (bigEndian : Bool) : List UInt8 → Option (List Nat)
  | [] => some []
  | [_] => none
  | first :: second :: rest =>
      let unit :=
        if bigEndian then first.toNat * 256 + second.toNat
        else second.toNat * 256 + first.toNat
      (units? bigEndian rest).map (unit :: ·)

/-- The characters of 16-bit units, or nothing if half of a pair stands alone. -/
def unitChars? : List Nat → Option (List Char)
  | [] => some []
  | unit :: rest =>
      if unit < 0xd800 ∨ 0xe000 ≤ unit then (unitChars? rest).map (Char.ofNat unit :: ·)
      else
        match rest with
        | [] => none
        | second :: others =>
            if unit < 0xdc00 ∧ 0xdc00 ≤ second ∧ second < 0xe000 then
              (unitChars? others).map
                (Char.ofNat (0x10000 + (unit - 0xd800) * 0x400 + (second - 0xdc00)) :: ·)
            else none

/-- Why bytes are not text. -/
inductive DecodeFault where
  | utf8 (fault : ByteFault)
  | utf16
  | unmarked
  deriving DecidableEq, Repr

/-- The wording for bytes that are not text. -/
def DecodeFault.message : DecodeFault → String
  | .utf8 fault => fault.message
  | .utf16 => "the bytes are not UTF-16 text"
  | .unmarked => "UTF-16 stream does not start with BOM"

/-- Decodes 16-bit units. A mark at the front tells the order of bytes, and only a file with nothing
in it can do without. -/
def decodeUtf16 (bytes : List UInt8) : Except DecodeFault (List Char) :=
  let (marked, chars) :=
    match bytes with
    | 0xff :: 0xfe :: rest => (true, (units? false rest).bind unitChars?)
    | 0xfe :: 0xff :: rest => (true, (units? true rest).bind unitChars?)
    | rest => (rest.isEmpty, (units? false rest).bind unitChars?)
  match chars with
  | none => .error .utf16
  | some chars => if marked then .ok chars else .error .unmarked

/-- The text of bytes in an encoding, with unified line ends. -/
def decode (encoding : Encoding) (bytes : List UInt8) : Except DecodeFault String :=
  let chars : Except DecodeFault (List Char) :=
    match encoding with
    | .utf8 => (decodeUtf8 0 0 bytes).mapError .utf8
    | .utf8Marked =>
        match bytes with
        | 0xef :: 0xbb :: 0xbf :: rest => (decodeUtf8 0 3 rest).mapError .utf8
        | _ => (decodeUtf8 0 0 bytes).mapError .utf8
    | .utf16 => decodeUtf16 bytes
    | .latin1 => .ok (bytes.map fun byte => Char.ofNat byte.toNat)
  chars.map fun chars => String.ofList (unifyLineEnds chars)

end GridRobot.Text
