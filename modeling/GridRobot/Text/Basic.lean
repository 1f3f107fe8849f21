/-!
# Texts

A data document can spell half of a surrogate pair on its own. No character stands for it, so a text
of a document is a sequence of code points. Every string is such a text, and a text without lone
halves is a string: `toString?_ofString` and `ofString_of_toString?` say so.
-/

namespace GridRobot

/-- A code point: a character, or half of a surrogate pair that stands alone. Halves are counted
from the first of them. -/
inductive CodePoint where
  | char (value : Char)
  | half (offset : Fin 0x800)
  deriving DecidableEq, Repr

/-- A sequence of code points. -/
structure Text where
  points : List CodePoint
  deriving DecidableEq, Repr, Inhabited

namespace CodePoint

/-- The number of the first half of a surrogate pair. -/
def firstHalf : Nat := 0xd800

/-- The number of a code point. -/
def value : CodePoint → Nat
  | .char letter => letter.toNat
  | .half offset => firstHalf + offset

/-- The code point with a number that is at most 16 bits wide. -/
def ofUnit (unit : Nat) : CodePoint :=
  if bound : unit - firstHalf < 0x800 then
    if firstHalf ≤ unit then .half ⟨unit - firstHalf, bound⟩ else .char (Char.ofNat unit)
  else .char (Char.ofNat unit)

/-- The character of a code point that is one. -/
def char? : CodePoint → Option Char
  | .char value => some value
  | .half _ => none

end CodePoint

namespace Text

/-- A string as a text. -/
def ofString (string : String) : Text :=
  ⟨string.toList.map .char⟩

instance : Coe String Text := ⟨ofString⟩

/-- Two texts one after the other. -/
instance : Append Text := ⟨fun first second => ⟨first.points ++ second.points⟩⟩

/-- Whether there is nothing in a text. -/
def isEmpty (text : Text) : Bool :=
  text.points.isEmpty

/-- Texts one after the other. -/
def join (texts : List Text) : Text :=
  ⟨texts.flatMap points⟩

/-- The string that a text is, if it has no lone half. -/
def toString? (text : Text) : Option String :=
  (text.points.mapM CodePoint.char?).map String.ofList

/-- Characters are found again among code points. -/
theorem mapM_char?_map (chars : List Char) :
    (chars.map CodePoint.char).mapM CodePoint.char? = some chars := by
  induction chars with
  | nil => rfl
  | cons char rest ih => simp [CodePoint.char?, ih]

/-- A string is the string of its text. -/
@[simp] theorem toString?_ofString (string : String) :
    (ofString string).toString? = some string := by
  show (List.mapM CodePoint.char? (string.toList.map .char)).map String.ofList = some string
  rw [mapM_char?_map]
  simp

/-- Code points that are all characters are the code points of those. -/
theorem map_char_of_mapM {points : List CodePoint} {chars : List Char}
    (read : points.mapM CodePoint.char? = some chars) : points = chars.map .char := by
  induction points generalizing chars with
  | nil => simp_all
  | cons point rest ih =>
      cases point with
      | half offset => simp [CodePoint.char?] at read
      | char value =>
          simp only [List.mapM_cons, CodePoint.char?, Option.bind_eq_bind, Option.bind_some,
            Option.bind_eq_some_iff, Option.pure_def, Option.some.injEq] at read
          obtain ⟨others, found, rfl⟩ := read
          simp [ih found]

/-- A text that is a string is the text of that string. -/
theorem ofString_of_toString? {text : Text} {string : String}
    (read : text.toString? = some string) : ofString string = text := by
  cases text with
  | mk points =>
      simp only [toString?, Option.map_eq_some_iff] at read
      obtain ⟨chars, found, rfl⟩ := read
      simp [ofString, map_char_of_mapM found]

end Text

end GridRobot
