import GridRobot.Program.Token

/-!
# Spelling lexemes on one line

A text that spells lexemes one after the other, with spaces between them where they are needed, is
cut into exactly these lexemes. A name must not be followed by a character that would continue it.
-/

namespace GridRobot

/-- Whether a string is a name: a letter or underscore, and then letters, digits and underscores. -/
def isName (string : String) : Bool :=
  match string.toList with
  | [] => false
  | first :: rest => isNameStart first && rest.all isNamePart

/-- Whether a text cannot continue a name. -/
def EndsName (text : List Char) : Prop :=
  ∀ char ∈ text.head?, isNamePart char = false

/-- Whether a lexeme is a mark: neither a word nor a line break. -/
def Lexeme.IsMark : Lexeme → Prop
  | .word _ | .newline => False
  | _ => True

/-- `Spells text lexemes` says that a text on one line consists of the given lexemes and spaces. -/
inductive Spells : List Char → List Lexeme → Prop where
  | nil : Spells [] []
  | space {text : List Char} {lexemes : List Lexeme} :
      Spells text lexemes → Spells (' ' :: text) lexemes
  | mark (lexeme : Lexeme) {text : List Char} {lexemes : List Lexeme} :
      lexeme.IsMark → Spells text lexemes →
        Spells (lexeme.text.toList ++ text) (lexeme :: lexemes)
  | name {string : String} {text : List Char} {lexemes : List Lexeme} :
      isName string = true → EndsName text → Spells text lexemes →
        Spells (string.toList ++ text) (.word string :: lexemes)

theorem endsName_cons {char : Char} (text : List Char) (apart : isNamePart char = false) :
    EndsName (char :: text) := by
  intro first among
  cases among
  exact apart

/-! ## Composition -/

/-- A name in front of a space. -/
theorem Spells.word {string : String} (name : isName string = true) {text : List Char}
    {lexemes : List Lexeme} (spells : Spells (' ' :: text) lexemes) :
    Spells (string.toList ++ ' ' :: text) (.word string :: lexemes) :=
  .name name (endsName_cons text (by decide)) spells

/-- Whether a text spells lexemes in front of every text that ends a name. -/
def SpellsBefore (front : List Char) (lexemes : List Lexeme) : Prop :=
  ∀ ⦃text : List Char⦄ ⦃others : List Lexeme⦄, EndsName text → Spells text others →
    Spells (front ++ text) (lexemes ++ others)

namespace SpellsBefore

theorem parentheses {front : List Char} {lexemes : List Lexeme}
    (inside : SpellsBefore front lexemes) :
    SpellsBefore ('(' :: front ++ [')']) (.leftParen :: lexemes ++ [.rightParen]) := by
  intro text others _ spells
  have closing : Spells (')' :: text) (.rightParen :: others) := .mark .rightParen trivial spells
  have whole : Spells ('(' :: (front ++ ')' :: text)) _ :=
    .mark .leftParen trivial (inside (endsName_cons text (by decide)) closing)
  simpa using whole

theorem connective {left right : List Char} {first second : List Lexeme}
    (leftSpells : SpellsBefore left first) (rightSpells : SpellsBefore right second)
    (lexeme : Lexeme) (mark : lexeme.IsMark) :
    SpellsBefore (left ++ ' ' :: lexeme.text.toList ++ ' ' :: right)
      (first ++ lexeme :: second) := by
  intro text others ends spells
  have middle := Spells.space (.mark lexeme mark (.space (rightSpells ends spells)))
  have whole := leftSpells (endsName_cons _ (by decide)) middle
  simpa using whole

end SpellsBefore

/-- Whether a text spells lexemes in front of every text. -/
def SpellsFront (front : List Char) (lexemes : List Lexeme) : Prop :=
  ∀ ⦃text : List Char⦄ ⦃others : List Lexeme⦄, Spells text others →
    Spells (front ++ text) (lexemes ++ others)

/-- A text in braces, with the spaces around it. -/
theorem SpellsFront.block {text front : List Char} {lexemes others : List Lexeme}
    (inside : SpellsFront front lexemes) (spells : Spells text others) :
    Spells (' ' :: '\x7b' :: ' ' :: (front ++ '\x7d' :: text))
      (.leftBrace :: (lexemes ++ .rightBrace :: others)) := by
  have closing : Spells ('\x7d' :: text) (.rightBrace :: others) :=
    .mark .rightBrace trivial spells
  exact .space (.mark .leftBrace trivial (.space (inside closing)))

/-! ## Scanning -/

theorem exists_of_isName {string : String} (name : isName string = true) :
    ∃ first rest, string = String.ofList (first :: rest) ∧ isNameStart first = true ∧
      ∀ char ∈ rest, isNamePart char = true := by
  unfold isName at name
  split at name
  · cases name
  · next first rest spelled =>
      rw [Bool.and_eq_true, List.all_eq_true] at name
      exact ⟨first, rest, by rw [← spelled, String.ofList_toList], name⟩

theorem takeWhile_append_of_stops {holds : Char → Bool} {front text : List Char}
    (inside : ∀ char ∈ front, holds char = true)
    (stops : ∀ char ∈ text.head?, holds char = false) :
    (front ++ text).takeWhile holds = front := by
  rw [List.takeWhile_append_of_pos inside]
  cases text with
  | nil => simp
  | cons char rest => simp [stops char rfl]

theorem Piece.first?_name {first : Char} {rest text : List Char} (starts : isNameStart first = true)
    (parts : ∀ char ∈ rest, isNamePart char = true) (ends : EndsName text) :
    first? (first :: rest ++ text) =
      some (.lexeme (.word (String.ofList (first :: rest))) (rest.length + 1)) := by
  have noGap : isGap first = false := by
    rw [Bool.eq_false_iff]
    intro gap
    simp only [isGap, Bool.or_eq_true, beq_iff_eq] at gap
    rcases gap with (rfl | rfl) | rfl <;> exact absurd starts (by decide)
  have cut := takeWhile_append_of_stops parts ends
  rw [List.cons_append]
  unfold first?
  split
  · next empty => cases empty
  · next slash =>
      rw [(List.cons.inj slash).1] at starts
      exact absurd starts (by decide)
  · next and =>
      rw [(List.cons.inj and).1] at starts
      exact absurd starts (by decide)
  · next or =>
      rw [(List.cons.inj or).1] at starts
      exact absurd starts (by decide)
  · next equal =>
      cases equal
      simp [noGap, starts, cut]

namespace TokenList

theorem scan_skip (position : Position) (skipped text : List Char) :
    scan skipped.length position (skipped ++ text) =
      scan 0 (skipped.foldl Position.after position) text := by
  induction skipped generalizing position with
  | nil => rfl
  | cons char rest ih => exact ih (position.after char)

theorem line_foldl_after {skipped : List Char} (sameLine : '\n' ∉ skipped) (position : Position) :
    (skipped.foldl Position.after position).line = position.line := by
  induction skipped generalizing position with
  | nil => rfl
  | cons char rest ih =>
      obtain ⟨different, restSame⟩ := not_or.mp (mt List.mem_cons.mpr sameLine)
      rw [List.foldl_cons, ih restSame, Position.after, if_neg (Ne.symm different)]

/-- Whether a text that starts at a position has the given lexemes and its end, all on one line. -/
def Cuts (position : Position) (text : List Char) (lexemes : List Lexeme) : Prop :=
  ∃ list, scan 0 position text = .ok list ∧ list.tokens.map Token.lexeme = lexemes ∧
    (∀ token ∈ list.tokens, token.line = position.line) ∧ list.stop.line = position.line

theorem cuts_of_piece {position : Position} {lexeme : Lexeme} (first : Char) (others : List Char)
    {text : List Char} {lexemes : List Lexeme}
    (piece : Piece.first? (first :: others ++ text) = some (.lexeme lexeme (others.length + 1)))
    (sameLine : '\n' ∉ first :: others) (cuts : ∀ position, Cuts position text lexemes) :
    Cuts position (first :: others ++ text) (lexeme :: lexemes) := by
  obtain ⟨list, scanned, found, line, stop⟩ :=
    cuts ((first :: others).foldl Position.after position)
  have same := line_foldl_after sameLine position
  refine ⟨⟨⟨lexeme, position⟩ :: list.tokens, list.stop⟩, ?_, by simp [found], ?_, stop.trans same⟩
  · rw [List.cons_append] at piece ⊢
    rw [scan]
    simp only [piece, Nat.add_sub_cancel, scan_skip]
    rw [List.foldl_cons] at scanned
    rw [scanned]
  · refine List.forall_mem_cons.mpr ⟨rfl, fun token among => ?_⟩
    rw [line token among, same]

theorem cuts_of_spells {text : List Char} {lexemes : List Lexeme} (spells : Spells text lexemes)
    (position : Position) : Cuts position text lexemes := by
  induction spells generalizing position with
  | nil => exact ⟨⟨[], position⟩, rfl, rfl, by simp, rfl⟩
  | space _ ih =>
      obtain ⟨list, scanned, found, line⟩ := ih (position.after ' ')
      exact ⟨list, scanned, found, line⟩
  | mark lexeme mark _ ih =>
      cases lexeme with
      | word | newline => exact mark.elim
      | and => exact cuts_of_piece '&' ['&'] rfl (by decide) ih
      | or => exact cuts_of_piece '|' ['|'] rfl (by decide) ih
      | _ => exact cuts_of_piece _ [] rfl (by decide) ih
  | name name ends _ ih =>
      obtain ⟨first, rest, rfl, starts, parts⟩ := exists_of_isName name
      rw [String.toList_ofList]
      refine cuts_of_piece first rest (Piece.first?_name starts parts ends) ?_ ih
      intro among
      rcases List.mem_cons.mp among with rfl | among
      · exact absurd starts (by decide)
      · exact absurd (parts _ among) (by decide)

end TokenList

end GridRobot
