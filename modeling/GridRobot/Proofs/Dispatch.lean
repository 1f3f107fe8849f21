import GridRobot.Proofs.Grammar.Sound
import GridRobot.Program.Source

/-!
# Every source has at most one reading

A source is read as a data document if its first character that is not blank opens an object or a
list, and as program text otherwise. Nothing is lost by deciding so early: the reading that is not
tried would have failed.

Three notions of white space meet here. The decision passes over every blank of every script, data
documents over four characters, and program text over three, with line breaks as tokens. A document
that is read opens behind white space of its own, which is blank. A program text whose first
character behind blanks is a brace either has a blank that starts no token, or it starts with the
token of that brace, and no program file does.
-/

namespace GridRobot

/-- Whether a character opens an object or a list. -/
def Json.Opens (char : Char) : Prop :=
  char = '\x7b' ∨ char = '['

/-- A source is read as a data document if what is left behind its blanks opens one. -/
theorem Source.isDocument_iff (source : String) :
    isDocument source = true ↔
      ∃ first rest, Text.trimStart source.toList = first :: rest ∧ Json.Opens first := by
  unfold isDocument Json.Opens
  cases Text.trimStart source.toList with
  | nil => simp
  | cons first rest => split <;> simp_all

/-! ## Data documents -/

namespace Json

/-- Whether a value is a list or an object. -/
def IsContainer : Json → Prop
  | .arr _ | .obj _ => True
  | _ => False

theorem not_isContainer_of_mem_words {entry : List Char × Json} (among : entry ∈ words) :
    ¬ entry.2.IsContainer := by
  simp only [words, List.mem_cons, List.not_mem_nil, or_false] at among
  rcases among with rfl | rfl | rfl | rfl | rfl | rfl <;> exact id

theorem not_isContainer_of_readNumber? {text rest : List Char} {value : Json}
    (read : readNumber? text = some (value, rest)) : ¬ value.IsContainer := by
  unfold readNumber? at read
  simp only [Option.bind_eq_bind, Option.bind_eq_some_iff] at read
  obtain ⟨whole, -, read⟩ := read
  split at read
  · cases read
    exact id
  · split at read
    · cases read
      exact id
    · cases read
      exact id

/-- Words and numbers are neither lists nor objects. -/
theorem not_isContainer_of_readScalar {text rest : List Char} {value : Json}
    (read : readScalar text = .ok (value, rest)) : ¬ value.IsContainer := by
  unfold readScalar at read
  split at read
  · next found =>
      cases read
      exact not_isContainer_of_mem_words (List.mem_of_find?_eq_some found)
  · split at read
    · dsimp only at read
      split at read
      · cases read
      · cases read
        exact id
    · next found =>
        cases read
        exact not_isContainer_of_readNumber? found
    · cases read

/-- The text of a list or an object starts with what opens it. -/
theorem opens_of_readValue {fuel room : Nat} {text rest : List Char} {value : Json}
    (read : readValue fuel room text = .ok (value, rest)) (container : value.IsContainer) :
    ∃ first others, text = first :: others ∧ Opens first := by
  cases fuel with
  | zero =>
      unfold readValue at read
      cases read
  | succ fuel =>
      unfold readValue at read
      split at read
      · obtain ⟨content, -, result⟩ := ok_of_bind_ok read
        cases result
        exact container.elim
      · exact ⟨_, _, rfl, .inr rfl⟩
      · exact ⟨_, _, rfl, .inl rfl⟩
      · exact (not_isContainer_of_readScalar read container).elim

/-- A document text whose value is a list or an object opens it behind its white space. -/
theorem opens_of_read {room : Nat} {text : List Char} {value : Json}
    (read : Json.read room text = .ok value) (container : value.IsContainer) :
    ∃ first rest, skipSpace text = first :: rest ∧ Opens first := by
  unfold Json.read at read
  split at read
  · cases read
  · obtain ⟨⟨found, next⟩, readFound, ended⟩ := ok_of_bind_ok read
    have same : found = value := by
      dsimp only at ended
      split at ended
      · exact Except.ok.inj ended
      · cases ended
    exact opens_of_readValue readFound (same ▸ container)

end Json

namespace Text

/-- White space of a document is blank, so what is solid behind it also stands behind the blanks. -/
theorem trimStart_of_skipSpace {text rest : List Char} {first : Char}
    (skipped : Json.skipSpace text = first :: rest) (solid : isBlank first = false) :
    trimStart text = first :: rest := by
  induction text with
  | nil => cases skipped
  | cons char text ih =>
      simp only [Json.skipSpace, trimStart, List.dropWhile_cons] at skipped ih ⊢
      split at skipped
      · next space =>
          have blank : isBlank char = true := by
            simp only [Json.isSpace, Bool.or_eq_true, beq_iff_eq] at space
            rcases space with ((rfl | rfl) | rfl) | rfl <;> rfl
          rw [if_pos blank]
          exact ih skipped
      · cases skipped
        rw [if_neg (by simp [solid])]

theorem isBlank_of_opens {char : Char} (opens : Json.Opens char) : isBlank char = false := by
  rcases opens with rfl | rfl <;> rfl

end Text

theorem Document.isContainer_of_program {document : Json} {program : List Stmt}
    (read : Document.program document = .ok program) : document.IsContainer := by
  obtain ⟨nodes, found, -⟩ := ok_of_bind_ok read
  unfold body at found
  split at found
  · exact trivial
  · exact trivial
  · cases found

/-- What is read as a data document is recognised as one. -/
theorem Source.isDocument_of_documentProgram {stack : Stack} {source : String}
    {program : List Stmt} (read : documentProgram stack source = .ok program) :
    isDocument source = true := by
  obtain ⟨document, decoded, readProgram⟩ := exists_document_of_documentProgram read
  obtain ⟨first, rest, skipped, opens⟩ :=
    Json.opens_of_read decoded (Document.isContainer_of_program readProgram)
  have solid := Text.isBlank_of_opens opens
  rw [isDocument_iff]
  exact ⟨first, rest, Text.trimStart_of_skipSpace skipped solid, opens⟩

/-! ## Program text -/

theorem Text.isNameStart_of_isBlank {char : Char} (blank : isBlank char = true) :
    isNameStart char = false := by
  rw [Bool.eq_false_iff]
  intro name
  simp only [isBlank, isNameStart, Bool.or_eq_true, Bool.and_eq_true, decide_eq_true_eq,
    beq_iff_eq] at blank name
  rcases name with (lower | upper) | rfl
  · have low : 97 ≤ char.toNat := lower.1
    have high : char.toNat ≤ 122 := lower.2
    omega
  · have low : 65 ≤ char.toNat := upper.1
    have high : char.toNat ≤ 90 := upper.2
    omega
  · exact absurd blank (by decide)

/-- Of the characters that stand for themselves only the line break is blank. -/
theorem Lexeme.ofChar?_of_isBlank {char : Char} (blank : Text.isBlank char = true) :
    ofChar? char = some .newline ∨ ofChar? char = none := by
  unfold ofChar?
  split
  case h_9 => exact .inl rfl
  case h_10 => exact .inr rfl
  all_goals cases blank

/-- A blank is a gap or a line break of program text, or it starts no token. -/
theorem Piece.first?_of_isBlank {char : Char} (blank : Text.isBlank char = true)
    (rest : List Char) :
    first? (char :: rest) = some (.gap 1) ∨
      first? (char :: rest) = some (.lexeme .newline 1) ∨ first? (char :: rest) = none := by
  unfold first?
  split
  · next empty => cases empty
  · next slash =>
      rw [(List.cons.inj slash).1] at blank
      cases blank
  · next and =>
      rw [(List.cons.inj and).1] at blank
      cases blank
  · next or =>
      rw [(List.cons.inj or).1] at blank
      cases blank
  · next equal =>
      cases equal
      cases isGap char with
      | true => exact .inl rfl
      | false =>
          right
          rw [Text.isNameStart_of_isBlank blank]
          rcases Lexeme.ofChar?_of_isBlank blank with newline | none
          · exact .inl (congrArg (Option.map _) newline)
          · exact .inr (congrArg (Option.map _) none)

open Parse

/-- Program text that opens a list or an object behind its blanks starts with a brace, if it can be
cut into tokens at all. -/
theorem TokenList.scan_of_opens {text rest : List Char} {first : Char} {position : Position}
    {list : TokenList} (trimmed : Text.trimStart text = first :: rest) (opens : Json.Opens first)
    (scanned : scan 0 position text = .ok list) :
    ∃ place others, skipBreaks list.tokens = ⟨.leftBrace, place⟩ :: others := by
  induction text generalizing position list with
  | nil => cases trimmed
  | cons char text ih =>
      rw [Text.trimStart, List.dropWhile_cons] at trimmed
      rw [scan] at scanned
      split at trimmed
      · next blank =>
          rcases Piece.first?_of_isBlank blank text with gap | newline | none
          · simp only [gap] at scanned
            exact ih trimmed scanned
          · simp only [newline] at scanned
            split at scanned
            · next others scannedOthers =>
                cases scanned
                rw [skipBreaks]
                exact ih trimmed scannedOthers
            · cases scanned
          · simp only [none] at scanned
            cases scanned
      · cases trimmed
        rcases opens with rfl | rfl
        · have piece : Piece.first? ('\x7b' :: rest) = some (.lexeme .leftBrace 1) := rfl
          simp only [piece] at scanned
          split at scanned
          · cases scanned
            exact ⟨position, _, rfl⟩
          · cases scanned
        · have piece : Piece.first? ('[' :: rest) = none := rfl
          simp only [piece] at scanned
          cases scanned

/-- No program file starts with a brace. -/
theorem Parse.file_of_leftBrace {source : TokenList} {position : Position} {rest : List Token}
    (front : skipBreaks source.tokens = ⟨.leftBrace, position⟩ :: rest) :
    (file source).outcome =
      .error ⟨.expectedDeclaration (some .leftBrace), position.line⟩ := by
  simp only [file, declarations, front]
  rfl

/-- What is read as program text is not taken for a data document. -/
theorem Source.isDocument_of_textProgram {stack : Stack} {source : String} {program : List Stmt}
    (read : textProgram stack source = .ok program) : isDocument source = false := by
  rw [Bool.eq_false_iff, ne_eq, isDocument_iff]
  rintro ⟨first, rest, trimmed, opens⟩
  obtain ⟨tokens, file, scanned, -, readFile, -⟩ := exists_file_of_textProgram read
  obtain ⟨place, others, front⟩ := TokenList.scan_of_opens trimmed opens scanned
  rw [file_of_leftBrace front] at readFile
  cases readFile

/-- A source is read in at most one way, as a data document or as program text, on whatever stacks,
and the decision between the two loses nothing: a source has a program if one of the two readings
has one, which is its program then. -/
theorem Source.program_eq_ok_iff_one_reading (source : String) :
    (∀ stack other first second,
      ¬ (documentProgram stack source = .ok first ∧ textProgram other source = .ok second)) ∧
    ∀ stack program, Source.program stack source = .ok program ↔
      documentProgram stack source = .ok program ∨ textProgram stack source = .ok program := by
  constructor
  · rintro stack other first second ⟨asDocument, asText⟩
    have decided := isDocument_of_documentProgram asDocument
    rw [isDocument_of_textProgram asText] at decided
    cases decided
  · intro stack program
    unfold Source.program
    constructor
    · intro read
      split at read
      · exact .inl read
      · exact .inr read
    · rintro (asDocument | asText)
      · rw [if_pos (isDocument_of_documentProgram asDocument)]
        exact asDocument
      · rw [if_neg (by simp [isDocument_of_textProgram asText])]
        exact asText

end GridRobot
