import GridRobot.Proofs.Dispatch
import GridRobot.Proofs.Grammar.Relining
import GridRobot.Proofs.Segmentation

/-!
# Spacing within a line

Spaces, tabs and carriage returns may be put anywhere between the tokens of a text, and a comment
at the end of any line. The tokens keep their lexemes and lines, so the same program is read, or the
same fault is met. With a carriage return before every line feed, a text is read as before.

The text with the filler is scanned beside the text without it, piece by piece. Up to the filler the
pieces are the same. A filler behind a comment becomes part of the comment, any other one is a
sequence of gaps, and behind it the texts are the same again.
-/

namespace GridRobot

/-! ## Where a filler may stand -/

/-- Text that may stand between tokens: spaces, tabs and carriage returns, or, at the end of a line,
a comment. The second text is what follows. -/
inductive Fills : List Char → List Char → Prop where
  | blanks {filler : List Char} (after : List Char) :
      (∀ char ∈ filler, isGap char = true) → Fills filler after
  | comment {body after : List Char} :
      '\n' ∉ body → EndsLine after → Fills ('/' :: '/' :: body) after

/-- `Splits before after` says that the end of `before` lies inside a token of the text
`before ++ after`, or between the slashes that open one of its comments. -/
inductive Splits : List Char → List Char → Prop where
  | opener {body rest : List Char} :
      Gap ('/' :: '/' :: body) rest → Splits ['/'] ('/' :: (body ++ rest))
  | token {lexeme : Lexeme} {front back rest : List Char} :
      lexeme.text.toList = front ++ back → front ≠ [] → back ≠ [] → lexeme.EndsBefore rest →
        Splits front (back ++ rest)
  | behind {piece : Piece} {front before after : List Char} :
      piece.Covers front (before ++ after) → Splits before after → Splits (front ++ before) after

theorem Piece.Covers.length_eq {piece : Piece} {front rest other otherRest : List Char}
    (covers : piece.Covers front rest) (otherCovers : piece.Covers other otherRest) :
    front.length = other.length := by
  cases piece with
  | gap size => exact covers.2.symm.trans otherCovers.2
  | lexeme cut size => exact covers.2.2.symm.trans otherCovers.2.2

/-- The first piece of a text is the same however the text is parted. -/
theorem Piece.Covers.unique {piece otherPiece : Piece} {front rest other otherRest : List Char}
    (covers : piece.Covers front rest) (otherCovers : otherPiece.Covers other otherRest)
    (same : front ++ rest = other ++ otherRest) : front = other ∧ rest = otherRest := by
  have found := first?_of_covers covers
  rw [same, first?_of_covers otherCovers] at found
  cases found
  exact List.append_inj same (covers.length_eq otherCovers)

namespace Splits

variable {piece : Piece} {front before after : List Char}

theorem front_ne_nil (splits : Splits before after) : before ≠ [] := by
  cases splits with
  | opener => exact List.cons_ne_nil _ _
  | token _ filled => exact filled
  | behind covers => exact List.append_ne_nil_of_left_ne_nil covers.front_ne_nil _

/-- Behind the first piece, a place splits the text if it splits what follows the piece. -/
theorem behind_iff (covers : piece.Covers front (before ++ after)) :
    Splits (front ++ before) after ↔ Splits before after := by
  refine ⟨?_, .behind covers⟩
  intro splits
  generalize parted : front ++ before = whole at splits
  -- In the first two cases the first piece would reach beyond the place.
  cases splits with
  | @opener body rest between =>
      have comment : (Piece.gap _).Covers ('/' :: '/' :: body) rest := ⟨between, rfl⟩
      have ⟨same, _⟩ := covers.unique comment (by rw [← List.append_assoc, parted]; rfl)
      rw [same] at parted
      simp at parted
  | @token lexeme _ back rest spelled filled more ends =>
      have whole : (Piece.lexeme lexeme _).Covers (_ ++ back) rest := ⟨spelled, ends, rfl⟩
      have ⟨same, _⟩ := covers.unique whole (by simp [← parted])
      rw [same, List.append_assoc, List.append_right_eq_self] at parted
      exact (more (List.append_eq_nil_iff.mp parted).1).elim
  | @behind otherPiece first between _ otherCovers further =>
      have ⟨_, same⟩ := covers.unique otherCovers (by
        rw [← List.append_assoc, parted, List.append_assoc])
      rwa [List.append_cancel_right same]

end Splits

namespace Fills

variable {filler after : List Char}

theorem newline_not_mem (fills : Fills filler after) : '\n' ∉ filler := by
  cases fills with
  | blanks _ blanks =>
      intro among
      exact absurd (blanks _ among) (by decide)
  | comment sameLine _ => simpa using sameLine

/-- A name does not go on into a filler. -/
theorem endsName (fills : Fills filler after) (ends : EndsName after) :
    EndsName (filler ++ after) := by
  cases fills with
  | blanks _ blanks =>
      cases filler with
      | nil => exact ends
      | cons first others =>
          intro char among
          cases among
          have blank := blanks first List.mem_cons_self
          simp only [isGap, Bool.or_eq_true, beq_iff_eq] at blank
          rcases blank with (rfl | rfl) | rfl <;> rfl
  | comment =>
      intro char among
      cases among
      rfl

theorem endsBefore (fills : Fills filler after) {lexeme : Lexeme}
    (ends : lexeme.EndsBefore after) : lexeme.EndsBefore (filler ++ after) := by
  cases lexeme with
  | word string => exact ⟨ends.1, fills.endsName ends.2⟩
  | _ => exact trivial

end Fills

/-! ## Outlines -/

namespace TokenList

variable {before front rest filler after : List Char} {piece : Piece}

/-- What the scanner finds in a text behind another one, without columns. -/
def outline (before text : List Char) : Except LexicalFault TokenList :=
  (scan 0 (.behind before) text).map withoutColumns

/-- But for columns, what the scanner finds depends on the line where it starts, and not on the
column. -/
theorem scan_congr_line (skip : Nat) {first second : Position} (same : first.line = second.line)
    (text : List Char) :
    (scan skip first text).map withoutColumns = (scan skip second text).map withoutColumns := by
  induction text generalizing skip first second with
  | nil => rw [scan, scan, Except.map, Except.map, withoutColumns, withoutColumns, same]
  | cons char rest ih =>
      have further : (first.after char).line = (second.after char).line := by
        simp only [Position.after, same]
        split <;> rfl
      cases skip with
      | succ skip => exact ih skip further
      | zero =>
          rw [scan, scan]
          cases Piece.first? (char :: rest) with
          | none =>
              dsimp only
              rw [same]
          | some piece =>
              cases piece with
              | gap size => exact ih _ further
              | lexeme cut size =>
                  have others := ih (size - 1) further
                  dsimp only
                  revert others
                  cases scan (size - 1) (first.after char) rest <;>
                    cases scan (size - 1) (second.after char) rest <;> intro others
                  · exact others
                  · cases others
                  · cases others
                  · simp_all [Except.map, withoutColumns, Token.line]

theorem outline_congr {earlier : List Char} (same : before.count '\n' = earlier.count '\n')
    (text : List Char) : outline before text = outline earlier text :=
  scan_congr_line 0 (congrArg Nat.succ same) text

/-- The outline of a text that starts with a piece, from that of the text behind the piece. -/
theorem outline_covered (covers : piece.Covers front rest) (before : List Char) :
    outline before (front ++ rest) =
      (outline (before ++ front) rest).map
        (piece.collect ⟨(Position.behind before).line, 1⟩ ·) := by
  rw [outline, scan_covered covers, outline]
  cases scan 0 (.behind (before ++ front)) rest with
  | error fault => rfl
  | ok list => cases piece <;> rfl

theorem outline_gap {gap : List Char} (between : Gap gap rest) (before : List Char) :
    outline before (gap ++ rest) = outline before rest := by
  have covers : (Piece.gap gap.length).Covers gap rest := ⟨between, rfl⟩
  have same : (before ++ gap).count '\n' = before.count '\n' := by
    rw [List.count_append, List.count_eq_zero.mpr between.newline_not_mem, Nat.add_zero]
  rw [outline_covered covers, outline_congr same]
  cases outline before rest <;> rfl

theorem outline_fill (fills : Fills filler after) (before : List Char) :
    outline before (filler ++ after) = outline before after := by
  cases fills with
  | comment sameLine ends => exact outline_gap (.comment sameLine ends) before
  | blanks _ blanks =>
      induction filler with
      | nil => rfl
      | cons char others ih =>
          obtain ⟨blank, further⟩ := List.forall_mem_cons.mp blanks
          exact (outline_gap (.blank _ blank) before).trans (ih further)

/-! ## Fillers -/

/-- A filler in or behind a comment becomes part of it. -/
theorem outline_insert_comment {start back : List Char} (sameLine : '\n' ∉ start ++ back)
    (ends : EndsLine rest) (fills : Fills filler (back ++ rest)) (before : List Char) :
    outline before ('/' :: '/' :: start ++ (filler ++ (back ++ rest))) =
      outline before ('/' :: '/' :: start ++ (back ++ rest)) := by
  have skip {body : List Char} (sameLine : '\n' ∉ body) :
      outline before ('/' :: '/' :: body ++ rest) = outline before rest :=
    outline_gap (.comment sameLine ends) before
  have longer : '\n' ∉ start ++ filler ++ back := by
    simp only [List.mem_append, not_or] at sameLine ⊢
    exact ⟨⟨sameLine.1, fills.newline_not_mem⟩, sameLine.2⟩
  have joined := (skip longer).trans (skip sameLine).symm
  simpa only [List.cons_append, List.append_assoc] using joined

theorem outline_insert_lexeme {cut : Lexeme} (spelled : cut.text.toList = front)
    (ends : cut.EndsBefore rest) (fills : Fills filler rest) (before : List Char) :
    outline before (front ++ (filler ++ rest)) = outline before (front ++ rest) := by
  have covers : (Piece.lexeme cut front.length).Covers front rest := ⟨spelled, ends, rfl⟩
  have later : (Piece.lexeme cut front.length).Covers front (filler ++ rest) :=
    ⟨spelled, fills.endsBefore ends, rfl⟩
  rw [outline_covered later, outline_fill fills, ← outline_covered covers]

/-- A filler may stand in or behind the first piece of a text, where it does not split the piece. -/
theorem outline_insert_piece {back : List Char} (covers : piece.Covers (front ++ back) rest)
    (fills : Fills filler (back ++ rest)) (whole : ¬ Splits front (back ++ rest))
    (before : List Char) :
    outline before (front ++ (filler ++ (back ++ rest))) =
      outline before (front ++ (back ++ rest)) := by
  cases front with
  | nil => exact outline_fill fills before
  | cons char others =>
      cases piece with
      | lexeme cut size =>
          obtain ⟨spelled, ends, -⟩ := covers
          cases back with
          | nil => exact outline_insert_lexeme (spelled.trans (List.append_nil _)) ends fills before
          | cons => exact (whole (.token spelled (by simp) (by simp) ends)).elim
      | gap size =>
          generalize gapped : char :: others ++ back = gap at covers
          cases covers.1 with
          | blank _ blank =>
              obtain ⟨rfl, nothing⟩ := List.cons.inj gapped
              obtain ⟨rfl, rfl⟩ := List.append_eq_nil_iff.mp nothing
              have skip (text : List Char) :
                  outline before ([char] ++ text) = outline before text :=
                outline_gap (.blank text blank) before
              rw [skip, skip, outline_fill fills]
          | comment sameLine ends =>
              obtain ⟨rfl, opened⟩ := List.cons.inj gapped
              cases others with
              | nil =>
                  -- The filler would stand between the two slashes.
                  cases opened
                  exact (whole (.opener (.comment sameLine ends))).elim
              | cons second start =>
                  obtain ⟨rfl, rfl⟩ := List.cons.inj opened
                  exact outline_insert_comment sameLine ends fills before

/-- A filler that stands between the tokens of a text does not change the outline. -/
theorem outline_insert (fills : Fills filler after) {front : List Char}
    (segmentable : Segmentable before (front ++ after)) (whole : ¬ Splits front after) :
    outline before (front ++ (filler ++ after)) = outline before (front ++ after) := by
  generalize parted : front ++ after = text at segmentable
  induction text using Piece.pieceInduction generalizing before front with
  | nil =>
      obtain ⟨rfl, rfl⟩ := List.append_eq_nil_iff.mp parted
      exact outline_fill fills before
  | stuck char rest stuck =>
      obtain ⟨list, scanned⟩ := segmentable_iff_scan.mp segmentable
      rw [scan, stuck] at scanned
      cases scanned
  | piece piece first rest covers ih =>
      rcases List.append_eq_append_iff.mp parted with ⟨back, rfl, rfl⟩ | ⟨between, rfl, rfl⟩
      · rw [List.append_assoc]
        exact outline_insert_piece covers fills whole before
      · cases between with
        | nil =>
            rw [List.append_nil] at whole ⊢
            have covers : piece.Covers (first ++ []) after := by rwa [List.append_nil]
            exact outline_insert_piece covers fills whole before
        | cons char others =>
            have later : piece.Covers first (char :: others ++ (filler ++ after)) :=
              covers.of_head? fun _ among => among
            rw [List.append_assoc, outline_covered later, outline_covered covers]
            have behind : ¬ Splits (char :: others) after := fun splits =>
              whole (.behind covers splits)
            rw [ih behind rfl ((segmentable_append_iff covers).mp segmentable)]

end TokenList

/-! ## Carriage returns -/

/-- A text with a carriage return before every line feed. -/
def Text.withReturns (text : List Char) : List Char :=
  text.flatMap fun char => if char = '\n' then ['\r', '\n'] else [char]

namespace Text

theorem withReturns_append (first second : List Char) :
    withReturns (first ++ second) = withReturns first ++ withReturns second :=
  List.flatMap_append

theorem withReturns_of_not_mem {text : List Char} (sameLine : '\n' ∉ text) :
    withReturns text = text := by
  induction text with
  | nil => rfl
  | cons char rest ih =>
      rw [List.mem_cons, not_or] at sameLine
      obtain ⟨differs, further⟩ := sameLine
      rw [withReturns, List.flatMap_cons, if_neg (Ne.symm differs), ← withReturns, ih further]
      rfl

/-- A text starts as before, or with a carriage return where it started with a line feed. -/
theorem head?_withReturns {text : List Char} {char : Char}
    (among : char ∈ (withReturns text).head?) :
    char ∈ text.head? ∨ char = '\r' ∧ '\n' ∈ text.head? := by
  cases text with
  | nil => cases among
  | cons first rest =>
      by_cases feed : first = '\n'
      · subst feed
        cases among
        exact .inr ⟨rfl, rfl⟩
      · rw [withReturns, List.flatMap_cons, if_neg feed] at among
        exact .inl among

end Text

theorem Lexeme.EndsBefore.withReturns {lexeme : Lexeme} {rest : List Char}
    (ends : lexeme.EndsBefore rest) : lexeme.EndsBefore (Text.withReturns rest) := by
  cases lexeme with
  | word string =>
      refine ⟨ends.1, ?_⟩
      intro char among
      rcases Text.head?_withReturns among with same | ⟨rfl, -⟩
      · exact ends.2 char same
      · rfl
  | _ => exact trivial

theorem Piece.first?_withReturns {char : Char} {rest : List Char}
    (stuck : first? (char :: rest) = none) : first? (char :: Text.withReturns rest) = none := by
  rw [first?_eq_none_iff] at stuck ⊢
  obtain ⟨noGap, noName, noSymbol, single⟩ := stuck
  refine ⟨noGap, noName, noSymbol, ?_⟩
  intro among doubled
  rcases Text.head?_withReturns doubled with same | ⟨rfl, -⟩
  · exact single among same
  · cases noGap

/-- Carriage returns before the line feeds do not change the outline, nor the fault of a text that
cannot be cut into tokens. -/
theorem TokenList.outline_withReturns (before text : List Char) :
    outline before (Text.withReturns text) = outline before text := by
  induction text using Piece.pieceInduction generalizing before with
  | nil => rfl
  | stuck char rest stuck =>
      have differs : char ≠ '\n' := by
        rintro rfl
        cases stuck
      have still := Piece.first?_withReturns stuck
      rw [Text.withReturns, List.flatMap_cons, if_neg differs, ← Text.withReturns,
        List.singleton_append, outline, outline, scan, scan, stuck, still]
  | piece piece front rest covers ih =>
      rw [Text.withReturns_append]
      cases piece with
      | lexeme cut size =>
          have plain := outline_covered covers before
          obtain ⟨spelled, ends, counted⟩ := covers
          have later : (Piece.lexeme cut size).Covers front (Text.withReturns rest) :=
            ⟨spelled, ends.withReturns, counted⟩
          have same : outline before (front ++ Text.withReturns rest) =
              outline before (front ++ rest) := by
            rw [outline_covered later, ih, ← plain]
          by_cases feed : cut = .newline
          · subst feed
            cases spelled
            exact (outline_gap (.blank _ rfl) before).trans same
          · have absent : '\n' ∉ front := by
              rw [← List.count_eq_zero, ← spelled, Lexeme.count_newline ends]
              simp [feed]
            rw [Text.withReturns_of_not_mem absent, same]
      | gap size =>
          obtain ⟨between, -⟩ := covers
          rw [Text.withReturns_of_not_mem between.newline_not_mem, outline_gap between, ← ih]
          cases between with
          | blank _ blank => exact outline_gap (.blank _ blank) before
          | @comment body _ sameLine ends =>
              cases rest with
              | nil => exact outline_gap (.comment sameLine ends) before
              | cons char others =>
                  obtain rfl := ends char rfl
                  -- The comment takes the carriage return, which is a gap where no comment ends.
                  have ending : EndsLine ('\n' :: Text.withReturns others) := by
                    intro char among
                    cases among
                    rfl
                  have longer : '\n' ∉ body ++ ['\r'] := by simp [sameLine]
                  have joined := outline_gap (.comment longer ending) before
                  have skipped : outline before (['\r'] ++ ('\n' :: Text.withReturns others)) =
                      outline before ('\n' :: Text.withReturns others) :=
                    outline_gap (.blank _ rfl) before
                  have returned : Text.withReturns ('\n' :: others) =
                      ['\r'] ++ ('\n' :: Text.withReturns others) :=
                    rfl
                  rw [returned, skipped, ← joined]
                  simp only [List.cons_append, List.append_assoc]

/-! ## Programs -/

theorem isBlank_of_isGap {char : Char} (gap : isGap char = true) : Text.isBlank char = true := by
  simp only [isGap, Bool.or_eq_true, beq_iff_eq] at gap
  rcases gap with (rfl | rfl) | rfl <;> rfl

/-- A filler is blank or starts with a slash, so a text with a filler starts as before, behind its
blanks, or with the slash. -/
theorem Fills.head?_trimStart {filler after : List Char} (fills : Fills filler after)
    (before : List Char) :
    (Text.trimStart (before ++ (filler ++ after))).head? =
        (Text.trimStart (before ++ after)).head? ∨
      (Text.trimStart (before ++ (filler ++ after))).head? = some '/' := by
  induction before with
  | nil =>
      cases fills with
      | comment => exact .inr rfl
      | blanks _ blanks =>
          left
          rw [List.nil_append, Text.trimStart, List.dropWhile_append_of_pos]
          · rfl
          · exact fun char among => isBlank_of_isGap (blanks char among)
  | cons char rest ih =>
      simp only [List.cons_append, Text.trimStart, List.dropWhile_cons]
      split
      · exact ih
      · exact .inl rfl

theorem Text.head?_trimStart_withReturns (text : List Char) :
    (trimStart (withReturns text)).head? = (trimStart text).head? := by
  induction text with
  | nil => rfl
  | cons char rest ih =>
      by_cases feed : char = '\n'
      · subst feed
        exact ih
      · rw [withReturns, List.flatMap_cons, if_neg feed, ← withReturns, List.singleton_append]
        simp only [trimStart, List.dropWhile_cons]
        split
        · exact ih
        · rfl

namespace Source

variable {source other : String}

theorem isDocument_iff_head? :
    isDocument source = true ↔
      ∃ first ∈ (Text.trimStart source.toList).head?, Json.Opens first := by
  rw [isDocument_iff]
  constructor
  · rintro ⟨first, rest, starts, opens⟩
    exact ⟨first, by rw [starts]; rfl, opens⟩
  · rintro ⟨first, among, opens⟩
    obtain ⟨rest, starts⟩ := List.head?_eq_some_iff.mp among
    exact ⟨first, rest, starts, opens⟩

/-- Program texts with the same tokens on the same lines have the same program or the same fault. -/
theorem program_congr (stack : Stack) (text : isDocument source = false)
    (otherText : isDocument other = false)
    (same : (TokenList.ofText source).map TokenList.withoutColumns =
      (TokenList.ofText other).map TokenList.withoutColumns) :
    program stack source = program stack other := by
  simp only [program, text, otherText, Bool.false_eq_true, if_false, textProgram]
  generalize TokenList.ofText source = scanned at same ⊢
  generalize TokenList.ofText other = otherScanned at same ⊢
  cases scanned with
  | error fault =>
      cases otherScanned with
      | error otherFault =>
          cases same
          rfl
      | ok list => cases same
  | ok list =>
      cases otherScanned with
      | error otherFault => cases same
      | ok otherList =>
          have outlines : list.withoutColumns = otherList.withoutColumns := Except.ok.inj same
          dsimp only
          have carries := Parse.boundedFile_carriesLines stack.text
          rw [← carries.withoutColumns list, outlines, carries.withoutColumns otherList]

/-- A text with a filler is program text if the text is. -/
theorem isDocument_insert {before filler after : List Char} (fills : Fills filler after)
    (text : isDocument (.ofList (before ++ after)) = false) :
    isDocument (.ofList (before ++ (filler ++ after))) = false := by
  rw [Bool.eq_false_iff, ne_eq, isDocument_iff_head?, String.toList_ofList] at text ⊢
  rcases fills.head?_trimStart before with same | slash
  · rwa [same]
  · rw [slash]
    rintro ⟨first, among, opens⟩
    cases among
    rcases opens with brace | bracket
    · exact absurd brace (by decide)
    · exact absurd bracket (by decide)

theorem isDocument_withReturns (text : isDocument source = false) :
    isDocument (.ofList (Text.withReturns source.toList)) = false := by
  rw [Bool.eq_false_iff, ne_eq, isDocument_iff_head?] at text ⊢
  rwa [String.toList_ofList, Text.head?_trimStart_withReturns]

/-- Layout does not matter within a line. Spaces, tabs and carriage returns may be put into a text
anywhere but inside a token or between the slashes of a comment, and a comment at the end of any
line: the tokens keep their lexemes and lines, and if it is program text, it stays so and has the
same program or the same fault on every stack. The same holds for a text with a carriage return
before every line feed, even if it cannot be cut into tokens. -/
theorem program_ignores_spacing :
    (∀ before filler after : List Char, Segmentable [] (before ++ after) →
      ¬ Splits before after → Fills filler after →
        let source := String.ofList (before ++ after)
        let spaced := String.ofList (before ++ filler ++ after)
        (∃ list spacedList, TokenList.ofText source = .ok list ∧
          TokenList.ofText spaced = .ok spacedList ∧
            spacedList.withoutColumns = list.withoutColumns) ∧
        (isDocument source = false →
          isDocument spaced = false ∧ ∀ stack, program stack spaced = program stack source)) ∧
    ∀ source : String, let returned := String.ofList (Text.withReturns source.toList)
      isDocument source = false →
        isDocument returned = false ∧
          ∀ stack, program stack returned = program stack source := by
  constructor
  · intro before filler after segmentable whole fills source spaced
    have parted : spaced = .ofList (before ++ (filler ++ after)) :=
      congrArg String.ofList (List.append_assoc before filler after)
    have same : (TokenList.ofText spaced).map TokenList.withoutColumns =
        (TokenList.ofText source).map TokenList.withoutColumns := by
      rw [parted, TokenList.ofText, TokenList.ofText, String.toList_ofList, String.toList_ofList]
      exact TokenList.outline_insert fills segmentable whole
    constructor
    · obtain ⟨list, scanned⟩ := segmentable_iff_scan.mp segmentable
      have found : TokenList.ofText source = .ok list := by
        rw [TokenList.ofText, String.toList_ofList]
        exact scanned
      rw [found] at same
      cases spacedFound : TokenList.ofText spaced with
      | error fault =>
          rw [spacedFound] at same
          cases same
      | ok spacedList =>
          rw [spacedFound] at same
          exact ⟨list, spacedList, found, rfl, Except.ok.inj same⟩
    · intro text
      have spacedText : isDocument spaced = false := parted ▸ isDocument_insert fills text
      exact ⟨spacedText, fun stack => program_congr stack spacedText text same⟩
  · intro source returned text
    have returnedText : isDocument returned = false := isDocument_withReturns text
    refine ⟨returnedText, fun stack => program_congr stack returnedText text ?_⟩
    rw [TokenList.ofText, String.toList_ofList]
    exact TokenList.outline_withReturns [] source.toList

theorem program_ignores_spacing_tab :
    let before := "program main\x7bforward".toList
    let filler := [' ', '\t', '\r']
    let after := "\x7d//go\nactive main.".toList
    let source := String.ofList (before ++ after)
    let spaced := String.ofList (before ++ filler ++ after)
    Segmentable [] (before ++ after) ∧ ¬ Splits before after ∧ Fills filler after ∧
      isDocument source = false ∧ isDocument spaced = false ∧
        program .usual spaced = program .usual source ∧
        program .usual (.ofList (Text.withReturns source.toList)) = program .usual source ∧
          (program .usual source).toOption.isSome = true := by
  intro before filler after source spaced
  have segmentable : Segmentable [] (before ++ after) := segmentable_iff_scan.mpr ⟨_, rfl⟩
  have fills : Fills filler after := .blanks after (List.all_eq_true.mp rfl)
  have whole : ¬ Splits before after := by
    have behind (piece : Piece) {front between : List Char}
        (covers : piece.Covers front (between ++ after)) (whole : ¬ Splits between after) :
        ¬ Splits (front ++ between) after := by
      rwa [Splits.behind_iff covers]
    have word (name : String) {between : List Char} (named : isName name = true)
        (ends : EndsName (between ++ after)) (whole : ¬ Splits between after) :
        ¬ Splits (name.toList ++ between) after :=
      behind (.lexeme (.word name) _) ⟨rfl, ⟨named, ends⟩, rfl⟩ whole
    show ¬ Splits ("program".toList ++ ([' '] ++ ("main".toList ++
      (['\x7b'] ++ ("forward".toList ++ []))))) after
    apply word "program" rfl (endsName_cons _ rfl)
    apply behind (.gap 1) ⟨.blank _ rfl, rfl⟩
    apply word "main" rfl (endsName_cons _ rfl)
    apply behind (.lexeme .leftBrace 1) ⟨rfl, trivial, rfl⟩
    apply word "forward" rfl (endsName_cons _ rfl)
    exact fun splits => splits.front_ne_nil rfl
  have text : isDocument source = false := by decide +kernel
  obtain ⟨inserted, returned⟩ := program_ignores_spacing
  have ⟨spacedText, same⟩ := (inserted before filler after segmentable whole fills).2 text
  exact ⟨segmentable, whole, fills, text, spacedText, same .usual,
    (returned source text).2 .usual, by decide +kernel⟩

end Source

end GridRobot
