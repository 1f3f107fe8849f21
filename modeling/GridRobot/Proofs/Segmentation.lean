import GridRobot.Proofs.Forms.Spelling

/-!
# Segmentation of program text

What it means to part a text into tokens, said without the scanner: lexemes follow each other with
gaps between them, names are as long as possible, and every token knows the place where it starts.
A text has at most one segmentation, and the scanner finds it. Where there is none, the scanner
stops behind the longest front part of the text that has one.

The scanner takes one piece of text after the other, so the proofs go by pieces: `pieceInduction`
takes off the piece at the front, until the text is empty or starts with no piece.
-/

namespace GridRobot

/-! ## What a segmentation is -/

/-- The place behind a text. Its line counts the line feeds of the text, and its column the
characters since the last of them. -/
def Position.behind (before : List Char) : Position :=
  ⟨before.count '\n' + 1, (before.reverse.takeWhile (· != '\n')).length + 1⟩

/-- Whether a text is empty or starts with a line feed. -/
def EndsLine (text : List Char) : Prop :=
  ∀ char ∈ text.head?, char = '\n'

/-- Gaps between tokens: a single space, tab or carriage return, or a comment, which reaches to the
end of its line. The second text is what follows the gap. -/
inductive Gap : List Char → List Char → Prop where
  | blank {char : Char} (rest : List Char) : isGap char = true → Gap [char] rest
  | comment {body rest : List Char} :
      '\n' ∉ body → EndsLine rest → Gap ('/' :: '/' :: body) rest

/-- Whether a lexeme is well spelled and ends where the given text follows. Only a word could be
ill spelled or go on. -/
def Lexeme.EndsBefore (rest : List Char) : Lexeme → Prop
  | .word string => isName string = true ∧ EndsName rest
  | _ => True

/-- `Segments before text list` says that a text, which stands behind `before`, consists of the
tokens of the list and gaps, and that the tokens and the end of the list have their true places. -/
inductive Segments : List Char → List Char → TokenList → Prop where
  | stop (before : List Char) : Segments before [] ⟨[], .behind before⟩
  | gap {before gap rest : List Char} {list : TokenList} :
      Gap gap rest → Segments (before ++ gap) rest list → Segments before (gap ++ rest) list
  | token {before rest : List Char} {lexeme : Lexeme} {tokens : List Token} {stop : Position} :
      lexeme.EndsBefore rest → Segments (before ++ lexeme.text.toList) rest ⟨tokens, stop⟩ →
        Segments before (lexeme.text.toList ++ rest) ⟨⟨lexeme, .behind before⟩ :: tokens, stop⟩

/-- Whether a text that stands behind another one has a segmentation. -/
def Segmentable (before text : List Char) : Prop :=
  ∃ list, Segments before text list

/-- Whether a fault blames the first character behind the longest front part of a text that has a
segmentation, and the line of that character. -/
def LexicalFault.StopsIn (before text : List Char) (fault : LexicalFault) : Prop :=
  ∃ front rest, text = front ++ fault.char :: rest ∧ Segmentable before front ∧
    (∀ longer, longer <+: text → Segmentable before longer → longer.length ≤ front.length) ∧
      fault.line = (before ++ front).count '\n' + 1

/-! ## Pieces -/

/-- Whether a piece covers the front of a text, when the given rest follows. -/
def Piece.Covers (front rest : List Char) : Piece → Prop
  | .gap size => Gap front rest ∧ size = front.length
  | .lexeme cut size => cut.text.toList = front ∧ cut.EndsBefore rest ∧ size = front.length

theorem Lexeme.spelled_of_ofChar? {char : Char} {lexeme : Lexeme}
    (symbol : ofChar? char = some lexeme) (rest : List Char) :
    lexeme.text.toList = [char] ∧ lexeme.EndsBefore rest := by
  unfold ofChar? at symbol
  split at symbol <;> cases symbol <;> exact ⟨rfl, trivial⟩

theorem eq_false_of_mem_dropWhile {holds : Char → Bool} {text : List Char} {char : Char}
    (among : char ∈ (text.dropWhile holds).head?) : holds char = false := by
  have stops := List.head?_dropWhile_not holds text
  rw [Option.mem_def.mp among] at stops
  simpa using stops

namespace Piece

variable {piece : Piece} {front rest text : List Char}

theorem first?_gap {gap : List Char} (between : Gap gap rest) :
    first? (gap ++ rest) = some (.gap gap.length) := by
  cases between with
  | blank rest blank =>
      simp only [isGap, Bool.or_eq_true, beq_iff_eq] at blank
      rcases blank with (rfl | rfl) | rfl <;> rfl
  | @comment body rest sameLine ends =>
      have whole : (body ++ rest).takeWhile (· != '\n') = body := by
        apply takeWhile_append_of_stops
        · intro char among
          rw [bne_iff_ne]
          rintro rfl
          exact sameLine among
        · intro char among
          rw [ends char among]
          rfl
      show some (Piece.gap (((body ++ rest).takeWhile (· != '\n')).length + 2)) = _
      rw [whole]
      rfl

theorem first?_lexeme {cut : Lexeme} (ends : cut.EndsBefore rest) :
    first? (cut.text.toList ++ rest) = some (.lexeme cut cut.text.toList.length) := by
  cases cut with
  | word string =>
      obtain ⟨name, ends⟩ := ends
      obtain ⟨first, others, rfl, starts, parts⟩ := exists_of_isName name
      simpa [Lexeme.text] using first?_name starts parts ends
  | _ => rfl

theorem first?_of_covers (covers : piece.Covers front rest) :
    first? (front ++ rest) = some piece := by
  cases piece with
  | gap size =>
      obtain ⟨between, rfl⟩ := covers
      exact first?_gap between
  | lexeme cut size =>
      obtain ⟨rfl, ends, rfl⟩ := covers
      exact first?_lexeme ends

theorem covers_of_first? (found : first? text = some piece) :
    ∃ front rest, text = front ++ rest ∧ piece.Covers front rest := by
  unfold first? at found
  split at found
  · cases found
  · next rest =>
      cases found
      refine ⟨'/' :: '/' :: rest.takeWhile (· != '\n'), rest.dropWhile (· != '\n'), ?_, ?_, rfl⟩
      · simp
      · apply Gap.comment
        · intro among
          have differs := List.all_eq_true.mp List.all_takeWhile _ among
          simp at differs
        · intro char among
          simpa using eq_false_of_mem_dropWhile among
  · next rest =>
      cases found
      exact ⟨['&', '&'], rest, rfl, rfl, trivial, rfl⟩
  · next rest =>
      cases found
      exact ⟨['|', '|'], rest, rfl, rfl, trivial, rfl⟩
  · next char rest _ _ _ =>
      split at found
      · next blank =>
          cases found
          exact ⟨[char], rest, rfl, .blank rest blank, rfl⟩
      · split at found
        · next starts =>
            cases found
            refine ⟨char :: rest.takeWhile isNamePart, rest.dropWhile isNamePart, ?_, ?_, ?_, rfl⟩
            · simp
            · simp [Lexeme.text]
            · exact ⟨by simp [isName, starts], fun _ => eq_false_of_mem_dropWhile⟩
        · obtain ⟨cut, symbol, rfl⟩ := Option.map_eq_some_iff.mp found
          obtain ⟨spelled, ends⟩ := Lexeme.spelled_of_ofChar? symbol rest
          exact ⟨[char], rest, rfl, spelled, ends, rfl⟩

/-- A text starts with no piece if its first character starts none, and is not doubled where only
the pair is a lexeme or opens a comment. -/
theorem first?_eq_none_iff (char : Char) (rest : List Char) :
    first? (char :: rest) = none ↔
      isGap char = false ∧ isNameStart char = false ∧ Lexeme.ofChar? char = none ∧
        (char ∈ ['/', '&', '|'] → rest.head? ≠ some char) := by
  unfold first?
  split
  · next empty => cases empty
  · next slash =>
      cases slash
      simp
  · next and =>
      cases and
      simp
  · next or =>
      cases or
      simp
  · next noComment noAnd noOr equal =>
      cases equal
      have single : char ∈ ['/', '&', '|'] → rest.head? ≠ some char := by
        intro among doubled
        obtain ⟨others, rfl⟩ := List.head?_eq_some_iff.mp doubled
        simp only [List.mem_cons, List.not_mem_nil, or_false] at among
        rcases among with rfl | rfl | rfl
        · exact noComment others rfl rfl
        · exact noAnd others rfl rfl
        · exact noOr others rfl rfl
      split
      · next blank => simp [blank]
      · next noGap =>
          split
          · next starts => simp [starts]
          · next noName =>
              simp only [noGap, noName, Option.map_eq_none_iff, true_and]
              exact (and_iff_left single).symm

theorem mem_head?_of_isPrefix {shorter : List Char} (isPrefix : shorter <+: text) {char : Char}
    (among : char ∈ shorter.head?) : char ∈ text.head? := by
  obtain ⟨others, rfl⟩ := isPrefix
  rw [List.head?_append, Option.mem_def.mp among]
  rfl

/-- Less text behind a character does not help it to start a piece. -/
theorem first?_eq_none_of_isPrefix {char : Char} {shorter : List Char}
    (stuck : first? (char :: rest) = none) (isPrefix : shorter <+: rest) :
    first? (char :: shorter) = none := by
  rw [first?_eq_none_iff] at stuck ⊢
  obtain ⟨noGap, noName, noSymbol, single⟩ := stuck
  refine ⟨noGap, noName, noSymbol, ?_⟩
  intro among doubled
  exact single among (mem_head?_of_isPrefix isPrefix doubled)

/-- A piece looks at no more than the next character behind it, so it stays the same in front of any
text that starts with this character or is empty. -/
theorem Covers.of_head? (covers : piece.Covers front rest) {other : List Char}
    (heads : ∀ char ∈ other.head?, char ∈ rest.head?) : piece.Covers front other := by
  cases piece with
  | gap size =>
      obtain ⟨between, counted⟩ := covers
      refine ⟨?_, counted⟩
      cases between with
      | blank rest blank => exact .blank other blank
      | comment sameLine ends =>
          apply Gap.comment sameLine
          intro char among
          exact ends char (heads char among)
  | lexeme cut size =>
      obtain ⟨spelled, ends, counted⟩ := covers
      refine ⟨spelled, ?_, counted⟩
      cases cut with
      | word string =>
          refine ⟨ends.1, ?_⟩
          intro char among
          exact ends.2 char (heads char among)
      | _ => exact trivial

theorem Covers.of_isPrefix (covers : piece.Covers front rest) {shorter : List Char}
    (isPrefix : shorter <+: rest) : piece.Covers front shorter :=
  covers.of_head? fun _ => mem_head?_of_isPrefix isPrefix

theorem Covers.front_ne_nil (covers : piece.Covers front rest) : front ≠ [] := by
  cases piece with
  | gap size => cases covers.1 <;> exact List.cons_ne_nil _ _
  | lexeme cut size =>
      obtain ⟨rfl, ends, -⟩ := covers
      cases cut with
      | word string =>
          obtain ⟨first, others, rfl, -⟩ := exists_of_isName ends.1
          simp [Lexeme.text]
      | _ => exact List.cons_ne_nil _ _

/-- Induction on a text by the pieces at its front. -/
@[elab_as_elim] theorem pieceInduction {motive : List Char → Prop} (nil : motive [])
    (stuck : ∀ char rest, first? (char :: rest) = none → motive (char :: rest))
    (piece : ∀ (piece : Piece) (front rest : List Char), piece.Covers front rest → motive rest →
      motive (front ++ rest)) (text : List Char) : motive text := by
  generalize size : text.length = bound
  induction bound using Nat.strongRecOn generalizing text with
  | _ bound shorter =>
      cases text with
      | nil => exact nil
      | cons char others =>
          cases found : first? (char :: others) with
          | none => exact stuck char others found
          | some first =>
              obtain ⟨front, rest, parted, covers⟩ := covers_of_first? found
              rw [parted]
              apply piece first front rest covers
              refine shorter rest.length ?_ rest rfl
              have positive := List.length_pos_iff.mpr covers.front_ne_nil
              rw [← size, parted, List.length_append]
              omega

/-- The tokens of a text that starts with a piece, from those of the text behind the piece. -/
def collect (position : Position) (list : TokenList) : Piece → TokenList
  | .gap _ => list
  | .lexeme cut _ => ⟨⟨cut, position⟩ :: list.tokens, list.stop⟩

end Piece

theorem Segments.piece {piece : Piece} {before front rest : List Char} {list : TokenList}
    (covers : piece.Covers front rest) (segments : Segments (before ++ front) rest list) :
    Segments before (front ++ rest) (piece.collect (.behind before) list) := by
  cases piece with
  | gap size => exact .gap covers.1 segments
  | lexeme cut size =>
      obtain ⟨rfl, ends, -⟩ := covers
      exact .token ends segments

/-! ## The scanner finds the segmentation -/

theorem Position.behind_concat (before : List Char) (char : Char) :
    behind (before ++ [char]) = (behind before).after char := by
  by_cases feed : char = '\n' <;> simp [behind, Position.after, feed]

theorem Position.foldl_after_behind (before front : List Char) :
    front.foldl Position.after (behind before) = behind (before ++ front) := by
  induction front generalizing before with
  | nil => rw [List.foldl_nil, List.append_nil]
  | cons char rest ih =>
      rw [List.foldl_cons, ← behind_concat, ih, List.append_assoc]
      rfl

namespace TokenList

variable {before text : List Char} {list : TokenList} {fault : LexicalFault}

/-- The scanner takes the piece at the front and goes on behind it. -/
theorem scan_covered {piece : Piece} {front rest : List Char} (covers : piece.Covers front rest)
    (before : List Char) :
    scan 0 (.behind before) (front ++ rest) =
      (scan 0 (.behind (before ++ front)) rest).map (piece.collect (.behind before) ·) := by
  have found := Piece.first?_of_covers covers
  rw [← Position.foldl_after_behind]
  cases front with
  | nil => exact (covers.front_ne_nil rfl).elim
  | cons char others =>
      rw [List.cons_append] at found ⊢
      rw [scan]
      cases piece with
      | gap size =>
          obtain ⟨-, rfl⟩ := covers
          simp only [found, List.length_cons, Nat.add_sub_cancel, scan_skip, List.foldl_cons]
          cases scan 0 _ rest <;> rfl
      | lexeme cut size =>
          obtain ⟨-, -, rfl⟩ := covers
          simp only [found, List.length_cons, Nat.add_sub_cancel, scan_skip, List.foldl_cons]
          cases scan 0 _ rest <;> rfl

theorem scan_of_segments (segments : Segments before text list) :
    scan 0 (.behind before) text = .ok list := by
  induction segments with
  | stop before => rfl
  | @gap before gap rest list between _ ih =>
      have covers : (Piece.gap gap.length).Covers gap rest := ⟨between, rfl⟩
      rw [scan_covered covers, ih]
      rfl
  | @token before rest lexeme tokens stop ends _ ih =>
      have covers : (Piece.lexeme lexeme _).Covers lexeme.text.toList rest := ⟨rfl, ends, rfl⟩
      rw [scan_covered covers, ih]
      rfl

theorem segments_of_scan (scanned : scan 0 (.behind before) text = .ok list) :
    Segments before text list := by
  induction text using Piece.pieceInduction generalizing before list with
  | nil =>
      cases scanned
      exact .stop before
  | stuck char rest stuck =>
      rw [scan, stuck] at scanned
      cases scanned
  | piece piece front rest covers ih =>
      rw [scan_covered covers] at scanned
      cases found : scan 0 (.behind (before ++ front)) rest with
      | error fault =>
          rw [found] at scanned
          cases scanned
      | ok others =>
          rw [found] at scanned
          cases scanned
          exact .piece covers (ih found)

theorem scan_eq_ok_iff : scan 0 (.behind before) text = .ok list ↔ Segments before text list :=
  ⟨segments_of_scan, scan_of_segments⟩

end TokenList

/-! ## Where the scanner stops -/

theorem segmentable_iff_scan {before text : List Char} :
    Segmentable before text ↔ ∃ list, TokenList.scan 0 (.behind before) text = .ok list := by
  apply exists_congr
  intro list
  exact TokenList.scan_eq_ok_iff.symm

theorem segmentable_append_iff {piece : Piece} {before front rest : List Char}
    (covers : piece.Covers front rest) :
    Segmentable before (front ++ rest) ↔ Segmentable (before ++ front) rest := by
  rw [segmentable_iff_scan, segmentable_iff_scan, TokenList.scan_covered covers]
  cases TokenList.scan 0 (.behind (before ++ front)) rest <;> simp [Except.map]

namespace LexicalFault

variable {before text : List Char} {fault : LexicalFault}

theorem stopsIn_of_stuck {char : Char} {rest : List Char}
    (stuck : Piece.first? (char :: rest) = none) :
    StopsIn before (char :: rest) ⟨char, (Position.behind before).line⟩ := by
  refine ⟨[], rest, rfl, ⟨_, .stop before⟩, ?_, by simp [Position.behind]⟩
  intro longer isPrefix segmentable
  cases longer with
  | nil => exact Nat.le_refl 0
  | cons first others =>
      obtain ⟨rfl, othersPrefix⟩ := List.cons_prefix_cons.mp isPrefix
      obtain ⟨list, scanned⟩ := segmentable_iff_scan.mp segmentable
      rw [TokenList.scan, Piece.first?_eq_none_of_isPrefix stuck othersPrefix] at scanned
      cases scanned

namespace StopsIn

/-- A fault behind a piece is a fault of the text with the piece in front. -/
theorem piece {piece : Piece} {front rest : List Char} (covers : piece.Covers front rest)
    (stops : fault.StopsIn (before ++ front) rest) : fault.StopsIn before (front ++ rest) := by
  obtain ⟨further, after, parted, segmentable, longest, line⟩ := stops
  have furtherPrefix : further <+: rest := ⟨_, parted.symm⟩
  refine ⟨front ++ further, after, ?_, ?_, ?_, ?_⟩
  · rw [parted, List.append_assoc]
  · exact (segmentable_append_iff (covers.of_isPrefix furtherPrefix)).mpr segmentable
  · intro longer isPrefix longerSegmentable
    rcases Nat.le_total longer.length front.length with short | long
    · rw [List.length_append]
      omega
    · -- A longer front part contains the piece, so what it has behind the piece is too long.
      obtain ⟨others, rfl⟩ :=
        List.prefix_of_prefix_length_le (List.prefix_append front rest) isPrefix long
      have othersPrefix := (List.prefix_append_right_inj front).mp isPrefix
      have othersCovers := covers.of_isPrefix othersPrefix
      have bound := longest others othersPrefix
        ((segmentable_append_iff othersCovers).mp longerSegmentable)
      rw [List.length_append, List.length_append]
      omega
  · rw [line, List.append_assoc]

theorem unique {other : LexicalFault} (stops : fault.StopsIn before text)
    (otherStops : other.StopsIn before text) : fault = other := by
  obtain ⟨front, rest, parted, segmentable, longest, line⟩ := stops
  obtain ⟨otherFront, otherRest, otherParted, otherSegmentable, otherLongest, otherLine⟩ :=
    otherStops
  have sameLength : front.length = otherFront.length := by
    apply Nat.le_antisymm
    · exact otherLongest front ⟨_, parted.symm⟩ segmentable
    · exact longest otherFront ⟨_, otherParted.symm⟩ otherSegmentable
  obtain ⟨rfl, behind⟩ := List.append_inj (parted.symm.trans otherParted) sameLength
  have sameChar : fault.char = other.char := (List.cons.inj behind).1
  have sameLine : fault.line = other.line := line.trans otherLine.symm
  cases fault
  cases other
  rw [LexicalFault.mk.injEq]
  exact ⟨sameChar, sameLine⟩

theorem not_segmentable (stops : fault.StopsIn before text) : ¬ Segmentable before text := by
  obtain ⟨front, rest, rfl, -, longest, -⟩ := stops
  intro segmentable
  have bound := longest _ (List.prefix_refl _) segmentable
  rw [List.length_append, List.length_cons] at bound
  omega

end StopsIn

end LexicalFault

theorem TokenList.stopsIn_of_scan {before text : List Char} {fault : LexicalFault}
    (scanned : scan 0 (.behind before) text = .error fault) : fault.StopsIn before text := by
  induction text using Piece.pieceInduction generalizing before with
  | nil => cases scanned
  | stuck char rest stuck =>
      rw [scan, stuck] at scanned
      cases scanned
      exact LexicalFault.stopsIn_of_stuck stuck
  | piece piece front rest covers ih =>
      rw [scan_covered covers] at scanned
      cases found : scan 0 (.behind (before ++ front)) rest with
      | ok others =>
          rw [found] at scanned
          cases scanned
      | error other =>
          rw [found] at scanned
          cases scanned
          exact (ih found).piece covers

/-! ## Line feeds -/

theorem Gap.newline_not_mem {gap rest : List Char} (between : Gap gap rest) : '\n' ∉ gap := by
  cases between with
  | blank rest blank =>
      intro among
      obtain rfl := List.mem_singleton.mp among
      exact absurd blank (by decide)
  | comment sameLine _ => simpa using sameLine

theorem Lexeme.count_newline {lexeme : Lexeme} {rest : List Char}
    (ends : lexeme.EndsBefore rest) :
    lexeme.text.toList.count '\n' = [lexeme].count .newline := by
  cases lexeme with
  | word string =>
      obtain ⟨first, others, rfl, starts, parts⟩ := exists_of_isName ends.1
      have absent : '\n' ∉ first :: others := by
        intro among
        rcases List.mem_cons.mp among with rfl | among
        · exact absurd starts (by decide)
        · exact absurd (parts _ among) (by decide)
      simpa [Lexeme.text] using List.count_eq_zero.mpr absent
  | _ => rfl

namespace Segments

variable {before text : List Char} {list : TokenList}

theorem stop_eq (segments : Segments before text list) :
    list.stop = .behind (before ++ text) := by
  induction segments with
  | stop before => rw [List.append_nil]
  | gap _ _ ih => rw [ih, List.append_assoc]
  | token _ _ ih => rw [← List.append_assoc, ← ih]

theorem count_newline (segments : Segments before text list) :
    (list.tokens.map Token.lexeme).count .newline = text.count '\n' := by
  induction segments with
  | stop before => rfl
  | gap between _ ih =>
      rw [ih, List.count_append, List.count_eq_zero.mpr between.newline_not_mem, Nat.zero_add]
  | token ends _ ih =>
      rw [List.count_append, Lexeme.count_newline ends, ← ih, ← List.count_append]
      rfl

end Segments

/-- A text is cut into tokens exactly as its segmentation says, so it has one segmentation at most;
the list ends at the end of the text, and has one line break for each line feed. A text is refused
exactly if it has no segmentation, and the fault is that of the first character behind the longest
front part that has one. -/
theorem TokenList.ofText_follows_segmentation (source : String) :
    (∀ list, ofText source = .ok list ↔ Segments [] source.toList list) ∧
    (∀ list, Segments [] source.toList list →
      list.stop = .behind source.toList ∧
        (list.tokens.map Token.lexeme).count .newline = source.toList.count '\n') ∧
    ((∃ fault, ofText source = .error fault) ↔ ¬ Segmentable [] source.toList) ∧
    ∀ fault, ofText source = .error fault ↔ fault.StopsIn [] source.toList := by
  have start : ofText source = scan 0 (.behind []) source.toList := rfl
  have accepted : ∀ list, ofText source = .ok list ↔ Segments [] source.toList list := by
    intro list
    rw [start, scan_eq_ok_iff]
  have refused : ∀ fault, ofText source = .error fault → fault.StopsIn [] source.toList := by
    intro fault scanned
    exact stopsIn_of_scan (start ▸ scanned)
  refine ⟨accepted, ?_, ?_, ?_⟩
  · intro list segments
    exact ⟨segments.stop_eq, segments.count_newline⟩
  · constructor
    · rintro ⟨fault, scanned⟩
      exact (refused fault scanned).not_segmentable
    · intro impossible
      cases scanned : ofText source with
      | error fault => exact ⟨fault, rfl⟩
      | ok list => exact (impossible ⟨list, (accepted list).mp scanned⟩).elim
  · intro fault
    refine ⟨refused fault, ?_⟩
    intro stops
    cases scanned : ofText source with
    | error other => rw [(refused other scanned).unique stops]
    | ok list => exact (stops.not_segmentable ⟨list, (accepted list).mp scanned⟩).elim

end GridRobot
