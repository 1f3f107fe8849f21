import GridRobot.Program.Source
import GridRobot.Proofs.Grammar.Sites
import GridRobot.Proofs.Layout
import GridRobot.Proofs.Scanning

/-!
# The headings of a program

The heading of a statement is the word it starts with, and the line of this word. When program text
is read, the headings of the statements, in the order in which the statements start, are the heading
words of the body that counts: no statement is lost, none is read twice, and each keeps its line.
-/

namespace GridRobot

open Grammar

/-- The word that a statement starts with, and its line. -/
structure Heading where
  word : String
  line : Int
  deriving DecidableEq, Repr

namespace Stmt

/-- The heading of a statement. -/
def heading? : Stmt → Option Heading
  | .action name line => some ⟨name, line⟩
  | .choice _ _ _ line => some ⟨"if", line⟩
  | .loop _ _ line => some ⟨"while", line⟩
  | .stray _ => none

/-- The headings of the statements of a program. A statement comes before those inside it, and what
a choice does comes before its other part. -/
def headings (program : List Stmt) : List Heading :=
  (allParts program).filterMap heading?

end Stmt

namespace Token

/-- The heading that a token stands for, if it is the name of an action, `if` or `while`. -/
def heading? (token : Token) : Option Heading :=
  match token.lexeme with
  | .word text =>
      if (Action.ofName? text).isSome ∨ text = "if" ∨ text = "while" then some ⟨text, token.line⟩
      else none
  | _ => none

/-- The headings among some tokens. -/
def headings (tokens : List Token) : List Heading :=
  tokens.filterMap heading?

variable {token : Token} {tokens rest : List Token} {position : Position}

theorem headings_cons_of_none (missing : token.heading? = none) :
    headings (token :: rest) = headings rest :=
  List.filterMap_cons_none missing

theorem headings_cons_of_some {heading : Heading} (found : token.heading? = some heading) :
    headings (token :: rest) = heading :: headings rest :=
  List.filterMap_cons_some found

theorem heading?_sensor (sensor : Sensor) : heading? ⟨.word sensor.name, position⟩ = none := by
  cases sensor <;> rfl

theorem heading?_action (action : Action) :
    heading? ⟨.word action.name, position⟩ = some ⟨action.name, position.line⟩ := by
  simp [heading?, Token.line]

theorem word_of_heading? {heading : Heading} (found : token.heading? = some heading) :
    token.lexeme = .word heading.word ∧ heading.line = token.line := by
  unfold heading? at found
  split at found
  · next text word =>
      split at found
      · cases found
        exact ⟨word, rfl⟩
      · cases found
  · cases found

theorem headings_of_breaks (breaks : Breaks tokens rest) : headings tokens = headings rest := by
  induction breaks with
  | none rest => rfl
  | more _ ih => rw [headings_cons_of_none rfl, ih]

theorem headings_of_semicolon (optional : Optional .semicolon tokens rest) :
    headings tokens = headings rest := by
  cases optional with
  | absent => rfl
  | present breaks => rw [headings_of_breaks breaks, headings_cons_of_none rfl]

end Token

/-! ## Derivations -/

/-- The headings of the tree of a phrase inside a body. -/
def Grammar.Phrase.headings : Phrase → List Heading
  | .statement tree => Stmt.headings [tree]
  | .other trees => (Stmt.otherParts trees).filterMap Stmt.heading?
  | .block trees | .body trees => Stmt.headings trees
  | _ => []

namespace Stmt

variable (condition : Condition) (line : Int)

theorem headings_cons (statement : Stmt) (rest : List Stmt) :
    headings (statement :: rest) = headings [statement] ++ headings rest := by
  simp [headings, allParts]

theorem headings_choice (yes : List Stmt) (no : Option (List Stmt)) :
    headings [.choice condition yes no line] =
      ⟨"if", line⟩ :: (headings yes ++ (otherParts no).filterMap heading?) := by
  simp [headings, allParts, parts, heading?]

theorem headings_loop (body : List Stmt) :
    headings [.loop condition body line] = ⟨"while", line⟩ :: headings body := by
  simp [headings, allParts, parts, heading?]

end Stmt

/-- Inside a body, the tokens that a phrase takes have the headings of its tree. -/
theorem Grammar.Derives.headings {phrase : Phrase} {tokens rest : List Token}
    (derives : Derives phrase tokens rest) (inner : phrase.Inner) :
    Token.headings tokens = phrase.headings ++ Token.headings rest := by
  induction derives with
  | sensor sensor => exact Token.headings_cons_of_none (Token.heading?_sensor sensor)
  | negation _ ih =>
      rw [Token.headings_cons_of_none rfl]
      exact ih trivial
  | parentheses _ ih =>
      rw [Token.headings_cons_of_none rfl, ih trivial, Token.headings_cons_of_none rfl]
      rfl
  | singleOperand _ ih | singleConjunction _ ih => exact ih trivial
  | and _ _ leftIH rightIH | or _ _ leftIH rightIH =>
      rw [leftIH trivial, Token.headings_cons_of_none rfl]
      exact rightIH trivial
  | action action => exact Token.headings_cons_of_some (Token.heading?_action action)
  | loop breaks _ _ _ testIH bodyIH =>
      rw [Token.headings_cons_of_some rfl, Token.headings_of_breaks breaks, testIH trivial,
        bodyIH trivial, Phrase.headings, Stmt.headings_loop]
      rfl
  | choice breaks _ _ _ _ testIH yesIH noIH =>
      rw [Token.headings_cons_of_some rfl, Token.headings_of_breaks breaks, testIH trivial,
        yesIH trivial, noIH trivial, Phrase.headings, Stmt.headings_choice]
      simp [Phrase.headings, Token.line]
  | noOther => rfl
  | otherBlock breaks _ ih =>
      rw [Token.headings_of_breaks breaks, Token.headings_cons_of_none rfl]
      exact ih trivial
  | otherChoice first second _ ih =>
      rw [Token.headings_of_breaks first, Token.headings_cons_of_none rfl,
        Token.headings_of_breaks second]
      exact ih trivial
  | block breaks _ ih =>
      rw [Token.headings_of_breaks breaks, Token.headings_cons_of_none rfl, ih trivial,
        Token.headings_cons_of_none rfl]
      rfl
  | emptyBody breaks => exact Token.headings_of_breaks breaks
  | @statements first others _ _ _ _ _ breaks _ separator _ firstIH othersIH =>
      rw [Token.headings_of_breaks breaks, firstIH trivial, Token.headings_of_semicolon separator,
        othersIH trivial, ← List.append_assoc]
      exact congrArg (· ++ _) (Stmt.headings_cons first others).symm
  | _ => exact inner.elim

/-! ## Lines -/

/-- The heading of a token of a text is spelled in the text, on its line. -/
theorem Heading.spelled {source : String} {tokens : TokenList}
    (scanned : TokenList.ofText source = .ok tokens) {heading : Heading}
    (among : heading ∈ Token.headings tokens.tokens) :
    ∃ before after, source.toList = before ++ heading.word.toList ++ after ∧
      heading.line = 1 + before.count '\n' := by
  obtain ⟨token, tokenAmong, found⟩ := List.mem_filterMap.mp among
  obtain ⟨word, line⟩ := Token.word_of_heading? found
  obtain ⟨before, behind, split, tokenLine, size, piece⟩ :=
    TokenList.standsIn_scan scanned token tokenAmong
  rw [word] at piece
  obtain ⟨after, rfl⟩ := Piece.exists_append_of_word piece
  refine ⟨before, after, by rw [split, List.append_assoc], ?_⟩
  rw [line, tokenLine]
  push_cast
  rfl

theorem Token.pairwise_headings {tokens : List Token}
    (ordered : tokens.Pairwise fun first second => first.line ≤ second.line) :
    (headings tokens).Pairwise fun first second => first.line ≤ second.line := by
  refine List.pairwise_filterMap.mpr (ordered.imp ?_)
  intro first second before heading found other otherFound
  rw [(word_of_heading? found).2, (word_of_heading? otherFound).2]
  exact Int.ofNat_le.mpr before

/-! ## Programs -/

/-- Every statement of program text, read on whatever stack, is kept once, in order and with its
line. The headings of the program that is read are those in the body of the last declaration of the
active program. Each is spelled in the text on its line, so the lines do not decrease and all are
lines of the text. -/
theorem Source.headings_textProgram {stack : Stack} {source : String} {program : List Stmt}
    (read : Source.textProgram stack source = .ok program) :
    ∃ tokens file site, TokenList.ofText source = .ok tokens ∧
      (Parse.boundedFile stack.text tokens).outcome = .ok file ∧
      (Parse.file tokens).outcome = .ok file ∧ file.program = program ∧
      Site.last? file.active tokens.tokens = some site ∧
      Stmt.headings program = Token.headings site.body ∧
      (Stmt.headings program).Pairwise (fun first second => first.line ≤ second.line) ∧
      ∀ heading ∈ Stmt.headings program,
        (∃ before after, source.toList = before ++ heading.word.toList ++ after ∧
          heading.line = 1 + before.count '\n') ∧
        1 ≤ heading.line ∧ heading.line ≤ 1 + source.toList.count '\n' := by
  obtain ⟨tokens, file, scanned, bounded, readFile, rfl⟩ := exists_file_of_textProgram read
  obtain ⟨derives, chosen⟩ := Parse.derives_of_file readFile
  obtain ⟨site, last, takes⟩ := Site.exists_last? derives chosen
  have part : site.body.Sublist tokens.tokens :=
    Site.body_sublist (List.mem_reverse.mp (List.mem_of_find?_eq_some last))
  have kept : Stmt.headings file.program = Token.headings site.body := by
    have headings := (takes.derives []).headings trivial
    rw [List.append_nil] at headings
    exact (headings.trans (List.append_nil _)).symm
  refine ⟨tokens, file, site, scanned, bounded, readFile, rfl, last, kept, ?_, ?_⟩
  · rw [kept]
    exact Token.pairwise_headings ((TokenList.pairwise_scan scanned).sublist part)
  · intro heading among
    rw [kept] at among
    obtain ⟨before, after, split, line⟩ :=
      Heading.spelled scanned ((part.filterMap Token.heading?).subset among)
    have fewer : before.count '\n' ≤ source.toList.count '\n' := by
      rw [split, List.append_assoc, List.count_append]
      exact Nat.le_add_right _ _
    exact ⟨⟨before, after, split, line⟩, by omega, by omega⟩

/-- A program that is declared twice, first in braces and then in the older form. -/
def twiceSource : String :=
  "program main \x7b forward \x7d\n" ++
  "program main =\n" ++
  "  while !won \x7b\n" ++
  "    if obstacleAhead \x7b turnLeft; \x7d // twice\n" ++
  "    else if won \x7b turnRight \x7d forward\n" ++
  "  \x7d;\n" ++
  "active main."

theorem Source.headings_textProgram_twice :
    ∃ program tokens file site, textProgram .usual twiceSource = .ok program ∧
      TokenList.ofText twiceSource = .ok tokens ∧
      (Parse.boundedFile Stack.usual.text tokens).outcome = .ok file ∧
      Site.last? file.active tokens.tokens = some site ∧
      Stmt.headings program = Token.headings site.body ∧
      Token.headings site.body =
        [⟨"while", 3⟩, ⟨"if", 4⟩, ⟨"turnLeft", 4⟩, ⟨"if", 5⟩, ⟨"turnRight", 5⟩,
          ⟨"forward", 5⟩] := by
  have shown : (textProgram .usual twiceSource).toOption.map Stmt.headings =
      some [⟨"while", 3⟩, ⟨"if", 4⟩, ⟨"turnLeft", 4⟩, ⟨"if", 5⟩, ⟨"turnRight", 5⟩,
        ⟨"forward", 5⟩] := by
    decide +kernel
  cases read : textProgram .usual twiceSource with
  | error fault =>
      rw [read] at shown
      cases shown
  | ok program =>
      rw [read] at shown
      obtain ⟨tokens, file, site, scanned, bounded, -, -, last, kept, -⟩ :=
        headings_textProgram read
      exact ⟨program, tokens, file, site, rfl, scanned, bounded, last, kept,
        kept.symm.trans (Option.some.inj shown)⟩

end GridRobot
