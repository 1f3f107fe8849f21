import GridRobot.Program.Parse.File

/-!
# The grammar of program files

The rules of program text, without a reader. `Derives phrase tokens rest` says that the tokens
before `rest` have the form of a phrase. A phrase names the kind of text and the tree that the text
stands for, so a rule gives the form and its meaning at once. The rules look at nothing beyond the
text they derive, and both connectives of conditions group to the left because their rules recurse
on the left.

Line breaks are tokens. They may stand only where a rule has `Breaks`, or `Optional` for a lexeme
that may be left out together with the line breaks before it.
-/

namespace GridRobot.Grammar

/-- A kind of text together with the tree that it stands for. A body is what stands between braces,
and the other part of a choice is what follows its block. -/
inductive Phrase where
  | operand (tree : Condition)
  | conjunction (tree : Condition)
  | condition (tree : Condition)
  | statement (tree : Stmt)
  | other (trees : Option (List Stmt))
  | block (trees : List Stmt)
  | body (trees : List Stmt)
  | declaration (tree : Declaration)
  | declarations (trees : List Declaration)
  | active (name : String)
  | file (trees : List Declaration) (active : String)

/-- Any number of line breaks. -/
inductive Breaks : List Token → List Token → Prop where
  | none (rest : List Token) : Breaks rest rest
  | more {position : Position} {tokens rest : List Token} :
      Breaks tokens rest → Breaks (⟨.newline, position⟩ :: tokens) rest

/-- A lexeme that may be left out. Line breaks may stand before it. -/
inductive Optional (lexeme : Lexeme) : List Token → List Token → Prop where
  | absent (rest : List Token) : Optional lexeme rest rest
  | present {position : Position} {tokens rest : List Token} :
      Breaks tokens (⟨lexeme, position⟩ :: rest) → Optional lexeme tokens rest

/-- The rules. -/
inductive Derives : Phrase → List Token → List Token → Prop where
  -- Conditions, from the strongest binding to the weakest.
  | sensor (sensor : Sensor) (position : Position) (rest : List Token) :
      Derives (.operand (.atom sensor.name)) (⟨.word sensor.name, position⟩ :: rest) rest
  | negation {inner : Condition} {position : Position} {tokens rest : List Token} :
      Derives (.operand inner) tokens rest →
        Derives (.operand (.not inner)) (⟨.not, position⟩ :: tokens) rest
  | parentheses {inner : Condition} {opened closed : Position} {tokens rest : List Token} :
      Derives (.condition inner) tokens (⟨.rightParen, closed⟩ :: rest) →
        Derives (.operand inner) (⟨.leftParen, opened⟩ :: tokens) rest
  | singleOperand {tree : Condition} {tokens rest : List Token} :
      Derives (.operand tree) tokens rest → Derives (.conjunction tree) tokens rest
  | and {left right : Condition} {position : Position} {tokens middle rest : List Token} :
      Derives (.conjunction left) tokens (⟨.and, position⟩ :: middle) →
        Derives (.operand right) middle rest →
          Derives (.conjunction (.and left right)) tokens rest
  | singleConjunction {tree : Condition} {tokens rest : List Token} :
      Derives (.conjunction tree) tokens rest → Derives (.condition tree) tokens rest
  | or {left right : Condition} {position : Position} {tokens middle rest : List Token} :
      Derives (.condition left) tokens (⟨.or, position⟩ :: middle) →
        Derives (.conjunction right) middle rest →
          Derives (.condition (.or left right)) tokens rest
  -- Statements.
  | action (action : Action) (position : Position) (rest : List Token) :
      Derives (.statement (.action action.name position.line))
        (⟨.word action.name, position⟩ :: rest) rest
  | loop {test : Condition} {body : List Stmt} {position : Position}
      {tokens start afterTest rest : List Token} :
      Breaks tokens start → Derives (.condition test) start afterTest →
        Derives (.block body) afterTest rest → body ≠ [] →
          Derives (.statement (.loop test body position.line))
            (⟨.word "while", position⟩ :: tokens) rest
  | choice {test : Condition} {yes : List Stmt} {no : Option (List Stmt)} {position : Position}
      {tokens start afterTest afterYes rest : List Token} :
      Breaks tokens start → Derives (.condition test) start afterTest →
        Derives (.block yes) afterTest afterYes → yes ≠ [] → Derives (.other no) afterYes rest →
          Derives (.statement (.choice test yes no position.line))
            (⟨.word "if", position⟩ :: tokens) rest
  | noOther (rest : List Token) : Derives (.other none) rest rest
  | otherBlock {no : List Stmt} {position : Position} {tokens afterElse rest : List Token} :
      Breaks tokens (⟨.word "else", position⟩ :: afterElse) →
        Derives (.block no) afterElse rest → Derives (.other (some no)) tokens rest
  | otherChoice {nested : Stmt} {position place : Position}
      {tokens afterElse start rest : List Token} :
      Breaks tokens (⟨.word "else", position⟩ :: afterElse) →
        Breaks afterElse (⟨.word "if", place⟩ :: start) →
          Derives (.statement nested) (⟨.word "if", place⟩ :: start) rest →
            Derives (.other (some [nested])) tokens rest
  | block {trees : List Stmt} {opened closed : Position} {tokens inner rest : List Token} :
      Breaks tokens (⟨.leftBrace, opened⟩ :: inner) →
        Derives (.body trees) inner (⟨.rightBrace, closed⟩ :: rest) →
          Derives (.block trees) tokens rest
  | emptyBody {tokens rest : List Token} : Breaks tokens rest → Derives (.body []) tokens rest
  | statements {first : Stmt} {others : List Stmt} {tokens start next after rest : List Token} :
      Breaks tokens start → Derives (.statement first) start next →
        Optional .semicolon next after → Derives (.body others) after rest →
          Derives (.body (first :: others)) tokens rest
  -- Files. A declaration and the name of the active program start after their keyword.
  | braces {name : String} {body : List Stmt} {position opened closed : Position}
      {afterName inner after rest : List Token} :
      Breaks afterName (⟨.leftBrace, opened⟩ :: inner) →
        Derives (.body body) inner (⟨.rightBrace, closed⟩ :: after) →
          Optional .semicolon after rest →
            Derives (.declaration ⟨name, body⟩) (⟨.word name, position⟩ :: afterName) rest
  | older {name : String} {body : List Stmt} {position opened closed : Position}
      {afterName inner rest : List Token} :
      Breaks afterName (⟨.assign, opened⟩ :: inner) →
        Derives (.body body) inner (⟨.semicolon, closed⟩ :: rest) →
          Derives (.declaration ⟨name, body⟩) (⟨.word name, position⟩ :: afterName) rest
  | noDeclarations {tokens rest : List Token} :
      Breaks tokens rest → Derives (.declarations []) tokens rest
  | declarations {first : Declaration} {others : List Declaration} {position : Position}
      {tokens start next rest : List Token} :
      Breaks tokens (⟨.word "program", position⟩ :: start) →
        Derives (.declaration first) start next → Derives (.declarations others) next rest →
          Derives (.declarations (first :: others)) tokens rest
  | active {name : String} {closer : Lexeme} {position closed : Position}
      {tokens start afterName rest : List Token} :
      Optional .assign tokens start → Breaks start (⟨.word name, position⟩ :: afterName) →
        Breaks afterName (⟨closer, closed⟩ :: rest) → closer = .dot ∨ closer = .semicolon →
          Derives (.active name) tokens rest
  | file {trees : List Declaration} {name : String} {position : Position}
      {tokens afterActive next rest : List Token} :
      Derives (.declarations trees) tokens (⟨.word "active", position⟩ :: afterActive) →
        Derives (.active name) afterActive next → Breaks next rest →
          Derives (.file trees name) tokens rest

/-! ## Line breaks -/

open Parse

namespace Breaks

variable {tokens start rest : List Token}

theorem trans (first : Breaks tokens start) (second : Breaks start rest) : Breaks tokens rest := by
  induction first with
  | none rest => exact second
  | more _ ih => exact .more (ih second)

theorem suffix (breaks : Breaks tokens rest) : rest <:+ tokens := by
  induction breaks with
  | none rest => exact List.suffix_refl rest
  | more _ ih => exact ih.trans (List.suffix_cons _ _)

theorem length_le (breaks : Breaks tokens rest) : rest.length ≤ tokens.length :=
  breaks.suffix.length_le

theorem skipBreaks_eq (breaks : Breaks tokens rest) : skipBreaks tokens = skipBreaks rest := by
  induction breaks with
  | none rest => rfl
  | more _ ih => rw [skipBreaks, ih]

theorem skip (tokens : List Token) : Breaks tokens (skipBreaks tokens) := by
  fun_induction skipBreaks tokens with
  | case1 position rest ih => exact .more ih
  | case2 tokens _ => exact .none tokens

/-- Line breaks before another lexeme are all skipped. -/
theorem skipBreaks_of_ne {token : Token} (breaks : Breaks tokens (token :: rest))
    (front : token.lexeme ≠ .newline) : skipBreaks tokens = token :: rest := by
  rw [breaks.skipBreaks_eq]
  unfold skipBreaks
  split
  · next equal =>
      cases equal
      exact (front rfl).elim
  · rfl

end Breaks

@[simp] theorem skipBreaks_skipBreaks (tokens : List Token) :
    skipBreaks (skipBreaks tokens) = skipBreaks tokens :=
  (Breaks.skip tokens).skipBreaks_eq.symm

namespace Optional

variable {lexeme : Lexeme} {tokens rest : List Token}

theorem suffix (optional : Optional lexeme tokens rest) : rest <:+ tokens := by
  cases optional with
  | absent => exact List.suffix_refl tokens
  | present breaks => exact (List.suffix_cons _ _).trans breaks.suffix

theorem length_le (optional : Optional lexeme tokens rest) : rest.length ≤ tokens.length :=
  optional.suffix.length_le

end Optional

/-! ## What a derivation takes from the tokens -/

/-- Whether a phrase starts with a token of its own, and not with line breaks. -/
def Phrase.Tight : Phrase → Prop
  | .operand _ | .conjunction _ | .condition _ | .statement _ => True
  | _ => False

/-- The least number of tokens that a phrase takes. -/
def Phrase.least : Phrase → Nat
  | .operand _ | .conjunction _ | .condition _ | .statement _ | .block _ | .declaration _ => 1
  | .other _ | .body _ | .declarations _ | .active _ | .file _ _ => 0

namespace Derives

variable {phrase : Phrase} {tokens start rest : List Token}

theorem skipBreaks_eq (derives : Derives phrase tokens rest) (tight : phrase.Tight) :
    skipBreaks tokens = tokens := by
  induction derives with
  | sensor | negation | parentheses | action | loop | choice => rfl
  | singleOperand _ ih | singleConjunction _ ih => exact ih trivial
  | and _ _ leftIH _ | or _ _ leftIH _ => exact leftIH trivial
  | _ => exact tight.elim

theorem suffix (derives : Derives phrase tokens rest) : rest <:+ tokens := by
  induction derives with
  | sensor | action => exact List.suffix_cons _ _
  | negation _ ih => exact ih.trans (List.suffix_cons _ _)
  | parentheses _ ih => exact ((List.suffix_cons _ _).trans ih).trans (List.suffix_cons _ _)
  | singleOperand _ ih | singleConjunction _ ih => exact ih
  | and _ _ leftIH rightIH | or _ _ leftIH rightIH =>
      exact (rightIH.trans (List.suffix_cons _ _)).trans leftIH
  | loop breaks _ _ _ testIH bodyIH =>
      exact ((bodyIH.trans testIH).trans breaks.suffix).trans (List.suffix_cons _ _)
  | choice breaks _ _ _ _ testIH yesIH noIH =>
      exact (((noIH.trans yesIH).trans testIH).trans breaks.suffix).trans (List.suffix_cons _ _)
  | noOther rest => exact List.suffix_refl rest
  | otherBlock breaks _ ih => exact (ih.trans (List.suffix_cons _ _)).trans breaks.suffix
  | otherChoice first second _ ih =>
      exact ((ih.trans second.suffix).trans (List.suffix_cons _ _)).trans first.suffix
  | block breaks _ ih =>
      exact (((List.suffix_cons _ _).trans ih).trans (List.suffix_cons _ _)).trans breaks.suffix
  | emptyBody breaks | noDeclarations breaks => exact breaks.suffix
  | statements breaks _ separator _ firstIH othersIH =>
      exact ((othersIH.trans separator.suffix).trans firstIH).trans breaks.suffix
  | braces breaks _ separator ih =>
      have inside := ((separator.suffix.trans (List.suffix_cons _ _)).trans ih)
      exact ((inside.trans (List.suffix_cons _ _)).trans breaks.suffix).trans
        (List.suffix_cons _ _)
  | older breaks _ ih =>
      have inside := (List.suffix_cons _ _).trans ih
      exact ((inside.trans (List.suffix_cons _ _)).trans breaks.suffix).trans
        (List.suffix_cons _ _)
  | declarations breaks _ _ firstIH othersIH =>
      exact ((othersIH.trans firstIH).trans (List.suffix_cons _ _)).trans breaks.suffix
  | active optional first second _ =>
      have named := (List.suffix_cons _ _).trans first.suffix
      exact (((List.suffix_cons _ _).trans second.suffix).trans named).trans optional.suffix
  | file _ _ breaks declarationsIH activeIH =>
      exact ((breaks.suffix.trans activeIH).trans (List.suffix_cons _ _)).trans declarationsIH

theorem length_le (derives : Derives phrase tokens rest) :
    rest.length + phrase.least ≤ tokens.length := by
  induction derives with
  | sensor | action | noOther => simp [Phrase.least]
  | singleOperand _ ih | singleConjunction _ ih => exact ih
  | negation _ ih | parentheses _ ih =>
      simp only [Phrase.least, List.length_cons] at ih ⊢
      omega
  | and _ _ leftIH rightIH | or _ _ leftIH rightIH =>
      simp only [Phrase.least, List.length_cons] at leftIH rightIH ⊢
      omega
  | loop breaks _ _ _ testIH bodyIH =>
      have shorter := breaks.length_le
      simp only [Phrase.least, List.length_cons] at testIH bodyIH ⊢
      omega
  | choice breaks _ _ _ _ testIH yesIH noIH =>
      have shorter := breaks.length_le
      simp only [Phrase.least, List.length_cons] at testIH yesIH noIH ⊢
      omega
  | otherBlock breaks _ ih | block breaks _ ih =>
      have shorter := breaks.length_le
      simp only [Phrase.least, List.length_cons] at shorter ih ⊢
      omega
  | otherChoice first second _ ih =>
      have shorter := first.length_le
      have shorterYet := second.length_le
      simp only [Phrase.least, List.length_cons] at shorter shorterYet ih ⊢
      omega
  | emptyBody breaks | noDeclarations breaks => exact breaks.length_le
  | statements breaks _ separator _ firstIH othersIH =>
      have shorter := breaks.length_le
      have shorterYet := separator.length_le
      simp only [Phrase.least] at firstIH othersIH ⊢
      omega
  | braces breaks _ separator ih =>
      have shorter := breaks.length_le
      have shorterYet := separator.length_le
      simp only [Phrase.least, List.length_cons] at shorter ih ⊢
      omega
  | older breaks _ ih =>
      have shorter := breaks.length_le
      simp only [Phrase.least, List.length_cons] at shorter ih ⊢
      omega
  | declarations breaks _ _ firstIH othersIH =>
      have shorter := breaks.length_le
      simp only [Phrase.least, List.length_cons] at shorter firstIH othersIH ⊢
      omega
  | active optional first second _ =>
      have shorter := optional.length_le
      have shorterYet := first.length_le
      have shortest := second.length_le
      simp only [Phrase.least, List.length_cons] at shorterYet shortest ⊢
      omega
  | file _ _ breaks declarationsIH activeIH =>
      have shorter := breaks.length_le
      simp only [Phrase.least, List.length_cons] at declarationsIH activeIH ⊢
      omega

end Derives

end GridRobot.Grammar
