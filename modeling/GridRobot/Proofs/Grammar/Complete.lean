import GridRobot.Proofs.Grammar.Sound

/-!
# What is derived is read

A reader of program text that is handed tokens which derive a phrase returns the tree of that
derivation, provided that what follows the phrase cannot belong to it: no connective after a
condition, no `else` after a statement, and a declaration or the end after a program of the older
form. The fuel that the readers are given is enough, since each of them is called with less fuel
only after a token was taken; a condition is the exception, and gets two units for each token.

Reading is a function, so a text has one tree only. With what the readers return being derived, the
readers accept exactly the grammar.
-/

namespace GridRobot.Parse

open Grammar

/-! ## Conditions -/

/-- Whether a connective stands at the front. -/
def AtConnective : List Token → Prop
  | ⟨.and, _⟩ :: _ | ⟨.or, _⟩ :: _ => True
  | _ => False

/-- `Continues left last tokens tree rest` says that the tokens before `rest` go on with connectives
and operands, after complete alternatives and a conjunction that may still grow, and that the whole
condition has the given tree. -/
inductive Continues :
    Option Condition → Condition → List Token → Condition → List Token → Prop where
  | finish {left : Option Condition} {last : Condition} {rest : List Token} :
      ¬ AtConnective rest → Continues left last rest (joinOr left last) rest
  | and {left : Option Condition} {last right tree : Condition} {position : Position}
      {middle next rest : List Token} :
      Derives (.operand right) middle next → Continues left (.and last right) next tree rest →
        Continues left last (⟨.and, position⟩ :: middle) tree rest
  | or {left : Option Condition} {last right tree : Condition} {position : Position}
      {middle next rest : List Token} :
      Derives (.operand right) middle next →
        Continues (some (joinOr left last)) right next tree rest →
          Continues left last (⟨.or, position⟩ :: middle) tree rest

namespace Continues

variable {left : Option Condition} {last tree : Condition} {tokens middle rest : List Token}

theorem length_le (continues : Continues left last tokens tree rest) :
    rest.length ≤ tokens.length := by
  induction continues with
  | finish => exact Nat.le_refl _
  | and operand _ ih | or operand _ ih =>
      have shorter := operand.length_le
      simp only [List.length_cons]
      omega

/-- A conjunction that goes on starts with an operand that goes on. -/
theorem of_conjunction (derives : Derives (.conjunction last) tokens middle)
    (continues : Continues left last middle tree rest) :
    ∃ first next, Derives (.operand first) tokens next ∧ Continues left first next tree rest := by
  generalize equal : Phrase.conjunction last = phrase at derives
  induction derives generalizing last with
  | singleOperand operand =>
      cases equal
      exact ⟨_, _, operand, continues⟩
  | and _ operand earlier =>
      cases equal
      exact earlier (.and operand continues) rfl
  | _ => cases equal

/-- A condition that goes on starts with an operand that goes on. How the condition was parted into
alternatives and a conjunction does not matter, as long as they join to it. -/
theorem of_condition {whole : Condition} (derives : Derives (.condition whole) tokens middle)
    (continues : ∀ left last, joinOr left last = whole → Continues left last middle tree rest) :
    ∃ first next, Derives (.operand first) tokens next ∧ Continues none first next tree rest := by
  generalize equal : Phrase.condition whole = phrase at derives
  induction derives generalizing whole with
  | singleConjunction conjunction =>
      cases equal
      exact of_conjunction conjunction (continues none _ rfl)
  | @or before after position tokens middle rest _ conjunction earlier =>
      cases equal
      refine earlier ?_ rfl
      intro left last joined
      have further := continues (some before) after rfl
      obtain ⟨first, next, operand, others⟩ := of_conjunction conjunction further
      exact .or operand (joined ▸ others)
  | _ => cases equal

end Continues

/-- With some fuel, the readers of conditions take what is derived. -/
structure ConditionsRead (fuel stop : Nat) : Prop where
  operand : ∀ {closer tokens tree rest}, Derives (.operand tree) tokens rest →
    2 * tokens.length ≤ 2 * rest.length + fuel + 1 →
      operand fuel stop closer tokens = .ok (tree, rest)
  connectives : ∀ {closer left last tokens tree rest}, Continues left last tokens tree rest →
    2 * tokens.length < 2 * rest.length + fuel →
      connectives fuel stop closer left last tokens = .ok (tree, rest)
  condition : ∀ {closer tokens tree rest}, Derives (.condition tree) tokens rest →
    ¬ AtConnective rest → 2 * tokens.length ≤ 2 * rest.length + fuel →
      condition fuel stop closer tokens = .ok (tree, rest)

namespace ConditionsRead

variable {fuel stop : Nat} {closer : Closer} {tokens middle next rest : List Token}
variable {left : Option Condition} {last right tree : Condition}

theorem zero (stop : Nat) : ConditionsRead 0 stop where
  operand := by
    intro closer tokens tree rest derives enough
    have shorter := derives.length_le
    simp only [Phrase.least] at shorter
    omega
  connectives := by
    intro closer left last tokens tree rest continues enough
    have shorter := continues.length_le
    omega
  condition := by
    intro closer tokens tree rest derives _ enough
    have shorter := derives.length_le
    simp only [Phrase.least] at shorter
    omega

theorem operand_succ (known : ConditionsRead fuel stop)
    (derives : Derives (.operand tree) tokens rest)
    (enough : 2 * tokens.length ≤ 2 * rest.length + (fuel + 1) + 1) :
    Parse.operand (fuel + 1) stop closer tokens = .ok (tree, rest) := by
  cases derives with
  | sensor sensor position => simp [Parse.operand]
  | negation inner =>
      simp only [List.length_cons] at enough
      simp only [Parse.operand, known.operand inner (by omega)]
      rfl
  | @parentheses _ _ closed _ _ inner =>
      simp only [List.length_cons] at enough
      have free : ¬ AtConnective (⟨.rightParen, closed⟩ :: rest) := id
      have read : Parse.condition fuel stop .paren _ = .ok _ :=
        known.condition inner free (by simp only [List.length_cons]; omega)
      simp only [Parse.operand, read]
      rfl

/-- An operand and what it goes on with are read one after the other. -/
theorem both (known : ConditionsRead fuel stop) (closer : Closer)
    (operand : Derives (.operand right) middle next) (others : Continues left last next tree rest)
    (enough : 2 * middle.length ≤ 2 * rest.length + fuel + 1) :
    Parse.operand fuel stop closer middle = .ok (right, next) ∧
      Parse.connectives fuel stop closer left last next = .ok (tree, rest) := by
  have shorter := operand.length_le
  have shorterYet := others.length_le
  simp only [Phrase.least] at shorter
  exact ⟨known.operand operand (by omega), known.connectives others (by omega)⟩

theorem connectives_succ (known : ConditionsRead fuel stop)
    (continues : Continues left last tokens tree rest)
    (enough : 2 * tokens.length < 2 * rest.length + (fuel + 1)) :
    Parse.connectives (fuel + 1) stop closer left last tokens = .ok (tree, rest) := by
  cases continues with
  | finish free =>
      unfold Parse.connectives
      dsimp only
      split
      · exact (free trivial).elim
      · exact (free trivial).elim
      · rfl
  | and operand others | or operand others =>
      simp only [List.length_cons] at enough
      obtain ⟨read, readOthers⟩ := known.both closer operand others (by omega)
      simp only [Parse.connectives, read]
      exact readOthers

theorem condition_succ (known : ConditionsRead fuel stop)
    (derives : Derives (.condition tree) tokens rest) (free : ¬ AtConnective rest)
    (enough : 2 * tokens.length ≤ 2 * rest.length + (fuel + 1)) :
    Parse.condition (fuel + 1) stop closer tokens = .ok (tree, rest) := by
  have finishes : ∀ left last, joinOr left last = tree → Continues left last rest tree rest := by
    rintro left last rfl
    exact .finish free
  obtain ⟨first, next, operand, others⟩ := Continues.of_condition derives finishes
  obtain ⟨read, readOthers⟩ := known.both closer operand others (by omega)
  simp only [Parse.condition, read]
  exact readOthers

theorem all (fuel stop : Nat) : ConditionsRead fuel stop := by
  induction fuel with
  | zero => exact zero stop
  | succ fuel known => exact ⟨known.operand_succ, known.connectives_succ, known.condition_succ⟩

end ConditionsRead

theorem condition_of_derives (stop : Nat) (closer : Closer) {tokens rest : List Token}
    {tree : Condition} (derives : Derives (.condition tree) tokens rest)
    (free : ¬ AtConnective rest) :
    condition (conditionFuel tokens) stop closer tokens = .ok (tree, rest) := by
  refine (ConditionsRead.all (conditionFuel tokens) stop).condition derives free ?_
  simp only [conditionFuel]
  omega

theorem blockCondition_of_derives {stop : Nat} {tokens rest : List Token} {tree : Condition}
    (derives : Derives (.condition tree) tokens rest) (free : ¬ AtConnective rest) :
    blockCondition stop tokens = .ok (tree, rest) :=
  condition_of_derives stop .brace derives free

/-! ## What stands at the front -/

/-- Words that start something else than a statement. -/
def reserved : List String :=
  ["else", "program", "active"]

theorem atDeclaration_of_free {name : String} (free : name ∉ reserved) (position : Position)
    (rest : List Token) : atDeclaration (⟨.word name, position⟩ :: rest) = false := by
  simp only [reserved, List.mem_cons, not_or] at free
  simp [atDeclaration, free]

/-- Whether the other part of a choice stands at the front, after line breaks. -/
def AtElse (tokens : List Token) : Prop :=
  ∃ position rest, skipBreaks tokens = ⟨.word "else", position⟩ :: rest

/-- A statement starts with a word of its own. -/
theorem statement_front {tree : Stmt} {tokens rest : List Token}
    (derives : Derives (.statement tree) tokens rest) :
    ∃ name position others, tokens = ⟨.word name, position⟩ :: others ∧ name ∉ reserved := by
  cases derives with
  | action action position =>
      refine ⟨action.name, position, rest, rfl, ?_⟩
      cases action <;> decide
  | loop => exact ⟨"while", _, _, rfl, by decide⟩
  | choice => exact ⟨"if", _, _, rfl, by decide⟩

/-- What stands at the front of a body, after line breaks: the token that follows an empty body, or
the first word of a statement. -/
theorem body_front {trees : List Stmt} {closer : Token} {tokens rest : List Token}
    (derives : Derives (.body trees) tokens (closer :: rest)) (closes : closer.lexeme ≠ .newline) :
    (trees = [] ∧ skipBreaks tokens = closer :: rest) ∨
      ∃ name position others, skipBreaks tokens = ⟨.word name, position⟩ :: others ∧
        name ∉ reserved := by
  cases derives with
  | emptyBody breaks => exact .inl ⟨rfl, breaks.skipBreaks_of_ne closes⟩
  | statements breaks first _ _ =>
      obtain ⟨name, position, others, rfl, free⟩ := statement_front first
      exact .inr ⟨name, position, others, breaks.skipBreaks_eq, free⟩

theorem block_front {trees : List Stmt} {tokens rest : List Token}
    (derives : Derives (.block trees) tokens rest) : ¬ AtConnective tokens := by
  cases derives with
  | block breaks _ => cases breaks <;> exact id

/-- No `else` stands where a body goes on, whether with a semicolon or without. -/
theorem separator_front {others : List Stmt} {closer : Token} {next after rest : List Token}
    (separator : Optional .semicolon next after)
    (derives : Derives (.body others) after (closer :: rest))
    (closes : closer.lexeme = .rightBrace ∨ closer.lexeme = .semicolon) : ¬ AtElse next := by
  rintro ⟨position, afterElse, found⟩
  cases separator with
  | present breaks =>
      rw [breaks.skipBreaks_of_ne (by simp)] at found
      cases found
  | absent =>
      have differs : closer.lexeme ≠ .newline ∧ closer.lexeme ≠ .word "else" := by
        rcases closes with closes | closes <;> simp [closes]
      rcases body_front derives differs.1 with ⟨-, front⟩ | ⟨name, place, words, front, free⟩
      · rw [front] at found
        cases found
        exact differs.2 rfl
      · rw [front] at found
        cases found
        exact free (by decide)

/-- Skipping the semicolon after a statement leads to where the body goes on. -/
theorem skipSemicolon_of_separator {others : List Stmt} {closer : Token}
    {next after rest : List Token} (separator : Optional .semicolon next after)
    (derives : Derives (.body others) after (closer :: rest))
    (closes : closer.lexeme = .rightBrace) :
    skipBreaks (skipSemicolon (skipBreaks next)) = skipBreaks after := by
  cases separator with
  | present breaks => rw [breaks.skipBreaks_of_ne (by simp), skipSemicolon]
  | absent =>
      obtain ⟨lexeme, place⟩ := closer
      cases closes
      rcases body_front derives (by simp) with ⟨-, front⟩ | ⟨name, position, words, front, -⟩
      · rw [front]
        rfl
      · rw [front]
        rfl

/-- The parts of a statement that starts with `if`. -/
theorem choice_parts {tree : Stmt} {position : Position} {tokens rest : List Token}
    (derives : Derives (.statement tree) (⟨.word "if", position⟩ :: tokens) rest) :
    ∃ test yes no start afterTest afterYes, tree = .choice test yes no position.line ∧
      Breaks tokens start ∧ Derives (.condition test) start afterTest ∧
        Derives (.block yes) afterTest afterYes ∧ yes ≠ [] ∧ Derives (.other no) afterYes rest := by
  generalize equal : (⟨.word "if", position⟩ :: tokens : List Token) = whole at derives
  cases derives with
  | action action =>
      simp only [List.cons.injEq, Token.mk.injEq, Lexeme.word.injEq] at equal
      cases action <;> simp [Action.name] at equal
  | loop => simp at equal
  | choice breaks test yes filled no =>
      cases equal
      exact ⟨_, _, _, _, _, _, rfl, breaks, test, yes, filled, no⟩

/-! ## Statements -/

/-- The condition of a choice or loop is read up to its block. -/
theorem test_of_derives (stop : Nat) {test : Condition} {trees : List Stmt}
    {tokens start afterTest rest : List Token} (breaks : Breaks tokens start)
    (derives : Derives (.condition test) start afterTest)
    (block : Derives (.block trees) afterTest rest) :
    blockCondition stop (skipBreaks tokens) = .ok (test, afterTest) := by
  rw [breaks.skipBreaks_eq, derives.skipBreaks_eq trivial]
  exact blockCondition_of_derives derives (block_front block)

theorem statements_congr (fuel stop : Nat) (unclosed : GrammarFault) {tokens others : List Token}
    (same : skipBreaks tokens = skipBreaks others) :
    statements (fuel + 1) stop unclosed tokens = statements (fuel + 1) stop unclosed others := by
  rw [statements, statements, same]

/-- With some fuel, the readers of statements take what is derived. A choice without its other part
takes the line breaks after it as well. -/
structure StatementsRead (fuel stop : Nat) : Prop where
  statement : ∀ {tokens tree rest}, Derives (.statement tree) tokens rest → ¬ AtElse rest →
    tokens.length ≤ rest.length + fuel →
      ∃ next, statement fuel stop tokens = .ok (tree, next) ∧ skipBreaks next = skipBreaks rest
  choice : ∀ {position tokens tree rest},
    Derives (.statement tree) (⟨.word "if", position⟩ :: tokens) rest → ¬ AtElse rest →
      tokens.length ≤ rest.length + fuel →
        ∃ next, choice fuel stop position.line tokens = .ok (tree, next) ∧
          skipBreaks next = skipBreaks rest
  block : ∀ (owner) {tokens trees rest}, Derives (.block trees) tokens rest →
    (owner ≠ .elseBlock → trees ≠ []) → tokens.length ≤ rest.length + fuel →
      block fuel stop owner tokens = .ok (trees, rest)
  statements : ∀ (unclosed) {closed tokens trees rest},
    Derives (.body trees) tokens (⟨.rightBrace, closed⟩ :: rest) →
      tokens.length ≤ rest.length + fuel →
        statements fuel stop unclosed tokens = .ok (trees, rest)

namespace StatementsRead

variable {fuel stop : Nat} {tokens rest : List Token} {tree : Stmt} {trees : List Stmt}

theorem zero (stop : Nat) : StatementsRead 0 stop where
  statement := by
    intro tokens tree rest derives _ enough
    have shorter := derives.length_le
    simp only [Phrase.least] at shorter
    omega
  choice := by
    intro position tokens tree rest derives _ enough
    obtain ⟨_, _, _, start, afterTest, afterYes, -, breaks, test, yes, -, no⟩ :=
      choice_parts derives
    have first := breaks.length_le
    have second := test.length_le
    have third := yes.length_le
    have fourth := no.length_le
    simp only [Phrase.least] at second third fourth
    omega
  block := by
    intro owner tokens trees rest derives _ enough
    have shorter := derives.length_le
    simp only [Phrase.least] at shorter
    omega
  statements := by
    intro unclosed closed tokens trees rest derives enough
    have shorter := derives.length_le
    simp only [Phrase.least, List.length_cons] at shorter
    omega

theorem statement_succ (known : StatementsRead fuel stop)
    (derives : Derives (.statement tree) tokens rest) (free : ¬ AtElse rest)
    (enough : tokens.length ≤ rest.length + (fuel + 1)) :
    ∃ next, Parse.statement (fuel + 1) stop tokens = .ok (tree, next) ∧
      skipBreaks next = skipBreaks rest := by
  have whole := derives
  have notIf : "while" ≠ "if" := by decide
  cases derives with
  | action action position =>
      have other : action.name ≠ "if" ∧ action.name ≠ "while" := by cases action <;> decide
      exact ⟨rest, by simp [Parse.statement, skipBreaks, other], rfl⟩
  | loop breaks test body filled =>
      have shorter := breaks.length_le
      have shorterYet := test.length_le
      simp only [Phrase.least, List.length_cons] at shorterYet enough
      have readTest := test_of_derives stop breaks test body
      have readBody := known.block .whileBlock body (fun _ => filled) (by omega)
      refine ⟨rest, ?_, rfl⟩
      rw [Parse.statement]
      simp only [skipBreaks, readTest, readBody, ok_bind, if_neg notIf, if_true]
      rfl
  | choice =>
      simp only [List.length_cons] at enough
      simp only [Parse.statement, skipBreaks]
      exact known.choice whole free (by omega)

theorem choice_succ (known : StatementsRead fuel stop) {position : Position}
    (derives : Derives (.statement tree) (⟨.word "if", position⟩ :: tokens) rest)
    (free : ¬ AtElse rest) (enough : tokens.length ≤ rest.length + (fuel + 1)) :
    ∃ next, Parse.choice (fuel + 1) stop position.line tokens = .ok (tree, next) ∧
      skipBreaks next = skipBreaks rest := by
  obtain ⟨test, yes, no, start, afterTest, afterYes, rfl, breaks, testDerives, yesDerives,
    filled, noDerives⟩ := choice_parts derives
  have first := breaks.length_le
  have second := testDerives.length_le
  have third := yesDerives.length_le
  have fourth := noDerives.length_le
  simp only [Phrase.least] at second third fourth
  have readTest := test_of_derives stop breaks testDerives yesDerives
  have readYes := known.block .ifBlock yesDerives (fun _ => filled) (by omega)
  rw [Parse.choice]
  simp only [readTest, readYes, ok_bind]
  cases noDerives with
  | noOther =>
      refine ⟨skipBreaks rest, ?_, by simp⟩
      split
      · next found => exact (free ⟨_, _, found⟩).elim
      · rfl
  | otherBlock further other =>
      cases other with
      | @block _ opened _ _ inner _ braces body =>
          have fifth := further.length_le
          have sixth := braces.length_le
          simp only [List.length_cons] at fifth sixth
          have bare : Derives (.block _) (⟨.leftBrace, opened⟩ :: inner) rest :=
            .block (.none _) body
          have readNo := known.block .elseBlock bare (by simp)
            (by simp only [List.length_cons]; omega)
          refine ⟨rest, ?_, rfl⟩
          simp only [further.skipBreaks_of_ne (by simp), braces.skipBreaks_of_ne (by simp), readNo,
            ok_bind]
          rfl
  | otherChoice further start nested =>
      have fifth := further.length_le
      have sixth := start.length_le
      simp only [List.length_cons] at fifth sixth
      obtain ⟨next, readNested, ending⟩ := known.choice nested free (by omega)
      refine ⟨next, ?_, ending⟩
      simp only [further.skipBreaks_of_ne (by simp), start.skipBreaks_of_ne (by simp), readNested,
        ok_bind]
      rfl

theorem block_succ (known : StatementsRead fuel stop) (owner : BlockOwner)
    (derives : Derives (.block trees) tokens rest) (filled : owner ≠ .elseBlock → trees ≠ [])
    (enough : tokens.length ≤ rest.length + (fuel + 1)) :
    Parse.block (fuel + 1) stop owner tokens = .ok (trees, rest) := by
  cases derives with
  | @block _ opened _ _ inner _ breaks body =>
      have shorter := breaks.length_le
      simp only [List.length_cons] at shorter
      have read := known.statements ⟨.unclosedBlock opened.line, opened.line⟩ body (by omega)
      have permitted : (trees.isEmpty && owner != .elseBlock) = false := by
        cases owner <;> simp_all
      simp only [Parse.block, breaks.skipBreaks_of_ne (by simp), read, ok_bind, permitted]
      rfl

theorem statements_succ (known : StatementsRead fuel stop) (unclosed : GrammarFault)
    {closed : Position} (derives : Derives (.body trees) tokens (⟨.rightBrace, closed⟩ :: rest))
    (enough : tokens.length ≤ rest.length + (fuel + 1)) :
    Parse.statements (fuel + 1) stop unclosed tokens = .ok (trees, rest) := by
  cases derives with
  | emptyBody breaks => simp only [Parse.statements, breaks.skipBreaks_of_ne (by simp)]
  | statements breaks first separator body =>
      have one := breaks.length_le
      have two := first.length_le
      have three := separator.length_le
      have four := body.length_le
      simp only [Phrase.least, List.length_cons] at two four
      have elseless := separator_front separator body (.inl rfl)
      obtain ⟨next, readFirst, same⟩ := known.statement first elseless (by omega)
      have readOthers := known.statements unclosed body (by omega)
      obtain ⟨name, position, words, rfl, free⟩ := statement_front first
      obtain ⟨less, rfl⟩ : ∃ less, fuel = less + 1 := ⟨fuel - 1, by omega⟩
      have ending := statements_congr less stop unclosed
        (skipSemicolon_of_separator separator body rfl)
      rw [Parse.statements]
      simp only [breaks.skipBreaks_of_ne (by simp), atDeclaration_of_free free, readFirst, ok_bind,
        same, ending, readOthers]
      rfl

theorem all (fuel stop : Nat) : StatementsRead fuel stop := by
  induction fuel with
  | zero => exact zero stop
  | succ fuel known =>
      exact ⟨known.statement_succ, known.choice_succ, fun owner => known.block_succ owner,
        fun unclosed => known.statements_succ unclosed⟩

end StatementsRead

/-! ## Programs of the older form -/

theorem olderBody_congr (fuel stop : Nat) (name : String) (line : Nat)
    {tokens others : List Token} (same : skipBreaks tokens = skipBreaks others) :
    olderBody (fuel + 1) stop name line tokens = olderBody (fuel + 1) stop name line others := by
  rw [olderBody, olderBody, same]

/-- A body that a semicolon closes is read up to that semicolon, if a declaration or the end
follows. The induction is on the statements: a semicolon after one of them separates it from the
next, or from the closing semicolon, exactly if more of the body follows. -/
theorem olderBody_of_derives (stop : Nat) (name : String) (line : Nat) {closed : Position}
    {trees : List Stmt} {tokens rest : List Token}
    (derives : Derives (.body trees) tokens (⟨.semicolon, closed⟩ :: rest))
    (declares : atDeclaration (skipBreaks rest) = true) {fuel : Nat}
    (enough : tokens.length ≤ rest.length + fuel) :
    ∃ next, olderBody fuel stop name line tokens = .ok (trees, next) ∧
      skipBreaks next = skipBreaks rest := by
  induction trees generalizing tokens fuel with
  | nil =>
      have shorter := derives.length_le
      simp only [Phrase.least, List.length_cons] at shorter
      obtain ⟨less, rfl⟩ : ∃ less, fuel = less + 1 := ⟨fuel - 1, by omega⟩
      cases derives with
      | emptyBody breaks =>
          exact ⟨rest, by simp only [olderBody, breaks.skipBreaks_of_ne (by simp)], rfl⟩
  | cons first others ih =>
      cases derives with
      | @statements _ _ _ start next after _ breaks first separator body =>
          have one := breaks.length_le
          have two := first.length_le
          have three := separator.length_le
          have four := body.length_le
          simp only [Phrase.least, List.length_cons] at two four
          obtain ⟨less, rfl⟩ : ∃ less, fuel = less + 2 := ⟨fuel - 2, by omega⟩
          have bound : after.length ≤ rest.length + (less + 1) := by omega
          obtain ⟨last, readOthers, ending⟩ := ih body bound
          have again : olderBody (less + 1) stop name line (skipBreaks after) =
              .ok (others, last) :=
            (olderBody_congr less stop name line (by simp)).trans readOthers
          obtain ⟨afterFirst, readFirst, same⟩ :=
            (StatementsRead.all (statementFuel start) stop).statement first
              (separator_front separator body (.inr rfl)) (by simp only [statementFuel]; omega)
          obtain ⟨word, position, words, rfl, free⟩ := statement_front first
          rw [olderBody]
          simp only [breaks.skipBreaks_of_ne (by simp), atDeclaration_of_free free, readFirst,
            ok_bind, same]
          rcases body_front body (by simp) with ⟨rfl, front⟩ | ⟨_, _, _, front, unreserved⟩
          · rw [front] at again
            cases separator with
            | absent =>
                refine ⟨skipBreaks rest, ?_, by simp⟩
                simp only [front, declares]
                rfl
            | present semicolon =>
                refine ⟨last, ?_, ending⟩
                simp only [semicolon.skipBreaks_of_ne (by simp), front, again, ok_bind]
                rfl
          · rw [front] at again
            refine ⟨last, ?_, ending⟩
            cases separator with
            | absent =>
                simp only [front, again, ok_bind]
                rfl
            | present semicolon =>
                simp only [semicolon.skipBreaks_of_ne (by simp), front, again, ok_bind,
                  atDeclaration_of_free unreserved]
                rfl

/-! ## Files -/

/-- Whether a declaration or the end stands at the front, after line breaks. -/
theorem declarations_front {trees : List Declaration} {position : Position}
    {tokens rest : List Token}
    (derives : Derives (.declarations trees) tokens (⟨.word "active", position⟩ :: rest)) :
    atDeclaration (skipBreaks tokens) = true := by
  cases derives with
  | noDeclarations breaks =>
      rw [breaks.skipBreaks_of_ne (by simp)]
      rfl
  | declarations breaks _ _ =>
      rw [breaks.skipBreaks_of_ne (by simp)]
      rfl

theorem skipSemicolon_of_declares {tokens rest : List Token}
    (separator : Optional .semicolon tokens rest)
    (declares : atDeclaration (skipBreaks rest) = true) :
    skipBreaks (skipSemicolon (skipBreaks tokens)) = skipBreaks rest := by
  cases separator with
  | present breaks => rw [breaks.skipBreaks_of_ne (by simp), skipSemicolon]
  | absent =>
      unfold skipSemicolon
      split
      · next semicolon =>
          rw [semicolon] at declares
          cases declares
      · exact skipBreaks_skipBreaks tokens

theorem declaration_of_derives (stop line : Nat) {tree : Declaration} {tokens rest : List Token}
    (derives : Derives (.declaration tree) tokens rest)
    (declares : atDeclaration (skipBreaks rest) = true) :
    ∃ next, declaration stop line tokens = .ok (tree, next) ∧
      skipBreaks next = skipBreaks rest := by
  cases derives with
  | @braces name _ _ _ _ _ inner after _ breaks body separator =>
      have shorter := body.length_le
      simp only [Phrase.least, List.length_cons] at shorter
      have read := (StatementsRead.all (statementFuel inner) stop).statements
        ⟨.unclosedProgram name, line⟩ body (by simp only [statementFuel]; omega)
      refine ⟨skipSemicolon (skipBreaks after), ?_, skipSemicolon_of_declares separator declares⟩
      simp only [declaration, breaks.skipBreaks_of_ne (by simp), read, ok_bind]
      rfl
  | @older name _ _ _ _ _ inner _ breaks body =>
      have bound : inner.length ≤ rest.length + (inner.length + 1) := by omega
      obtain ⟨next, read, ending⟩ := olderBody_of_derives stop name line body declares bound
      refine ⟨next, ?_, ending⟩
      simp only [declaration, breaks.skipBreaks_of_ne (by simp), read, ok_bind]
      rfl

theorem declarations_congr (fuel stop : Nat) {tokens others : List Token}
    (same : skipBreaks tokens = skipBreaks others) :
    declarations (fuel + 1) stop tokens = declarations (fuel + 1) stop others := by
  rw [declarations, declarations, same]

theorem declarations_of_derives {stop : Nat} {position : Position} {trees : List Declaration}
    {tokens rest : List Token}
    (derives : Derives (.declarations trees) tokens (⟨.word "active", position⟩ :: rest))
    {fuel : Nat} (enough : tokens.length < fuel) :
    declarations fuel stop tokens = ⟨trees, .ok (⟨.word "active", position⟩ :: rest)⟩ := by
  induction trees generalizing tokens fuel with
  | nil =>
      obtain ⟨less, rfl⟩ : ∃ less, fuel = less + 1 := ⟨fuel - 1, by omega⟩
      cases derives with
      | noDeclarations breaks =>
          simp [declarations, breaks.skipBreaks_of_ne]
  | cons first others ih =>
      cases derives with
      | @declarations _ _ place _ start next _ breaks first further =>
          have shorter := breaks.length_le
          have shorterYet := first.length_le
          simp only [Phrase.least, List.length_cons] at shorter shorterYet
          obtain ⟨less, rfl⟩ : ∃ less, fuel = less + 2 := ⟨fuel - 2, by omega⟩
          obtain ⟨after, readFirst, same⟩ :=
            declaration_of_derives stop place.line first (declarations_front further)
          have readOthers := (declarations_congr less stop same).trans (ih further (by omega))
          rw [declarations]
          simp only [breaks.skipBreaks_of_ne (by simp), readFirst, readOthers]

theorem activeName_of_derives {stop : Nat} {name : String} {tokens rest : List Token}
    (derives : Derives (.active name) tokens rest) :
    activeName stop tokens = .ok (name, rest) := by
  cases derives with
  | active optional before after closes =>
      have closer := after.skipBreaks_of_ne (by rcases closes with rfl | rfl <;> simp)
      cases optional with
      | absent =>
          simp only [activeName, before.skipBreaks_of_ne (by simp), closer]
          rcases closes with rfl | rfl <;> rfl
      | present equals =>
          simp only [activeName, equals.skipBreaks_of_ne (by simp),
            before.skipBreaks_of_ne (by simp), closer]
          rcases closes with rfl | rfl <;> rfl

/-- What the readers return for a file that is derived, up to the choice of the active program. -/
theorem file_parts (stop : Nat) {trees : List Declaration} {active : String}
    {tokens : List Token} (derives : Derives (.file trees active) tokens []) :
    ∃ position afterActive next,
      declarations (tokens.length + 1) stop tokens =
        ⟨trees, .ok (⟨.word "active", position⟩ :: afterActive)⟩ ∧
      activeName stop afterActive = .ok (active, next) ∧ skipBreaks next = [] := by
  cases derives with
  | file declared named breaks =>
      exact ⟨_, _, _, declarations_of_derives declared (Nat.lt_succ_self _),
        activeName_of_derives named, breaks.skipBreaks_eq⟩

theorem file_of_derives {source : TokenList} {trees : List Declaration} {active : String}
    {program : List Stmt} (derives : Derives (.file trees active) source.tokens [])
    (chosen : lastBody? active trees = some program) :
    (file source).outcome = .ok ⟨trees, active, program⟩ := by
  obtain ⟨position, afterActive, next, declared, named, ended⟩ :=
    file_parts source.stop.line derives
  simp only [file, declared, ok_bind, afterDeclarations, named, chosen, ended]
  rfl

/-- A file has one tree. -/
theorem file_tree_unique {tokens : List Token} {first second : List Declaration}
    {firstActive secondActive : String} (one : Derives (.file first firstActive) tokens [])
    (other : Derives (.file second secondActive) tokens []) :
    first = second ∧ firstActive = secondActive := by
  obtain ⟨position, afterActive, next, declared, named, -⟩ := file_parts 0 one
  obtain ⟨place, otherActive, after, otherDeclared, otherNamed, -⟩ := file_parts 0 other
  rw [declared] at otherDeclared
  cases otherDeclared
  rw [named] at otherNamed
  cases otherNamed
  exact ⟨rfl, rfl⟩

/-- The body that counts for a name is that of the last declaration with this name. -/
theorem lastBody?_eq_some_iff {name : String} {declared : List Declaration} {body : List Stmt} :
    lastBody? name declared = some body ↔
      ∃ before after, declared = before ++ ⟨name, body⟩ :: after ∧
        ∀ later ∈ after, later.name ≠ name := by
  simp only [lastBody?, Option.map_eq_some_iff, List.find?_eq_some_iff_append, beq_iff_eq,
    Bool.not_eq_eq_eq_not, Bool.not_true, beq_eq_false_iff_ne]
  constructor
  · rintro ⟨⟨_, _⟩, ⟨rfl, after, before, split, others⟩, rfl⟩
    refine ⟨before.reverse, after.reverse, ?_, ?_⟩
    · rw [← List.reverse_reverse declared, split]
      simp
    · exact fun later among => others later (by simpa using among)
  · rintro ⟨before, after, rfl, others⟩
    refine ⟨⟨name, body⟩, ⟨rfl, after.reverse, before.reverse, by simp, ?_⟩, rfl⟩
    exact fun later among => others later (by simpa using among)

theorem exists_lastBody?_iff {name : String} {declared : List Declaration} :
    (∃ body, lastBody? name declared = some body) ↔
      ∃ declaration ∈ declared, declaration.name = name := by
  rw [← Option.isSome_iff_exists]
  simp [lastBody?]

/-- The reader of program files accepts exactly the files of the grammar that declare their active
program. No file has two trees, and the program that is returned is the body of the last declaration
that bears the active name. -/
theorem file_accepts_exactly_grammar (source : TokenList) :
    ((∃ result, (file source).outcome = .ok result) ↔
      ∃ declared active, Derives (.file declared active) source.tokens [] ∧
        ∃ declaration ∈ declared, declaration.name = active) ∧
    (∀ result, (file source).outcome = .ok result ↔
      Derives (.file result.declared result.active) source.tokens [] ∧
        ∃ before after, result.declared = before ++ ⟨result.active, result.program⟩ :: after ∧
          ∀ later ∈ after, later.name ≠ result.active) ∧
    ∀ declared active others name, Derives (.file declared active) source.tokens [] →
      Derives (.file others name) source.tokens [] → declared = others ∧ active = name := by
  have reads : ∀ result, (file source).outcome = .ok result ↔
      Derives (.file result.declared result.active) source.tokens [] ∧
        lastBody? result.active result.declared = some result.program := fun result =>
    ⟨derives_of_file, fun derives => file_of_derives derives.1 derives.2⟩
  refine ⟨⟨?_, ?_⟩, ?_, fun _ _ _ _ => file_tree_unique⟩
  · rintro ⟨result, read⟩
    have ⟨derives, chosen⟩ := (reads result).mp read
    exact ⟨_, _, derives, exists_lastBody?_iff.mp ⟨_, chosen⟩⟩
  · rintro ⟨declared, active, derives, among⟩
    obtain ⟨program, chosen⟩ := exists_lastBody?_iff.mpr among
    exact ⟨⟨declared, active, program⟩, file_of_derives derives chosen⟩
  · simpa only [lastBody?_eq_some_iff] using reads

end GridRobot.Parse
