import GridRobot.Proofs.Grammar.Rules

/-!
# What a derivation takes

The rules look at nothing beyond the text they derive. So the tokens that a derivation takes have
the same form in front of any other tokens, and what follows a phrase can be exchanged.

Up to the body of a program, the tokens that are taken are nested: every brace and parenthesis that
is opened among them is closed among them, and none of their words starts a declaration.
-/

namespace GridRobot.Grammar

/-- Whether a lexeme is no brace or parenthesis and no word that starts a declaration. -/
def Plain : Lexeme → Prop
  | .word text => text ≠ "program" ∧ text ≠ "active"
  | .leftBrace | .rightBrace | .leftParen | .rightParen => False
  | _ => True

/-- Tokens whose braces and parentheses are closed where they should be, and which have no word that
starts a declaration. -/
inductive Nested : List Token → Prop where
  | nil : Nested []
  | plain {token : Token} : Plain token.lexeme → Nested [token]
  | append {first second : List Token} : Nested first → Nested second → Nested (first ++ second)
  | braces {opened closed : Position} {inside : List Token} :
      Nested inside → Nested (⟨.leftBrace, opened⟩ :: (inside ++ [⟨.rightBrace, closed⟩]))
  | parentheses {opened closed : Position} {inside : List Token} :
      Nested inside → Nested (⟨.leftParen, opened⟩ :: (inside ++ [⟨.rightParen, closed⟩]))

theorem Nested.cons {token : Token} {rest : List Token} (plain : Plain token.lexeme)
    (nested : Nested rest) : Nested (token :: rest) :=
  .append (.plain plain) nested

/-! ## Line breaks -/

/-- Whether tokens are line breaks only. -/
def AllBreaks (gap : List Token) : Prop :=
  ∀ token ∈ gap, token.lexeme = .newline

theorem AllBreaks.nested {gap : List Token} (breaks : AllBreaks gap) : Nested gap := by
  induction gap with
  | nil => exact .nil
  | cons token rest ih =>
      obtain ⟨newline, others⟩ := List.forall_mem_cons.mp breaks
      apply Nested.cons _ (ih others)
      rw [newline]
      exact trivial

theorem AllBreaks.breaks {gap : List Token} (newlines : AllBreaks gap) (rest : List Token) :
    Breaks (gap ++ rest) rest := by
  induction gap with
  | nil => exact .none rest
  | cons token others ih =>
      obtain ⟨lexeme, position⟩ := token
      obtain ⟨newline, further⟩ := List.forall_mem_cons.mp newlines
      cases newline
      exact .more (ih further)

theorem Breaks.takes {tokens rest : List Token} (breaks : Breaks tokens rest) :
    ∃ gap, tokens = gap ++ rest ∧ AllBreaks gap := by
  induction breaks with
  | none rest => exact ⟨[], rfl, List.forall_mem_nil _⟩
  | @more position tokens rest _ ih =>
      obtain ⟨gap, rfl, newlines⟩ := ih
      exact ⟨⟨.newline, position⟩ :: gap, rfl, List.forall_mem_cons.mpr ⟨rfl, newlines⟩⟩

/-- A lexeme that may be left out may be left out or not in front of any other tokens. -/
theorem Optional.takes {lexeme : Lexeme} {tokens rest : List Token}
    (optional : Optional lexeme tokens rest) :
    ∃ taken, tokens = taken ++ rest ∧ (∀ other, Optional lexeme (taken ++ other) other) ∧
      (Plain lexeme → Nested taken) := by
  cases optional with
  | absent => exact ⟨[], rfl, .absent, fun _ => .nil⟩
  | @present position _ _ breaks =>
      obtain ⟨gap, rfl, newlines⟩ := breaks.takes
      refine ⟨gap ++ [⟨lexeme, position⟩], by simp, ?_, ?_⟩
      · intro other
        rw [List.append_assoc]
        exact .present (newlines.breaks _)
      · intro plain
        exact newlines.nested.append (.plain plain)

/-! ## Phrases -/

/-- Whether a phrase stands inside the body of a program. -/
def Phrase.Inner : Phrase → Prop
  | .operand _ | .conjunction _ | .condition _ | .statement _ => True
  | .other _ | .block _ | .body _ => True
  | .declaration _ | .declarations _ | .active _ | .file _ _ => False

/-- `Takes phrase taken` says that tokens have the form of a phrase inside a body, whatever follows
them. -/
structure Takes (phrase : Phrase) (taken : List Token) : Prop where
  derives : ∀ rest, Derives phrase (taken ++ rest) rest
  nested : Nested taken

namespace Takes

section Conditions

variable {left right inner : Condition} {taken first second : List Token}

theorem sensor (sensor : Sensor) (position : Position) :
    Takes (.operand (.atom sensor.name)) [⟨.word sensor.name, position⟩] where
  derives rest := .sensor sensor position rest
  nested := .plain (by cases sensor <;> exact ⟨by decide, by decide⟩)

theorem negation (operand : Takes (.operand inner) taken) (position : Position) :
    Takes (.operand (.not inner)) (⟨.not, position⟩ :: taken) where
  derives rest := .negation (operand.derives rest)
  nested := .cons trivial operand.nested

theorem parentheses (condition : Takes (.condition inner) taken) (opened closed : Position) :
    Takes (.operand inner) (⟨.leftParen, opened⟩ :: (taken ++ [⟨.rightParen, closed⟩])) where
  derives rest := by
    rw [List.cons_append, List.append_assoc]
    exact .parentheses (condition.derives _)
  nested := .parentheses condition.nested

theorem and (conjunction : Takes (.conjunction left) first) (position : Position)
    (operand : Takes (.operand right) second) :
    Takes (.conjunction (.and left right)) (first ++ ⟨.and, position⟩ :: second) where
  derives rest := by
    rw [List.append_assoc]
    exact .and (conjunction.derives _) (operand.derives rest)
  nested := conjunction.nested.append (.cons trivial operand.nested)

theorem or (condition : Takes (.condition left) first) (position : Position)
    (conjunction : Takes (.conjunction right) second) :
    Takes (.condition (.or left right)) (first ++ ⟨.or, position⟩ :: second) where
  derives rest := by
    rw [List.append_assoc]
    exact .or (condition.derives _) (conjunction.derives rest)
  nested := condition.nested.append (.cons trivial conjunction.nested)

end Conditions

section Statements

variable {condition : Condition} {body yes : List Stmt} {no : Option (List Stmt)}
variable {gap tested inside after : List Token}

theorem plain_keyword {word : String} (keyword : word ∈ ["if", "while", "else"]) :
    Plain (.word word) := by
  simp only [List.mem_cons, List.not_mem_nil, or_false] at keyword
  rcases keyword with rfl | rfl | rfl <;> exact ⟨by decide, by decide⟩

theorem action (action : Action) (position : Position) :
    Takes (.statement (.action action.name position.line)) [⟨.word action.name, position⟩] where
  derives rest := .action action position rest
  nested := .plain (by cases action <;> exact ⟨by decide, by decide⟩)

theorem loop (position : Position) (newlines : AllBreaks gap)
    (test : Takes (.condition condition) tested) (block : Takes (.block body) inside)
    (filled : body ≠ []) :
    Takes (.statement (.loop condition body position.line))
      (⟨.word "while", position⟩ :: (gap ++ (tested ++ inside))) where
  derives rest := by
    rw [List.cons_append, List.append_assoc, List.append_assoc]
    exact .loop (newlines.breaks _) (test.derives _) (block.derives rest) filled
  nested := by
    apply Nested.cons (plain_keyword (by simp))
    apply newlines.nested.append
    exact test.nested.append block.nested

theorem choice (position : Position) (newlines : AllBreaks gap)
    (test : Takes (.condition condition) tested) (block : Takes (.block yes) inside)
    (filled : yes ≠ []) (other : Takes (.other no) after) :
    Takes (.statement (.choice condition yes no position.line))
      (⟨.word "if", position⟩ :: (gap ++ (tested ++ (inside ++ after)))) where
  derives rest := by
    rw [List.cons_append, List.append_assoc, List.append_assoc, List.append_assoc]
    exact .choice (newlines.breaks _) (test.derives _) (block.derives _) filled
      (other.derives rest)
  nested := by
    apply Nested.cons (plain_keyword (by simp))
    apply newlines.nested.append
    apply test.nested.append
    exact block.nested.append other.nested

theorem otherBlock (newlines : AllBreaks gap) (position : Position)
    (block : Takes (.block body) inside) :
    Takes (.other (some body)) (gap ++ ⟨.word "else", position⟩ :: inside) where
  derives rest := by
    rw [List.append_assoc]
    exact .otherBlock (newlines.breaks _) (block.derives rest)
  nested := by
    apply newlines.nested.append
    exact .cons (plain_keyword (by simp)) block.nested

theorem otherChoice {statement : Stmt} {space : List Token} (newlines : AllBreaks gap)
    (position : Position) (moreNewlines : AllBreaks space) {place : Position}
    (choice : Takes (.statement statement) (⟨.word "if", place⟩ :: inside)) :
    Takes (.other (some [statement]))
      (gap ++ ⟨.word "else", position⟩ :: (space ++ ⟨.word "if", place⟩ :: inside)) where
  derives rest := by
    simp only [List.append_assoc, List.cons_append]
    exact .otherChoice (newlines.breaks _) (moreNewlines.breaks _) (choice.derives rest)
  nested := by
    apply newlines.nested.append
    apply Nested.cons (plain_keyword (by simp))
    exact moreNewlines.nested.append choice.nested

theorem block (newlines : AllBreaks gap) (opened closed : Position)
    (body : Takes (.body yes) inside) :
    Takes (.block yes) (gap ++ ⟨.leftBrace, opened⟩ :: (inside ++ [⟨.rightBrace, closed⟩])) where
  derives rest := by
    rw [List.append_assoc, List.cons_append, List.append_assoc]
    exact .block (newlines.breaks _) (body.derives _)
  nested := newlines.nested.append (.braces body.nested)

theorem emptyBody (newlines : AllBreaks gap) : Takes (.body []) gap where
  derives rest := .emptyBody (newlines.breaks rest)
  nested := newlines.nested

theorem statements {first : Stmt} {others : List Stmt} {start separator : List Token}
    (newlines : AllBreaks gap) (statement : Takes (.statement first) start)
    (separates : ∀ rest, Optional .semicolon (separator ++ rest) rest)
    (separatorNested : Nested separator) (further : Takes (.body others) after) :
    Takes (.body (first :: others)) (gap ++ (start ++ (separator ++ after))) where
  derives rest := by
    rw [List.append_assoc, List.append_assoc, List.append_assoc]
    exact .statements (newlines.breaks _) (statement.derives _) (separates _)
      (further.derives rest)
  nested := by
    apply newlines.nested.append
    apply statement.nested.append
    exact separatorNested.append further.nested

end Statements

end Takes

/-- What a derivation inside a body takes has the same form in front of any other tokens. -/
theorem Derives.takes {phrase : Phrase} {tokens rest : List Token}
    (derives : Derives phrase tokens rest) (inner : phrase.Inner) :
    ∃ taken, tokens = taken ++ rest ∧ Takes phrase taken := by
  induction derives with
  | sensor sensor position => exact ⟨_, rfl, .sensor sensor position⟩
  | @negation _ position _ _ _ ih =>
      obtain ⟨taken, rfl, operand⟩ := ih trivial
      exact ⟨_, rfl, operand.negation position⟩
  | @parentheses _ opened closed _ _ _ ih =>
      obtain ⟨taken, rfl, condition⟩ := ih trivial
      exact ⟨_, by simp, condition.parentheses opened closed⟩
  | singleOperand _ ih =>
      obtain ⟨taken, rfl, operand⟩ := ih trivial
      exact ⟨taken, rfl, fun other => .singleOperand (operand.derives other), operand.nested⟩
  | singleConjunction _ ih =>
      obtain ⟨taken, rfl, conjunction⟩ := ih trivial
      exact ⟨taken, rfl, fun other => .singleConjunction (conjunction.derives other),
        conjunction.nested⟩
  | @and _ _ position _ _ _ _ _ leftIH rightIH =>
      obtain ⟨first, rfl, conjunction⟩ := leftIH trivial
      obtain ⟨second, rfl, operand⟩ := rightIH trivial
      exact ⟨_, by simp, conjunction.and position operand⟩
  | @or _ _ position _ _ _ _ _ leftIH rightIH =>
      obtain ⟨first, rfl, condition⟩ := leftIH trivial
      obtain ⟨second, rfl, conjunction⟩ := rightIH trivial
      exact ⟨_, by simp, condition.or position conjunction⟩
  | action action position => exact ⟨_, rfl, .action action position⟩
  | @loop _ _ position _ _ _ _ breaks _ _ filled testIH bodyIH =>
      obtain ⟨gap, rfl, newlines⟩ := breaks.takes
      obtain ⟨tested, rfl, test⟩ := testIH trivial
      obtain ⟨inside, rfl, block⟩ := bodyIH trivial
      exact ⟨_, by simp, .loop position newlines test block filled⟩
  | @choice _ _ _ position _ _ _ _ _ breaks _ _ filled _ testIH yesIH noIH =>
      obtain ⟨gap, rfl, newlines⟩ := breaks.takes
      obtain ⟨tested, rfl, test⟩ := testIH trivial
      obtain ⟨inside, rfl, block⟩ := yesIH trivial
      obtain ⟨after, rfl, other⟩ := noIH trivial
      exact ⟨_, by simp, .choice position newlines test block filled other⟩
  | noOther rest => exact ⟨[], rfl, .noOther, .nil⟩
  | @otherBlock _ position _ _ _ breaks _ ih =>
      obtain ⟨gap, rfl, newlines⟩ := breaks.takes
      obtain ⟨inside, rfl, block⟩ := ih trivial
      exact ⟨_, by simp, .otherBlock newlines position block⟩
  | @otherChoice _ position _ _ _ _ _ first second derives ih =>
      obtain ⟨gap, rfl, newlines⟩ := first.takes
      obtain ⟨space, rfl, moreNewlines⟩ := second.takes
      obtain ⟨taken, split, choice⟩ := ih trivial
      -- A statement takes at least one token, so the text it takes starts with the keyword.
      cases taken with
      | nil =>
          have shorter := derives.length_le
          rw [split] at shorter
          exact absurd shorter (by simp [Phrase.least])
      | cons token taken =>
          obtain ⟨rfl, rfl⟩ := List.cons.inj split
          exact ⟨_, by simp, .otherChoice newlines position moreNewlines choice⟩
  | @block _ opened closed _ _ _ breaks _ ih =>
      obtain ⟨gap, rfl, newlines⟩ := breaks.takes
      obtain ⟨inside, rfl, body⟩ := ih trivial
      exact ⟨_, by simp, .block newlines opened closed body⟩
  | emptyBody breaks =>
      obtain ⟨gap, rfl, newlines⟩ := breaks.takes
      exact ⟨gap, rfl, .emptyBody newlines⟩
  | statements breaks _ optional _ firstIH othersIH =>
      obtain ⟨gap, rfl, newlines⟩ := breaks.takes
      obtain ⟨start, rfl, statement⟩ := firstIH trivial
      obtain ⟨separator, rfl, separates, nested⟩ := optional.takes
      obtain ⟨after, rfl, further⟩ := othersIH trivial
      exact ⟨_, by simp, .statements newlines statement separates (nested trivial) further⟩
  | _ => exact inner.elim

/-- What a declaration takes declares the same in front of any other tokens. -/
theorem Derives.declaration_takes {tree : Declaration} {tokens rest : List Token}
    (derives : Derives (.declaration tree) tokens rest) :
    ∃ taken, tokens = taken ++ rest ∧
      ∀ other, Derives (.declaration tree) (taken ++ other) other := by
  cases derives with
  | @braces name _ position opened closed _ _ _ _ breaks body optional =>
      obtain ⟨gap, rfl, newlines⟩ := breaks.takes
      obtain ⟨inside, rfl, takes⟩ := body.takes trivial
      obtain ⟨separator, rfl, separates, -⟩ := optional.takes
      refine ⟨⟨.word name, position⟩ :: (gap ++ ⟨.leftBrace, opened⟩ ::
        (inside ++ ⟨.rightBrace, closed⟩ :: separator)), by simp, fun other => ?_⟩
      simp only [List.cons_append, List.append_assoc]
      exact .braces (newlines.breaks _) (takes.derives _) (separates other)
  | @older name _ position opened closed _ _ _ breaks body =>
      obtain ⟨gap, rfl, newlines⟩ := breaks.takes
      obtain ⟨inside, rfl, takes⟩ := body.takes trivial
      refine ⟨⟨.word name, position⟩ :: (gap ++ ⟨.assign, opened⟩ ::
        (inside ++ [⟨.semicolon, closed⟩])), by simp, fun other => ?_⟩
      simp only [List.cons_append, List.append_assoc]
      exact .older (newlines.breaks _) (takes.derives _)

end GridRobot.Grammar
