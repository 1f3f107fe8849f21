import GridRobot.Proofs.Dispatch
import GridRobot.Proofs.ProperSources
import GridRobot.Proofs.Segmentation

/-!
# The language of condition expressions

A condition expression is a chain of operands with a connective between any two of them, written
with blanks around its tokens wherever one likes. This says what the chains are and what they mean,
without a reader, and shows that exactly they are read. Whatever else is read has one of two faults,
and which of them it is depends on what comes first from the left.
-/

namespace GridRobot

/-! ## Chains -/

/-- What joins two conditions. -/
inductive Connective where
  | and
  | or
  deriving DecidableEq, Repr

/-- The condition that a connective makes of two conditions. -/
def Connective.join : Connective → Condition → Condition → Condition
  | .and => .and
  | .or => .or

/-- A condition, perhaps negated. -/
def Condition.signed (negated : Bool) (condition : Condition) : Condition :=
  if negated then .not condition else condition

/-- A sensor that is asked for, perhaps negated. -/
structure Operand where
  negated : Bool
  sensor : Sensor
  deriving DecidableEq, Repr

/-- The condition of an operand. -/
def Operand.condition (operand : Operand) : Condition :=
  .signed operand.negated (.atom operand.sensor.name)

/-- Operands with connectives between them. -/
structure Chain where
  first : Operand
  others : List (Connective × Operand)
  deriving DecidableEq, Repr

namespace Chain

/-- Extends a condition by one connective and operand. -/
def extend (left : Condition) (link : Connective × Operand) : Condition :=
  link.1.join left link.2.condition

/-- The condition of a chain whose connectives apply strictly from left to right. -/
def folded (chain : Chain) : Condition :=
  chain.others.foldl extend chain.first.condition

end Chain

/-! ## Tokens -/

/-- The token of a connective. -/
def Connective.token : Connective → Expression.Token
  | .and => .and
  | .or => .or

namespace Expression

/-- The lexeme that a token is. -/
def Token.lexeme : Token → Lexeme
  | .and => .and
  | .or => .or
  | .not => .not
  | .name text => .word text

/-- `Written text tokens` says that a text consists of the given tokens and of blanks, and that
names are as long as possible. -/
inductive Written : List Char → List Token → Prop where
  | stop : Written [] []
  | blank {char : Char} {text : List Char} {tokens : List Token} :
      Text.isBlank char = true → Written text tokens → Written (char :: text) tokens
  | token {token : Token} {rest : List Char} {tokens : List Token} :
      token.lexeme.EndsBefore rest → Written rest tokens →
        Written (token.lexeme.text.toList ++ rest) (token :: tokens)

/-- The tokens of a name, perhaps negated. -/
def term (negated : Bool) (name : String) : List Token :=
  if negated then [.not, .name name] else [.name name]

end Expression

/-- The tokens of an operand. -/
def Operand.tokens (operand : Operand) : List Expression.Token :=
  Expression.term operand.negated operand.sensor.name

namespace Chain

/-- The tokens of connectives with their operands. -/
def linkTokens (links : List (Connective × Operand)) : List Expression.Token :=
  links.flatMap fun (connective, operand) => connective.token :: operand.tokens

/-- The tokens of a chain. -/
def tokens (chain : Chain) : List Expression.Token :=
  chain.first.tokens ++ linkTokens chain.others

end Chain

/-- `Misnamed name tokens` says that a name which no sensor has stands in the place of an operand,
and that all before it are operands of sensors, each with a connective behind it. -/
inductive Expression.Misnamed (name : String) : List Token → Prop where
  | here (negated : Bool) (rest : List Token) :
      Sensor.ofName? name = none → Misnamed name (term negated name ++ rest)
  | later (operand : Operand) (connective : Connective) {rest : List Token} :
      Misnamed name rest → Misnamed name (operand.tokens ++ connective.token :: rest)

/-- Whether a text of a document is written with the given tokens. It has no lone half of a
surrogate pair then. -/
def Text.Writes (text : Text) (tokens : List Expression.Token) : Prop :=
  ∃ string : String, text = .ofString string ∧ Expression.Written string.toList tokens

/-- Whether a text of a document can be parted into tokens, and a name that no sensor has stands in
the place of an operand before anything else is wrong. -/
def Text.Misnames (text : Text) : Prop :=
  ∃ tokens name, text.Writes tokens ∧ Expression.Misnamed name tokens

/-! ## Cutting a text into tokens -/

namespace Expression

theorem token?_lexeme {token : Token} {rest : List Char} (ends : token.lexeme.EndsBefore rest) :
    token? (token.lexeme.text.toList ++ rest) =
      some (token, token.lexeme.text.toList.length) := by
  cases token with
  | and | or | not => rfl
  | name text =>
      obtain ⟨name, ends⟩ := ends
      obtain ⟨first, others, rfl, starts, parts⟩ := exists_of_isName name
      have cut := takeWhile_append_of_stops parts ends
      simp only [Token.lexeme, Lexeme.text, String.toList_ofList, List.cons_append]
      unfold token?
      split
      · next and =>
          rw [(List.cons.inj and).1] at starts
          exact absurd starts (by decide)
      · next or =>
          rw [(List.cons.inj or).1] at starts
          exact absurd starts (by decide)
      · next not =>
          rw [(List.cons.inj not).1] at starts
          exact absurd starts (by decide)
      · next equal =>
          cases equal
          simp [starts, cut]
      · next empty => cases empty

theorem lexeme_of_token? {text : List Char} {token : Token} {size : Nat}
    (found : token? text = some (token, size)) :
    ∃ rest, text = token.lexeme.text.toList ++ rest ∧ token.lexeme.EndsBefore rest ∧
      size = token.lexeme.text.toList.length := by
  unfold token? at found
  split at found
  · next rest =>
      cases found
      exact ⟨rest, rfl, trivial, rfl⟩
  · next rest =>
      cases found
      exact ⟨rest, rfl, trivial, rfl⟩
  · next rest =>
      cases found
      exact ⟨rest, rfl, trivial, rfl⟩
  · next char rest _ _ _ =>
      split at found
      · next starts =>
          cases found
          refine ⟨rest.dropWhile isNamePart, ?_, ⟨?_, fun _ => eq_false_of_mem_dropWhile⟩, ?_⟩
          · simp [Token.lexeme, Lexeme.text]
          · simp [isName, starts]
          · simp [Token.lexeme, Lexeme.text]
      · cases found
  · cases found

/-- A token starts with a character that is not blank. -/
theorem exists_cons_of_endsBefore {token : Token} {rest : List Char}
    (ends : token.lexeme.EndsBefore rest) :
    ∃ first others, token.lexeme.text.toList = first :: others ∧ Text.isBlank first = false := by
  cases token with
  | and | or | not => exact ⟨_, _, rfl, by decide⟩
  | name text =>
      obtain ⟨first, others, rfl, starts, -⟩ := exists_of_isName ends.1
      refine ⟨first, others, String.toList_ofList, ?_⟩
      rw [Bool.eq_false_iff]
      intro blank
      rw [Text.isNameStart_of_isBlank blank] at starts
      cases starts

theorem tokens?_skip (skipped text : List Char) :
    tokens? skipped.length (skipped ++ text) = tokens? 0 text := by
  induction skipped with
  | nil => rfl
  | cons char rest ih => exact ih

theorem tokens?_of_written {text : List Char} {tokens : List Token}
    (written : Written text tokens) : tokens? 0 text = some tokens := by
  induction written with
  | stop => rfl
  | blank blank _ ih => rw [tokens?, if_pos blank, ih]
  | @token token rest tokens ends _ ih =>
      have found := token?_lexeme ends
      obtain ⟨first, others, spelled, visible⟩ := exists_cons_of_endsBefore ends
      rw [spelled, List.cons_append] at found ⊢
      rw [tokens?, visible]
      simp only [found, List.length_cons, Nat.add_sub_cancel, tokens?_skip, ih]
      rfl

theorem written_of_tokens? {skip : Nat} {text : List Char} {tokens : List Token}
    (found : tokens? skip text = some tokens) : Written (text.drop skip) tokens := by
  fun_induction tokens? skip text generalizing tokens with
  | case1 skip =>
      cases found
      rw [List.drop_nil]
      exact .stop
  | case2 skip char rest ih => exact ih found
  | case3 char rest blank ih => exact .blank blank (ih found)
  | case4 char rest _ token size first ih =>
      obtain ⟨others, foundOthers, rfl⟩ := Option.map_eq_some_iff.mp found
      obtain ⟨behind, parted, ends, rfl⟩ := lexeme_of_token? first
      obtain ⟨_, tail, spelled, -⟩ := exists_cons_of_endsBefore ends
      have rest_eq : rest.drop (token.lexeme.text.toList.length - 1) = behind := by
        rw [spelled, List.cons_append] at parted
        rw [spelled, (List.cons.inj parted).2]
        simp
      rw [List.drop_zero, parted]
      exact .token ends (rest_eq ▸ ih foundOthers)
  | case5 => cases found

/-! ## Reading the tokens -/

theorem operand_unknown {name : String} (unknown : Sensor.ofName? name = none) :
    operand name = .error (.unknown name) := by
  simp [operand, unknown]

theorem extend_link (left : Condition) (connective : Connective) (negated : Bool) (name : String)
    (rest : List Token) :
    extend left (connective.token :: (term negated name ++ rest)) =
      operand name >>= fun atom => extend (connective.join left (.signed negated atom)) rest := by
  cases connective <;> cases negated <;> rfl

theorem fold_term (negated : Bool) (name : String) (rest : List Token) :
    fold (term negated name ++ rest) =
      operand name >>= fun atom => extend (.signed negated atom) rest := by
  cases negated <;> rfl

theorem extend_operand (left : Condition) (connective : Connective) (operand : Operand)
    (rest : List Token) :
    extend left (connective.token :: (operand.tokens ++ rest)) =
      extend (connective.join left operand.condition) rest := by
  rw [Operand.tokens, extend_link, Expression.operand, Sensor.ofName?_name]
  rfl

theorem fold_operand (operand : Operand) (rest : List Token) :
    fold (operand.tokens ++ rest) = extend operand.condition rest := by
  rw [Operand.tokens, fold_term, Expression.operand, Sensor.ofName?_name]
  rfl

/-- Induction on tokens by the connectives and names at their front. -/
@[elab_as_elim] theorem linkInduction {motive : List Token → Prop} (nil : motive [])
    (link : ∀ (connective : Connective) (negated : Bool) (name : String) (rest : List Token),
      motive rest → motive (connective.token :: (term negated name ++ rest)))
    (broken : ∀ tokens, (∀ left, extend left tokens = .error .malformed) → motive tokens)
    (tokens : List Token) : motive tokens := by
  fun_induction extend (.atom "") tokens with
  | case1 => exact nil
  | case2 _ name rest ih => exact link .and false name rest (ih (.atom ""))
  | case3 _ name rest ih => exact link .and true name rest (ih (.atom ""))
  | case4 _ name rest ih => exact link .or false name rest (ih (.atom ""))
  | case5 _ name rest ih => exact link .or true name rest (ih (.atom ""))
  | case6 tokens _ notNil noAnd noAndNot noOr noOrNot =>
      apply broken
      intro left
      rw [extend] <;> assumption

theorem extend_linkTokens (left : Condition) (links : List (Connective × Operand)) :
    extend left (Chain.linkTokens links) = .ok (links.foldl Chain.extend left) := by
  induction links generalizing left with
  | nil => rfl
  | cons link rest ih =>
      obtain ⟨connective, operand⟩ := link
      exact (extend_operand left connective operand _).trans (ih _)

theorem fold_tokens (chain : Chain) : fold chain.tokens = .ok chain.folded := by
  rw [Chain.tokens, fold_operand, extend_linkTokens]
  rfl

namespace Misnamed

variable {name : String} {tokens : List Token}

theorem extend_eq (misnamed : Misnamed name tokens) (left : Condition) (connective : Connective) :
    extend left (connective.token :: tokens) = .error (.unknown name) := by
  induction misnamed generalizing left connective with
  | here negated rest unknown =>
      rw [extend_link, operand_unknown unknown]
      rfl
  | later operand next _ ih =>
      rw [extend_operand]
      exact ih _ next

theorem fold_eq (misnamed : Misnamed name tokens) : fold tokens = .error (.unknown name) := by
  cases misnamed with
  | here negated rest unknown =>
      rw [fold_term, operand_unknown unknown]
      rfl
  | later operand connective further => rw [fold_operand, further.extend_eq]

end Misnamed

/-- What can follow an operand: connectives with their operands, a wrong name among them, or
tokens that are malformed whatever the condition on their left is. -/
theorem link_cases (tokens : List Token) :
    (∃ links, tokens = Chain.linkTokens links) ∨
      (∃ (connective : Connective) (rest : List Token) (name : String),
        tokens = connective.token :: rest ∧ Misnamed name rest) ∨
      ∀ left, extend left tokens = .error .malformed := by
  induction tokens using linkInduction with
  | nil => exact .inl ⟨[], rfl⟩
  | link connective negated name rest ih =>
      cases found : Sensor.ofName? name with
      | none => exact .inr (.inl ⟨connective, _, name, rfl, .here negated rest found⟩)
      | some sensor =>
          obtain rfl := Sensor.name_of_ofName? found
          rcases ih with ⟨links, rfl⟩ | ⟨next, behind, name, rfl, misnamed⟩ | malformed
          · exact .inl ⟨(connective, ⟨negated, sensor⟩) :: links, rfl⟩
          · exact .inr (.inl ⟨connective, _, name, rfl, .later ⟨negated, sensor⟩ next misnamed⟩)
          · right
            right
            intro left
            exact (extend_operand left connective ⟨negated, sensor⟩ rest).trans (malformed _)
  | broken tokens malformed => exact .inr (.inr malformed)

/-- Whether a fault lies in the form of an expression, and not in a name. -/
def Fault.OfForm (fault : Fault) : Prop :=
  fault = .malformed ∨ fault = .empty

/-- What tokens that start with a name can be. -/
theorem term_cases (negated : Bool) (name : String) (rest : List Token) :
    (∃ chain : Chain, term negated name ++ rest = chain.tokens) ∨
      (∃ other, Misnamed other (term negated name ++ rest)) ∨
      ∃ fault, fold (term negated name ++ rest) = .error fault ∧ fault.OfForm := by
  cases found : Sensor.ofName? name with
  | none => exact .inr (.inl ⟨name, .here negated rest found⟩)
  | some sensor =>
      obtain rfl := Sensor.name_of_ofName? found
      rcases link_cases rest with ⟨links, rfl⟩ | ⟨next, behind, other, rfl, misnamed⟩ | malformed
      · exact .inl ⟨⟨⟨negated, sensor⟩, links⟩, rfl⟩
      · exact .inr (.inl ⟨other, .later ⟨negated, sensor⟩ next misnamed⟩)
      · have read := (fold_operand ⟨negated, sensor⟩ rest).trans (malformed _)
        exact .inr (.inr ⟨_, read, .inl rfl⟩)

/-- Tokens are those of a chain, or have a wrong name in the place of an operand, or are faulty in
their form. -/
theorem chain_cases (tokens : List Token) :
    (∃ chain : Chain, tokens = chain.tokens) ∨ (∃ name, Misnamed name tokens) ∨
      ∃ fault, fold tokens = .error fault ∧ fault.OfForm := by
  fun_cases fold tokens with
  | case1 => exact .inr (.inr ⟨_, rfl, .inr rfl⟩)
  | case2 name rest => exact term_cases false name rest
  | case3 name rest => exact term_cases true name rest
  | case4 => exact .inr (.inr ⟨_, rfl, .inl rfl⟩)

end Expression

/-! ## Texts of documents -/

namespace Document

variable {text : Text} {tokens : List Expression.Token}

/-- What is read from a text with the given tokens. -/
theorem reading_of_writes (writes : text.Writes tokens) :
    (text.toString?.map Expression.read).getD (.error .malformed) = Expression.fold tokens := by
  obtain ⟨string, rfl, written⟩ := writes
  have cut := Expression.tokens?_of_written written
  simp only [Text.toString?_ofString, Option.map_some, Option.getD_some, Expression.read, cut]

/-- A text that cannot be parted into tokens is malformed. -/
theorem expression_of_not_writes (impossible : ∀ tokens, ¬ text.Writes tokens) :
    expression text = .error (.expressionMalformed (.str text)) := by
  unfold expression
  cases found : text.toString? with
  | none => rfl
  | some string =>
      cases cut : Expression.tokens? 0 string.toList with
      | none => simp only [Option.map_some, Option.getD_some, Expression.read, cut]
      | some tokens =>
          have written := Expression.written_of_tokens? cut
          have same := Text.ofString_of_toString? found
          exact (impossible tokens ⟨string, same.symm, written⟩).elim

theorem expression_of_chain {chain : Chain} (writes : text.Writes chain.tokens) :
    expression text = .ok chain.folded := by
  rw [expression, reading_of_writes writes, Expression.fold_tokens]

theorem expression_of_misnamed {name : String} (writes : text.Writes tokens)
    (misnamed : Expression.Misnamed name tokens) :
    expression text = .error (.unknownCondition (.str name) (.str text)) := by
  rw [expression, reading_of_writes writes, misnamed.fold_eq]

/-- A text writes a chain, or misnames a sensor, or is refused for its form. -/
theorem expression_cases (text : Text) :
    (∃ chain : Chain, text.Writes chain.tokens) ∨ text.Misnames ∨
      ∃ cause, expression text = .error cause ∧ cause.category = .schema ∧
        cause.code = "MALFORMED_CONDITION" := by
  by_cases possible : ∃ tokens, text.Writes tokens
  · obtain ⟨tokens, writes⟩ := possible
    rcases Expression.chain_cases tokens with ⟨chain, rfl⟩ | ⟨name, misnamed⟩ | ⟨_, read, form⟩
    · exact .inl ⟨chain, writes⟩
    · exact .inr (.inl ⟨tokens, name, writes, misnamed⟩)
    · right
      right
      rw [expression, reading_of_writes writes, read]
      rcases form with rfl | rfl
      · exact ⟨_, rfl, rfl, rfl⟩
      · exact ⟨_, rfl, rfl, rfl⟩
  · have malformed := expression_of_not_writes (not_exists.mp possible)
    exact .inr (.inr ⟨_, malformed, rfl, rfl⟩)

theorem expression_eq_ok_iff {condition : Condition} :
    expression text = .ok condition ↔
      ∃ chain : Chain, text.Writes chain.tokens ∧ chain.folded = condition := by
  constructor
  · intro read
    rcases expression_cases text with ⟨chain, writes⟩ | misnames | ⟨cause, refused, -⟩
    · rw [expression_of_chain writes] at read
      exact ⟨chain, writes, Except.ok.inj read⟩
    · obtain ⟨tokens, name, writes, misnamed⟩ := misnames
      rw [expression_of_misnamed writes misnamed] at read
      cases read
    · rw [refused] at read
      cases read
  · rintro ⟨chain, writes, rfl⟩
    exact expression_of_chain writes

theorem not_writes_of_error {cause : DocumentCause} (read : expression text = .error cause)
    (chain : Chain) : ¬ text.Writes chain.tokens := by
  intro writes
  rw [expression_of_chain writes] at read
  cases read

/-- A text that is refused for an unknown condition misnames a sensor. -/
theorem misnames_of_unknown {cause : DocumentCause} (read : expression text = .error cause)
    (code : cause.code = "UNKNOWN_CONDITION") : text.Misnames := by
  rcases expression_cases text with ⟨chain, writes⟩ | misnames | ⟨other, refused, -, form⟩
  · exact (not_writes_of_error read chain writes).elim
  · exact misnames
  · rw [refused] at read
    cases read
    rw [form] at code
    exact absurd code (by decide)

/-- A text that is refused as malformed misnames no sensor. -/
theorem not_misnames_of_malformed {cause : DocumentCause} (read : expression text = .error cause)
    (code : cause.code = "MALFORMED_CONDITION") : ¬ text.Misnames := by
  rintro ⟨tokens, name, writes, misnamed⟩
  rw [expression_of_misnamed writes misnamed] at read
  cases read
  simp [DocumentCause.code] at code

/-- A condition is read from exactly the texts that write a chain, and it is the chain folded from
left to right. Of the other texts, exactly those that misname a sensor before anything else is wrong
are refused for an unknown condition, and all others as malformed. -/
theorem expression_reads_exactly_chains (text : Text) :
    (∀ condition, expression text = .ok condition ↔
      ∃ chain : Chain, text.Writes chain.tokens ∧ chain.folded = condition) ∧
    ((∃ cause, expression text = .error cause ∧ cause.category = .schema ∧
      cause.code = "UNKNOWN_CONDITION") ↔ text.Misnames) ∧
    ((∃ cause, expression text = .error cause ∧ cause.category = .schema ∧
      cause.code = "MALFORMED_CONDITION") ↔
        (∀ chain : Chain, ¬ text.Writes chain.tokens) ∧ ¬ text.Misnames) := by
  refine ⟨fun _ => expression_eq_ok_iff, ?_, ?_⟩
  · constructor
    · rintro ⟨cause, read, -, code⟩
      exact misnames_of_unknown read code
    · rintro ⟨tokens, name, writes, misnamed⟩
      exact ⟨_, expression_of_misnamed writes misnamed, rfl, rfl⟩
  · constructor
    · rintro ⟨cause, read, -, code⟩
      exact ⟨not_writes_of_error read, not_misnames_of_malformed read code⟩
    · rintro ⟨noChain, named⟩
      rcases expression_cases text with ⟨chain, writes⟩ | misnames | refused
      · exact (noChain chain writes).elim
      · exact (named misnames).elim
      · exact refused

end Document

end GridRobot
