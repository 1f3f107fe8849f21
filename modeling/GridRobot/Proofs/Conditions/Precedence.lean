import Mathlib.Data.List.Induction
import GridRobot.Proofs.Conditions.Expressions
import GridRobot.Proofs.Forms.Text

/-!
# Precedence in program text and in expressions

A chain of operands can be written in program text and in a condition expression. Program text lets
`&&` bind stronger than `||`, while an expression applies its connectives from left to right. The
two readings of a chain are one condition exactly if no `&&` stands anywhere behind an `||`.
-/

namespace GridRobot

open Parse Grammar

/-! ## Chains as text -/

/-- An operand as text. The mark of a negation may be set apart from the name by a space. -/
def Operand.text (apart : Bool) (operand : Operand) : String :=
  if operand.negated then (if apart then "! " else "!") ++ operand.sensor.name
  else operand.sensor.name

namespace Chain

/-- Connectives with their operands as text, with a space before each connective and operand. -/
def linkText (apart : Bool) : List (Connective × Operand) → String
  | [] => ""
  | (connective, operand) :: rest =>
      " " ++ connective.token.lexeme.text ++ " " ++ operand.text apart ++ linkText apart rest

/-- A chain as text, with single spaces. -/
def text (apart : Bool) (chain : Chain) : String :=
  chain.first.text apart ++ linkText apart chain.others

/-- The condition of connectives and operands behind `last` when `&&` binds stronger than `||`, with
the alternatives that are complete in `left`. -/
def group (left : Option Condition) (last : Condition) : List (Connective × Operand) → Condition
  | [] => joinOr left last
  | (.and, operand) :: rest => group left (.and last operand.condition) rest
  | (.or, operand) :: rest => group (some (joinOr left last)) operand.condition rest

/-- The condition of a chain whose `&&` binds stronger than its `||`. -/
def grouped (chain : Chain) : Condition :=
  group none chain.first.condition chain.others

end Chain

/-! ## Where the two conditions agree -/

namespace Chain

theorem group_concat_or (left : Option Condition) (last : Condition)
    (links : List (Connective × Operand)) (operand : Operand) :
    group left last (links ++ [(.or, operand)]) =
      .or (group left last links) operand.condition := by
  fun_induction group left last links with
  | case1 left last => rfl
  | case2 left last _ rest ih => exact ih
  | case3 left last _ rest ih => exact ih

/-- A condition with an `||` anywhere in the chain has one at its root. -/
theorem group_eq_or (left : Option Condition) (last : Condition)
    (links : List (Connective × Operand))
    (parted : left.isSome ∨ Connective.or ∈ links.map Prod.fst) :
    ∃ first second, group left last links = .or first second := by
  fun_induction group left last links with
  | case1 left last =>
      cases left with
      | none => simp at parted
      | some before => exact ⟨before, last, rfl⟩
  | case2 left last operand rest ih =>
      apply ih
      simpa using parted
  | case3 left last operand rest ih => exact ih (.inl rfl)

theorem group_eq_foldl (last : Condition) (links : List (Connective × Operand))
    (conjunction : Connective.or ∉ links.map Prod.fst) :
    group none last links = links.foldl extend last := by
  induction links generalizing last with
  | nil => rfl
  | cons link rest ih =>
      obtain ⟨connective, operand⟩ := link
      simp only [List.map_cons, List.mem_cons, not_or] at conjunction
      cases connective with
      | and => exact ih _ conjunction.2
      | or => exact (conjunction.1 rfl).elim

/-- An `||` stands before some later `&&` if it did so before the last connective, or if the last
connective is that `&&`. -/
theorem orAnd_sublist_concat_iff (connectives : List Connective) (last : Connective) :
    [Connective.or, .and].Sublist (connectives ++ [last]) ↔
      [Connective.or, .and].Sublist connectives ∨ last = .and ∧ .or ∈ connectives := by
  rw [← List.reverse_sublist, List.reverse_append, List.reverse_singleton,
    List.singleton_append, List.sublist_cons_iff, List.reverse_sublist]
  simp only [List.reverse_cons, List.reverse_nil, List.nil_append, List.singleton_append,
    List.cons.injEq]
  apply or_congr_right
  constructor
  · rintro ⟨_, ⟨rfl, rfl⟩, among⟩
    exact ⟨rfl, List.mem_reverse.mp (List.singleton_sublist.mp among)⟩
  · rintro ⟨rfl, among⟩
    exact ⟨_, ⟨rfl, rfl⟩, List.singleton_sublist.mpr (List.mem_reverse.mpr among)⟩

/-- Both conditions of a chain are the same exactly if no `||` stands before some later `&&`. -/
theorem folded_eq_grouped_iff (chain : Chain) :
    chain.folded = chain.grouped ↔
      ¬ [Connective.or, .and].Sublist (chain.others.map Prod.fst) := by
  obtain ⟨first, links⟩ := chain
  simp only [folded, grouped]
  -- The last connective is the root of the folded condition, so links are taken off at the end.
  induction links using List.reverseRecOn with
  | nil => simp [group, joinOr]
  | append_singleton links link ih =>
      obtain ⟨connective, operand⟩ := link
      rw [List.map_append, List.map_singleton, orAnd_sublist_concat_iff]
      cases connective with
      | or =>
          rw [List.foldl_append, group_concat_or]
          simpa [extend, Connective.join] using ih
      | and =>
          by_cases parted : Connective.or ∈ links.map Prod.fst
          · have among : Connective.or ∈ (links ++ [(Connective.and, operand)]).map Prod.fst := by
              rw [List.map_append]
              exact List.mem_append_left _ parted
            obtain ⟨before, behind, root⟩ := group_eq_or none first.condition _ (.inr among)
            rw [List.foldl_append, root]
            simp [extend, Connective.join, parted]
          · have absent : Connective.or ∉ (links ++ [(Connective.and, operand)]).map Prod.fst := by
              simpa using parted
            rw [group_eq_foldl _ _ absent]
            have noPair : ¬ [Connective.or, .and].Sublist (links.map Prod.fst) := by
              intro pair
              exact parted (pair.subset List.mem_cons_self)
            simp [noPair, parted]

end Chain

/-! ## Spelling -/

/-- The lexemes of an operand. -/
def Operand.lexemes (operand : Operand) : List Lexeme :=
  operand.tokens.map Expression.Token.lexeme

namespace Chain

/-- The lexemes of connectives with their operands. -/
def linkLexemes (links : List (Connective × Operand)) : List Lexeme :=
  links.flatMap fun (connective, operand) => connective.token.lexeme :: operand.lexemes

/-- The lexemes of a chain. -/
def lexemes (chain : Chain) : List Lexeme :=
  chain.first.lexemes ++ linkLexemes chain.others

theorem map_lexeme_tokens (chain : Chain) :
    chain.tokens.map Expression.Token.lexeme = chain.lexemes := by
  simp [tokens, lexemes, linkTokens, linkLexemes, Operand.lexemes, List.map_flatMap]

end Chain

/-- Lexemes on one line of program text are tokens of an expression as well, if they are of the
kinds that expressions have. -/
theorem Expression.written_of_spells {text : List Char} {lexemes : List Lexeme}
    (spells : Spells text lexemes) {tokens : List Token}
    (same : tokens.map Token.lexeme = lexemes) : Written text tokens := by
  induction spells generalizing tokens with
  | nil =>
      obtain rfl := List.map_eq_nil_iff.mp same
      exact .stop
  | space _ ih =>
      have blank : Text.isBlank ' ' = true := by decide
      exact .blank blank (ih same)
  | mark lexeme mark _ ih =>
      obtain ⟨token, others, rfl, rfl, rest⟩ := List.map_eq_cons_iff.mp same
      apply Written.token _ (ih rest)
      cases token with
      | name => exact mark.elim
      | _ => exact trivial
  | @name string text lexemes name ends _ ih =>
      obtain ⟨token, others, rfl, word, rest⟩ := List.map_eq_cons_iff.mp same
      cases token with
      | name =>
          cases word
          exact @Written.token (.name string) text others ⟨name, ends⟩ (ih rest)
      | _ => cases word

theorem Operand.spells (apart : Bool) (operand : Operand) :
    SpellsBefore (operand.text apart).toList operand.lexemes := by
  intro text others ends spells
  obtain ⟨negated, sensor⟩ := operand
  have named := Spells.name sensor.isName_name ends spells
  cases negated with
  | false => exact named
  | true =>
      change Spells _ (.not :: .word sensor.name :: others)
      cases apart with
      | false =>
          have whole : Spells ('!' :: _) _ := .mark .not trivial named
          simpa [Operand.text] using whole
      | true =>
          have whole : Spells ('!' :: _) _ := .mark .not trivial (.space named)
          simpa [Operand.text] using whole

namespace Chain

theorem endsName_linkText (apart : Bool) (links : List (Connective × Operand)) :
    EndsName (linkText apart links).toList := by
  cases links with
  | nil => simp [linkText, EndsName]
  | cons link rest =>
      have spaced : ∃ text, (linkText apart (link :: rest)).toList = ' ' :: text := by
        simp [linkText]
      obtain ⟨text, spaced⟩ := spaced
      rw [spaced]
      exact endsName_cons text (by decide)

theorem spells_linkText (apart : Bool) (links : List (Connective × Operand)) :
    Spells (linkText apart links).toList (linkLexemes links) := by
  induction links with
  | nil => exact .nil
  | cons link rest ih =>
      obtain ⟨connective, operand⟩ := link
      have further := operand.spells apart (endsName_linkText apart rest) ih
      have joined : Spells (connective.token.lexeme.text.toList ++ _) _ :=
        .mark connective.token.lexeme (by cases connective <;> trivial) (.space further)
      simpa [linkText, linkLexemes] using Spells.space joined

theorem spells_text (apart : Bool) (chain : Chain) :
    Spells (chain.text apart).toList chain.lexemes := by
  have whole := chain.first.spells apart (endsName_linkText apart chain.others)
    (spells_linkText apart chain.others)
  simpa [text, lexemes] using whole

end Chain

/-! ## Deriving -/

theorem Operand.derives (operand : Operand) {tokens : List Token} {others : List Lexeme}
    (written : tokens.map Token.lexeme = operand.lexemes ++ others) :
    ∃ rest, Derives (.operand operand.condition) tokens rest ∧ rest.map Token.lexeme = others := by
  obtain ⟨negated, sensor⟩ := operand
  cases negated with
  | false =>
      obtain ⟨position, rest, rfl, tail⟩ := Token.map_eq_cons written
      exact ⟨rest, .sensor sensor position rest, tail⟩
  | true =>
      obtain ⟨mark, named, rfl, behind⟩ := Token.map_eq_cons written
      obtain ⟨position, rest, rfl, tail⟩ := Token.map_eq_cons behind
      exact ⟨rest, .negation (.sensor sensor position rest), tail⟩

namespace Chain

/-- Connectives with their operands go on with a condition as `group` says. -/
theorem derives_group {start tokens : List Token} {left : Option Condition} {last : Condition}
    {links : List (Connective × Operand)} {others : List Lexeme}
    (pending : Pending start left last tokens)
    (written : tokens.map Token.lexeme = linkLexemes links ++ others) :
    ∃ rest, Derives (.condition (group left last links)) start rest ∧
      rest.map Token.lexeme = others := by
  induction links generalizing left last tokens with
  | nil => exact ⟨tokens, pending.condition, written⟩
  | cons link links ih =>
      obtain ⟨connective, operand⟩ := link
      simp only [linkLexemes, List.flatMap_cons, List.cons_append, List.append_assoc] at written
      obtain ⟨position, middle, rfl, behind⟩ := Token.map_eq_cons written
      obtain ⟨next, derives, further⟩ := operand.derives behind
      cases connective with
      | and => exact ih (pending.conjoin derives) further
      | or => exact ih (pending.alternate derives) further

theorem derives_grouped (chain : Chain) {tokens : List Token}
    (written : tokens.map Token.lexeme = chain.lexemes) (rest : List Token) :
    Derives (.condition chain.grouped) (tokens ++ rest) rest := by
  have whole : (tokens ++ rest).map Token.lexeme =
      chain.first.lexemes ++ (linkLexemes chain.others ++ rest.map Token.lexeme) := by
    rw [List.map_append, written, lexemes, List.append_assoc]
  obtain ⟨next, first, behind⟩ := chain.first.derives whole
  have pending : Pending (tokens ++ rest) none chain.first.condition next := .singleOperand first
  obtain ⟨after, derives, same⟩ := derives_group pending behind
  rw [Token.eq_of_suffix derives.suffix same] at derives
  exact derives

/-! ## Nesting -/

section

variable {full : Nat → Nat → Bool} {opened : Nat}

theorem shallow_operand (room : full opened 0 = false) (roomNegated : full opened 1 = false)
    (operand : Operand) {others : List Lexeme} (shallow : Shallow full opened 0 others) :
    Shallow full opened 0 (operand.lexemes ++ others) := by
  obtain ⟨negated, sensor⟩ := operand
  cases negated with
  | false => exact ⟨room, shallow⟩
  | true => exact ⟨room, roomNegated, shallow⟩

theorem shallow_linkLexemes (room : full opened 0 = false) (roomNegated : full opened 1 = false)
    (links : List (Connective × Operand)) : Shallow full opened 0 (linkLexemes links) := by
  induction links with
  | nil => exact trivial
  | cons link rest ih =>
      obtain ⟨connective, operand⟩ := link
      have further := shallow_operand room roomNegated operand ih
      cases connective with
      | and => exact ⟨room, further⟩
      | or => exact ⟨room, further⟩

end

/-- A chain that is written with single spaces is read from program text and from an expression of a
document, whatever follows it in the program text as long as it is no connective, and on every stack
that still has room for a negation. The two conditions are the same exactly if no `||` stands before
some later `&&`. -/
theorem readings_agree_iff (chain : Chain) (apart : Bool) :
    ∃ list tree,
      Document.expression (chain.text apart) = .ok chain.folded ∧
      TokenList.ofText (chain.text apart) = .ok list ∧
      (∀ stop closer rest, ¬ AtConnective rest →
        condition (conditionFuel (list.tokens ++ rest)) stop closer (list.tokens ++ rest) =
          .ok (tree, rest)) ∧
      (∀ full opened, full opened 0 = false → full opened 1 = false →
        tooDeep? full opened 0 (list.tokens.map Token.lexeme) = none) ∧
      (chain.folded = tree ↔
        ¬ [Connective.or, .and].Sublist (chain.others.map Prod.fst)) := by
  have spells := chain.spells_text apart
  have writes : Text.Writes (chain.text apart) chain.tokens :=
    ⟨chain.text apart, rfl, Expression.written_of_spells spells chain.map_lexeme_tokens⟩
  obtain ⟨list, scanned, written, -⟩ := TokenList.cuts_of_spells spells {}
  refine ⟨list, chain.grouped, Document.expression_of_chain writes, scanned, ?_, ?_, ?_⟩
  · intro stop closer rest free
    exact condition_of_derives stop closer (chain.derives_grouped written rest) free
  · intro full opened room roomNegated
    rw [tooDeep?_eq_none_iff, written]
    have others := shallow_linkLexemes room roomNegated chain.others
    exact shallow_operand room roomNegated chain.first others
  · exact chain.folded_eq_grouped_iff

end Chain

end GridRobot
