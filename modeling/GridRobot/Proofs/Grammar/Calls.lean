import GridRobot.Proofs.Grammar.Sound

/-!
# The calls of readers

The readers of program text call one another and themselves, and each turn of a loop is a call too.
`Call.Makes` says which calls a call makes, and on which tokens.

Reading never moves anywhere but forward. A call is made on tokens that are left of those of its
caller, and unless a token has been taken, it is a call of a reader of lower rank.
-/

namespace GridRobot.Parse

open Grammar

/-! ## What is left of the tokens -/

/-- `Leaves tokens rest` says that the rest is what is left of the tokens after at least one of them
was taken. -/
structure Leaves (tokens rest : List Token) : Prop where
  suffix : rest <:+ tokens
  less : rest.length < tokens.length

namespace Leaves

variable {tokens start middle rest : List Token}

theorem cons {token : Token} (suffix : rest <:+ tokens) : Leaves (token :: tokens) rest :=
  ⟨suffix.trans (List.suffix_cons _ _), Nat.lt_succ_of_le suffix.length_le⟩

theorem of_suffix (suffix : start <:+ tokens) (leaves : Leaves start rest) : Leaves tokens rest :=
  ⟨leaves.suffix.trans suffix, Nat.lt_of_lt_of_le leaves.less suffix.length_le⟩

theorem trans (leaves : Leaves tokens middle) (suffix : rest <:+ middle) : Leaves tokens rest :=
  ⟨suffix.trans leaves.suffix, Nat.lt_of_le_of_lt suffix.length_le leaves.less⟩

theorem of_derives {phrase : Phrase} (derives : Derives phrase tokens rest)
    (least : phrase.least = 1) : Leaves tokens rest := by
  have shorter := derives.length_le
  rw [least] at shorter
  exact ⟨derives.suffix, shorter⟩

end Leaves

theorem skipBreaks_suffix (tokens : List Token) : skipBreaks tokens <:+ tokens :=
  (Breaks.skip tokens).suffix

theorem skipSemicolon_suffix (tokens : List Token) : skipSemicolon tokens <:+ tokens := by
  unfold skipSemicolon
  split
  · exact List.suffix_cons _ _
  · exact List.suffix_refl _

theorem leaves_of_skipBreaks {tokens rest : List Token} {token : Token}
    (front : skipBreaks tokens = token :: rest) : Leaves tokens rest := by
  apply Leaves.of_suffix (skipBreaks_suffix tokens)
  rw [front]
  exact .cons (List.suffix_refl rest)

/-- What is made of a result was made of something read. -/
theorem ok_of_map_ok {α β : Type} {read : Read α} {image : α → β} {result : β}
    (mapped : read.map image = .ok result) : ∃ part, read = .ok part ∧ image part = result := by
  cases read with
  | error fault => cases mapped
  | ok part =>
      cases mapped
      exact ⟨part, rfl, rfl⟩

section Readers

variable {fuel stop : Nat} {closer : Closer} {tokens next : List Token}

theorem leaves_of_operand {tree : Condition}
    (read : operand fuel stop closer tokens = .ok (tree, next)) : Leaves tokens next :=
  .of_derives ((ConditionsDerive.all fuel stop).operand read) rfl

theorem suffix_of_connectives {left : Option Condition} {last tree : Condition}
    (read : connectives fuel stop closer left last tokens = .ok (tree, next)) :
    next <:+ tokens := by
  induction fuel generalizing left last tokens with
  | zero => simp [connectives, failAt] at read
  | succ fuel ih =>
      unfold connectives at read
      dsimp only at read
      split at read
      · obtain ⟨⟨right, rest⟩, readRight, readOthers⟩ := ok_of_bind_ok read
        have taken := (leaves_of_operand readRight).trans (ih readOthers)
        exact taken.suffix.trans (List.suffix_cons _ _)
      · obtain ⟨⟨right, rest⟩, readRight, readOthers⟩ := ok_of_bind_ok read
        have taken := (leaves_of_operand readRight).trans (ih readOthers)
        exact taken.suffix.trans (List.suffix_cons _ _)
      · cases read
        exact List.suffix_refl _

theorem leaves_of_condition {tree : Condition}
    (read : condition fuel stop closer tokens = .ok (tree, next)) : Leaves tokens next :=
  .of_derives ((ConditionsDerive.all fuel stop).condition read) rfl

theorem leaves_of_statement {tree : Stmt}
    (read : statement fuel stop tokens = .ok (tree, next)) : Leaves tokens next := by
  obtain ⟨start, rest, before, derives, behind⟩ := (StatementsDerive.all fuel stop).statement read
  exact (Leaves.of_suffix before.suffix (.of_derives derives rfl)).trans behind.suffix

theorem leaves_of_block {owner : BlockOwner} {trees : List Stmt}
    (read : block fuel stop owner tokens = .ok (trees, next)) : Leaves tokens next :=
  .of_derives ((StatementsDerive.all fuel stop).block read).1 rfl

theorem leaves_of_statements {unclosed : GrammarFault} {trees : List Stmt}
    (read : statements fuel stop unclosed tokens = .ok (trees, next)) : Leaves tokens next := by
  obtain ⟨closed, derives⟩ := (StatementsDerive.all fuel stop).statements read
  exact Leaves.of_suffix derives.suffix (.cons (List.suffix_refl next))

/-- A choice is read after its keyword, so what it leaves is left of the tokens behind that. -/
theorem suffix_of_choice {line : Nat} {tree : Stmt}
    (read : choice fuel stop line tokens = .ok (tree, next)) : next <:+ tokens := by
  change choice fuel stop (Position.mk line 1).line tokens = .ok (tree, next) at read
  obtain ⟨rest, derives, behind⟩ := (StatementsDerive.all fuel stop).choice read
  have leaves := (Leaves.of_derives derives rfl).trans behind.suffix
  rcases List.suffix_cons_iff.mp leaves.suffix with whole | suffix
  · have less := leaves.less
    rw [whole] at less
    exact (Nat.lt_irrefl _ less).elim
  · exact suffix

theorem leaves_of_olderBody {name : String} {line : Nat} {trees : List Stmt}
    (read : olderBody fuel stop name line tokens = .ok (trees, next)) : Leaves tokens next := by
  obtain ⟨closed, rest, derives, behind⟩ := derives_of_olderBody read
  exact (Leaves.of_suffix derives.suffix (.cons (List.suffix_refl rest))).trans behind.suffix

theorem leaves_of_declaration {line : Nat} {tree : Declaration}
    (read : declaration stop line tokens = .ok (tree, next)) : Leaves tokens next := by
  obtain ⟨rest, derives, behind⟩ := derives_of_declaration read
  exact (Leaves.of_derives derives rfl).trans behind.suffix

end Readers

/-! ## Calls -/

/-- What is closed by the brace after a body: a program or a block, opened on some line. -/
inductive Opening where
  | program (name : String) (line : Nat)
  | block (line : Nat)

/-- The fault of a body that is not closed. -/
def Opening.unclosed : Opening → GrammarFault
  | .program name line => ⟨.unclosedProgram name, line⟩
  | .block line => ⟨.unclosedBlock line, line⟩

/-- A reader with what it is given, except for the tokens and their end. -/
inductive Reader where
  | operand (fuel : Nat) (closer : Closer)
  | connectives (fuel : Nat) (closer : Closer) (left : Option Condition) (last : Condition)
  | condition (fuel : Nat) (closer : Closer)
  | statement (fuel : Nat)
  | choice (fuel line : Nat)
  | block (fuel : Nat) (owner : BlockOwner)
  | statements (fuel : Nat) (opening : Opening)
  | olderBody (fuel : Nat) (name : String) (line : Nat)
  | declaration (line : Nat)
  | declarations (fuel : Nat)
  | activeName
  | afterDeclarations (declared : List Declaration)
  | file

/-- A call of a reader on the tokens that are left. -/
structure Call where
  reader : Reader
  tokens : List Token

namespace Call

/-- The tokens that a call leaves, unless it meets a fault. A file is read to its end. -/
def read (stop : Position) (call : Call) : Read (List Token) :=
  let tokens := call.tokens
  match call.reader with
  | .operand fuel closer => (operand fuel stop.line closer tokens).map Prod.snd
  | .connectives fuel closer left last =>
      (connectives fuel stop.line closer left last tokens).map Prod.snd
  | .condition fuel closer => (condition fuel stop.line closer tokens).map Prod.snd
  | .statement fuel => (statement fuel stop.line tokens).map Prod.snd
  | .choice fuel line => (choice fuel stop.line line tokens).map Prod.snd
  | .block fuel owner => (block fuel stop.line owner tokens).map Prod.snd
  | .statements fuel opening => (statements fuel stop.line opening.unclosed tokens).map Prod.snd
  | .olderBody fuel name line => (olderBody fuel stop.line name line tokens).map Prod.snd
  | .declaration line => (declaration stop.line line tokens).map Prod.snd
  | .declarations fuel => (declarations fuel stop.line tokens).rest
  | .activeName => (activeName stop.line tokens).map Prod.snd
  | .afterDeclarations declared =>
      (afterDeclarations stop.line declared tokens).map fun _ => []
  | .file => (file ⟨tokens, stop⟩).outcome.map fun _ => []

/-- `call.Makes stop inner` says that a call makes another one. The next turn of a loop is a call of
the same reader. -/
inductive Makes (stop : Position) : Call → Call → Prop where
  -- Operands, and the loop over connectives and further operands.
  | negated {fuel : Nat} {closer : Closer} {position : Position} {rest : List Token} :
      Makes stop ⟨.operand (fuel + 1) closer, ⟨.not, position⟩ :: rest⟩
        ⟨.operand fuel closer, rest⟩
  | enclosed {fuel : Nat} {closer : Closer} {position : Position} {rest : List Token} :
      Makes stop ⟨.operand (fuel + 1) closer, ⟨.leftParen, position⟩ :: rest⟩
        ⟨.condition fuel .paren, rest⟩
  | firstOperand {fuel : Nat} {closer : Closer} {tokens : List Token} :
      Makes stop ⟨.condition (fuel + 1) closer, tokens⟩ ⟨.operand fuel closer, tokens⟩
  | afterFirst {fuel : Nat} {closer : Closer} {first : Condition} {tokens next : List Token} :
      operand fuel stop.line closer tokens = .ok (first, next) →
        Makes stop ⟨.condition (fuel + 1) closer, tokens⟩
          ⟨.connectives fuel closer none first, next⟩
  | conjunct {fuel : Nat} {closer : Closer} {left : Option Condition} {last : Condition}
      {position : Position} {rest : List Token} :
      Makes stop ⟨.connectives (fuel + 1) closer left last, ⟨.and, position⟩ :: rest⟩
        ⟨.operand fuel closer, rest⟩
  | afterConjunct {fuel : Nat} {closer : Closer} {left : Option Condition}
      {last right : Condition} {position : Position} {rest next : List Token} :
      operand fuel stop.line closer rest = .ok (right, next) →
        Makes stop ⟨.connectives (fuel + 1) closer left last, ⟨.and, position⟩ :: rest⟩
          ⟨.connectives fuel closer left (.and last right), next⟩
  | alternative {fuel : Nat} {closer : Closer} {left : Option Condition} {last : Condition}
      {position : Position} {rest : List Token} :
      Makes stop ⟨.connectives (fuel + 1) closer left last, ⟨.or, position⟩ :: rest⟩
        ⟨.operand fuel closer, rest⟩
  | afterAlternative {fuel : Nat} {closer : Closer} {left : Option Condition}
      {last right : Condition} {position : Position} {rest next : List Token} :
      operand fuel stop.line closer rest = .ok (right, next) →
        Makes stop ⟨.connectives (fuel + 1) closer left last, ⟨.or, position⟩ :: rest⟩
          ⟨.connectives fuel closer (some (joinOr left last)) right, next⟩
  -- Statements.
  | ifWord {fuel : Nat} {position : Position} {tokens rest : List Token} :
      skipBreaks tokens = ⟨.word "if", position⟩ :: rest →
        Makes stop ⟨.statement (fuel + 1), tokens⟩ ⟨.choice fuel position.line, rest⟩
  | whileTest {fuel : Nat} {position : Position} {tokens rest : List Token} :
      skipBreaks tokens = ⟨.word "while", position⟩ :: rest →
        Makes stop ⟨.statement (fuel + 1), tokens⟩
          ⟨.condition (conditionFuel (skipBreaks rest)) .brace, skipBreaks rest⟩
  | whileBlock {fuel : Nat} {position : Position} {test : Condition}
      {tokens rest afterTest : List Token} :
      skipBreaks tokens = ⟨.word "while", position⟩ :: rest →
        blockCondition stop.line (skipBreaks rest) = .ok (test, afterTest) →
          Makes stop ⟨.statement (fuel + 1), tokens⟩ ⟨.block fuel .whileBlock, afterTest⟩
  | ifTest {fuel line : Nat} {tokens : List Token} :
      Makes stop ⟨.choice (fuel + 1) line, tokens⟩
        ⟨.condition (conditionFuel (skipBreaks tokens)) .brace, skipBreaks tokens⟩
  | ifBlock {fuel line : Nat} {test : Condition} {tokens afterTest : List Token} :
      blockCondition stop.line (skipBreaks tokens) = .ok (test, afterTest) →
        Makes stop ⟨.choice (fuel + 1) line, tokens⟩ ⟨.block fuel .ifBlock, afterTest⟩
  | elseIf {fuel line : Nat} {test : Condition} {yes : List Stmt} {position place : Position}
      {tokens afterTest afterYes afterElse rest : List Token} :
      blockCondition stop.line (skipBreaks tokens) = .ok (test, afterTest) →
        block fuel stop.line .ifBlock afterTest = .ok (yes, afterYes) →
          skipBreaks afterYes = ⟨.word "else", position⟩ :: afterElse →
            skipBreaks afterElse = ⟨.word "if", place⟩ :: rest →
              Makes stop ⟨.choice (fuel + 1) line, tokens⟩ ⟨.choice fuel place.line, rest⟩
  | elseBlock {fuel line : Nat} {test : Condition} {yes : List Stmt} {position : Position}
      {tokens afterTest afterYes afterElse : List Token} :
      blockCondition stop.line (skipBreaks tokens) = .ok (test, afterTest) →
        block fuel stop.line .ifBlock afterTest = .ok (yes, afterYes) →
          skipBreaks afterYes = ⟨.word "else", position⟩ :: afterElse →
            found (skipBreaks afterElse) ≠ some (.word "if") →
              Makes stop ⟨.choice (fuel + 1) line, tokens⟩
                ⟨.block fuel .elseBlock, skipBreaks afterElse⟩
  | body {fuel : Nat} {owner : BlockOwner} {position : Position} {tokens rest : List Token} :
      skipBreaks tokens = ⟨.leftBrace, position⟩ :: rest →
        Makes stop ⟨.block (fuel + 1) owner, tokens⟩
          ⟨.statements fuel (.block position.line), rest⟩
  -- The loop over the statements of a body.
  | bodyStatement {fuel : Nat} {opening : Opening} {tokens : List Token} :
      found (skipBreaks tokens) ≠ some .rightBrace → atDeclaration (skipBreaks tokens) = false →
        Makes stop ⟨.statements (fuel + 1) opening, tokens⟩ ⟨.statement fuel, skipBreaks tokens⟩
  | bodyRest {fuel : Nat} {opening : Opening} {first : Stmt} {tokens next : List Token} :
      statement fuel stop.line (skipBreaks tokens) = .ok (first, next) →
        Makes stop ⟨.statements (fuel + 1) opening, tokens⟩
          ⟨.statements fuel opening, skipSemicolon (skipBreaks next)⟩
  -- The loop over the statements of a body in the older form.
  | olderStatement {fuel : Nat} {name : String} {line : Nat} {tokens : List Token} :
      found (skipBreaks tokens) ≠ some .semicolon → atDeclaration (skipBreaks tokens) = false →
        Makes stop ⟨.olderBody (fuel + 1) name line, tokens⟩
          ⟨.statement (statementFuel (skipBreaks tokens)), skipBreaks tokens⟩
  | olderSeparated {fuel : Nat} {name : String} {line : Nat} {first : Stmt} {position : Position}
      {tokens next afterSemicolon : List Token} :
      statement (statementFuel (skipBreaks tokens)) stop.line (skipBreaks tokens) =
          .ok (first, next) →
        skipBreaks next = ⟨.semicolon, position⟩ :: afterSemicolon →
          atDeclaration (skipBreaks afterSemicolon) = false →
            Makes stop ⟨.olderBody (fuel + 1) name line, tokens⟩
              ⟨.olderBody fuel name line, skipBreaks afterSemicolon⟩
  | olderRest {fuel : Nat} {name : String} {line : Nat} {first : Stmt}
      {tokens next : List Token} :
      statement (statementFuel (skipBreaks tokens)) stop.line (skipBreaks tokens) =
          .ok (first, next) →
        found (skipBreaks next) ≠ some .semicolon →
          Makes stop ⟨.olderBody (fuel + 1) name line, tokens⟩
            ⟨.olderBody fuel name line, skipBreaks next⟩
  -- Files, and the loop over their declarations.
  | braces {line : Nat} {name : String} {position opened : Position}
      {afterName rest : List Token} :
      skipBreaks afterName = ⟨.leftBrace, opened⟩ :: rest →
        Makes stop ⟨.declaration line, ⟨.word name, position⟩ :: afterName⟩
          ⟨.statements (statementFuel rest) (.program name line), rest⟩
  | older {line : Nat} {name : String} {position opened : Position}
      {afterName rest : List Token} :
      skipBreaks afterName = ⟨.assign, opened⟩ :: rest →
        Makes stop ⟨.declaration line, ⟨.word name, position⟩ :: afterName⟩
          ⟨.olderBody (rest.length + 1) name line, rest⟩
  | firstDeclaration {fuel : Nat} {position : Position} {tokens rest : List Token} :
      skipBreaks tokens = ⟨.word "program", position⟩ :: rest →
        Makes stop ⟨.declarations (fuel + 1), tokens⟩ ⟨.declaration position.line, rest⟩
  | otherDeclarations {fuel : Nat} {first : Declaration} {position : Position}
      {tokens rest next : List Token} :
      skipBreaks tokens = ⟨.word "program", position⟩ :: rest →
        declaration stop.line position.line rest = .ok (first, next) →
          Makes stop ⟨.declarations (fuel + 1), tokens⟩ ⟨.declarations fuel, next⟩
  | fileDeclarations {tokens : List Token} :
      Makes stop ⟨.file, tokens⟩ ⟨.declarations (tokens.length + 1), tokens⟩
  | fileEnding {tokens rest : List Token} :
      (declarations (tokens.length + 1) stop.line tokens).rest = .ok rest →
        Makes stop ⟨.file, tokens⟩ ⟨.afterDeclarations
          (declarations (tokens.length + 1) stop.line tokens).complete, rest⟩
  | named {declared : List Declaration} {position : Position} {rest : List Token} :
      Makes stop ⟨.afterDeclarations declared, ⟨.word "active", position⟩ :: rest⟩
        ⟨.activeName, rest⟩

end Call

/-! ## Calls go forward -/

/-- The rank of a reader. A call that is made before a token was taken is one of a reader of lower
rank. -/
def Reader.rank : Reader → Nat
  | .operand .. | .connectives .. | .activeName => 0
  | .condition .. => 1
  | .statement .. | .choice .. | .block .. => 2
  | .statements .. | .olderBody .. => 3
  | .declaration .. | .declarations .. | .afterDeclarations .. => 4
  | .file => 5

theorem Reader.rank_le (reader : Reader) : reader.rank ≤ 5 := by
  cases reader <;> simp [rank]

namespace Call

/-- A bound for the depth of the calls that are made by a call. -/
def weight (call : Call) : Nat :=
  6 * call.tokens.length + call.reader.rank

variable {stop : Position} {call inner last : Call} {depth : Nat}

/-- `call.Forward inner` says that tokens have been taken between two calls, or else that the second
is one of a reader of lower rank. -/
inductive Forward (call inner : Call) : Prop where
  | taken : Leaves call.tokens inner.tokens → call.Forward inner
  | lower : inner.tokens <:+ call.tokens → inner.reader.rank < call.reader.rank →
      call.Forward inner

theorem Forward.suffix (forward : call.Forward inner) : inner.tokens <:+ call.tokens := by
  cases forward with
  | taken leaves => exact leaves.suffix
  | lower suffix => exact suffix

theorem Forward.length_cases (forward : call.Forward inner) :
    inner.tokens.length < call.tokens.length ∨
      inner.tokens.length ≤ call.tokens.length ∧ inner.reader.rank < call.reader.rank := by
  cases forward with
  | taken leaves => exact .inl leaves.less
  | lower suffix less => exact .inr ⟨suffix.length_le, less⟩

theorem Forward.weight_lt (forward : call.Forward inner) : inner.weight < call.weight := by
  have lengths := forward.length_cases
  have bound := inner.reader.rank_le
  unfold weight
  omega

theorem Makes.forward (makes : call.Makes stop inner) : call.Forward inner := by
  cases makes with
  | negated | enclosed | conjunct | alternative | named =>
      exact .taken (.cons (List.suffix_refl _))
  | afterConjunct read | afterAlternative read =>
      exact .taken (.cons (leaves_of_operand read).suffix)
  | afterFirst read => exact .taken (leaves_of_operand read)
  | firstOperand | fileDeclarations => exact .lower (List.suffix_refl _) (by simp [Reader.rank])
  | ifTest => exact .lower (skipBreaks_suffix _) (by simp [Reader.rank])
  | bodyStatement | olderStatement => exact .lower (skipBreaks_suffix _) (by simp [Reader.rank])
  | ifWord front | body front | firstDeclaration front =>
      exact .taken (leaves_of_skipBreaks front)
  | whileTest front => exact .taken ((leaves_of_skipBreaks front).trans (skipBreaks_suffix _))
  | whileBlock front read =>
      have test := (leaves_of_condition read).suffix.trans (skipBreaks_suffix _)
      exact .taken ((leaves_of_skipBreaks front).trans test)
  | ifBlock read => exact .taken (.of_suffix (skipBreaks_suffix _) (leaves_of_condition read))
  | elseIf readTest readYes front next =>
      have test := Leaves.of_suffix (skipBreaks_suffix _) (leaves_of_condition readTest)
      have yes := test.trans (leaves_of_block readYes).suffix
      have other := (leaves_of_skipBreaks next).suffix.trans (leaves_of_skipBreaks front).suffix
      exact .taken (yes.trans other)
  | elseBlock readTest readYes front =>
      have test := Leaves.of_suffix (skipBreaks_suffix _) (leaves_of_condition readTest)
      have yes := test.trans (leaves_of_block readYes).suffix
      have other := (skipBreaks_suffix _).trans (leaves_of_skipBreaks front).suffix
      exact .taken (yes.trans other)
  | @bodyRest _ _ _ _ next read =>
      have first := Leaves.of_suffix (skipBreaks_suffix _) (leaves_of_statement read)
      have behind := (skipSemicolon_suffix _).trans (skipBreaks_suffix next)
      exact .taken (first.trans behind)
  | olderSeparated read front =>
      have first := Leaves.of_suffix (skipBreaks_suffix _) (leaves_of_statement read)
      have behind := (skipBreaks_suffix _).trans (leaves_of_skipBreaks front).suffix
      exact .taken (first.trans behind)
  | olderRest read =>
      have first := Leaves.of_suffix (skipBreaks_suffix _) (leaves_of_statement read)
      exact .taken (first.trans (skipBreaks_suffix _))
  | braces front | older front => exact .taken (.cons (leaves_of_skipBreaks front).suffix)
  | otherDeclarations front read =>
      exact .taken ((leaves_of_skipBreaks front).trans (leaves_of_declaration read).suffix)
  | fileEnding read => exact .lower (derives_of_declarations read).suffix (by simp [Reader.rank])

/-- What a call leaves is left of its tokens. -/
theorem read_suffix {rest : List Token} (read : call.read stop = .ok rest) :
    rest <:+ call.tokens := by
  obtain ⟨reader, tokens⟩ := call
  cases reader with
  | operand fuel closer =>
      obtain ⟨⟨tree, next⟩, reads, rfl⟩ := ok_of_map_ok read
      exact (leaves_of_operand reads).suffix
  | connectives fuel closer left last =>
      obtain ⟨⟨tree, next⟩, reads, rfl⟩ := ok_of_map_ok read
      exact suffix_of_connectives reads
  | condition fuel closer =>
      obtain ⟨⟨tree, next⟩, reads, rfl⟩ := ok_of_map_ok read
      exact (leaves_of_condition reads).suffix
  | statement fuel =>
      obtain ⟨⟨tree, next⟩, reads, rfl⟩ := ok_of_map_ok read
      exact (leaves_of_statement reads).suffix
  | choice fuel line =>
      obtain ⟨⟨tree, next⟩, reads, rfl⟩ := ok_of_map_ok read
      exact suffix_of_choice reads
  | block fuel owner =>
      obtain ⟨⟨trees, next⟩, reads, rfl⟩ := ok_of_map_ok read
      exact (leaves_of_block reads).suffix
  | statements fuel opening =>
      obtain ⟨⟨trees, next⟩, reads, rfl⟩ := ok_of_map_ok read
      exact (leaves_of_statements reads).suffix
  | olderBody fuel name line =>
      obtain ⟨⟨trees, next⟩, reads, rfl⟩ := ok_of_map_ok read
      exact (leaves_of_olderBody reads).suffix
  | declaration line =>
      obtain ⟨⟨tree, next⟩, reads, rfl⟩ := ok_of_map_ok read
      exact (leaves_of_declaration reads).suffix
  | declarations fuel => exact (derives_of_declarations read).suffix
  | activeName =>
      obtain ⟨⟨name, next⟩, reads, rfl⟩ := ok_of_map_ok read
      exact (derives_of_activeName reads).suffix
  | afterDeclarations declared =>
      obtain ⟨result, -, rfl⟩ := ok_of_map_ok read
      exact List.nil_suffix
  | file =>
      obtain ⟨result, -, rfl⟩ := ok_of_map_ok read
      exact List.nil_suffix

end Call

end GridRobot.Parse
