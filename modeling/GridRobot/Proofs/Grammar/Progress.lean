import GridRobot.Proofs.Grammar.Calls

/-!
# Reading makes progress

Calls of readers cannot be nested for ever, whatever the tokens are, since every call goes forward,
and no turn of a loop leaves the tokens as they were.

Readers are given fuel, which bounds how deeply calls may be nested. It is enough for the tokens at
the start and stays enough with every call, so no reader ever runs out of it. Every fault of a file
is one that its tokens have.
-/

namespace GridRobot.Parse

/-! ## Fuel -/

/-- Whether a reader has run out of fuel. -/
def RunsOut {α : Type} (read : Read α) : Prop :=
  ∃ line, read = .error ⟨.nestedTooDeeply, line⟩

namespace RunsOut

variable {α β : Type}

theorem of_map {read : Read α} {image : α → β} (out : RunsOut (read.map image)) :
    RunsOut read := by
  cases read with
  | error fault =>
      obtain ⟨line, same⟩ := out
      cases same
      exact ⟨line, rfl⟩
  | ok result =>
      obtain ⟨line, same⟩ := out
      cases same

theorem map {read : Read α} (out : RunsOut read) (image : α → β) : RunsOut (read.map image) := by
  obtain ⟨line, rfl⟩ := out
  exact ⟨line, rfl⟩

/-- Reading in two parts runs out in the first or in the second. -/
theorem of_bind {first : Read α} {second : α → Read β} (out : RunsOut (first >>= second)) :
    RunsOut first ∨ ∃ part, first = .ok part ∧ RunsOut (second part) := by
  cases first with
  | error fault =>
      obtain ⟨line, same⟩ := out
      cases same
      exact .inl ⟨line, rfl⟩
  | ok part => exact .inr ⟨part, rfl, out⟩

theorem not_ok {result : α} : ¬ RunsOut (.ok result : Read α) := by
  rintro ⟨line, same⟩
  cases same

/-- Where the second part only returns, reading runs out in the first. -/
theorem of_bind_pure {first : Read α} {second : α → Read β} (out : RunsOut (first >>= second))
    (returns : ∀ part, ∃ result, second part = .ok result) : RunsOut first := by
  rcases out.of_bind with early | ⟨part, -, late⟩
  · exact early
  · obtain ⟨result, returned⟩ := returns part
    rw [returned] at late
    exact (not_ok late).elim

theorem cause_eq {fault : GrammarFault} (out : RunsOut (.error fault : Read α)) :
    fault.cause = .nestedTooDeeply := by
  obtain ⟨line, same⟩ := out
  cases same
  rfl

theorem failAt_eq {stop : Nat} {tokens : List Token} {cause : GrammarCause}
    (out : RunsOut (failAt stop tokens cause : Read α)) : cause = .nestedTooDeeply :=
  cause_eq out

end RunsOut

/-- The fuel that a reader is given, if it takes any. -/
def Reader.fuel? : Reader → Option Nat
  | .operand fuel _ | .connectives fuel _ _ _ | .condition fuel _ => some fuel
  | .statement fuel | .choice fuel _ | .block fuel _ | .statements fuel _ => some fuel
  | .olderBody fuel _ _ | .declarations fuel => some fuel
  | .declaration _ | .activeName | .afterDeclarations _ | .file => none

theorem found_ne {tokens : List Token} {lexeme : Lexeme}
    (other : ∀ position rest, tokens = ⟨lexeme, position⟩ :: rest → False) :
    found tokens ≠ some lexeme := by
  cases tokens with
  | nil => simp [found]
  | cons token rest =>
      intro same
      simp only [found, List.head?_cons, Option.map_some, Option.some.injEq] at same
      subst same
      exact other token.position rest rfl

namespace Call

variable {stop : Position} {call inner last : Call} {depth fuel line : Nat}
variable {tokens : List Token} {closer : Closer}

/-- Whether a call makes one that runs out of fuel. -/
def PassesOn (stop : Position) (call : Call) : Prop :=
  ∃ inner, call.Makes stop inner ∧ RunsOut (inner.read stop)

theorem passesOn_operand (out : RunsOut (operand (fuel + 1) stop.line closer tokens)) :
    PassesOn stop ⟨.operand (fuel + 1) closer, tokens⟩ := by
  unfold operand at out
  dsimp only at out
  split at out
  · have first := out.of_bind_pure fun _ => ⟨_, rfl⟩
    exact ⟨_, .negated, first.map _⟩
  · rcases out.of_bind with first | ⟨⟨inner, next⟩, -, second⟩
    · exact ⟨_, .enclosed, first.map _⟩
    · dsimp only at second
      split at second
      · exact (RunsOut.not_ok second).elim
      · cases second.failAt_eq
  · split at out
    · exact (RunsOut.not_ok out).elim
    · cases out.cause_eq
  · split at out <;> cases out.failAt_eq

theorem passesOn_connectives {left : Option Condition} {last : Condition}
    (out : RunsOut (connectives (fuel + 1) stop.line closer left last tokens)) :
    PassesOn stop ⟨.connectives (fuel + 1) closer left last, tokens⟩ := by
  unfold connectives at out
  dsimp only at out
  split at out
  · rcases out.of_bind with first | ⟨⟨right, next⟩, read, second⟩
    · exact ⟨_, .conjunct, first.map _⟩
    · exact ⟨_, .afterConjunct read, second.map _⟩
  · rcases out.of_bind with first | ⟨⟨right, next⟩, read, second⟩
    · exact ⟨_, .alternative, first.map _⟩
    · exact ⟨_, .afterAlternative read, second.map _⟩
  · exact (RunsOut.not_ok out).elim

theorem passesOn_condition (out : RunsOut (condition (fuel + 1) stop.line closer tokens)) :
    PassesOn stop ⟨.condition (fuel + 1) closer, tokens⟩ := by
  unfold condition at out
  rcases out.of_bind with first | ⟨⟨first, next⟩, read, second⟩
  · exact ⟨_, .firstOperand, first.map _⟩
  · exact ⟨_, .afterFirst read, second.map _⟩

theorem passesOn_statement (out : RunsOut (statement (fuel + 1) stop.line tokens)) :
    PassesOn stop ⟨.statement (fuel + 1), tokens⟩ := by
  unfold statement at out
  dsimp only at out
  split at out
  · next name position rest front =>
      split at out
      · next isIf =>
          subst isIf
          exact ⟨_, .ifWord front, out.map _⟩
      · split at out
        · next isWhile =>
            subst isWhile
            rcases out.of_bind with test | ⟨⟨test, afterTest⟩, readTest, later⟩
            · exact ⟨_, .whileTest front, test.map _⟩
            · have block := later.of_bind_pure fun _ => ⟨_, rfl⟩
              exact ⟨_, .whileBlock front readTest, block.map _⟩
        · split at out
          · exact (RunsOut.not_ok out).elim
          · cases out.cause_eq
  · cases out.failAt_eq

theorem passesOn_choice (out : RunsOut (choice (fuel + 1) stop.line line tokens)) :
    PassesOn stop ⟨.choice (fuel + 1) line, tokens⟩ := by
  unfold choice at out
  dsimp only at out
  rcases out.of_bind with test | ⟨⟨test, afterTest⟩, readTest, later⟩
  · exact ⟨_, .ifTest, test.map _⟩
  rcases later.of_bind with yes | ⟨⟨yes, afterYes⟩, readYes, other⟩
  · exact ⟨_, .ifBlock readTest, yes.map _⟩
  dsimp only at other
  split at other
  · next place afterElse elseFront =>
      split at other
      · next inner rest ifFront =>
          have nested := other.of_bind_pure fun _ => ⟨_, rfl⟩
          exact ⟨_, .elseIf readTest readYes elseFront ifFront, nested.map _⟩
      · next otherwise =>
          have no := other.of_bind_pure fun _ => ⟨_, rfl⟩
          exact ⟨_, .elseBlock readTest readYes elseFront (found_ne otherwise), no.map _⟩
  · exact (RunsOut.not_ok other).elim

theorem passesOn_block {owner : BlockOwner}
    (out : RunsOut (block (fuel + 1) stop.line owner tokens)) :
    PassesOn stop ⟨.block (fuel + 1) owner, tokens⟩ := by
  unfold block at out
  dsimp only at out
  split at out
  · next position rest front =>
      rcases out.of_bind with body | ⟨⟨body, next⟩, -, returned⟩
      · exact ⟨_, .body front, body.map _⟩
      · dsimp only at returned
        split at returned
        · cases returned.cause_eq
        · exact (RunsOut.not_ok returned).elim
  · cases out.failAt_eq

theorem passesOn_statements {opening : Opening}
    (out : RunsOut (statements (fuel + 1) stop.line opening.unclosed tokens)) :
    PassesOn stop ⟨.statements (fuel + 1) opening, tokens⟩ := by
  unfold statements at out
  dsimp only at out
  split at out
  · exact (RunsOut.not_ok out).elim
  · next unclosed =>
      split at out
      · cases opening <;> cases out.cause_eq
      · next inside =>
          rcases out.of_bind with first | ⟨⟨first, next⟩, readFirst, later⟩
          · exact ⟨_, .bodyStatement (found_ne unclosed) (by simpa using inside), first.map _⟩
          · have others := later.of_bind_pure fun _ => ⟨_, rfl⟩
            exact ⟨_, .bodyRest readFirst, others.map _⟩

theorem passesOn_olderBody {name : String}
    (out : RunsOut (olderBody (fuel + 1) stop.line name line tokens)) :
    PassesOn stop ⟨.olderBody (fuel + 1) name line, tokens⟩ := by
  unfold olderBody at out
  dsimp only at out
  split at out
  · exact (RunsOut.not_ok out).elim
  · next unclosed =>
      split at out
      · cases out.cause_eq
      · next inside =>
          rcases out.of_bind with first | ⟨⟨first, next⟩, readFirst, later⟩
          · exact ⟨_, .olderStatement (found_ne unclosed) (by simpa using inside), first.map _⟩
          · dsimp only at later
            split at later
            · next afterSemicolon front =>
                split at later
                · exact (RunsOut.not_ok later).elim
                · next further =>
                    have others := later.of_bind_pure fun _ => ⟨_, rfl⟩
                    exact ⟨_, .olderSeparated readFirst front (by simpa using further),
                      others.map _⟩
            · next otherwise =>
                have others := later.of_bind_pure fun _ => ⟨_, rfl⟩
                exact ⟨_, .olderRest readFirst (found_ne otherwise), others.map _⟩

theorem passesOn_declaration (out : RunsOut (declaration stop.line line tokens)) :
    PassesOn stop ⟨.declaration line, tokens⟩ := by
  unfold declaration at out
  split at out
  · split at out
    · next opened rest front =>
        have body := out.of_bind_pure fun _ => ⟨_, rfl⟩
        exact ⟨_, .braces front, body.map _⟩
    · next opened rest front =>
        have body := out.of_bind_pure fun _ => ⟨_, rfl⟩
        exact ⟨_, .older front, body.map _⟩
    · cases out.failAt_eq
  · cases out.failAt_eq

theorem passesOn_declarations (out : RunsOut (declarations (fuel + 1) stop.line tokens).rest) :
    PassesOn stop ⟨.declarations (fuel + 1), tokens⟩ := by
  unfold declarations at out
  dsimp only at out
  split at out
  · next position rest front =>
      split at out
      · next fault failed =>
          obtain ⟨line, same⟩ := out
          cases same
          exact ⟨_, .firstDeclaration front, RunsOut.map ⟨line, failed⟩ _⟩
      · next first next read => exact ⟨_, .otherDeclarations front read, out⟩
  · exact (RunsOut.not_ok out).elim

theorem passesOn_afterDeclarations {declared : List Declaration}
    (out : RunsOut (afterDeclarations stop.line declared tokens)) :
    PassesOn stop ⟨.afterDeclarations declared, tokens⟩ := by
  unfold afterDeclarations at out
  split at out
  · rcases out.of_bind with name | ⟨⟨active, next⟩, -, later⟩
    · exact ⟨_, .named, name.map _⟩
    · dsimp only at later
      split at later
      · cases later.cause_eq
      · split at later
        · exact (RunsOut.not_ok later).elim
        · cases later.failAt_eq
  · cases out.cause_eq
  · cases out.failAt_eq

theorem passesOn_file (out : RunsOut (file ⟨tokens, stop⟩).outcome) :
    PassesOn stop ⟨.file, tokens⟩ := by
  unfold file at out
  dsimp only at out
  rcases out.of_bind with declared | ⟨rest, read, later⟩
  · exact ⟨_, .fileDeclarations, declared⟩
  · exact ⟨_, .fileEnding read, later.map _⟩

theorem not_runsOut_activeName : ¬ RunsOut (activeName stop.line tokens) := by
  intro out
  unfold activeName at out
  dsimp only at out
  split at out
  · split at out
    · exact RunsOut.not_ok out
    · exact RunsOut.not_ok out
    · cases out.failAt_eq
  · cases out.failAt_eq

/-- A call runs out of fuel only if it was given none, or if a call that it makes does. So no call
is missing from those that a call is said to make. -/
theorem runsOut_cases (out : RunsOut (call.read stop)) :
    call.reader.fuel? = some 0 ∨ PassesOn stop call := by
  obtain ⟨reader, tokens⟩ := call
  cases reader with
  | operand fuel closer =>
      cases fuel with
      | zero => exact .inl rfl
      | succ fuel => exact .inr (passesOn_operand out.of_map)
  | connectives fuel closer left last =>
      cases fuel with
      | zero => exact .inl rfl
      | succ fuel => exact .inr (passesOn_connectives out.of_map)
  | condition fuel closer =>
      cases fuel with
      | zero => exact .inl rfl
      | succ fuel => exact .inr (passesOn_condition out.of_map)
  | statement fuel =>
      cases fuel with
      | zero => exact .inl rfl
      | succ fuel => exact .inr (passesOn_statement out.of_map)
  | choice fuel line =>
      cases fuel with
      | zero => exact .inl rfl
      | succ fuel => exact .inr (passesOn_choice out.of_map)
  | block fuel owner =>
      cases fuel with
      | zero => exact .inl rfl
      | succ fuel => exact .inr (passesOn_block out.of_map)
  | statements fuel opening =>
      cases fuel with
      | zero => exact .inl rfl
      | succ fuel => exact .inr (passesOn_statements out.of_map)
  | olderBody fuel name line =>
      cases fuel with
      | zero => exact .inl rfl
      | succ fuel => exact .inr (passesOn_olderBody out.of_map)
  | declarations fuel =>
      cases fuel with
      | zero => exact .inl rfl
      | succ fuel => exact .inr (passesOn_declarations out)
  | declaration line => exact .inr (passesOn_declaration out.of_map)
  | activeName => exact (not_runsOut_activeName out.of_map).elim
  | afterDeclarations declared => exact .inr (passesOn_afterDeclarations out.of_map)
  | file => exact .inr (passesOn_file out.of_map)

/-- Whether a call has enough fuel for its tokens. Each token takes two units in a condition, one to
take it and one for the condition behind a parenthesis, and up to four in a statement. -/
def Supplied (call : Call) : Prop :=
  let size := call.tokens.length
  match call.reader with
  | .operand fuel _ | .connectives fuel _ _ _ => 2 * size < fuel
  | .condition fuel _ => 2 * size + 1 < fuel
  | .statement fuel | .choice fuel _ | .block fuel _ => 4 * size < fuel
  | .statements fuel _ => 4 * size + 1 < fuel
  | .olderBody fuel _ _ | .declarations fuel => size < fuel
  | .declaration _ | .activeName | .afterDeclarations _ | .file => True

theorem Supplied.fuel?_ne (supplied : call.Supplied) : call.reader.fuel? ≠ some 0 := by
  obtain ⟨reader, tokens⟩ := call
  cases reader with
  | operand | connectives | condition | statement | choice | block | statements | olderBody
  | declarations =>
      intro empty
      cases empty
      exact Nat.not_lt_zero _ supplied
  | declaration | activeName | afterDeclarations | file => exact nofun

theorem Makes.supplied (makes : call.Makes stop inner) (supplied : call.Supplied) :
    inner.Supplied := by
  have lengths := makes.forward.length_cases
  cases makes with
  | negated | enclosed | firstOperand | afterFirst | conjunct | afterConjunct | alternative
  | afterAlternative =>
      simp only [Supplied, Reader.rank, List.length_cons] at supplied lengths ⊢
      omega
  | ifWord | whileBlock | ifBlock | elseIf | elseBlock | body | bodyStatement | bodyRest =>
      simp only [Supplied, Reader.rank] at supplied lengths ⊢
      omega
  | olderSeparated | olderRest | otherDeclarations =>
      simp only [Supplied, Reader.rank] at supplied lengths ⊢
      omega
  -- The other calls are given fuel of their own, or need none.
  | whileTest | ifTest =>
      simp only [Supplied, conditionFuel]
      omega
  | olderStatement | braces =>
      simp only [Supplied, statementFuel]
      omega
  | older | fileDeclarations => exact Nat.lt_succ_self _
  | firstDeclaration | fileEnding | named => exact trivial

/-- A call with enough fuel does not run out of it. The induction is on the depth that the calls it
makes can have. -/
theorem Supplied.not_runsOut (supplied : call.Supplied) : ¬ RunsOut (call.read stop) := by
  induction weight : call.weight using Nat.strongRecOn generalizing call with
  | _ bound ih =>
      intro out
      rcases runsOut_cases out with empty | ⟨inner, makes, innerOut⟩
      · exact supplied.fuel?_ne empty
      · have less : inner.weight < bound := weight ▸ makes.forward.weight_lt
        exact ih inner.weight less (makes.supplied supplied) rfl innerOut

/-! ## Calls of calls -/

/-- `Nests stop depth call last` says that the last call is made by a call of a call, and so on, of
the first one. -/
inductive Nests (stop : Position) : (depth : Nat) → Call → Call → Prop where
  | here {call : Call} : Nests stop 0 call call
  | deeper {depth : Nat} {call inner last : Call} : call.Makes stop inner →
      Nests stop depth inner last → Nests stop (depth + 1) call last

namespace Nests

theorem suffix (nests : Nests stop depth call last) : last.tokens <:+ call.tokens := by
  induction nests with
  | here => exact List.suffix_refl _
  | deeper makes _ ih => exact ih.trans makes.forward.suffix

theorem weight_le (nests : Nests stop depth call last) : last.weight + depth ≤ call.weight := by
  induction nests with
  | here => exact Nat.le_refl _
  | deeper makes _ ih =>
      have less := makes.forward.weight_lt
      omega

theorem supplied (nests : Nests stop depth call last) (enough : call.Supplied) :
    last.Supplied := by
  induction nests with
  | here => exact enough
  | deeper makes _ ih => exact ih (makes.supplied enough)

end Nests

end Call

/-! ## Progress -/

/-- Whether tokens are the last ones of a text, from an index that is not before a given one. The
index of the end is the number of tokens. -/
def LiesFrom (text : List Token) (index : Nat) (tokens : List Token) : Prop :=
  ∃ later, index ≤ later ∧ later ≤ text.length ∧ tokens = text.drop later

theorem liesFrom_of_suffix {text tokens : List Token} {index : Nat}
    (suffix : tokens <:+ text.drop index) (inside : index ≤ text.length) :
    LiesFrom text index tokens := by
  have shorter := suffix.length_le
  rw [List.length_drop] at shorter
  refine ⟨text.length - tokens.length, by omega, by omega, ?_⟩
  exact List.suffix_iff_eq_drop.mp (suffix.trans (List.drop_suffix index text))

/-- Whether a reader is the next turn of a loop: that over connectives, over the statements of a
body in either form, or over declarations. -/
def Reader.Iterates : Reader → Reader → Prop
  | .connectives .., .connectives .. => True
  | .statements .., .statements .. => True
  | .olderBody .., .olderBody .. => True
  | .declarations .., .declarations .. => True
  | _, _ => False

theorem Reader.Iterates.rank_eq {first second : Reader} (iterates : first.Iterates second) :
    second.rank = first.rank := by
  unfold Iterates at iterates
  split at iterates
  · rfl
  · rfl
  · rfl
  · rfl
  · exact iterates.elim

theorem Call.Makes.leaves_of_iterates {stop : Position} {call inner : Call}
    (makes : call.Makes stop inner) (iterates : call.reader.Iterates inner.reader) :
    Leaves call.tokens inner.tokens := by
  cases makes.forward with
  | taken leaves => exact leaves
  | lower _ less =>
      rw [iterates.rank_eq] at less
      exact (Nat.lt_irrefl _ less).elim

theorem not_runsOut_file (source : TokenList) : ¬ RunsOut (file source).outcome := by
  intro out
  have supplied : Call.Supplied ⟨.file, source.tokens⟩ := trivial
  exact supplied.not_runsOut (out.map _)

/-- The lexemes that a message can name as what closes a condition. -/
def closingSymbols : List Lexeme :=
  [.leftBrace, .rightBrace, .leftParen, .rightParen]

/-- Reading always makes progress and never goes past the end. Wherever a reader is started, it and
the readers called on the way, to any depth, start and stop at an index of the tokens or at that of
their end, and not before the index of the start. Every turn of a loop takes a token. Calls are
nested no deeper than the tokens allow, and all calls are among those that are counted: a reader
without fuel apart, one that runs out of it has called another that does. In reading a file none
does. So a file is read, or it has a fault of grammar or meaning, which is never that fuel was
missing. -/
theorem reading_makes_progress (source : TokenList) :
    -- Calls stay within the tokens and are nested only so deep.
    (∀ index reader depth last, index ≤ source.tokens.length →
      Call.Nests source.stop depth ⟨reader, source.tokens.drop index⟩ last →
        LiesFrom source.tokens index last.tokens ∧
          (∀ rest, last.read source.stop = .ok rest → LiesFrom source.tokens index rest) ∧
            depth ≤ 6 * (source.tokens.length - index) + 5) ∧
    -- Between two turns of a loop a token is taken. Only a body of the older form can be complete
    -- within a turn, and then a token was taken as well.
    (∀ call inner : Call, call.Makes source.stop inner → call.reader.Iterates inner.reader →
      Leaves call.tokens inner.tokens) ∧
    (∀ fuel name line tokens trees rest,
      olderBody fuel source.stop.line name line tokens = .ok (trees, rest) → Leaves tokens rest) ∧
    -- Fuel is passed on by calls, and it is enough for a file.
    (∀ call : Call, RunsOut (call.read source.stop) →
      call.reader.fuel? = some 0 ∨ call.PassesOn source.stop) ∧
    (∀ depth last, Call.Nests source.stop depth ⟨.file, source.tokens⟩ last →
      ¬ RunsOut (last.read source.stop)) ∧
    ((∃ result, (file source).outcome = .ok result) ∨
      ∃ fault, (file source).outcome = .error fault ∧ fault.cause ≠ .nestedTooDeeply ∧
        fault.report.category ∈ [Category.grammar, .meaning] ∧
          ∀ closer, fault.cause = .emptyCondition closer → closer.lexeme ∈ closingSymbols) := by
  refine ⟨?_, ?_, ?_, ?_, ?_, ?_⟩
  · intro index reader depth last inside nests
    have suffix := nests.suffix
    refine ⟨liesFrom_of_suffix suffix inside, ?_, ?_⟩
    · intro rest read
      exact liesFrom_of_suffix ((Call.read_suffix read).trans suffix) inside
    · have deep := nests.weight_le
      have bound := reader.rank_le
      simp only [Call.weight, List.length_drop] at deep
      omega
  · exact fun call inner makes iterates => makes.leaves_of_iterates iterates
  · exact fun fuel name line tokens trees rest read => leaves_of_olderBody read
  · exact fun call out => Call.runsOut_cases out
  · intro depth last nests
    exact (nests.supplied trivial).not_runsOut
  · cases outcome : (file source).outcome with
    | ok result => exact .inl ⟨result, rfl⟩
    | error fault =>
        refine .inr ⟨fault, rfl, ?_, ?_, ?_⟩
        · intro deep
          apply not_runsOut_file source
          rw [outcome]
          exact ⟨fault.line, by rw [← deep]⟩
        · obtain ⟨cause, line⟩ := fault
          cases cause <;> simp [GrammarFault.report, GrammarCause.category]
        · intro closer _
          cases closer <;> decide

/-- A program that is not closed: its second statement is the second turn of the loop over its
body. -/
theorem reading_makes_progress_unclosed :
    let token (lexeme : Lexeme) : Token := ⟨lexeme, {}⟩
    let rest := [token (.word "put")]
    let body := token (.word "forward") :: token .semicolon :: rest
    let source : TokenList :=
      ⟨token (.word "program") :: token (.word "p") :: token .leftBrace :: body, {}⟩
    (file source).outcome = .error ⟨.unclosedProgram "p", 1⟩ ∧
      Leaves body rest ∧ LiesFrom source.tokens 3 rest ∧
        ∃ last, Call.Nests source.stop 4 ⟨.file, source.tokens⟩ last ∧ last.tokens = rest ∧
          ¬ RunsOut (last.read source.stop) := by
  intro token rest body source
  have read : statement 15 source.stop.line (skipBreaks body) =
      .ok (.action "forward" 1, token .semicolon :: rest) := rfl
  have turn : Call.Makes source.stop ⟨.statements 16 (.program "p" 1), body⟩
      ⟨.statements 15 (.program "p" 1), rest⟩ := .bodyRest read
  have nests : Call.Nests source.stop 4 ⟨.file, source.tokens⟩
      ⟨.statements 15 (.program "p" 1), rest⟩ :=
    .deeper .fileDeclarations
      (.deeper (.firstDeclaration rfl) (.deeper (.braces rfl) (.deeper turn .here)))
  obtain ⟨stays, iterates, -, -, supplied, -⟩ := reading_makes_progress source
  have inside := stays 3 _ 1 _ (by decide) (.deeper turn .here)
  exact ⟨rfl, iterates _ _ turn trivial, inside.1, _, nests, rfl, supplied _ _ nests⟩

end GridRobot.Parse
