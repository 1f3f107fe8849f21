import GridRobot.Proofs.Grammar.Rules

/-!
# What is read is derived

Whatever a reader of program text returns is the tree of a derivation of the tokens that it took.
The proofs go by the fuel of the readers: `ConditionsDerive` and `StatementsDerive` hold what is
known of all readers of one kind for some fuel, and there is a lemma for each reader that is given
more.

A reader may skip line breaks after the text it reads, so what it leaves is what the derivation
leaves, up to line breaks.
-/

namespace GridRobot

/-- A result that is read in two parts was read in both. -/
theorem ok_of_bind_ok {ε α β : Type} {first : Except ε α} {second : α → Except ε β} {result : β}
    (read : (first >>= second) = .ok result) :
    ∃ part, first = .ok part ∧ second part = .ok result := by
  cases first with
  | error fault => cases read
  | ok part => exact ⟨part, rfl, read⟩

/-- Reading goes on with a first part that was read. -/
theorem ok_bind {ε α β : Type} (part : α) (second : α → Except ε β) :
    (Except.ok part >>= second) = second part :=
  rfl

theorem Action.name_of_ofName? {text : String} {action : Action}
    (found : ofName? text = some action) : action.name = text := by
  simpa using List.find?_some found

theorem Sensor.name_of_ofName? {text : String} {sensor : Sensor}
    (found : ofName? text = some sensor) : sensor.name = text := by
  simpa using List.find?_some found

namespace Parse

open Grammar

/-! ## Conditions -/

/-- `Pending start left last tokens` says that the tokens between `start` and `tokens` are complete
alternatives, if there are any, and a conjunction that may still grow. -/
def Pending (start : List Token) : Option Condition → Condition → List Token → Prop
  | none, last, tokens => Derives (.conjunction last) start tokens
  | some left, last, tokens => ∃ position middle,
      Derives (.condition left) start (⟨.or, position⟩ :: middle) ∧
        Derives (.conjunction last) middle tokens

namespace Pending

variable {start tokens middle next : List Token} {left : Option Condition}
variable {last right : Condition} {position : Position}

theorem condition (pending : Pending start left last tokens) :
    Derives (.condition (joinOr left last)) start tokens := by
  cases left with
  | none => exact .singleConjunction pending
  | some alternatives =>
      obtain ⟨position, middle, before, conjunction⟩ := pending
      exact .or before conjunction

theorem conjoin (pending : Pending start left last (⟨.and, position⟩ :: middle))
    (operand : Derives (.operand right) middle next) :
    Pending start left (.and last right) next := by
  cases left with
  | none => exact .and pending operand
  | some alternatives =>
      obtain ⟨place, between, before, conjunction⟩ := pending
      exact ⟨place, between, before, .and conjunction operand⟩

theorem alternate (pending : Pending start left last (⟨.or, position⟩ :: middle))
    (operand : Derives (.operand right) middle next) :
    Pending start (some (joinOr left last)) right next :=
  ⟨position, middle, pending.condition, .singleOperand operand⟩

end Pending

/-- What the readers of conditions return with some fuel is derived. -/
structure ConditionsDerive (fuel stop : Nat) : Prop where
  operand : ∀ {closer tokens tree next}, operand fuel stop closer tokens = .ok (tree, next) →
    Derives (.operand tree) tokens next
  connectives : ∀ {closer start left last tokens tree next}, Pending start left last tokens →
    connectives fuel stop closer left last tokens = .ok (tree, next) →
      Derives (.condition tree) start next
  condition : ∀ {closer tokens tree next}, condition fuel stop closer tokens = .ok (tree, next) →
    Derives (.condition tree) tokens next

namespace ConditionsDerive

variable {fuel stop : Nat} {closer : Closer} {start tokens next : List Token}
variable {left : Option Condition} {last tree : Condition}

theorem operand_succ (known : ConditionsDerive fuel stop)
    (read : Parse.operand (fuel + 1) stop closer tokens = .ok (tree, next)) :
    Derives (.operand tree) tokens next := by
  unfold Parse.operand at read
  dsimp only at read
  split at read
  · obtain ⟨⟨inner, rest⟩, readInner, returned⟩ := ok_of_bind_ok read
    cases returned
    exact .negation (known.operand readInner)
  · obtain ⟨⟨inner, rest⟩, readInner, returned⟩ := ok_of_bind_ok read
    dsimp only at returned
    split at returned
    · cases returned
      exact .parentheses (known.condition readInner)
    · cases returned
  · split at read
    · next sensor found =>
        cases read
        rw [← Sensor.name_of_ofName? found]
        exact .sensor sensor _ _
    · cases read
  · split at read <;> cases read

theorem connectives_succ (known : ConditionsDerive fuel stop)
    (pending : Pending start left last tokens)
    (read : Parse.connectives (fuel + 1) stop closer left last tokens = .ok (tree, next)) :
    Derives (.condition tree) start next := by
  unfold Parse.connectives at read
  dsimp only at read
  split at read
  · obtain ⟨⟨right, rest⟩, readRight, readOthers⟩ := ok_of_bind_ok read
    exact known.connectives (pending.conjoin (known.operand readRight)) readOthers
  · obtain ⟨⟨right, rest⟩, readRight, readOthers⟩ := ok_of_bind_ok read
    exact known.connectives (pending.alternate (known.operand readRight)) readOthers
  · cases read
    exact pending.condition

theorem condition_succ (known : ConditionsDerive fuel stop)
    (read : Parse.condition (fuel + 1) stop closer tokens = .ok (tree, next)) :
    Derives (.condition tree) tokens next := by
  unfold Parse.condition at read
  obtain ⟨⟨first, rest⟩, readFirst, readOthers⟩ := ok_of_bind_ok read
  have pending : Pending tokens none first rest := .singleOperand (known.operand readFirst)
  exact known.connectives pending readOthers

theorem all (fuel stop : Nat) : ConditionsDerive fuel stop := by
  induction fuel with
  | zero =>
      constructor
      · intro closer tokens tree next read
        simp [Parse.operand, failAt] at read
      · intro closer start left last tokens tree next _ read
        simp [Parse.connectives, failAt] at read
      · intro closer tokens tree next read
        simp [Parse.condition, failAt] at read
  | succ fuel known => exact ⟨known.operand_succ, known.connectives_succ, known.condition_succ⟩

end ConditionsDerive

theorem derives_of_blockCondition {stop : Nat} {tokens next : List Token} {tree : Condition}
    (read : blockCondition stop tokens = .ok (tree, next)) :
    Derives (.condition tree) tokens next :=
  (ConditionsDerive.all (conditionFuel tokens) stop).condition read

/-! ## Statements -/

theorem body_of_breaks {tokens start rest : List Token} {trees : List Stmt}
    (breaks : Breaks tokens start) (body : Derives (.body trees) start rest) :
    Derives (.body trees) tokens rest := by
  cases body with
  | emptyBody others => exact .emptyBody (breaks.trans others)
  | statements others first separator body =>
      exact .statements (breaks.trans others) first separator body

theorem block_of_breaks {tokens start rest : List Token} {trees : List Stmt}
    (breaks : Breaks tokens start) (block : Derives (.block trees) start rest) :
    Derives (.block trees) tokens rest := by
  cases block with
  | block others body => exact .block (breaks.trans others) body

/-- After a statement and line breaks, a body goes on behind the semicolon that may stand there. -/
theorem body_of_skipSemicolon {tokens next rest : List Token} {trees : List Stmt}
    (before : Breaks tokens next)
    (body : Derives (.body trees) (skipSemicolon (skipBreaks next)) rest) :
    ∃ after, Optional .semicolon tokens after ∧ Derives (.body trees) after rest := by
  have breaks := before.trans (.skip next)
  unfold skipSemicolon at body
  split at body
  · next semicolon =>
      rw [semicolon] at breaks
      exact ⟨_, .present breaks, body⟩
  · exact ⟨tokens, .absent tokens, body_of_breaks breaks body⟩

/-- What the readers of statements return with some fuel is derived. -/
structure StatementsDerive (fuel stop : Nat) : Prop where
  statement : ∀ {tokens tree next}, statement fuel stop tokens = .ok (tree, next) →
    ∃ start rest, Breaks tokens start ∧ Derives (.statement tree) start rest ∧ Breaks rest next
  choice : ∀ {position tokens tree next},
    choice fuel stop position.line tokens = .ok (tree, next) →
      ∃ rest, Derives (.statement tree) (⟨.word "if", position⟩ :: tokens) rest ∧
        Breaks rest next
  block : ∀ {owner tokens trees next}, block fuel stop owner tokens = .ok (trees, next) →
    Derives (.block trees) tokens next ∧ (owner ≠ .elseBlock → trees ≠ [])
  statements : ∀ {unclosed tokens trees next},
    statements fuel stop unclosed tokens = .ok (trees, next) →
      ∃ closed, Derives (.body trees) tokens (⟨.rightBrace, closed⟩ :: next)

namespace StatementsDerive

variable {fuel stop : Nat} {tokens next : List Token} {tree : Stmt} {trees : List Stmt}

theorem loop (known : StatementsDerive fuel stop) {position : Position}
    (read : (do
      let (test, afterTest) ← blockCondition stop (skipBreaks tokens)
      let (body, rest) ← Parse.block fuel stop .whileBlock afterTest
      return (Stmt.loop test body position.line, rest)) = .ok (tree, next)) :
    Derives (.statement tree) (⟨.word "while", position⟩ :: tokens) next := by
  obtain ⟨⟨test, afterTest⟩, readTest, readRest⟩ := ok_of_bind_ok read
  obtain ⟨⟨body, rest⟩, readBody, returned⟩ := ok_of_bind_ok readRest
  obtain ⟨bodyDerives, filled⟩ := known.block readBody
  cases returned
  exact .loop (.skip tokens) (derives_of_blockCondition readTest) bodyDerives
    (filled (by decide))

theorem statement_succ (known : StatementsDerive fuel stop)
    (read : Parse.statement (fuel + 1) stop tokens = .ok (tree, next)) :
    ∃ start rest, Breaks tokens start ∧ Derives (.statement tree) start rest ∧
      Breaks rest next := by
  have breaks := Breaks.skip tokens
  unfold Parse.statement at read
  dsimp only at read
  split at read
  · next name position rest start =>
      rw [start] at breaks
      split at read
      · next isIf =>
          subst isIf
          obtain ⟨after, derives, further⟩ := known.choice read
          exact ⟨_, after, breaks, derives, further⟩
      · split at read
        · next isWhile =>
            subst isWhile
            exact ⟨_, next, breaks, known.loop read, .none next⟩
        · split at read
          · next action found =>
              cases read
              rw [← Action.name_of_ofName? found] at breaks ⊢
              exact ⟨_, _, breaks, .action action position _, .none _⟩
          · cases read
  · cases read

theorem choice_succ (known : StatementsDerive fuel stop) {position : Position}
    (read : Parse.choice (fuel + 1) stop position.line tokens = .ok (tree, next)) :
    ∃ rest, Derives (.statement tree) (⟨.word "if", position⟩ :: tokens) rest ∧
      Breaks rest next := by
  unfold Parse.choice at read
  dsimp only at read
  obtain ⟨⟨test, afterTest⟩, readTest, readRest⟩ := ok_of_bind_ok read
  obtain ⟨⟨yes, afterYes⟩, readYes, readOther⟩ := ok_of_bind_ok readRest
  obtain ⟨yesDerives, filled⟩ := known.block readYes
  have derives {no : Option (List Stmt)} {rest : List Token}
      (other : Derives (.other no) afterYes rest) :
      Derives (.statement (.choice test yes no position.line))
        (⟨.word "if", position⟩ :: tokens) rest :=
    .choice (.skip tokens) (derives_of_blockCondition readTest) yesDerives
      (filled (by decide)) other
  have breaks := Breaks.skip afterYes
  dsimp only at readOther
  split at readOther
  · next place afterElse found =>
      rw [found] at breaks
      have further := Breaks.skip afterElse
      split at readOther
      · next inner rest nestedIf =>
          rw [nestedIf] at further
          obtain ⟨⟨nested, after⟩, readNested, returned⟩ := ok_of_bind_ok readOther
          obtain ⟨last, nestedDerives, ending⟩ := known.choice readNested
          cases returned
          exact ⟨last, derives (.otherChoice breaks further nestedDerives), ending⟩
      · obtain ⟨⟨no, after⟩, readNo, returned⟩ := ok_of_bind_ok readOther
        obtain ⟨noDerives, -⟩ := known.block readNo
        cases returned
        exact ⟨_, derives (.otherBlock breaks (block_of_breaks further noDerives)), .none _⟩
  · cases readOther
    exact ⟨afterYes, derives (.noOther afterYes), breaks⟩

theorem block_succ (known : StatementsDerive fuel stop) {owner : BlockOwner}
    (read : Parse.block (fuel + 1) stop owner tokens = .ok (trees, next)) :
    Derives (.block trees) tokens next ∧ (owner ≠ .elseBlock → trees ≠ []) := by
  have breaks := Breaks.skip tokens
  unfold Parse.block at read
  dsimp only at read
  split at read
  · next opened rest start =>
      rw [start] at breaks
      obtain ⟨⟨body, after⟩, readBody, returned⟩ := ok_of_bind_ok read
      obtain ⟨closed, derives⟩ := known.statements readBody
      dsimp only at returned
      split at returned
      · cases returned
      · next permitted =>
          cases returned
          refine ⟨.block breaks derives, fun owned empty => permitted ?_⟩
          simp [empty, owned]
  · cases read

theorem statements_succ (known : StatementsDerive fuel stop) {unclosed : GrammarFault}
    (read : Parse.statements (fuel + 1) stop unclosed tokens = .ok (trees, next)) :
    ∃ closed, Derives (.body trees) tokens (⟨.rightBrace, closed⟩ :: next) := by
  have breaks := Breaks.skip tokens
  unfold Parse.statements at read
  dsimp only at read
  split at read
  · next closed rest start =>
      rw [start] at breaks
      cases read
      exact ⟨closed, .emptyBody breaks⟩
  · split at read
    · cases read
    · obtain ⟨⟨first, afterFirst⟩, readFirst, readRest⟩ := ok_of_bind_ok read
      obtain ⟨⟨others, last⟩, readOthers, returned⟩ := ok_of_bind_ok readRest
      obtain ⟨start, rest, before, firstDerives, behind⟩ := known.statement readFirst
      obtain ⟨closed, othersDerive⟩ := known.statements readOthers
      obtain ⟨after, separator, othersDerive⟩ := body_of_skipSemicolon behind othersDerive
      cases returned
      exact ⟨closed, .statements (breaks.trans before) firstDerives separator othersDerive⟩

theorem all (fuel stop : Nat) : StatementsDerive fuel stop := by
  induction fuel with
  | zero =>
      constructor
      · intro tokens tree next read
        simp [Parse.statement, failAt] at read
      · intro position tokens tree next read
        simp [Parse.choice, failAt] at read
      · intro owner tokens trees next read
        simp [Parse.block, failAt] at read
      · intro unclosed tokens trees next read
        simp [Parse.statements, failAt] at read
  | succ fuel known =>
      exact ⟨known.statement_succ, known.choice_succ, known.block_succ, known.statements_succ⟩

end StatementsDerive

theorem derives_of_olderBody {fuel stop : Nat} {name : String} {line : Nat}
    {tokens next : List Token} {trees : List Stmt}
    (read : olderBody fuel stop name line tokens = .ok (trees, next)) :
    ∃ closed rest, Derives (.body trees) tokens (⟨.semicolon, closed⟩ :: rest) ∧
      Breaks rest next := by
  induction fuel generalizing tokens trees next with
  | zero => simp [olderBody, failAt] at read
  | succ fuel ih =>
      have breaks := Breaks.skip tokens
      unfold olderBody at read
      dsimp only at read
      split at read
      · next closed rest start =>
          rw [start] at breaks
          cases read
          exact ⟨closed, next, .emptyBody breaks, .none next⟩
      · split at read
        · cases read
        · obtain ⟨⟨first, afterFirst⟩, readFirst, readRest⟩ := ok_of_bind_ok read
          obtain ⟨start, rest, before, firstDerives, behind⟩ :=
            (StatementsDerive.all _ stop).statement readFirst
          have further := behind.trans (.skip afterFirst)
          dsimp only at readRest
          split at readRest
          · next closed afterSemicolon found =>
              rw [found] at further
              split at readRest
              · cases readRest
                refine ⟨closed, afterSemicolon, ?_, .skip afterSemicolon⟩
                exact .statements (breaks.trans before) firstDerives (.absent rest)
                  (.emptyBody further)
              · obtain ⟨⟨others, last⟩, readOthers, returned⟩ := ok_of_bind_ok readRest
                obtain ⟨final, after, othersDerive, ending⟩ := ih readOthers
                cases returned
                refine ⟨final, after, ?_, ending⟩
                exact .statements (breaks.trans before) firstDerives (.present further)
                  (body_of_breaks (.skip afterSemicolon) othersDerive)
          · obtain ⟨⟨others, last⟩, readOthers, returned⟩ := ok_of_bind_ok readRest
            obtain ⟨final, after, othersDerive, ending⟩ := ih readOthers
            cases returned
            refine ⟨final, after, ?_, ending⟩
            exact .statements (breaks.trans before) firstDerives (.absent rest)
              (body_of_breaks further othersDerive)

/-! ## Files -/

theorem derives_of_declaration {stop line : Nat} {tokens next : List Token}
    {tree : Declaration}
    (read : declaration stop line tokens = .ok (tree, next)) :
    ∃ rest, Derives (.declaration tree) tokens rest ∧ Breaks rest next := by
  unfold declaration at read
  split at read
  · next name position afterName =>
      have breaks := Breaks.skip afterName
      split at read
      · next opened inner found =>
          rw [found] at breaks
          obtain ⟨⟨body, after⟩, readBody, returned⟩ := ok_of_bind_ok read
          obtain ⟨closed, derives⟩ := (StatementsDerive.all _ stop).statements readBody
          have ending := Breaks.skip after
          cases returned
          unfold skipSemicolon
          split
          · next semicolon =>
              rw [semicolon] at ending
              exact ⟨_, .braces breaks derives (.present ending), .none _⟩
          · exact ⟨after, .braces breaks derives (.absent after), ending⟩
      · next opened inner found =>
          rw [found] at breaks
          obtain ⟨⟨body, after⟩, readBody, returned⟩ := ok_of_bind_ok read
          obtain ⟨closed, rest, derives, ending⟩ := derives_of_olderBody readBody
          cases returned
          exact ⟨rest, .older breaks derives, ending⟩
      · cases read
  · cases read

theorem declarations_of_breaks {tokens start rest : List Token} {trees : List Declaration}
    (breaks : Breaks tokens start) (derives : Derives (.declarations trees) start rest) :
    Derives (.declarations trees) tokens rest := by
  cases derives with
  | noDeclarations others => exact .noDeclarations (breaks.trans others)
  | declarations others first further => exact .declarations (breaks.trans others) first further

theorem derives_of_declarations {fuel stop : Nat} {tokens rest : List Token}
    (read : (declarations fuel stop tokens).rest = .ok rest) :
    Derives (.declarations (declarations fuel stop tokens).complete) tokens rest := by
  induction fuel generalizing tokens with
  | zero => simp [declarations, failAt] at read
  | succ fuel ih =>
      have breaks := Breaks.skip tokens
      unfold declarations at read ⊢
      dsimp only at read ⊢
      split at read
      · next position start found =>
          rw [found] at breaks
          split at read
          · cases read
          · next first next readFirst =>
              obtain ⟨after, firstDerives, ending⟩ := derives_of_declaration readFirst
              have othersDerive := declarations_of_breaks ending (ih read)
              exact .declarations breaks firstDerives othersDerive
      · next other =>
          cases read
          exact .noDeclarations breaks

theorem derives_of_activeName {stop : Nat} {tokens rest : List Token} {name : String}
    (read : activeName stop tokens = .ok (name, rest)) :
    Derives (.active name) tokens rest := by
  have before := Breaks.skip tokens
  unfold activeName at read
  dsimp only at read
  split at read
  · next word position afterName named =>
      obtain ⟨start, optional, breaks⟩ : ∃ start, Optional .assign tokens start ∧
          Breaks start (⟨.word word, position⟩ :: afterName) := by
        split at named
        · next place others found =>
            rw [found] at before
            exact ⟨others, .present before, named ▸ .skip others⟩
        · exact ⟨tokens, .absent tokens, named ▸ before⟩
      have further := Breaks.skip afterName
      split at read
      · next closed others found =>
          rw [found] at further
          cases read
          exact .active optional breaks further (.inl rfl)
      · next closed others found =>
          rw [found] at further
          cases read
          exact .active optional breaks further (.inr rfl)
      · cases read
  · cases read

theorem derives_of_file {source : TokenList} {result : File}
    (read : (file source).outcome = .ok result) :
    Derives (.file result.declared result.active) source.tokens [] ∧
      lastBody? result.active result.declared = some result.program := by
  obtain ⟨rest, readDeclarations, readActive⟩ := ok_of_bind_ok read
  have declared := derives_of_declarations readDeclarations
  unfold afterDeclarations at readActive
  split at readActive
  · obtain ⟨⟨active, next⟩, readName, chosen⟩ := ok_of_bind_ok readActive
    dsimp only at chosen
    split at chosen
    · cases chosen
    · next body found =>
        have breaks := Breaks.skip next
        split at chosen
        · next finished =>
            rw [finished] at breaks
            cases chosen
            exact ⟨.file declared (derives_of_activeName readName) breaks, found⟩
        · cases chosen
  · cases readActive
  · cases readActive

end Parse

end GridRobot
