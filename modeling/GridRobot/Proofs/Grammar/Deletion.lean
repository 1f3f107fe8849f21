import GridRobot.Proofs.Grammar.Dialects

/-!
# Declarations that do not count

A file is read as the body of the last declaration of its active program. Every other declaration
can be deleted, with all the tokens that were read for it, and the file is read as the same program.

What is read for a declaration depends on what follows it: a semicolon and line breaks are taken
with it, and a body of the older form ends only in front of another declaration. The grammar has no
such dependence, so a deletion is made in the derivation of the file and then read again.
-/

namespace GridRobot.Parse

open Grammar

/-! ## The declarations of a file, one after the other -/

/-- `Passes stop tokens trees rest` says that the reader of declarations comes from some tokens to
others and reads the given declarations on the way. -/
inductive Passes (stop : Nat) : List Token → List Declaration → List Token → Prop where
  | here (tokens : List Token) : Passes stop tokens [] tokens
  | declaration {keyword : Position} {tokens start next rest : List Token} {first : Declaration}
      {others : List Declaration} :
      skipBreaks tokens = ⟨.word "program", keyword⟩ :: start →
        declaration stop keyword.line start = .ok (first, next) → Passes stop next others rest →
          Passes stop tokens (first :: others) rest

/-- A declaration of a file, with the tokens before its keyword, those that are read for it after
the keyword, and those that follow. -/
structure Occurrence (source : TokenList) where
  earlier : List Declaration
  before : List Token
  keyword : Position
  tree : Declaration
  taken : List Token
  rest : List Token
  parted : source.tokens = before ++ ⟨.word "program", keyword⟩ :: (taken ++ rest)
  reached : ∃ tokens, Passes source.stop.line source.tokens earlier tokens ∧
    skipBreaks tokens = ⟨.word "program", keyword⟩ :: (taken ++ rest)
  read : declaration source.stop.line keyword.line (taken ++ rest) = .ok (tree, rest)

/-- The file without a declaration. -/
def Occurrence.without {source : TokenList} (occurrence : Occurrence source) : TokenList :=
  ⟨occurrence.before ++ occurrence.rest, source.stop⟩

namespace Passes

variable {stop : Nat} {tokens rest : List Token} {trees : List Declaration}

theorem takes (passes : Passes stop tokens trees rest) :
    ∃ taken, tokens = taken ++ rest ∧
      ∀ others other last, Derives (.declarations others) other last →
        Derives (.declarations (trees ++ others)) (taken ++ other) last := by
  induction passes with
  | here tokens =>
      refine ⟨[], rfl, ?_⟩
      intro others other last derives
      exact derives
  | @declaration keyword tokens start next rest first trees front read _ ih =>
      obtain ⟨gap, rfl, newlines⟩ := (front ▸ Breaks.skip tokens).takes
      obtain ⟨after, derives, ending⟩ := derives_of_declaration read
      obtain ⟨declared, rfl, declares⟩ := derives.declaration_takes
      obtain ⟨space, rfl, moreNewlines⟩ := ending.takes
      obtain ⟨further, rfl, continued⟩ := ih
      refine ⟨gap ++ ⟨.word "program", keyword⟩ :: (declared ++ (space ++ further)), by simp, ?_⟩
      intro others other last derives
      simp only [List.append_assoc, List.cons_append]
      apply Derives.declarations (newlines.breaks _) (declares _)
      apply declarations_of_breaks (moreNewlines.breaks _)
      exact continued others other last derives

/-- Every declaration takes a token at least. -/
theorem length_le (passes : Passes stop tokens trees rest) :
    trees.length + rest.length ≤ tokens.length := by
  induction passes with
  | here tokens => simp
  | @declaration keyword tokens start next rest first trees front read _ ih =>
      obtain ⟨after, derives, ending⟩ := derives_of_declaration read
      have one := (front ▸ Breaks.skip tokens).length_le
      have two := derives.length_le
      have three := ending.length_le
      simp only [Phrase.least, List.length_cons] at one two ⊢
      omega

/-- The reader goes on where it has come to. -/
theorem declarations_eq (passes : Passes stop tokens trees rest) (fuel : Nat) :
    declarations (trees.length + fuel) stop tokens =
      ⟨trees ++ (declarations fuel stop rest).complete, (declarations fuel stop rest).rest⟩ := by
  induction passes with
  | here tokens => simp
  | @declaration keyword tokens start next rest first trees front read _ ih =>
      rw [List.length_cons, Nat.add_right_comm, declarations]
      simp only [front, read, ih, List.cons_append]

end Passes

/-- The reader comes to every declaration that it has read. -/
theorem exists_passes {fuel stop : Nat} {tokens : List Token} {earlier later : List Declaration}
    {tree : Declaration}
    (listed : (declarations fuel stop tokens).complete = earlier ++ tree :: later) :
    ∃ reached keyword start next, Passes stop tokens earlier reached ∧
      skipBreaks reached = ⟨.word "program", keyword⟩ :: start ∧
        declaration stop keyword.line start = .ok (tree, next) := by
  induction fuel generalizing tokens earlier with
  | zero => simp [declarations] at listed
  | succ fuel ih =>
      unfold declarations at listed
      dsimp only at listed
      split at listed
      · next keyword start front =>
          split at listed
          · simp at listed
          · next first next read =>
              cases earlier with
              | nil =>
                  obtain ⟨rfl, -⟩ := List.cons.inj listed
                  exact ⟨tokens, keyword, start, next, .here tokens, front, read⟩
              | cons other earlier =>
                  obtain ⟨rfl, further⟩ := List.cons.inj listed
                  obtain ⟨reached, place, opening, last, passes, found, readLast⟩ := ih further
                  exact ⟨reached, place, opening, last, .declaration front read passes, found,
                    readLast⟩
      · simp at listed

/-! ## Deleting a declaration -/

/-- A declaration that is not for a name, or not the last one for it, does not count for the
name. -/
theorem lastBody?_delete {name : String} {earlier later : List Declaration} {tree : Declaration}
    (unused : tree.name ≠ name ∨ tree.name ∈ later.map Declaration.name) :
    lastBody? name (earlier ++ tree :: later) = lastBody? name (earlier ++ later) := by
  simp only [lastBody?, List.reverse_append, List.reverse_cons, List.append_assoc,
    List.find?_append]
  by_cases same : tree.name = name
  · -- A later declaration of the same name is found first, with and without this one.
    have again := unused.resolve_left (not_not_intro same)
    have found : (later.reverse.find? fun other => other.name == name).isSome := by
      rw [List.find?_isSome]
      simpa [same] using again
    obtain ⟨last, found⟩ := Option.isSome_iff_exists.mp found
    simp [found]
  · simp [same]

namespace Occurrence

variable {source : TokenList}

theorem exists_of_listed {result : File} (accepted : (file source).outcome = .ok result)
    {earlier later : List Declaration} {tree : Declaration}
    (listed : result.declared = earlier ++ tree :: later) :
    ∃ occurrence : Occurrence source, occurrence.earlier = earlier ∧ occurrence.tree = tree := by
  obtain ⟨derives, -⟩ := derives_of_file accepted
  obtain ⟨position, afterActive, next, declared, -, -⟩ := file_parts source.stop.line derives
  obtain ⟨reached, keyword, start, rest, passes, front, read⟩ :=
    exists_passes ((congrArg Declarations.complete declared).trans listed)
  obtain ⟨before, parted, -⟩ := passes.takes
  obtain ⟨gap, split, -⟩ := (front ▸ Breaks.skip reached).takes
  obtain ⟨after, declaration, ending⟩ := derives_of_declaration read
  obtain ⟨taken, rfl⟩ := ending.suffix.trans declaration.suffix
  refine ⟨⟨earlier, before ++ gap, keyword, tree, taken, rest, ?_, ⟨reached, passes, front⟩, read⟩,
    rfl, rfl⟩
  rw [parted, split, List.append_assoc]

theorem derives_without (occurrence : Occurrence source) {trees : List Declaration}
    {last : List Token} (derives : Derives (.declarations trees) occurrence.rest last) :
    Derives (.declarations (occurrence.earlier ++ trees)) occurrence.without.tokens last := by
  obtain ⟨reached, passes, front⟩ := occurrence.reached
  obtain ⟨before, parted, continued⟩ := passes.takes
  obtain ⟨gap, split, newlines⟩ := (front ▸ Breaks.skip reached).takes
  have same : occurrence.before = before ++ gap := by
    apply List.append_cancel_right
    rw [← occurrence.parted, parted, split, List.append_assoc]
  rw [without, same, List.append_assoc]
  apply continued
  exact declarations_of_breaks (newlines.breaks _) derives

/-- The declarations of a file are those before an occurrence, that of the occurrence, and those
after it. -/
theorem listed (occurrence : Occurrence source) {trees : List Declaration} {last : List Token}
    (declared : declarations (source.tokens.length + 1) source.stop.line source.tokens =
      ⟨trees, .ok last⟩) :
    ∃ later, trees = occurrence.earlier ++ occurrence.tree :: later ∧
      Derives (.declarations later) occurrence.rest last := by
  obtain ⟨reached, passes, front⟩ := occurrence.reached
  have bound := passes.length_le
  obtain ⟨fuel, enough⟩ :
      ∃ fuel, source.tokens.length + 1 = occurrence.earlier.length + (fuel + 1) :=
    ⟨source.tokens.length - occurrence.earlier.length, by omega⟩
  rw [enough, passes.declarations_eq, declarations] at declared
  simp only [front, occurrence.read, Declarations.mk.injEq] at declared
  obtain ⟨rfl, ended⟩ := declared
  exact ⟨_, rfl, derives_of_declarations ended⟩

end Occurrence

/-! ## Depth -/

variable {full : Nat → Nat → Bool}

/-- Behind a nested text, as many braces and parentheses are open as before it. -/
theorem Shallow.behind_nested {taken : List Token} (nested : Nested taken)
    {opened negations : Nat} {rest : List Lexeme}
    (shallow : Shallow full opened negations (taken.map Token.lexeme ++ rest)) :
    ∃ negations, Shallow full opened negations rest := by
  induction nested generalizing opened negations rest with
  | nil => exact ⟨negations, shallow⟩
  | @plain token plain =>
      obtain ⟨lexeme, position⟩ := token
      obtain ⟨-, further⟩ := shallow
      cases lexeme <;> first | exact plain.elim | exact ⟨_, further⟩
  | append _ _ firstIH secondIH =>
      rw [List.map_append, List.append_assoc] at shallow
      obtain ⟨_, between⟩ := firstIH shallow
      exact secondIH between
  | braces _ ih | parentheses _ ih =>
      simp only [List.map_cons, List.map_append, List.map_nil, List.cons_append,
        List.append_assoc, List.nil_append] at shallow
      obtain ⟨_, _, behind⟩ := ih shallow.2
      exact ⟨_, behind⟩

/-- No negation reaches over a line break or the start of a declaration. -/
theorem Shallow.of_declares {tokens : List Token} {opened before negations : Nat}
    (declares : atDeclaration (skipBreaks tokens) = true)
    (fits : full opened negations = false)
    (shallow : Shallow full opened before (tokens.map Token.lexeme)) :
    Shallow full opened negations (tokens.map Token.lexeme) := by
  cases tokens with
  | nil => exact trivial
  | cons token rest =>
      obtain ⟨lexeme, position⟩ := token
      cases lexeme with
      | newline | word => exact ⟨fits, shallow.2⟩
      | _ => cases declares

/-- Behind its name, a declaration is nested text. -/
theorem declaration_nested {tree : Declaration} {tokens rest : List Token}
    (derives : Derives (.declaration tree) tokens rest) :
    ∃ position taken, tokens = ⟨.word tree.name, position⟩ :: (taken ++ rest) ∧ Nested taken := by
  cases derives with
  | @braces name _ position opened closed _ _ _ _ breaks body optional =>
      obtain ⟨gap, rfl, newlines⟩ := breaks.takes
      obtain ⟨inside, rfl, takes⟩ := body.takes trivial
      obtain ⟨separator, rfl, -, nested⟩ := optional.takes
      refine ⟨position, gap ++ (⟨.leftBrace, opened⟩ :: (inside ++ [⟨.rightBrace, closed⟩]) ++
        separator), by simp, ?_⟩
      apply newlines.nested.append
      exact (Nested.braces takes.nested).append (nested trivial)
  | @older name _ position opened closed _ _ _ breaks body =>
      obtain ⟨gap, rfl, newlines⟩ := breaks.takes
      obtain ⟨inside, rfl, takes⟩ := body.takes trivial
      refine ⟨position, gap ++ ⟨.assign, opened⟩ :: (inside ++ [⟨.semicolon, closed⟩]), by simp, ?_⟩
      have inner : Nested (⟨.assign, opened⟩ :: (inside ++ [⟨.semicolon, closed⟩])) :=
        .cons trivial (takes.nested.append (.plain trivial))
      exact newlines.nested.append inner

theorem Occurrence.shallow_without {source : TokenList} (occurrence : Occurrence source)
    (declares : atDeclaration (skipBreaks occurrence.rest) = true)
    (shallow : Shallow full 0 0 (source.tokens.map Token.lexeme)) :
    Shallow full 0 0 (occurrence.without.tokens.map Token.lexeme) := by
  obtain ⟨after, derives, ending⟩ := derives_of_declaration occurrence.read
  obtain ⟨position, taken, split, nested⟩ := declaration_nested derives
  obtain ⟨gap, rfl, newlines⟩ := ending.takes
  rw [occurrence.parted, split, ← List.append_assoc, List.map_append] at shallow
  rw [without, List.map_append]
  refine Shallow.of_front ?_ shallow
  intro opened negations inside
  obtain ⟨fits, -, behindName⟩ := inside
  rw [List.map_append] at behindName
  obtain ⟨_, behind⟩ := Shallow.behind_nested (nested.append newlines.nested) behindName
  exact Shallow.of_declares declares fits behind

/-- Declarations that do not count can be deleted. In a file that is read, the reader comes to every
declaration that it returns. Take one of them that is not for the active name, or whose name is
declared again later, and delete its keyword and all that was read for it: what is left is read as a
file of the other declarations, with the same active program and the same statements, lines
included. Deleting makes nothing deeper, so this also holds on every stack. -/
theorem unused_declaration_can_be_deleted {source : TokenList} {result : File}
    (accepted : (file source).outcome = .ok result) :
    (∀ earlier tree later, result.declared = earlier ++ tree :: later →
      ∃ occurrence : Occurrence source, occurrence.earlier = earlier ∧ occurrence.tree = tree) ∧
    ∀ occurrence : Occurrence source, ∃ later,
      result.declared = occurrence.earlier ++ occurrence.tree :: later ∧
      (occurrence.tree.name ≠ result.active ∨
          occurrence.tree.name ∈ later.map Declaration.name →
        (file occurrence.without).outcome =
            .ok ⟨occurrence.earlier ++ later, result.active, result.program⟩ ∧
          ∀ full, boundedFile (tooDeep? full 0 0) source = file source →
            boundedFile (tooDeep? full 0 0) occurrence.without = file occurrence.without) := by
  constructor
  · intro earlier tree later listed
    exact Occurrence.exists_of_listed accepted listed
  · intro occurrence
    obtain ⟨derives, chosen⟩ := derives_of_file accepted
    obtain ⟨position, afterActive, next, declared, named, ended⟩ :=
      file_parts source.stop.line derives
    obtain ⟨later, listed, others⟩ := occurrence.listed declared
    refine ⟨later, listed, ?_⟩
    intro unused
    constructor
    · have breaks : Breaks next [] := ended ▸ Breaks.skip next
      apply file_of_derives
      · exact .file (occurrence.derives_without others) (derives_of_activeName named) breaks
      · rw [← lastBody?_delete unused, ← listed]
        exact chosen
    · intro full bounded
      apply boundedFile_of_shallow
      apply occurrence.shallow_without (declarations_front others)
      rw [← bounded] at accepted
      exact shallow_of_boundedFile accepted

/-- A file that declares its active program twice, first in the older form, behind another
program. -/
def mainTwice : TokenList where
  tokens :=
    [⟨.word "program", ⟨1, 1⟩⟩, ⟨.word "rest", ⟨1, 9⟩⟩, ⟨.leftBrace, ⟨1, 14⟩⟩,
      ⟨.rightBrace, ⟨1, 15⟩⟩, ⟨.newline, ⟨1, 16⟩⟩,
      ⟨.word "program", ⟨2, 1⟩⟩, ⟨.word "main", ⟨2, 9⟩⟩, ⟨.assign, ⟨2, 14⟩⟩,
      ⟨.word "forward", ⟨2, 16⟩⟩, ⟨.newline, ⟨2, 23⟩⟩, ⟨.semicolon, ⟨3, 1⟩⟩, ⟨.newline, ⟨3, 2⟩⟩,
      ⟨.word "program", ⟨4, 1⟩⟩, ⟨.word "main", ⟨4, 9⟩⟩, ⟨.leftBrace, ⟨4, 14⟩⟩,
      ⟨.word "turnLeft", ⟨4, 16⟩⟩, ⟨.rightBrace, ⟨4, 25⟩⟩, ⟨.semicolon, ⟨4, 26⟩⟩,
      ⟨.newline, ⟨4, 27⟩⟩,
      ⟨.word "active", ⟨5, 1⟩⟩, ⟨.word "main", ⟨5, 8⟩⟩, ⟨.dot, ⟨5, 12⟩⟩]
  stop := ⟨5, 13⟩

/-- The first declaration of the active program, which does not count. -/
def firstMain : Occurrence mainTwice where
  earlier := [⟨"rest", []⟩]
  before := mainTwice.tokens.take 5
  keyword := ⟨2, 1⟩
  tree := ⟨"main", [.action "forward" 2]⟩
  taken := (mainTwice.tokens.drop 6).take 6
  rest := mainTwice.tokens.drop 12
  parted := rfl
  reached := ⟨_, .declaration rfl rfl (.here _), rfl⟩
  read := rfl

theorem unused_declaration_can_be_deleted_mainTwice :
    let body : List Stmt := [.action "turnLeft" 4]
    (file mainTwice).outcome =
      .ok ⟨[⟨"rest", []⟩, ⟨"main", [.action "forward" 2]⟩, ⟨"main", body⟩], "main", body⟩ ∧
    (file firstMain.without).outcome = .ok ⟨[⟨"rest", []⟩, ⟨"main", body⟩], "main", body⟩ ∧
      boundedFile Stack.usual.text firstMain.without = file firstMain.without := by
  intro body
  have accepted : (file mainTwice).outcome =
      .ok ⟨[⟨"rest", []⟩, ⟨"main", [.action "forward" 2]⟩, ⟨"main", body⟩], "main", body⟩ := rfl
  obtain ⟨later, listed, deleted⟩ := (unused_declaration_can_be_deleted accepted).2 firstMain
  have last : later = [⟨"main", body⟩] := (List.cons.inj (List.cons.inj listed).2).2.symm
  subst last
  obtain ⟨read, bounded⟩ := deleted (.inr List.mem_cons_self)
  exact ⟨accepted, read, bounded _ rfl⟩

end GridRobot.Parse
