import GridRobot.Proofs.Forms.Text
import GridRobot.Proofs.Grammar.Sites

/-!
# The two forms of a declaration

A body may stand in braces, or after `=` and before a semicolon. Where a declaration in braces has
no semicolon after it, the older form with the tokens in the same places is read as the same file.
This holds whether or not the statements of the body end with semicolons.

The declaration is found among the others by its site. The rules look at nothing beyond the text
they derive, so another text that declares the same can be put in its place.
-/

namespace GridRobot

namespace Parse

/-! ## Depth -/

variable {full : Nat → Nat → Bool}

theorem Shallow.of_front {front inside outside : List Lexeme}
    (carries : ∀ opened negations, Shallow full opened negations inside →
      Shallow full opened negations outside) {opened negations : Nat}
    (shallow : Shallow full opened negations (front ++ inside)) :
    Shallow full opened negations (front ++ outside) := by
  induction front generalizing opened negations with
  | nil => exact carries opened negations shallow
  | cons lexeme front ih =>
      obtain ⟨fits, further⟩ := shallow
      cases lexeme <;> exact ⟨fits, ih further⟩

/-- Whether a stack with room under an open brace has room without it. -/
def FillsUp (full : Nat → Nat → Bool) : Prop :=
  ∀ ⦃opened negations⦄, full (opened + 1) negations = false → full opened negations = false

/-- A nested text that is not too deep inside a brace is not too deep without this brace. -/
theorem Shallow.of_nested (fills : FillsUp full) {taken : List Token}
    (nested : Grammar.Nested taken) {opened : Nat} {inside outside : List Lexeme}
    (carries : ∀ negations, Shallow full (opened + 1) negations inside →
      Shallow full opened negations outside) {negations : Nat}
    (shallow : Shallow full (opened + 1) negations (taken.map Token.lexeme ++ inside)) :
    Shallow full opened negations (taken.map Token.lexeme ++ outside) := by
  induction nested generalizing opened negations inside outside with
  | nil => exact carries negations shallow
  | @plain token plain =>
      obtain ⟨lexeme, position⟩ := token
      obtain ⟨fits, further⟩ := shallow
      cases lexeme <;> first | exact plain.elim | exact ⟨fills fits, carries _ further⟩
  | append _ _ firstIH secondIH =>
      simp only [List.map_append, List.append_assoc] at shallow ⊢
      exact firstIH (fun negations => secondIH carries) shallow
  | braces _ ih | parentheses _ ih =>
      simp only [List.map_cons, List.map_append, List.map_nil, List.cons_append,
        List.append_assoc, List.nil_append] at shallow ⊢
      obtain ⟨fits, further⟩ := shallow
      refine ⟨fills fits, ih ?_ further⟩
      rintro negations ⟨deep, after⟩
      exact ⟨fills deep, carries 0 after⟩

theorem boundedFile_of_shallow {source : TokenList}
    (shallow : Shallow full 0 0 (source.tokens.map Token.lexeme)) :
    boundedFile (tooDeep? full 0 0) source = file source := by
  rw [boundedFile, tooDeep?_eq_none_iff.mpr shallow]

theorem shallow_of_boundedFile {source : TokenList} {result : File}
    (read : (boundedFile (tooDeep? full 0 0) source).outcome = .ok result) :
    Shallow full 0 0 (source.tokens.map Token.lexeme) :=
  tooDeep?_eq_none_iff.mp (boundedFile_eq_file read).1

theorem file_eq_of_derives {source : TokenList} {trees : List Declaration} {active : String}
    {program : List Stmt} (derives : Grammar.Derives (.file trees active) source.tokens [])
    (chosen : lastBody? active trees = some program) :
    file source = ⟨trees.map Declaration.name, .ok ⟨trees, active, program⟩⟩ := by
  obtain ⟨position, afterActive, next, declared, -, -⟩ := file_parts source.stop.line derives
  have names : (file source).names = trees.map Declaration.name := by
    simp only [file, declared]
  rw [← names, ← file_of_derives derives chosen]

end Parse

namespace Grammar

open Parse

/-- A declaration among others can be exchanged for one of the same tree that ends at the same
place. -/
theorem exists_declaration_at {trees : List Declaration} {position keyword : Position} {site : Site}
    {tokens rest before start : List Token}
    (derives : Derives (.declarations trees) tokens (⟨.word "active", position⟩ :: rest))
    (ends : Site.all rest = [])
    (split : tokens = before ++ ⟨.word "program", keyword⟩ :: start)
    (found : Site.first? (⟨.word "program", keyword⟩ :: start) = some site) :
    ∃ tree next, Derives (.declaration tree) start next ∧
      ∀ other, Derives (.declaration tree) other next →
        Derives (.declarations trees) (before ++ ⟨.word "program", keyword⟩ :: other)
          (⟨.word "active", position⟩ :: rest) := by
  have starts : ⟨.word "program", keyword⟩ :: start <:+ tokens := ⟨before, split.symm⟩
  induction trees generalizing tokens before with
  | nil =>
      obtain ⟨sites, all, declares⟩ := Site.all_declarations derives
      cases declares
      have nowhere := Site.suffix_of_all_eq found starts List.nil_suffix (all.trans ends)
      cases List.suffix_nil.mp nowhere
  | cons tree trees ih =>
      cases derives with
      | @declarations _ _ place _ first _ _ breaks declared others =>
          obtain ⟨gap, rfl, newlines⟩ := breaks.takes
          -- The site is that of the first declaration, or it stands behind this declaration.
          have within := Site.suffix_of_all_eq found starts (List.suffix_append _ _)
            (Site.all_nested newlines.nested)
          rcases List.suffix_cons_iff.mp within with here | later
          · cases here
            refine ⟨tree, _, declared, fun other exchanged => ?_⟩
            rw [← List.append_cancel_right split]
            exact .declarations (newlines.breaks _) exchanged others
          · obtain ⟨taken, rfl, takes⟩ := declared.declaration_takes
            obtain ⟨further, rfl⟩ := Site.suffix_of_all_eq found later (List.suffix_append _ _)
              (Site.all_declaration declared)
            obtain ⟨tree, next, located, exchange⟩ := ih others rfl (List.suffix_append _ _)
            refine ⟨tree, next, located, fun other exchanged => ?_⟩
            have same : before = gap ++ ⟨.word "program", place⟩ :: (taken ++ further) :=
              List.append_cancel_right (by simpa using split.symm)
            simp only [same, List.append_assoc, List.cons_append]
            exact .declarations (newlines.breaks _) (takes _) (exchange other exchanged)

/-! ## Settings -/

/-- The forms in which a body is written. -/
inductive Form where
  | braces
  | older
  deriving DecidableEq, Repr

/-- What opens a body. -/
def Form.opener : Form → Lexeme
  | .braces => .leftBrace
  | .older => .assign

/-- What closes a body. -/
def Form.closer : Form → Lexeme
  | .braces => .rightBrace
  | .older => .semicolon

/-- The tokens of a file around the opener and the closer of one declaration. If they are braces,
the one closes the other. Another declaration or the active name follows. -/
structure Setting where
  before : List Token
  keyword : Position
  name : String
  named : Position
  gap : List Token
  opened : Position
  body : List Token
  closed : Position
  rest : List Token
  stop : Position
  newlines : AllBreaks gap
  closes : upToBrace 0 (body ++ ⟨.rightBrace, closed⟩ :: rest) = body
  follows : atDeclaration (skipBreaks rest) = true

namespace Setting

variable {setting : Setting} {tree : Declaration} {next : List Token}

/-- The declaration without its keyword, and what follows it. -/
def declared (setting : Setting) (form : Form) : List Token :=
  ⟨.word setting.name, setting.named⟩ :: (setting.gap ++ ⟨form.opener, setting.opened⟩ ::
    (setting.body ++ ⟨form.closer, setting.closed⟩ :: setting.rest))

/-- The file in which the declaration has a given form. -/
def source (setting : Setting) (form : Form) : TokenList :=
  ⟨setting.before ++ ⟨.word "program", setting.keyword⟩ :: setting.declared form, setting.stop⟩

theorem breaks_opener (setting : Setting) (form : Form) (inner : List Token) :
    Breaks (setting.gap ++ ⟨form.opener, setting.opened⟩ :: inner)
      (⟨form.opener, setting.opened⟩ :: inner) :=
  setting.newlines.breaks _

/-- A body in braces is derived from the tokens between them, and nothing after them belongs to the
declaration. -/
theorem takes_of_braces (derives : Derives (.declaration tree) (setting.declared .braces) next) :
    tree.name = setting.name ∧ Takes (.body tree.body) setting.body ∧ next = setting.rest := by
  have opens := (setting.breaks_opener .braces
    (setting.body ++ ⟨.rightBrace, setting.closed⟩ :: setting.rest)).skipBreaks_of_ne
      (by simp [Form.opener])
  generalize shape : setting.declared .braces = start at derives
  cases derives with
  | braces breaks body separator =>
      cases shape
      cases opens.symm.trans (breaks.skipBreaks_of_ne (by simp))
      obtain ⟨taken, split, takes⟩ := body.takes trivial
      have same : setting.body = taken := by
        rw [← setting.closes, split, takes.nested.upToBrace_eq]
      subst same
      cases List.append_cancel_left split
      refine ⟨rfl, takes, ?_⟩
      cases separator with
      | absent => rfl
      | present semicolon =>
          have follows := setting.follows
          rw [semicolon.skipBreaks_of_ne (by simp)] at follows
          cases follows
  | older breaks body =>
      cases shape
      cases opens.symm.trans (breaks.skipBreaks_of_ne (by simp))

theorem derives_older (takes : Takes (.body tree.body) setting.body)
    (named : tree.name = setting.name) :
    Derives (.declaration tree) (setting.declared .older) setting.rest := by
  obtain ⟨name, body⟩ := tree
  cases named
  exact .older (setting.breaks_opener .older _) (takes.derives _)

theorem shallow_older {full : Nat → Nat → Bool} (fills : FillsUp full)
    (nested : Nested setting.body)
    (shallow : Shallow full 0 0 ((setting.source .braces).tokens.map Token.lexeme)) :
    Shallow full 0 0 ((setting.source .older).tokens.map Token.lexeme) := by
  simp only [source, declared, List.map_append, List.map_cons] at shallow ⊢
  refine Shallow.of_front (fun opened negations => ?_) shallow
  rintro ⟨fits, deep, further⟩
  refine ⟨fits, deep, Shallow.of_front (fun opened negations => ?_) further⟩
  rintro ⟨below, inside⟩
  -- From here to the closer, the older form has one brace less open.
  refine ⟨below, Shallow.of_nested fills nested (fun negations => ?_) inside⟩
  rintro ⟨lower, after⟩
  exact ⟨fills lower, after⟩

/-- The declaration can be written in either form. -/
theorem exchange {trees : List Declaration} {active : String}
    (derives : Derives (.file trees active) (setting.source .braces).tokens []) :
    Nested setting.body ∧ Derives (.file trees active) (setting.source .older).tokens [] := by
  generalize shape : (setting.source .braces).tokens = tokens at derives
  cases derives with
  | file declarations named breaks =>
      obtain ⟨tree, next, located, exchange⟩ :=
        exists_declaration_at declarations (Site.all_active named breaks) shape.symm rfl
      obtain ⟨name, takes, rfl⟩ := takes_of_braces located
      exact ⟨takes.nested, .file (exchange _ (derives_older takes name)) named breaks⟩

/-- A file that is read with a declaration in braces is read with the older form in its place, as
the same file. This also holds on every stack that fills up with what is open. -/
theorem file_older_eq_file_braces (setting : Setting) (result : File) :
    ((file (setting.source .braces)).outcome = .ok result →
      file (setting.source .older) = file (setting.source .braces)) ∧
    ∀ full, FillsUp full →
      (boundedFile (tooDeep? full 0 0) (setting.source .braces)).outcome = .ok result →
        boundedFile (tooDeep? full 0 0) (setting.source .older) =
          boundedFile (tooDeep? full 0 0) (setting.source .braces) := by
  have unbounded : (file (setting.source .braces)).outcome = .ok result →
      Nested setting.body ∧ file (setting.source .older) = file (setting.source .braces) := by
    intro read
    obtain ⟨derives, chosen⟩ := derives_of_file read
    obtain ⟨nested, exchanged⟩ := exchange derives
    exact ⟨nested, (file_eq_of_derives exchanged chosen).trans
      (file_eq_of_derives derives chosen).symm⟩
  refine ⟨fun read => (unbounded read).2, fun full fills read => ?_⟩
  have shallow := shallow_of_boundedFile read
  rw [boundedFile_of_shallow shallow] at read ⊢
  obtain ⟨nested, same⟩ := unbounded read
  rw [boundedFile_of_shallow (shallow_older fills nested shallow), same]

/-- A body of two statements on lines of their own, none with a semicolon, after a declaration in
the older form. -/
def brokenLines : Setting where
  before :=
    [⟨.word "program", ⟨1, 1⟩⟩, ⟨.word "rest", ⟨1, 9⟩⟩, ⟨.assign, ⟨1, 14⟩⟩, ⟨.semicolon, ⟨1, 16⟩⟩,
      ⟨.newline, ⟨1, 17⟩⟩]
  keyword := ⟨2, 1⟩
  name := "main"
  named := ⟨2, 9⟩
  gap := [⟨.newline, ⟨2, 13⟩⟩]
  opened := ⟨3, 1⟩
  body :=
    [⟨.newline, ⟨3, 2⟩⟩, ⟨.word "if", ⟨4, 1⟩⟩, ⟨.word "won", ⟨4, 4⟩⟩, ⟨.leftBrace, ⟨4, 8⟩⟩,
      ⟨.word "forward", ⟨4, 10⟩⟩, ⟨.rightBrace, ⟨4, 18⟩⟩, ⟨.newline, ⟨4, 19⟩⟩,
      ⟨.word "turnLeft", ⟨5, 1⟩⟩, ⟨.newline, ⟨5, 9⟩⟩]
  closed := ⟨6, 1⟩
  rest :=
    [⟨.newline, ⟨6, 2⟩⟩, ⟨.word "active", ⟨7, 1⟩⟩, ⟨.word "main", ⟨7, 8⟩⟩, ⟨.dot, ⟨7, 12⟩⟩]
  stop := ⟨7, 13⟩
  newlines := by simp [AllBreaks]
  closes := rfl
  follows := rfl

theorem file_older_eq_file_braces_brokenLines :
    (∃ result, (file (brokenLines.source .braces)).outcome = .ok result) ∧
      file (brokenLines.source .older) = file (brokenLines.source .braces) ∧
        boundedFile Stack.usual.text (brokenLines.source .older) =
          boundedFile Stack.usual.text (brokenLines.source .braces) := by
  have read : ∃ result, (file (brokenLines.source .braces)).outcome = .ok result := ⟨_, rfl⟩
  have boundedRead : ∃ result,
      (boundedFile Stack.usual.text (brokenLines.source .braces)).outcome = .ok result := ⟨_, rfl⟩
  have fills : FillsUp fun opened negations => 960 < 4 * opened + negations := by
    intro opened negations
    simp only [decide_eq_false_iff_not]
    omega
  obtain ⟨result, accepted⟩ := read
  obtain ⟨bounded, boundedAccepted⟩ := boundedRead
  exact ⟨⟨result, accepted⟩, (file_older_eq_file_braces brokenLines result).1 accepted,
    (file_older_eq_file_braces brokenLines bounded).2 _ fills boundedAccepted⟩

end Setting

end Grammar

end GridRobot
