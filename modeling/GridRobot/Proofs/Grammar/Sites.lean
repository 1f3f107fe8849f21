import Mathlib.Data.List.Infix
import Mathlib.Data.List.Forall2
import GridRobot.Proofs.Grammar.Complete
import GridRobot.Proofs.Grammar.Locality

/-!
# Where the declarations of a file stand

A site is a place where `program` and a name follow each other. In a file of the grammar there is
one site for each declaration, in order, and the body of the declaration can be cut out of the
tokens without reading it: up to the brace that closes it, or in the older form up to the first
semicolon in front of another declaration or the end.
-/

namespace GridRobot.Grammar

open Parse

theorem Nested.words {taken : List Token} (nested : Nested taken) :
    ∀ token ∈ taken, token.lexeme ≠ .word "program" ∧ token.lexeme ≠ .word "active" := by
  induction nested with
  | nil => exact List.forall_mem_nil _
  | @plain token plain =>
      rw [List.forall_mem_singleton]
      constructor
      · intro word
        rw [word] at plain
        exact plain.1 rfl
      · intro word
        rw [word] at plain
        exact plain.2 rfl
  | append _ _ firstIH secondIH => exact List.forall_mem_append.mpr ⟨firstIH, secondIH⟩
  | braces _ ih | parentheses _ ih => simpa [or_imp, forall_and] using ih

/-! ## Sites -/

/-- A place where a declaration starts: the name that is declared and the tokens after it. -/
structure Site where
  name : String
  after : List Token
  deriving DecidableEq, Repr

namespace Site

variable {site : Site} {token : Token} {taken tokens rest : List Token}

/-- The declaration that starts at the front. -/
def first? : List Token → Option Site
  | ⟨.word "program", _⟩ :: ⟨.word name, _⟩ :: after => some ⟨name, after⟩
  | _ => none

/-- All places where a declaration starts, in order. -/
def all (tokens : List Token) : List Site :=
  tokens.tails.filterMap first?

theorem first?_eq_some_iff : first? tokens = some site ↔
    ∃ keyword named, tokens =
      ⟨.word "program", keyword⟩ :: ⟨.word site.name, named⟩ :: site.after := by
  constructor
  · intro found
    unfold first? at found
    split at found
    · next keyword _ named _ =>
        cases found
        exact ⟨keyword, named, rfl⟩
    · cases found
  · rintro ⟨keyword, named, rfl⟩
    rfl

theorem all_cons_of_some (found : first? (token :: rest) = some site) :
    all (token :: rest) = site :: all rest := by
  simp [all, found]

theorem all_cons_of_none (missing : first? (token :: rest) = none) :
    all (token :: rest) = all rest := by
  simp [all, missing]

theorem all_cons_of_ne (other : token.lexeme ≠ .word "program") :
    all (token :: rest) = all rest := by
  apply all_cons_of_none
  rw [Option.eq_none_iff_forall_ne_some]
  intro site found
  obtain ⟨keyword, named, split⟩ := first?_eq_some_iff.mp found
  cases split
  exact other rfl

theorem all_append_of_ne (others : ∀ token ∈ taken, token.lexeme ≠ .word "program") :
    all (taken ++ rest) = all rest := by
  induction taken with
  | nil => rfl
  | cons token taken ih =>
      obtain ⟨first, further⟩ := List.forall_mem_cons.mp others
      rw [List.cons_append, all_cons_of_ne first, ih further]

theorem all_nested (nested : Nested taken) : all (taken ++ rest) = all rest :=
  all_append_of_ne fun token among => (nested.words token among).1

/-- A name that no other name follows starts no declaration, whatever it is. -/
theorem all_name {name : String} {position : Position} {afterName : List Token}
    (breaks : Breaks afterName (token :: rest)) (symbol : ∀ text, token.lexeme ≠ .word text) :
    all (⟨.word name, position⟩ :: afterName) = all rest := by
  obtain ⟨gap, rfl, newlines⟩ := breaks.takes
  have single : first? (⟨.word name, position⟩ :: (gap ++ token :: rest)) = none := by
    rw [Option.eq_none_iff_forall_ne_some]
    intro site found
    obtain ⟨keyword, named, split⟩ := first?_eq_some_iff.mp found
    cases gap with
    | nil =>
        cases split
        exact symbol site.name rfl
    | cons newline further =>
        obtain ⟨-, others⟩ := List.cons.inj split
        obtain ⟨rfl, -⟩ := List.cons.inj others
        cases newlines _ List.mem_cons_self
  rw [all_cons_of_none single, all_nested newlines.nested, all_cons_of_ne (symbol "program")]

theorem exists_suffix_of_mem_all (among : site ∈ all tokens) :
    ∃ keyword named,
      ⟨.word "program", keyword⟩ :: ⟨.word site.name, named⟩ :: site.after <:+ tokens := by
  obtain ⟨start, starts, found⟩ := List.mem_filterMap.mp among
  obtain ⟨keyword, named, rfl⟩ := first?_eq_some_iff.mp found
  exact ⟨keyword, named, (List.mem_tails _ _).mp starts⟩

/-- A declaration that starts somewhere starts in every part of the text that has all the sites. -/
theorem suffix_of_all_eq {start front : List Token} (found : first? start = some site)
    (starts : start <:+ tokens) (ends : front <:+ tokens) (same : all tokens = all front) :
    start <:+ front := by
  have among : site ∈ all tokens :=
    List.mem_filterMap.mpr ⟨start, (List.mem_tails _ _).mpr starts, found⟩
  rw [same] at among
  obtain ⟨_, _, within⟩ := exists_suffix_of_mem_all among
  obtain ⟨keyword, named, rfl⟩ := first?_eq_some_iff.mp found
  exact List.suffix_of_suffix_length_le starts ends within.length_le

end Site

/-! ## Bodies -/

/-- The tokens up to the brace that closes the braces opened before. -/
def upToBrace (opened : Nat) : List Token → List Token
  | [] => []
  | token :: rest =>
      match token.lexeme, opened with
      | .rightBrace, 0 => []
      | .rightBrace, opened + 1 => token :: upToBrace opened rest
      | .leftBrace, opened => token :: upToBrace (opened + 1) rest
      | _, opened => token :: upToBrace opened rest

/-- The tokens up to the first semicolon that stands in front of a declaration or the end. -/
def upToSemicolon : List Token → List Token
  | [] => []
  | token :: rest =>
      if token.lexeme = .semicolon ∧ atDeclaration (skipBreaks rest) = true then []
      else token :: upToSemicolon rest

/-- The body of the program that is declared at a site. -/
def Site.body (site : Site) : List Token :=
  match skipBreaks site.after with
  | ⟨.leftBrace, _⟩ :: inner => upToBrace 0 inner
  | ⟨.assign, _⟩ :: inner => upToSemicolon inner
  | _ => []

theorem upToBrace_isPrefix (opened : Nat) (tokens : List Token) :
    upToBrace opened tokens <+: tokens := by
  fun_induction upToBrace opened tokens with
  | case1 | case2 => exact List.nil_prefix
  | _ =>
      rename_i ih
      exact (List.prefix_cons_inj _).mpr ih

theorem upToSemicolon_isPrefix (tokens : List Token) : upToSemicolon tokens <+: tokens := by
  fun_induction upToSemicolon tokens with
  | case1 | case2 => exact List.nil_prefix
  | case3 token rest _ ih => exact (List.prefix_cons_inj token).mpr ih

/-- A body is part of the tokens. -/
theorem Site.body_sublist {site : Site} {tokens : List Token} (among : site ∈ all tokens) :
    site.body.Sublist tokens := by
  obtain ⟨keyword, named, within⟩ := exists_suffix_of_mem_all among
  have afterName := ((List.suffix_cons _ _).trans (List.suffix_cons _ _)).trans within
  have start := (Breaks.skip site.after).suffix.trans afterName
  unfold Site.body
  split
  · next opened inner front =>
      rw [front] at start
      have inside := (List.suffix_cons _ _).trans start
      exact (upToBrace_isPrefix 0 inner).sublist.trans inside.sublist
  · next opened inner front =>
      rw [front] at start
      have inside := (List.suffix_cons _ _).trans start
      exact (upToSemicolon_isPrefix inner).sublist.trans inside.sublist
  · exact List.nil_sublist tokens

theorem Nested.upToBrace_append {taken : List Token} (nested : Nested taken) (opened : Nat)
    (rest : List Token) : upToBrace opened (taken ++ rest) = taken ++ upToBrace opened rest := by
  induction nested generalizing opened rest with
  | nil => rfl
  | @plain token plain =>
      obtain ⟨lexeme, position⟩ := token
      cases lexeme <;> first | rfl | exact plain.elim
  | append _ _ firstIH secondIH => rw [List.append_assoc, firstIH, secondIH, List.append_assoc]
  | braces _ ih | parentheses _ ih =>
      simp only [List.cons_append, List.append_assoc, upToBrace, ih, List.nil_append]

/-- Up to a brace that closes it, a body is what stands before this brace. -/
theorem Nested.upToBrace_eq {taken : List Token} (nested : Nested taken) (closed : Position)
    (rest : List Token) : upToBrace 0 (taken ++ ⟨.rightBrace, closed⟩ :: rest) = taken := by
  rw [nested.upToBrace_append]
  exact List.append_nil taken

/-- Inside a body, no declaration follows. -/
theorem atDeclaration_of_words {taken rest : List Token} {closed : Position}
    (words : ∀ token ∈ taken, token.lexeme ≠ .word "program" ∧ token.lexeme ≠ .word "active") :
    atDeclaration (skipBreaks (taken ++ ⟨.semicolon, closed⟩ :: rest)) = false := by
  induction taken with
  | nil => rfl
  | cons token taken ih =>
      obtain ⟨first, others⟩ := List.forall_mem_cons.mp words
      obtain ⟨lexeme, position⟩ := token
      cases lexeme with
      | newline => exact ih others
      | word text => simpa [skipBreaks, atDeclaration] using first
      | _ => rfl

theorem upToSemicolon_eq {taken rest : List Token} {closed : Position}
    (words : ∀ token ∈ taken, token.lexeme ≠ .word "program" ∧ token.lexeme ≠ .word "active")
    (declares : atDeclaration (skipBreaks rest) = true) :
    upToSemicolon (taken ++ ⟨.semicolon, closed⟩ :: rest) = taken := by
  induction taken with
  | nil => simp [upToSemicolon, declares]
  | cons token taken ih =>
      obtain ⟨-, others⟩ := List.forall_mem_cons.mp words
      rw [List.cons_append, upToSemicolon, if_neg, ih others]
      simp [atDeclaration_of_words others]

/-! ## The sites of a file -/

/-- Whether a program is declared at a site with the body of a tree. -/
structure Site.Declares (site : Site) (tree : Declaration) : Prop where
  name : site.name = tree.name
  body : Takes (.body tree.body) site.body

theorem Site.all_declaration {tree : Declaration} {start next : List Token}
    (derives : Derives (.declaration tree) start next) : all start = all next := by
  cases derives with
  | braces breaks body separator =>
      obtain ⟨taken, rfl, bodyTakes⟩ := body.takes trivial
      obtain ⟨semicolon, rfl, -, semicolonNested⟩ := separator.takes
      rw [all_name breaks (by simp), all_nested bodyTakes.nested,
        all_cons_of_ne (by simp), all_nested (semicolonNested trivial)]
  | older breaks body =>
      obtain ⟨taken, rfl, bodyTakes⟩ := body.takes trivial
      rw [all_name breaks (by simp), all_nested bodyTakes.nested,
        all_cons_of_ne (by simp)]

/-- A declaration has a site at its front, and the body can be cut out of the tokens there. -/
theorem Site.exists_declares {tree : Declaration} {start next : List Token} (keyword : Position)
    (derives : Derives (.declaration tree) start next)
    (declares : atDeclaration (skipBreaks next) = true) :
    ∃ site : Site, first? (⟨.word "program", keyword⟩ :: start) = some site ∧
      site.Declares tree := by
  cases derives with
  | @braces name _ _ _ _ afterName _ _ _ breaks body _ =>
      obtain ⟨taken, rfl, bodyTakes⟩ := body.takes trivial
      refine ⟨⟨name, afterName⟩, rfl, rfl, ?_⟩
      simpa only [Site.body, breaks.skipBreaks_of_ne (by simp),
        bodyTakes.nested.upToBrace_eq] using bodyTakes
  | @older name _ _ _ _ afterName _ _ breaks body =>
      obtain ⟨taken, rfl, bodyTakes⟩ := body.takes trivial
      refine ⟨⟨name, afterName⟩, rfl, rfl, ?_⟩
      simpa only [Site.body, breaks.skipBreaks_of_ne (by simp),
        upToSemicolon_eq bodyTakes.nested.words declares] using bodyTakes

/-- The sites of the declarations come first, one for each and in order. -/
theorem Site.all_declarations {trees : List Declaration} {position : Position}
    {tokens rest : List Token}
    (derives : Derives (.declarations trees) tokens (⟨.word "active", position⟩ :: rest)) :
    ∃ sites, all tokens = sites ++ all rest ∧ List.Forall₂ Declares sites trees := by
  induction trees generalizing tokens with
  | nil =>
      cases derives with
      | noDeclarations breaks =>
          obtain ⟨gap, rfl, newlines⟩ := breaks.takes
          refine ⟨[], ?_, .nil⟩
          rw [all_nested newlines.nested, all_cons_of_ne (by simp), List.nil_append]
  | cons tree trees ih =>
      cases derives with
      | @declarations _ _ keyword _ _ _ _ breaks first others =>
          obtain ⟨gap, rfl, newlines⟩ := breaks.takes
          obtain ⟨site, found, declares⟩ :=
            exists_declares keyword first (declarations_front others)
          obtain ⟨sites, further, trees⟩ := ih others
          refine ⟨site :: sites, ?_, .cons declares trees⟩
          rw [all_nested newlines.nested, all_cons_of_some found, all_declaration first, further,
            List.cons_append]

/-- No site follows the declarations. -/
theorem Site.all_active {name : String} {tokens next : List Token}
    (active : Derives (.active name) tokens next) (ends : Breaks next []) : all tokens = [] := by
  cases active with
  | active assign before after closes =>
      obtain ⟨opener, rfl, -, openerNested⟩ := assign.takes
      obtain ⟨gap, rfl, newlines⟩ := before.takes
      obtain ⟨space, rfl, moreNewlines⟩ := ends.takes
      rw [all_nested (openerNested trivial), all_nested newlines.nested,
        all_name after (by rcases closes with rfl | rfl <;> simp), all_nested moreNewlines.nested]
      rfl

/-- A file has one site for each declaration, in order. -/
theorem Site.all_file {trees : List Declaration} {active : String} {tokens : List Token}
    (derives : Derives (.file trees active) tokens []) :
    List.Forall₂ Declares (all tokens) trees := by
  cases derives with
  | file declared named breaks =>
      obtain ⟨sites, split, declares⟩ := all_declarations declared
      rw [split, all_active named breaks, List.append_nil]
      exact declares

/-! ## The last site of a name -/

/-- The last place where a name is declared. -/
def Site.last? (name : String) (tokens : List Token) : Option Site :=
  (all tokens).reverse.find? fun site => site.name == name

theorem Site.find?_of_declares {sites : List Site} {trees : List Declaration} {name : String}
    {tree : Declaration} (declares : List.Forall₂ Declares sites trees)
    (found : trees.find? (fun tree => tree.name == name) = some tree) :
    ∃ site : Site, sites.find? (fun site => site.name == name) = some site ∧
      site.Declares tree := by
  induction declares with
  | nil => cases found
  | @cons site first sites trees declares _ ih =>
      rw [List.find?_cons] at found
      rw [List.find?_cons, declares.name]
      split at found
      · cases found
        exact ⟨site, rfl, declares⟩
      · exact ih found

/-- The program that counts for a name is declared at the last site of this name. -/
theorem Site.exists_last? {trees : List Declaration} {active name : String} {body : List Stmt}
    {tokens : List Token} (derives : Derives (.file trees active) tokens [])
    (chosen : lastBody? name trees = some body) :
    ∃ site, last? name tokens = some site ∧ Takes (.body body) site.body := by
  obtain ⟨tree, found, rfl⟩ := Option.map_eq_some_iff.mp chosen
  have reversed := List.forall₂_reverse_iff.mpr (all_file derives)
  obtain ⟨site, last, declares⟩ := find?_of_declares reversed found
  exact ⟨site, last, declares.body⟩

end GridRobot.Grammar
