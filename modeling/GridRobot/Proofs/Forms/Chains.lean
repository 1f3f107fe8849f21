import GridRobot.Proofs.Forms.Text

/-!
# Chains of choices

In a text, the other part of a choice may be a further choice behind `else if`. A chain of such
choices opens no brace inside another one, so it is read at any length. Its choices are nested all
the same, and each of them is a level of the program.
-/

namespace GridRobot

open Parse Grammar

namespace Stmt

/-- A choice with a number of further choices behind `else if`, all alike. -/
def chain : Nat → Stmt
  | 0 => .choice (.atom "won") [.action "forward" 1] none 1
  | further + 1 => .choice (.atom "won") [.action "forward" 1] (some [chain further]) 1

/-- A choice of a chain, up to its other part, on a line of text. -/
def linkLine : String :=
  "if won \x7b forward \x7d"

/-- A chain on a line of text. -/
def chainLine : Nat → String
  | 0 => linkLine ++ " "
  | further + 1 => linkLine ++ " else " ++ chainLine further

/-- The lexemes of a chain. -/
def chainLexemes : Nat → List Lexeme
  | 0 => [.word "if", .word "won", .leftBrace, .word "forward", .rightBrace]
  | further + 1 =>
      .word "if" :: .word "won" :: .leftBrace :: .word "forward" :: .rightBrace ::
        .word "else" :: chainLexemes further

theorem levelsOf_chain (further : Nat) : (chain further).levelsOf = further + 2 := by
  induction further with
  | zero => rfl
  | succ further ih => simp [chain, levelsOf, levels, levelsOfOther, ih]

/-! ## Spelling -/

theorem spells_linkLine {text : List Char} {others : List Lexeme}
    (spells : Spells (' ' :: text) others) :
    Spells (linkLine.toList ++ ' ' :: text)
      (.word "if" :: .word "won" :: .leftBrace :: .word "forward" :: .rightBrace :: others) := by
  have isIf : isName "if" = true := by decide
  have isWon : isName "won" = true := by decide
  have known : AllKnown [.action "forward" 1] := ⟨⟨.forward, rfl⟩, trivial⟩
  have block := (spells_line known).block spells
  have whole := Spells.word isIf (.space (Spells.word isWon block))
  simpa [linkLine, line, lineOne, lexemes, lexemesOne] using whole

theorem spells_chainLine (further : Nat) :
    SpellsFront (chainLine further).toList (chainLexemes further) := by
  have isElse : isName "else" = true := by decide
  induction further with
  | zero =>
      intro text others spells
      have whole := spells_linkLine (.space spells)
      simpa [chainLine, chainLexemes] using whole
  | succ further ih =>
      intro text others spells
      have whole := spells_linkLine (.space (Spells.word isElse (.space (ih spells))))
      simpa [chainLine, chainLexemes] using whole

/-! ## Deriving -/

/-- A choice behind `else`. -/
theorem DerivesStatement.other {written : List Lexeme} {nested : Stmt}
    (derives : DerivesStatement (.word "if" :: written) nested) :
    DerivesOther (.word "else" :: .word "if" :: written) (some [nested]) := by
  intro tokens others onLine same
  obtain ⟨position, afterElse, rfl, atIf⟩ := Token.map_eq_cons same
  obtain ⟨rest, statement, tail⟩ := derives (onLine.of_suffix (List.suffix_cons _ _)) atIf
  obtain ⟨place, start, rfl, -⟩ := Token.map_eq_cons atIf
  exact ⟨rest, .otherChoice (.none _) (.none _) statement, tail⟩

theorem derivesStatement_chain (further : Nat) :
    DerivesStatement (chainLexemes further) (chain further) := by
  have known : (Condition.atom "won").Known := ⟨.won, rfl⟩
  have filled : [Stmt.action "forward" 1] ≠ [] := List.cons_ne_nil _ _
  have inside : DerivesBody [.word "forward"] [.action "forward" 1] :=
    (derivesStatement_action .forward).cons derivesBody_nil
  induction further with
  | zero => exact derivesStatement_choice known filled inside derivesOther_none
  | succ further ih =>
      have behind : DerivesOther (.word "else" :: chainLexemes further) (some [chain further]) := by
        cases further <;> exact ih.other
      exact derivesStatement_choice known filled inside behind

/-! ## Reading -/

theorem shallow_chain {full : Nat → Nat → Bool} {opened : Nat} (room : full opened 0 = false)
    (roomInside : full (opened + 1) 0 = false) {rest : List Lexeme}
    (shallow : Shallow full opened 0 rest) (further : Nat) :
    Shallow full opened 0 (chainLexemes further ++ rest) := by
  induction further with
  | zero => exact ⟨room, room, room, roomInside, roomInside, shallow⟩
  | succ further ih => exact ⟨room, room, room, roomInside, roomInside, room, ih⟩

/-- A chain of any length is read from text. -/
theorem program_chain (further : Nat) :
    Source.program .usual (Source.around (chainLine further)) = .ok [chain further] := by
  have derives : DerivesBody (chainLexemes further ++ []) [chain further] :=
    (derivesStatement_chain further).cons derivesBody_nil
  rw [List.append_nil] at derives
  have held : Stack.usual.text (Source.lexemesAround (chainLexemes further)) = none := by
    apply tooDeep?_eq_none_iff.mpr
    refine ⟨rfl, rfl, rfl, shallow_chain rfl rfl ?_ further⟩
    exact ⟨rfl, rfl, rfl, rfl, trivial⟩
  rw [Source.program_around (spells_chainLine further) derives, held]

end Stmt

end GridRobot
