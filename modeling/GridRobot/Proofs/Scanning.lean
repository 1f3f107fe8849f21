import GridRobot.Program.Token

/-!
# Tokens in their text

A text is cut into tokens from left to right. Every token is spelled in the text behind as many line
breaks as its line says, and the tokens stand in the order of their lines.
-/

namespace GridRobot

/-- Whether a token is spelled in a text, on the line that it names. The text starts on a given
line. -/
def Token.StandsIn (line : Nat) (text : List Char) (token : Token) : Prop :=
  ∃ before after, text = before ++ after ∧ token.line = line + before.count '\n' ∧
    ∃ size, Piece.first? after = some (.lexeme token.lexeme size)

theorem Token.StandsIn.cons {token : Token} {position : Position} {char : Char} {rest : List Char}
    (stands : token.StandsIn (position.after char).line rest) :
    token.StandsIn position.line (char :: rest) := by
  obtain ⟨before, after, rfl, line, piece⟩ := stands
  refine ⟨char :: before, after, rfl, ?_, piece⟩
  rw [line, Position.after, List.count_cons]
  split
  · next newline =>
      simp [newline]
      omega
  · next other => simp [other]

namespace TokenList

variable {skip : Nat} {position : Position} {text : List Char} {list : TokenList}

theorem standsIn_scan (scanned : scan skip position text = .ok list) :
    ∀ token ∈ list.tokens, token.StandsIn position.line text := by
  fun_induction scan skip position text generalizing list with
  | case1 =>
      cases scanned
      exact List.forall_mem_nil _
  | case2 position skip char rest ih => exact fun token among => (ih scanned token among).cons
  | case3 => cases scanned
  | case4 position char rest size _ ih => exact fun token among => (ih scanned token among).cons
  | case5 position char rest lexeme size piece others scannedOthers ih =>
      cases scanned
      refine List.forall_mem_cons.mpr ⟨⟨[], char :: rest, rfl, rfl, size, piece⟩, ?_⟩
      exact fun token among => (ih scannedOthers token among).cons
  | case6 => cases scanned

/-- The lines of the tokens do not decrease. -/
theorem pairwise_scan (scanned : scan skip position text = .ok list) :
    list.tokens.Pairwise fun first second => first.line ≤ second.line := by
  fun_induction scan skip position text generalizing list with
  | case1 =>
      cases scanned
      exact .nil
  | case2 position skip char rest ih => exact ih scanned
  | case3 => cases scanned
  | case4 position char rest size _ ih => exact ih scanned
  | case5 position char rest lexeme size _ others scannedOthers ih =>
      cases scanned
      refine .cons (fun token among => ?_) (ih scannedOthers)
      obtain ⟨_, _, _, line, _⟩ := (standsIn_scan scannedOthers token among).cons
      exact line ▸ Nat.le_add_right _ _
  | case6 => cases scanned

end TokenList

/-- A word is spelled at the front of the text that it is cut from. -/
theorem Piece.exists_append_of_word {text : List Char} {word : String} {size : Nat}
    (piece : first? text = some (.lexeme (.word word) size)) :
    ∃ after, text = word.toList ++ after := by
  unfold first? at piece
  split at piece
  · cases piece
  · cases piece
  · cases piece
  · cases piece
  · next char rest _ _ _ =>
      split at piece
      · cases piece
      · split at piece
        · cases piece
          refine ⟨rest.dropWhile isNamePart, ?_⟩
          simp [List.takeWhile_append_dropWhile]
        · obtain ⟨lexeme, symbol, same⟩ := Option.map_eq_some_iff.mp piece
          cases same
          unfold Lexeme.ofChar? at symbol
          split at symbol <;> cases symbol

end GridRobot
