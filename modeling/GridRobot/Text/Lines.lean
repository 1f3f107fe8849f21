/-!
# Lines of a text

A line feed ends a line, so a text always has one line more than it has line feeds.
-/

namespace GridRobot.Text

/-- The lines of a text, without their line feeds. -/
def lines : List Char → List (List Char)
  | [] => [[]]
  | char :: rest =>
      if char = '\n' then [] :: lines rest
      else
        match lines rest with
        | [] => [[char]]
        | first :: others => (char :: first) :: others

theorem length_lines (text : List Char) : (lines text).length = text.count '\n' + 1 := by
  induction text with
  | nil => rfl
  | cons char rest ih =>
      by_cases feed : char = '\n'
      · simp [lines, feed, ih]
      · have shape : (lines rest).length ≠ 0 := by omega
        cases found : lines rest with
        | nil => simp [found] at shape
        | cons first others =>
            simp only [lines, feed, found, if_false, List.length_cons]
            rw [List.count_cons_of_ne (by simpa using feed)]
            simpa [found] using ih

/-- Every line ending written as a single line feed. -/
def unifyLineEnds : List Char → List Char
  | [] => []
  | '\r' :: '\n' :: rest => '\n' :: unifyLineEnds rest
  | '\r' :: rest => '\n' :: unifyLineEnds rest
  | char :: rest => char :: unifyLineEnds rest

end GridRobot.Text
