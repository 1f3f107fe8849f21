/-!
# Columns

Padding to a column width. A text wider than its column is kept whole.
-/

namespace GridRobot.Text

/-- The text moved to the right edge of a column. -/
def alignRight (width : Nat) (text : String) : String :=
  String.ofList (List.replicate (width - text.length) ' ') ++ text

/-- The text at the left edge of a column. -/
def alignLeft (width : Nat) (text : String) : String :=
  text ++ String.ofList (List.replicate (width - text.length) ' ')

end GridRobot.Text
