import GridRobot.Program.Statement
import GridRobot.Text.Align

/-!
# Outline of a program

One line per statement, with its source line in front and two spaces of indentation per level. A
block without visible statements leaves an empty line.
-/

namespace GridRobot.Stmt

/-- The start of an outline line: a source line and the indentation. -/
def outlineStart (line : Int) (level : Nat) : String :=
  Text.alignRight 4 (toString line) ++ " " ++ String.ofList (List.replicate (2 * level) ' ')

/-- The lines of a block, or one empty line if there are none. -/
def orEmptyLine : List String → List String
  | [] => [""]
  | lines => lines

mutual

/-- The outline of a statement. -/
def outlineOne (level : Nat) : Stmt → List String
  | .action name line => [outlineStart line level ++ name]
  | .choice condition yes no line =>
      (outlineStart line level ++ "IF " ++ condition.text) ::
        orEmptyLine (outlineLines (level + 1) yes) ++ outlineOther level no
  | .loop condition body line =>
      (outlineStart line level ++ "WHILE " ++ condition.text) ::
        orEmptyLine (outlineLines (level + 1) body)
  | .stray _ => []

/-- The outline of a list of statements. -/
def outlineLines (level : Nat) : List Stmt → List String
  | [] => []
  | statement :: rest => outlineOne level statement ++ outlineLines level rest

/-- The outline of the other part of a choice. -/
def outlineOther (level : Nat) : Option (List Stmt) → List String
  | none => []
  | some statements =>
      ("     " ++ String.ofList (List.replicate (2 * level) ' ') ++ "ELSE") ::
        match statements with
        | [] => []
        | first :: rest =>
            orEmptyLine (outlineOne (level + 1) first ++ outlineLines (level + 1) rest)

end

/-- The outline of a program. -/
def outline (program : List Stmt) : String :=
  "\n".intercalate (outlineLines 0 program)

end GridRobot.Stmt
