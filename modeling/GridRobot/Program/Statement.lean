import GridRobot.Program.Condition
import GridRobot.World.Action

/-!
# Statements

A program is a list of statements: actions, choices and loops, each with its source line. The other
part of a choice may be absent, empty or filled, and these three stay apart.
-/

namespace GridRobot

/-- A statement of a program. -/
inductive Stmt where
  | action (name : String) (line : Int)
  | choice (condition : Condition) (yes : List Stmt) (no : Option (List Stmt)) (line : Int)
  | loop (condition : Condition) (body : List Stmt) (line : Int)
  | stray (part : Stray)
  deriving Inhabited

namespace Stmt

mutual

/-- The statement as nested constructors, for messages. -/
def construction : Stmt → String
  | .action name line =>
      "ActionStatement(name=" ++ Text.quoted name ++ ", line=" ++ toString line ++ ")"
  | .choice condition yes no line =>
      "IfStatement(condition=" ++ condition.construction ++ ", then_branch=[" ++
        ", ".intercalate (constructions yes) ++ "], else_branch=" ++ otherConstruction no ++
          ", line=" ++ toString line ++ ")"
  | .loop condition body line =>
      "WhileLoop(condition=" ++ condition.construction ++ ", body=[" ++
        ", ".intercalate (constructions body) ++ "], line=" ++ toString line ++ ")"
  | .stray part => part.shown

/-- The statements of a list as nested constructors. -/
def constructions : List Stmt → List String
  | [] => []
  | statement :: rest => statement.construction :: constructions rest

/-- The other part of a choice as nested constructors. -/
def otherConstruction : Option (List Stmt) → String
  | none => "None"
  | some statements => "[" ++ ", ".intercalate (constructions statements) ++ "]"

end

mutual

/-- The first part, in reading order, of a statement that is no statement. -/
def stray? : Stmt → Option Stray
  | .action _ _ => none
  | .choice _ yes no _ => firstStray? yes <|> otherStray? no
  | .loop _ body _ => firstStray? body
  | .stray part => some part

/-- The first part, in reading order, of a list that is no statement. -/
def firstStray? : List Stmt → Option Stray
  | [] => none
  | statement :: rest => statement.stray? <|> firstStray? rest

/-- The first part, in reading order, of the other part of a choice that is no statement. -/
def otherStray? : Option (List Stmt) → Option Stray
  | none => none
  | some statements => firstStray? statements

end

theorem firstStray?_cons_eq_none_iff (statement : Stmt) (rest : List Stmt) :
    firstStray? (statement :: rest) = none ↔
      statement.stray? = none ∧ firstStray? rest = none := by
  simp [firstStray?]

theorem stray?_choice_eq_none_iff (condition : Condition) (yes : List Stmt)
    (no : Option (List Stmt)) (line : Int) :
    (choice condition yes no line).stray? = none ↔
      firstStray? yes = none ∧ otherStray? no = none := by
  simp [stray?]

mutual

/-- The first part of a statement's conditions that is no condition. -/
def conditionStray? : Stmt → Option Stray
  | .action _ _ => none
  | .choice condition yes no _ =>
      condition.stray? <|> firstConditionStray? yes <|> otherConditionStray? no
  | .loop condition body _ => condition.stray? <|> firstConditionStray? body
  | .stray _ => none

/-- The first part of the conditions of a list that is no condition. -/
def firstConditionStray? : List Stmt → Option Stray
  | [] => none
  | statement :: rest => statement.conditionStray? <|> firstConditionStray? rest

/-- The first part of the conditions of the other part of a choice that is no condition. -/
def otherConditionStray? : Option (List Stmt) → Option Stray
  | none => none
  | some statements => firstConditionStray? statements

end

mutual

/-- A statement with all statements inside it, in reading order. -/
def parts : Stmt → List Stmt
  | .action name line => [.action name line]
  | .choice condition yes no line =>
      .choice condition yes no line :: (allParts yes ++ otherParts no)
  | .loop condition body line => .loop condition body line :: allParts body
  | .stray part => [.stray part]

/-- The statements of a list with all statements inside them, in reading order. -/
def allParts : List Stmt → List Stmt
  | [] => []
  | statement :: rest => statement.parts ++ allParts rest

/-- The statements of the other part of a choice with all statements inside them. -/
def otherParts : Option (List Stmt) → List Stmt
  | none => []
  | some statements => allParts statements

end

/-- Induction over programs: a program is empty, or it starts with an action, a choice with or
without its other part, a loop or a stray part. -/
@[elab_as_elim]
theorem listInduction {motive : List Stmt → Prop} (nil : motive [])
    (action : ∀ name line rest, motive rest → motive (.action name line :: rest))
    (choice : ∀ condition yes line rest, motive yes → motive rest →
      motive (.choice condition yes none line :: rest))
    (choiceElse : ∀ condition yes no line rest, motive yes → motive no → motive rest →
      motive (.choice condition yes (some no) line :: rest))
    (loop : ∀ condition body line rest, motive body → motive rest →
      motive (.loop condition body line :: rest))
    (stray : ∀ part rest, motive rest → motive (.stray part :: rest)) :
    ∀ program, motive program
  | [] => nil
  | .action name line :: rest =>
      action name line rest (listInduction nil action choice choiceElse loop stray rest)
  | .choice condition yes none line :: rest =>
      choice condition yes line rest (listInduction nil action choice choiceElse loop stray yes)
        (listInduction nil action choice choiceElse loop stray rest)
  | .choice condition yes (some no) line :: rest =>
      choiceElse condition yes no line rest
        (listInduction nil action choice choiceElse loop stray yes)
        (listInduction nil action choice choiceElse loop stray no)
        (listInduction nil action choice choiceElse loop stray rest)
  | .loop condition body line :: rest =>
      loop condition body line rest (listInduction nil action choice choiceElse loop stray body)
        (listInduction nil action choice choiceElse loop stray rest)
  | .stray part :: rest =>
      stray part rest (listInduction nil action choice choiceElse loop stray rest)

end Stmt

end GridRobot
