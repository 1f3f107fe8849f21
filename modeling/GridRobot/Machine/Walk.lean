import GridRobot.Machine.Step

/-!
# Walking the statements

A second way to run a program, directly on its statements. Each action and each test counts against
the budget. The statements still to be run are kept in one list: a choice puts the part it takes in
front of the rest, and a loop whose test holds puts its body and itself there.
-/

namespace GridRobot

/-- A walk over a program: where it ended, the events on the way, and, if it did not end by itself,
the failure that stopped it. -/
structure Walk where
  state : State
  trace : Array Event
  failure : Option Failure := none

namespace Walk

/-- Walks over the statements still to be run, with the budget left. -/
def go (limit : Int) :
    (budget : Nat) → (pending : List Stmt) → State → (trace : Array Event) → Walk
  | _, [], state, trace => ⟨state, trace, none⟩
  | _, .stray part :: _, state, trace => ⟨state, trace, some ⟨.notExecutable part.kind, none⟩⟩
  | 0, .action _ line :: _, state, trace
  | 0, .choice _ _ _ line :: _, state, trace
  | 0, .loop _ _ line :: _, state, trace =>
      ⟨state, trace, some ⟨.instructionLimit limit, some line⟩⟩
  | budget + 1, .action name line :: rest, state, trace =>
      let attempt := state.act name
      match attempt.fault with
      | some fault => ⟨attempt.state, trace, some ⟨fault, none⟩⟩
      | none =>
          let observed := trace.push (.act line name)
          if attempt.state.won then ⟨attempt.state, observed, none⟩
          else go limit budget rest attempt.state observed
  | budget + 1, .choice condition yes no line :: rest, state, trace =>
      match condition.evaluate state with
      | .error fault => ⟨state, trace, some ⟨fault, none⟩⟩
      | .ok value =>
          let taken := if value then yes else no.getD []
          go limit budget (taken ++ rest) state (trace.push (.test line value))
  | budget + 1, .loop condition body line :: rest, state, trace =>
      match condition.evaluate state with
      | .error fault => ⟨state, trace, some ⟨fault, none⟩⟩
      | .ok value =>
          let pending := if value then body ++ .loop condition body line :: rest else rest
          go limit budget pending state (trace.push (.test line value))

end Walk

/-- Walks over a program. In a state that is won already nothing is run. -/
def walk (limit : Int) (program : List Stmt) (state : State) : Walk :=
  if state.won then ⟨state, #[], none⟩ else Walk.go limit limit.toNat program state #[]

end GridRobot
