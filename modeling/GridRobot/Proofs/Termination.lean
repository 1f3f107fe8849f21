import GridRobot.Proofs.Stopping

/-!
# Both ways to run a program terminate

A machine may jump for ever, and a loop whose body does nothing may be tested for ever. What ends a
run or a walk then is its budget alone, and the budget is only looked at from time to time: before
a step, or when a statement is visited. So the rules of both are given here without anything that
makes them end. `Stage.Loops` is the loop around the steps of a machine, and `Walk.Visits` visits
statements as deeply as they are nested. Both count what they do.

Either way there is an end from everywhere. A step that runs an instruction uses up budget, and one
that does not is the last. A visit uses up budget before it goes deeper, so the budget that is left
and, for the same budget, the number of statements left in a block decrease.
-/

namespace GridRobot

/-! ## Machines -/

namespace Stage

/-- `stage.Loops limit executed calls run` says that the loop of a run, in which some instructions
have been run before a stage, takes a number of steps from there on and ends as the given run. -/
inductive Loops (limit : Int) : Stage → (executed calls : Nat) → Run → Prop where
  | done {stage : Stage} {executed : Nat} : stage.machine.done = true →
      stage.Loops limit executed 0 ⟨stage.machine, stage.state, stage.trace, none⟩
  | spent {stage : Stage} {executed : Nat} : stage.machine.done = false → limit ≤ executed →
      stage.Loops limit executed 0 ⟨stage.machine, stage.state, stage.trace,
        some ⟨.instructionLimit limit, stage.machine.currentLine?⟩⟩
  | failed {stage : Stage} {executed : Nat} {fault : Fault} : stage.machine.done = false →
      executed < limit → (stage.machine.step stage.state).outcome = .error fault →
        stage.Loops limit executed 1 ⟨stage.next.machine, stage.next.state, stage.next.trace,
          some ⟨fault, none⟩⟩
  | step {stage : Stage} {executed calls : Nat} {ran : Option Executed} {run : Run} :
      stage.machine.done = false → executed < limit →
        (stage.machine.step stage.state).outcome = .ok ran →
          stage.next.Loops limit (if ran.isSome then executed + 1 else executed) calls run →
            stage.Loops limit executed (calls + 1) run

variable {stage : Stage} {limit : Int} {executed calls : Nat} {run : Run}

theorem finish_done (budget : Nat) (done : stage.machine.done = true) :
    stage.finish limit budget = ⟨stage.machine, stage.state, stage.trace, none⟩ :=
  Machine.runFrom_done done

theorem done_next_of_none (nothing : (stage.machine.step stage.state).outcome = .ok none) :
    stage.next.machine.done = true := by
  rw [next_machine]
  exact Machine.step_none nothing

/-- The loop ends from every stage, as the rest of the run with the budget that is left. -/
theorem exists_loops (budget : Nat) (stage : Stage) (executed : Nat)
    (left : (limit - executed).toNat = budget) :
    ∃ calls, stage.Loops limit executed calls (stage.finish limit budget) := by
  induction budget generalizing stage executed with
  | zero =>
      cases running : stage.machine.done with
      | true =>
          rw [finish_done 0 running]
          exact ⟨0, .done running⟩
      | false =>
          rw [finish, Machine.runFrom_zero running]
          exact ⟨0, .spent running (by omega)⟩
  | succ budget ih =>
      cases running : stage.machine.done with
      | true =>
          rw [finish_done (budget + 1) running]
          exact ⟨0, .done running⟩
      | false =>
          have unspent : executed < limit := by omega
          cases outcome : (stage.machine.step stage.state).outcome with
          | error fault =>
              rw [(finish_error running outcome).1]
              exact ⟨1, .failed running unspent outcome⟩
          | ok ran =>
              rw [finish_next running (by rw [next_of_ok outcome])]
              cases ran with
              | none =>
                  have done := done_next_of_none outcome
                  rw [finish_done budget done]
                  exact ⟨1, .step running unspent outcome (.done done)⟩
              | some instr =>
                  obtain ⟨calls, loops⟩ := ih stage.next (executed + 1) (by omega)
                  exact ⟨calls + 1, .step running unspent outcome loops⟩

theorem Loops.of_done (loops : stage.Loops limit executed calls run)
    (done : stage.machine.done = true) :
    calls = 0 ∧ run = ⟨stage.machine, stage.state, stage.trace, none⟩ := by
  cases loops with
  | done => exact ⟨rfl, rfl⟩
  | spent running | failed running | step running =>
      rw [done] at running
      cases running

/-- The loop ends only as the rest of the run does, and each of its steps is paid for. -/
theorem Loops.finish_eq (loops : stage.Loops limit executed calls run) :
    run = stage.finish limit (limit - executed).toNat ∧ calls ≤ (limit - executed).toNat := by
  induction loops with
  | done done => exact ⟨(finish_done _ done).symm, Nat.zero_le _⟩
  | @spent stage executed running spent =>
      have none : (limit - executed).toNat = 0 := by omega
      rw [none, finish, Machine.runFrom_zero running]
      exact ⟨rfl, Nat.le_refl 0⟩
  | @failed stage executed fault running unspent outcome =>
      obtain ⟨budget, left⟩ : ∃ budget, (limit - executed).toNat = budget + 1 :=
        ⟨(limit - executed).toNat - 1, by omega⟩
      rw [left, (finish_error running outcome).1]
      exact ⟨rfl, Nat.le_add_left 1 budget⟩
  | @step stage executed calls ran run running unspent outcome loops ih =>
      obtain ⟨budget, left⟩ : ∃ budget, (limit - executed).toNat = budget + 1 :=
        ⟨(limit - executed).toNat - 1, by omega⟩
      rw [left, finish_next running (by rw [next_of_ok outcome])]
      cases ran with
      | none =>
          -- A step that runs nothing is not counted, but the loop ends with it.
          have done := done_next_of_none outcome
          obtain ⟨rfl, rfl⟩ := loops.of_done done
          exact ⟨(finish_done budget done).symm, Nat.le_add_left 1 budget⟩
      | some instr =>
          have rest : (limit - (executed + 1 : Nat)).toNat = budget := by omega
          obtain ⟨same, few⟩ := ih
          simp only [Option.isSome_some, if_true, rest] at same few
          exact ⟨same, Nat.succ_le_succ few⟩

end Stage

/-! ## Walks -/

namespace Walk

/-- How far a walk has come: its state, its events, and how often it has counted against its
budget. -/
structure Tally where
  state : State
  trace : Array Event := #[]
  counted : Nat := 0

namespace Tally

/-- After a count and nothing else. -/
def count (tally : Tally) : Tally :=
  { tally with counted := tally.counted + 1 }

/-- After an action that has failed. -/
def refused (tally : Tally) (name : String) : Tally :=
  ⟨(tally.state.act name).state, tally.trace, tally.counted + 1⟩

/-- After an action that has been done. -/
def acted (tally : Tally) (line : Int) (name : String) : Tally :=
  ⟨(tally.state.act name).state, tally.trace.push (.act line name), tally.counted + 1⟩

/-- After a test. -/
def tested (tally : Tally) (line : Int) (value : Bool) : Tally :=
  ⟨tally.state, tally.trace.push (.test line value), tally.counted + 1⟩

end Tally

/-- What is visited: a statement or a block of statements. -/
inductive Part where
  | statement (statement : Stmt)
  | block (statements : List Stmt)

/-- How a visit ends. After anything but a completed visit, nothing more is visited. -/
inductive Ending where
  | completed
  | won
  | failed (failure : Failure)

/-- The rules of visits. `Visits limit part before ending after` says that a visit to a part ends,
and how far the walk has come before and after it. -/
inductive Visits (limit : Int) : Part → Tally → Ending → Tally → Prop where
  | empty {tally : Tally} : Visits limit (.block []) tally .completed tally
  | next {statement : Stmt} {rest : List Stmt} {before middle after : Tally} {ending : Ending} :
      Visits limit (.statement statement) before .completed middle →
        Visits limit (.block rest) middle ending after →
          Visits limit (.block (statement :: rest)) before ending after
  | stop {statement : Stmt} {rest : List Stmt} {before after : Tally} {ending : Ending} :
      Visits limit (.statement statement) before ending after → ending ≠ .completed →
        Visits limit (.block (statement :: rest)) before ending after
  | stray {part : Stray} {tally : Tally} :
      Visits limit (.statement (.stray part)) tally
        (.failed ⟨.notExecutable part.kind, none⟩) tally
  -- Actions.
  | actionSpent {name : String} {line : Int} {tally : Tally} : limit < tally.counted + 1 →
      Visits limit (.statement (.action name line)) tally
        (.failed ⟨.instructionLimit limit, some line⟩) tally.count
  | refused {name : String} {line : Int} {tally : Tally} {fault : Fault} :
      tally.counted + 1 ≤ limit → (tally.state.act name).fault = some fault →
        Visits limit (.statement (.action name line)) tally (.failed ⟨fault, none⟩)
          (tally.refused name)
  | acted {name : String} {line : Int} {tally : Tally} :
      tally.counted + 1 ≤ limit → (tally.state.act name).fault = none →
        Visits limit (.statement (.action name line)) tally
          (if (tally.state.act name).state.won then .won else .completed) (tally.acted line name)
  -- Choices.
  | choiceSpent {condition : Condition} {yes : List Stmt} {no : Option (List Stmt)} {line : Int}
      {tally : Tally} : limit < tally.counted + 1 →
      Visits limit (.statement (.choice condition yes no line)) tally
        (.failed ⟨.instructionLimit limit, some line⟩) tally.count
  | choiceFails {condition : Condition} {yes : List Stmt} {no : Option (List Stmt)} {line : Int}
      {tally : Tally} {fault : Fault} : tally.counted + 1 ≤ limit →
      condition.evaluate tally.state = .error fault →
        Visits limit (.statement (.choice condition yes no line)) tally (.failed ⟨fault, none⟩)
          tally.count
  | choice {condition : Condition} {yes : List Stmt} {no : Option (List Stmt)} {line : Int}
      {before after : Tally} {value : Bool} {ending : Ending} : before.counted + 1 ≤ limit →
      condition.evaluate before.state = .ok value →
        Visits limit (.block (if value then yes else no.getD [])) (before.tested line value)
          ending after →
          Visits limit (.statement (.choice condition yes no line)) before ending after
  -- Loops.
  | loopSpent {condition : Condition} {body : List Stmt} {line : Int} {tally : Tally} :
      limit < tally.counted + 1 →
      Visits limit (.statement (.loop condition body line)) tally
        (.failed ⟨.instructionLimit limit, some line⟩) tally.count
  | loopFails {condition : Condition} {body : List Stmt} {line : Int} {tally : Tally}
      {fault : Fault} : tally.counted + 1 ≤ limit →
      condition.evaluate tally.state = .error fault →
        Visits limit (.statement (.loop condition body line)) tally (.failed ⟨fault, none⟩)
          tally.count
  | leaves {condition : Condition} {body : List Stmt} {line : Int} {tally : Tally} :
      tally.counted + 1 ≤ limit → condition.evaluate tally.state = .ok false →
        Visits limit (.statement (.loop condition body line)) tally .completed
          (tally.tested line false)
  | again {condition : Condition} {body : List Stmt} {line : Int} {before middle after : Tally}
      {ending : Ending} : before.counted + 1 ≤ limit →
      condition.evaluate before.state = .ok true →
        Visits limit (.block body) (before.tested line true) .completed middle →
          Visits limit (.statement (.loop condition body line)) middle ending after →
            Visits limit (.statement (.loop condition body line)) before ending after
  | breaks {condition : Condition} {body : List Stmt} {line : Int} {before after : Tally}
      {ending : Ending} : before.counted + 1 ≤ limit →
      condition.evaluate before.state = .ok true →
        Visits limit (.block body) (before.tested line true) ending after →
          ending ≠ .completed →
            Visits limit (.statement (.loop condition body line)) before ending after

/-! ### Counts -/

/-- Whether a walk has counted no more than its budget, and recorded no more than it has counted. -/
structure Tally.Within (limit : Int) (tally : Tally) : Prop where
  counted : tally.counted ≤ limit.toNat
  recorded : tally.trace.size ≤ tally.counted

/-- What a visit does to the counts. It may end with the count that is too much, but without having
recorded anything for it. -/
structure Counts (limit : Int) (ending : Ending) (before after : Tally) : Prop where
  grows : before.counted ≤ after.counted
  counted : after.counted ≤ limit.toNat + 1
  recorded : after.trace.size ≤ limit.toNat
  completed : ending = .completed → after.Within limit

variable {limit : Int} {part : Part} {before middle after : Tally} {ending : Ending}

namespace Counts

theorem of_within (grows : before.counted ≤ after.counted) (within : after.Within limit) :
    Counts limit ending before after where
  grows := grows
  counted := Nat.le_succ_of_le within.counted
  recorded := Nat.le_trans within.recorded within.counted
  completed _ := within

theorem trans {first : Ending} (earlier : Counts limit first before middle)
    (later : Counts limit ending middle after) : Counts limit ending before after :=
  { later with grows := Nat.le_trans earlier.grows later.grows }

/-- What is visited after a test counts for the whole visit. -/
theorem of_tested {line : Int} {value : Bool}
    (later : Counts limit ending (before.tested line value) after) :
    Counts limit ending before after :=
  { later with grows := Nat.le_trans (Nat.le_succ _) later.grows }

/-- One count more, after which the visit has failed. -/
theorem fails {failure : Failure} (within : before.Within limit)
    (counted : after.counted = before.counted + 1) (trace : after.trace = before.trace) :
    Counts limit (.failed failure) before after where
  grows := by
    rw [counted]
    exact Nat.le_succ _
  counted := by
    rw [counted]
    exact Nat.succ_le_succ within.counted
  recorded := by
    rw [trace]
    exact Nat.le_trans within.recorded within.counted
  completed impossible := by cases impossible

end Counts

namespace Tally.Within

variable {tally : Tally}

theorem acted (within : tally.Within limit) (unspent : tally.counted + 1 ≤ limit) (line : Int)
    (name : String) : (tally.acted line name).Within limit where
  counted := by
    simp only [Tally.acted]
    omega
  recorded := by
    simpa [Tally.acted] using within.recorded

theorem tested (within : tally.Within limit) (unspent : tally.counted + 1 ≤ limit) (line : Int)
    (value : Bool) : (tally.tested line value).Within limit where
  counted := by
    simp only [Tally.tested]
    omega
  recorded := by
    simpa [Tally.tested] using within.recorded

end Tally.Within

/-- A visit keeps to the budget. -/
theorem Visits.counts (visits : Visits limit part before ending after)
    (within : before.Within limit) : Counts limit ending before after := by
  induction visits with
  | empty | stray => exact .of_within (Nat.le_refl _) within
  | next _ _ firstIH restIH =>
      have first := firstIH within
      exact first.trans (restIH (first.completed rfl))
  | stop _ _ ih => exact ih within
  | actionSpent | refused | choiceSpent | choiceFails | loopSpent | loopFails =>
      exact .fails within rfl rfl
  | acted unspent => exact .of_within (Nat.le_succ _) (within.acted unspent _ _)
  | choice unspent _ _ ih => exact Counts.of_tested (ih (within.tested unspent _ _))
  | leaves unspent => exact .of_within (Nat.le_succ _) (within.tested unspent _ _)
  | again unspent _ _ _ bodyIH loopIH =>
      have body := bodyIH (within.tested unspent _ _)
      exact Counts.of_tested (body.trans (loopIH (body.completed rfl)))
  | breaks unspent _ _ _ ih => exact Counts.of_tested (ih (within.tested unspent _ _))

/-! ### Every visit ends -/

/-- Whether a visit to a part ends. -/
def Ends (limit : Int) (part : Part) (before : Tally) : Prop :=
  ∃ ending after, Visits limit part before ending after

/-- A visit to a statement ends if every visit does that starts with more counts. -/
theorem ends_statement (within : before.Within limit)
    (later : ∀ tally : Tally, tally.Within limit → before.counted < tally.counted →
      ∀ part, Ends limit part tally) (statement : Stmt) :
    Ends limit (.statement statement) before := by
  by_cases unspent : before.counted + 1 ≤ limit
  · cases statement with
    | action name line =>
        cases tried : (before.state.act name).fault with
        | some fault => exact ⟨_, _, .refused unspent tried⟩
        | none => exact ⟨_, _, .acted unspent tried⟩
    | choice condition yes no line =>
        cases evaluated : condition.evaluate before.state with
        | error fault => exact ⟨_, _, .choiceFails unspent evaluated⟩
        | ok value =>
            obtain ⟨ending, after, visits⟩ :=
              later _ (within.tested unspent line value) (Nat.lt_succ_self _) _
            exact ⟨ending, after, .choice unspent evaluated visits⟩
    | loop condition body line =>
        cases evaluated : condition.evaluate before.state with
        | error fault => exact ⟨_, _, .loopFails unspent evaluated⟩
        | ok value =>
            cases value with
            | false => exact ⟨_, _, .leaves unspent evaluated⟩
            | true =>
                have tested := within.tested unspent line true
                obtain ⟨ending, middle, inside⟩ :=
                  later _ tested (Nat.lt_succ_self _) (.block body)
                by_cases completed : ending = .completed
                · -- The test before the body has been counted, so the loop starts with more.
                  subst completed
                  have counts := inside.counts tested
                  obtain ⟨ending, after, visits⟩ :=
                    later middle (counts.completed rfl) counts.grows _
                  exact ⟨ending, after, .again unspent evaluated inside visits⟩
                · exact ⟨ending, middle, .breaks unspent evaluated inside completed⟩
    | stray part => exact ⟨_, _, .stray⟩
  · have spent : limit < before.counted + 1 := Int.not_le.mp unspent
    cases statement with
    | action name line => exact ⟨_, _, .actionSpent spent⟩
    | choice condition yes no line => exact ⟨_, _, .choiceSpent spent⟩
    | loop condition body line => exact ⟨_, _, .loopSpent spent⟩
    | stray part => exact ⟨_, _, .stray⟩

/-- A visit to a block ends if every visit to a statement does that does not start with fewer
counts. -/
theorem ends_block (within : before.Within limit)
    (each : ∀ tally : Tally, tally.Within limit → before.counted ≤ tally.counted →
      ∀ statement, Ends limit (.statement statement) tally) (statements : List Stmt) :
    Ends limit (.block statements) before := by
  induction statements generalizing before with
  | nil => exact ⟨_, _, .empty⟩
  | cons statement rest ih =>
      obtain ⟨ending, middle, first⟩ := each before within (Nat.le_refl _) statement
      by_cases completed : ending = .completed
      · subst completed
        have counts := first.counts within
        have further (tally : Tally) (within : tally.Within limit)
            (more : middle.counted ≤ tally.counted) :=
          each tally within (Nat.le_trans counts.grows more)
        obtain ⟨ending, after, others⟩ := ih (counts.completed rfl) further
        exact ⟨ending, after, .next first others⟩
      · exact ⟨ending, middle, .stop first completed⟩

/-- Every visit ends. The induction is on the budget that is left. -/
theorem ends (within : before.Within limit) (part : Part) : Ends limit part before := by
  induction left : limit.toNat - before.counted using Nat.strongRecOn
    generalizing before part with
  | _ left ih =>
      have later (tally : Tally) (kept : tally.Within limit)
          (more : before.counted < tally.counted) (part : Part) : Ends limit part tally := by
        have counted := kept.counted
        exact ih (limit.toNat - tally.counted) (by omega) kept part rfl
      cases part with
      | statement statement => exact ends_statement within later statement
      | block statements =>
          apply ends_block within
          intro tally kept more
          apply ends_statement kept
          intro other keptOther evenMore
          exact later other keptOther (Nat.lt_of_le_of_lt more evenMore)

/-! ### Visits and walks -/

/-- The statements of a part. -/
def Part.statements : Part → List Stmt
  | .statement visited => [visited]
  | .block visited => visited

/-- The failure with which a visit ends, if it does. -/
def Ending.failure? : Ending → Option Failure
  | .completed | .won => none
  | .failed failure => some failure

/-- The walk from the end of a visit on: over the rest, or not any more. -/
def Ending.resume (limit : Int) (after : Tally) (rest : List Stmt) : Ending → Walk
  | .completed => go limit (limit.toNat - after.counted) rest after.state after.trace
  | .won => ⟨after.state, after.trace, none⟩
  | .failed failure => ⟨after.state, after.trace, some failure⟩

theorem Ending.resume_of_ne {rest : List Stmt} (stopped : ending ≠ .completed) :
    ending.resume limit after rest = ⟨after.state, after.trace, ending.failure?⟩ := by
  cases ending with
  | completed => exact (stopped rfl).elim
  | won | failed => rfl

theorem Ending.resume_nil :
    ending.resume limit after [] = ⟨after.state, after.trace, ending.failure?⟩ := by
  cases ending with
  | completed => rw [resume, go]; rfl
  | won | failed => rfl

/-- The budget left before a count that is not too much. -/
theorem left_eq {tally : Tally} (unspent : tally.counted + 1 ≤ limit) :
    limit.toNat - tally.counted = limit.toNat - (tally.counted + 1) + 1 := by
  omega

theorem left_eq_zero {tally : Tally} (spent : limit < tally.counted + 1) :
    limit.toNat - tally.counted = 0 := by
  omega

/-- A walk with a part in front does what a visit to the part does, and goes on from there. -/
theorem Visits.go_eq (visits : Visits limit part before ending after) (rest : List Stmt) :
    go limit (limit.toNat - before.counted) (part.statements ++ rest) before.state before.trace =
      ending.resume limit after rest := by
  induction visits generalizing rest with
  | empty => rfl
  | @next statement others before middle after ending _ _ firstIH othersIH =>
      exact (firstIH (others ++ rest)).trans (othersIH rest)
  | @stop statement others before after ending _ stopped ih =>
      have behind := ih (others ++ rest)
      rw [Ending.resume_of_ne stopped] at behind ⊢
      exact behind
  | stray => simp only [Part.statements, List.singleton_append, go, Ending.resume]
  | actionSpent spent | choiceSpent spent | loopSpent spent =>
      rw [left_eq_zero spent]
      simp only [Part.statements, List.singleton_append, go, Ending.resume, Tally.count]
  | refused unspent tried =>
      rw [left_eq unspent]
      simp only [Part.statements, List.singleton_append, go, tried, Ending.resume, Tally.refused]
  | @acted name line tally unspent tried =>
      rw [left_eq unspent]
      simp only [Part.statements, List.singleton_append, go, tried]
      split <;> rfl
  | choiceFails unspent failed | loopFails unspent failed =>
      rw [left_eq unspent]
      simp only [Part.statements, List.singleton_append, go, failed, Ending.resume, Tally.count]
  | @choice condition yes no line before after value ending unspent evaluated _ ih =>
      rw [left_eq unspent, ← ih rest]
      simp only [Part.statements, List.singleton_append, go, evaluated]
      rfl
  | leaves unspent evaluated =>
      rw [left_eq unspent]
      simp only [Part.statements, List.singleton_append, go, evaluated]
      rfl
  | @again condition body line before middle after ending unspent evaluated _ _ bodyIH loopIH =>
      rw [left_eq unspent, ← loopIH rest]
      simp only [Part.statements, List.singleton_append, go, evaluated]
      exact bodyIH (.loop condition body line :: rest)
  | @breaks condition body line before after ending unspent evaluated _ stopped ih =>
      have inside := ih (.loop condition body line :: rest)
      rw [Ending.resume_of_ne stopped] at inside ⊢
      rw [left_eq unspent]
      simp only [Part.statements, List.singleton_append, go, evaluated]
      exact inside

/-- `Walks limit program state counts walked` says that a walk over a program counts a number of
times against its budget and ends as given. In a state that is won already nothing is visited. -/
inductive Walks (limit : Int) (program : List Stmt) (state : State) :
    (counts : Nat) → Walk → Prop where
  | won : state.won = true → Walks limit program state 0 ⟨state, #[], none⟩
  | visits {ending : Ending} {after : Tally} : state.won = false →
      Visits limit (.block program) { state } ending after →
        Walks limit program state after.counted ⟨after.state, after.trace, ending.failure?⟩

section Walks

variable {program : List Stmt} {state : State} {counts : Nat} {walked : Walk}

/-- At the start nothing is counted and nothing is recorded. -/
theorem within_start (limit : Int) (state : State) : Tally.Within limit { state } :=
  ⟨Nat.zero_le _, Nat.le_refl 0⟩

theorem Walks.eq_walk (walks : Walks limit program state counts walked) :
    walked = walk limit program state := by
  cases walks with
  | won won => rw [walk, if_pos won]
  | visits unwon visits =>
      have visited := visits.go_eq []
      rw [Ending.resume_nil] at visited
      simp only [Part.statements, List.append_nil, Nat.sub_zero] at visited
      rw [walk, if_neg (by simp [unwon]), visited]

theorem Walks.counts_le (walks : Walks limit program state counts walked) :
    counts ≤ limit.toNat + 1 ∧ walked.trace.size ≤ limit.toNat := by
  cases walks with
  | won => exact ⟨Nat.zero_le _, Nat.zero_le _⟩
  | visits _ visits =>
      have counts := visits.counts (within_start limit state)
      exact ⟨counts.counted, counts.recorded⟩

theorem exists_walks (limit : Int) (program : List Stmt) (state : State) :
    ∃ counts, Walks limit program state counts (walk limit program state) := by
  have exists_some : ∃ counts walked, Walks limit program state counts walked := by
    cases won : state.won with
    | true => exact ⟨_, _, .won won⟩
    | false =>
        obtain ⟨ending, after, visits⟩ := ends (within_start limit state) (.block program)
        exact ⟨_, _, .visits won visits⟩
  obtain ⟨counts, walked, walks⟩ := exists_some
  exact ⟨counts, walks.eq_walk ▸ walks⟩

end Walks

end Walk

/-! ## Both -/

/-- Both ways to run a program terminate. The loop of a machine ends, whatever its instructions, its
place and the state are, and only as the run that is computed; it takes no more steps than its
budget allows. The visits of a walk end, whatever the statements and the state are, and only as the
walk that is computed; they count against the budget at most once more than it allows, and no more
events are recorded than it allows. -/
theorem runs_and_walks_terminate :
    (∀ (machine : Machine) (state : State) (limit : Int),
      (∃ calls, Stage.Loops limit { machine, state } 0 calls (machine.run limit state)) ∧
        ∀ calls run, Stage.Loops limit { machine, state } 0 calls run →
          run = machine.run limit state ∧ (calls : Int) ≤ max 0 limit) ∧
    ∀ (program : List Stmt) (state : State) (limit : Int),
      (∃ counts, Walk.Walks limit program state counts (walk limit program state)) ∧
        ∀ counts walked, Walk.Walks limit program state counts walked →
          walked = walk limit program state ∧ (counts : Int) ≤ max 0 limit + 1 ∧
            (walked.trace.size : Int) ≤ max 0 limit := by
  constructor
  · intro machine state limit
    constructor
    · exact Stage.exists_loops limit.toNat { machine, state } 0 (by simp)
    · intro calls run loops
      obtain ⟨same, few⟩ := loops.finish_eq
      rw [Int.natCast_zero, Int.sub_zero] at same few
      exact ⟨same, by omega⟩
  · intro program state limit
    constructor
    · exact Walk.exists_walks limit program state
    · intro counts walked walks
      obtain ⟨counted, recorded⟩ := walks.counts_le
      exact ⟨walks.eq_walk, by omega, by omega⟩

/-- An instruction that jumps to itself and a loop with nothing in it are ended by the budget. A
budget below zero allows nothing. -/
theorem runs_and_walks_terminate_endless :
    let machine : Machine := .start [.jump 0 7]
    let program : List Stmt := [.loop (.not (.atom "obstacleAhead")) [] 7]
    let state : State := { world := { width := 1, height := 2 }, robot := { cell := ⟨0, 1⟩ } }
    (machine.run 3 state).failure = some ⟨.instructionLimit 3, some 7⟩ ∧
      (∃ calls, Stage.Loops 3 { machine, state } 0 calls (machine.run 3 state) ∧
        (calls : Int) ≤ max 0 3) ∧
      (walk 3 program state).failure = some ⟨.instructionLimit 3, some 7⟩ ∧
        ((walk 3 program state).trace.size : Int) ≤ max 0 3 ∧
      (walk (-3) program state).failure = some ⟨.instructionLimit (-3), some 7⟩ ∧
        ∃ counts, Walk.Walks (-3) program state counts (walk (-3) program state) ∧
          (counts : Int) ≤ max 0 (-3) + 1 := by
  intro machine program state
  obtain ⟨⟨calls, loops⟩, bound⟩ := runs_and_walks_terminate.1 machine state 3
  obtain ⟨⟨counts, walks⟩, walkBound⟩ := runs_and_walks_terminate.2 program state 3
  obtain ⟨⟨fewer, again⟩, nothing⟩ := runs_and_walks_terminate.2 program state (-3)
  refine ⟨by decide +kernel, ⟨calls, loops, (bound _ _ loops).2⟩, by decide +kernel,
    (walkBound _ _ walks).2.2, by decide +kernel, fewer, again, (nothing _ _ again).2.1⟩

end GridRobot
