import GridRobot.Machine.Walk

/-!
# Compiled programs and walks

A program can be run as instructions, or by walking over its statements. Both ways end alike, but
they count differently: a machine spends its budget on jumps as well.

`Follows` ties a place in the instructions to the statements that a walk still has to run there. It
also counts the jumps that belong to blocks already entered. Each of them was paid for by a test
that held, so a machine never needs more than twice the budget of the walk.
-/

namespace GridRobot

namespace Code

/-- Whether some instructions stand in a list of instructions from a place on. -/
def Holds (code : List Instr) : (place : Nat) → List Instr → Prop
  | _, [] => True
  | place, instr :: rest => code[place]? = some instr ∧ Holds code (place + 1) rest

@[simp] theorem holds_append (code : List Instr) (place : Nat) (first second : List Instr) :
    Holds code place (first ++ second) ↔
      Holds code place first ∧ Holds code (place + first.length) second := by
  induction first generalizing place with
  | nil => simp [Holds]
  | cons instr rest ih =>
      simp only [List.cons_append, Holds, ih, List.length_cons, and_assoc]
      rw [Nat.add_assoc, Nat.add_comm 1]

theorem holds_suffix (earlier part : List Instr) :
    Holds (earlier ++ part) earlier.length part := by
  induction part generalizing earlier with
  | nil => exact trivial
  | cons instr rest ih =>
      constructor
      · simp
      · simpa using ih (earlier ++ [instr])

end Code

open Code

/-- `Follows code place jumps pending` says that a machine at a place of its instructions has the
pending statements still to run, with a number of jumps out of blocks on the way. -/
inductive Follows (code : List Instr) : (place jumps : Nat) → (pending : List Stmt) → Prop where
  | finish : Follows code code.length 0 []
  | jump {place target jumps : Nat} {line : Int} {pending : List Stmt} :
      code[place]? = some (.jump target line) → Follows code target jumps pending →
        Follows code place (jumps + 1) pending
  | statement {place jumps : Nat} {statement : Stmt} {rest : List Stmt} :
      statement.stray? = none → Holds code place (assembleOne place statement) →
        Follows code (place + (assembleOne place statement).length) jumps rest →
          Follows code place jumps (statement :: rest)

namespace Follows

variable {code : List Instr} {place jumps : Nat} {rest : List Stmt}

theorem of_place_eq {here : Nat} {pending : List Stmt} (follows : Follows code here jumps pending)
    (equal : here = place) : Follows code place jumps pending :=
  equal ▸ follows

/-- The instructions of a block lead on to what follows it. -/
theorem block {statements : List Stmt} (whole : Stmt.firstStray? statements = none)
    (held : Holds code place (assemble place statements))
    (after : Follows code (place + (assemble place statements).length) jumps rest) :
    Follows code place jumps (statements ++ rest) := by
  induction statements generalizing place with
  | nil => simpa [assemble] using after
  | cons statement others ih =>
      rw [Stmt.firstStray?_cons_eq_none_iff] at whole
      simp only [assemble, holds_append, List.length_append] at held after
      refine .statement whole.1 held.1 (ih whole.2 held.2 ?_)
      rwa [Nat.add_assoc]

/-- Every statement has an instruction to start with. -/
theorem fetch_statement {statement : Stmt} (whole : statement.stray? = none)
    (held : Holds code place (assembleOne place statement)) :
    ∃ instr, code[place]? = some instr := by
  cases statement with
  | action name line => exact ⟨_, held.1⟩
  | choice condition yes no line => exact ⟨_, held.1⟩
  | loop condition body line => exact ⟨_, held.1⟩
  | stray part => simp [Stmt.stray?] at whole

/-- The other part of a choice leads on to what follows the choice. -/
theorem other {no : Option (List Stmt)} (whole : Stmt.otherStray? no = none)
    (held : Holds code place (assembleOther place no))
    (after : Follows code (place + (assembleOther place no).length) jumps rest) :
    Follows code place jumps (no.getD [] ++ rest) := by
  cases no with
  | none => simpa [assembleOther] using after
  | some statements => exact block whole held after

end Follows

/-- `Branches code place jumps condition line yes no` says that a machine at a place of its
instructions tests a condition, and has the one or the other list of statements to run then. -/
def Branches (code : List Instr) (place jumps : Nat) (condition : Condition) (line : Int)
    (yes no : List Stmt) : Prop :=
  ∃ target : Nat, code[place]? = some (.test condition target line) ∧
    Follows code (place + 1) (jumps + 1) yes ∧ Follows code target jumps no

namespace Follows

variable {code : List Instr} {place jumps : Nat} {rest : List Stmt}
variable {condition : Condition} {line : Int}

theorem branches_choice {yes : List Stmt} {no : Option (List Stmt)}
    (whole : (Stmt.choice condition yes no line).stray? = none)
    (held : Holds code place (assembleOne place (.choice condition yes no line)))
    (after : Follows code (place + (assembleOne place (.choice condition yes no line)).length)
      jumps rest) :
    Branches code place jumps condition line (yes ++ rest) (no.getD [] ++ rest) := by
  rw [Stmt.stray?_choice_eq_none_iff] at whole
  simp only [assembleOne, List.cons_append, Holds, holds_append, List.length_cons,
    List.length_append] at held after
  obtain ⟨testHeld, yesHeld, jumpHeld, noHeld⟩ := held
  generalize middleEqual : place + 1 + (assemble (place + 1) yes).length + 1 = middle at *
  have afterOther : Follows code (middle + (assembleOther middle no).length) jumps rest :=
    after.of_place_eq (by omega)
  rw [← Int.natCast_add] at jumpHeld
  exact ⟨middle, testHeld, block whole.1 yesHeld (.jump jumpHeld afterOther),
    other whole.2 noHeld afterOther⟩

theorem branches_loop {body : List Stmt}
    (whole : (Stmt.loop condition body line).stray? = none)
    (held : Holds code place (assembleOne place (.loop condition body line)))
    (after : Follows code (place + (assembleOne place (.loop condition body line)).length)
      jumps rest) :
    Branches code place jumps condition line (body ++ .loop condition body line :: rest)
      rest := by
  have again : Follows code place jumps (.loop condition body line :: rest) :=
    .statement whole held after
  simp only [assembleOne, List.cons_append, Holds, holds_append, List.length_cons,
    List.length_append, List.length_nil] at held after
  obtain ⟨testHeld, bodyHeld, jumpHeld, -⟩ := held
  refine ⟨place + 1 + (assemble (place + 1) body).length + 1, ?_,
    block whole bodyHeld (.jump jumpHeld again), after.of_place_eq (by omega)⟩
  exact_mod_cast testHeld

end Follows

/-! ## Machines at a place -/

namespace Machine

/-- The machine at a place of its instructions, in a state that is not won. -/
def atPlace (code : List Instr) (place : Nat) : Machine :=
  { code, place, done := code.length ≤ place }

theorem start_eq_atPlace (code : List Instr) : start code = atPlace code 0 := by
  cases code <;> simp [start, atPlace]

@[simp] theorem fetch?_atPlace (code : List Instr) (place : Nat) :
    (atPlace code place).fetch? = code[place]? := by
  simp [fetch?, atPlace]

@[simp] theorem goto_atPlace (code : List Instr) (place target : Nat) :
    (atPlace code place).goto target false = atPlace code target := by
  simp [goto, atPlace]

theorem atPlace_running {code : List Instr} {place : Nat} {instr : Instr}
    (fetched : code[place]? = some instr) : (atPlace code place).done = false := by
  obtain ⟨inside, -⟩ := List.getElem?_eq_some_iff.mp fetched
  simpa [atPlace] using inside

theorem step_atPlace {code : List Instr} {place : Nat} {instr : Instr} {state : State}
    (fetched : code[place]? = some instr) (unwon : state.won = false) :
    (atPlace code place).step state = (atPlace code place).execute state instr :=
  step_of_fetch (atPlace_running fetched) unwon (by simpa using fetched)

variable {code : List Instr} {place target budget : Nat} {line limit : Int}
variable {state : State} {trace : Array Event}

theorem runFrom_jump (fetched : code[place]? = some (.jump target line))
    (unwon : state.won = false) :
    (atPlace code place).runFrom limit (budget + 1) state trace =
      (atPlace code target).runFrom limit budget state trace := by
  have stepped := step_atPlace fetched unwon
  simp only [execute, unwon, goto_atPlace] at stepped
  rw [runFrom_ok (atPlace_running fetched) (congrArg Stepped.outcome stepped), stepped]
  rfl

theorem runFrom_act_error {name : String} {fault : Fault}
    (fetched : code[place]? = some (.act name line)) (unwon : state.won = false)
    (failed : (state.act name).fault = some fault) :
    (atPlace code place).runFrom limit (budget + 1) state trace =
      ⟨atPlace code place, (state.act name).state, trace, some ⟨fault, none⟩⟩ := by
  have stepped := step_atPlace fetched unwon
  simp only [execute, failed] at stepped
  rw [runFrom_error (atPlace_running fetched) (congrArg Stepped.outcome stepped), stepped]

theorem runFrom_act {name : String}
    (fetched : code[place]? = some (.act name line)) (unwon : state.won = false)
    (succeeded : (state.act name).fault = none) :
    (atPlace code place).runFrom limit (budget + 1) state trace =
      ((atPlace code place).goto (place + 1) (state.act name).state.won).runFrom limit budget
        (state.act name).state (trace.push (.act line name)) := by
  have stepped := step_atPlace fetched unwon
  simp only [execute, succeeded] at stepped
  rw [runFrom_ok (atPlace_running fetched) (congrArg Stepped.outcome stepped), stepped]
  rfl

theorem runFrom_test_error {condition : Condition} {fault : Fault}
    (fetched : code[place]? = some (.test condition target line)) (unwon : state.won = false)
    (failed : condition.evaluate state = .error fault) :
    (atPlace code place).runFrom limit (budget + 1) state trace =
      ⟨atPlace code place, state, trace, some ⟨fault, none⟩⟩ := by
  have stepped := step_atPlace fetched unwon
  simp only [execute, failed] at stepped
  rw [runFrom_error (atPlace_running fetched) (congrArg Stepped.outcome stepped), stepped]

theorem runFrom_test {condition : Condition} {value : Bool}
    (fetched : code[place]? = some (.test condition target line)) (unwon : state.won = false)
    (succeeded : condition.evaluate state = .ok value) :
    (atPlace code place).runFrom limit (budget + 1) state trace =
      (atPlace code (if value then place + 1 else target)).runFrom limit budget state
        (trace.push (.test line value)) := by
  have stepped := step_atPlace fetched unwon
  simp only [execute, succeeded, unwon] at stepped
  rw [runFrom_ok (atPlace_running fetched) (congrArg Stepped.outcome stepped), stepped]
  cases value with
  | false => simp [observe, Executed.event?]
  | true =>
      have next : (atPlace code place).goto ((atPlace code place).place + 1) false =
          atPlace code (place + 1) := goto_atPlace code place (place + 1)
      simp [next, observe, Executed.event?]

end Machine

/-! ## Runs and walks that end alike -/

/-- Whether a failure says that a budget is used up. -/
def BudgetSpent (failure : Option Failure) : Prop :=
  ∃ limit line, failure = some ⟨.instructionLimit limit, line⟩

/-- A run and a walk end alike if they end in the same state, after the same events, and with the
same failure, if any. -/
structure EndsAlike (run : Run) (walked : Walk) : Prop where
  state : run.state = walked.state
  trace : run.trace = walked.trace
  failure : run.failure = walked.failure

/-- Whether the end of a run or the end of a walk decides how the other ends. A run decides for a
walk with at least the same budget, and a walk for a run with at least twice the budget and one more
for each jump out of a block. -/
def Decisive (budget left jumps : Nat) (run : Run) (walked : Walk) : Prop :=
  (budget ≤ left ∧ ¬ BudgetSpent run.failure) ∨
    (2 * left + jumps ≤ budget ∧ ¬ BudgetSpent walked.failure)

theorem Machine.runFrom_spent {code : List Instr} {place : Nat} {instr : Instr} {limit : Int}
    {state : State} {trace : Array Event} (fetched : code[place]? = some instr) :
    BudgetSpent ((atPlace code place).runFrom limit 0 state trace).failure := by
  rw [runFrom_zero (atPlace_running fetched)]
  exact ⟨_, _, rfl⟩

namespace Decisive

variable {budget left jumps : Nat} {run : Run} {walked : Walk}

theorem after_jump (decisive : Decisive (budget + 1) left (jumps + 1) run walked) :
    Decisive budget left jumps run walked := by
  rcases decisive with ⟨enough, ended⟩ | ⟨enough, ended⟩
  · exact .inl ⟨by omega, ended⟩
  · exact .inr ⟨by omega, ended⟩

theorem after_count {next : Nat}
    (decisive : Decisive (budget + 1) (left + 1) jumps run walked) (paid : next ≤ jumps + 1) :
    Decisive budget left next run walked := by
  rcases decisive with ⟨enough, ended⟩ | ⟨enough, ended⟩
  · exact .inl ⟨by omega, ended⟩
  · exact .inr ⟨by omega, ended⟩

end Decisive

namespace Walk

variable {limit line : Int} {left : Nat} {rest : List Stmt} {state : State}
variable {trace : Array Event} {condition : Condition}

theorem go_spent {statement : Stmt} (whole : statement.stray? = none) :
    BudgetSpent (go limit 0 (statement :: rest) state trace).failure := by
  cases statement with
  | action name line => exact ⟨limit, some line, by simp [go]⟩
  | choice condition yes no line => exact ⟨limit, some line, by simp [go]⟩
  | loop condition body line => exact ⟨limit, some line, by simp [go]⟩
  | stray part => simp [Stmt.stray?] at whole

/-- `TestsFirst pending condition line yes no` says that a walk over the pending statements first
tests a condition, and goes on with the one or the other list of statements. -/
def TestsFirst (pending : List Stmt) (condition : Condition) (line : Int)
    (yes no : List Stmt) : Prop :=
  ∀ (limit : Int) (left : Nat) (state : State) (trace : Array Event),
    go limit (left + 1) pending state trace =
      match condition.evaluate state with
      | .error fault => ⟨state, trace, some ⟨fault, none⟩⟩
      | .ok value =>
          go limit left (if value then yes else no) state (trace.push (.test line value))

theorem testsFirst_choice (yes : List Stmt) (no : Option (List Stmt)) :
    TestsFirst (.choice condition yes no line :: rest) condition line (yes ++ rest)
      (no.getD [] ++ rest) := by
  intro limit left state trace
  rw [go]
  cases condition.evaluate state with
  | error fault => rfl
  | ok value => cases value <;> rfl

theorem testsFirst_loop (body : List Stmt) :
    TestsFirst (.loop condition body line :: rest) condition line
      (body ++ .loop condition body line :: rest) rest := by
  intro limit left state trace
  cases evaluated : condition.evaluate state with
  | error fault => simp only [go, evaluated]
  | ok value => simp only [go, evaluated]

end Walk

/-! ## The simulation -/

/-- A machine with a given budget ends like every walk over the statements that follow its place, as
soon as one of the two decides. -/
def Simulates (code : List Instr) (runLimit walkLimit : Int) (budget : Nat) : Prop :=
  ∀ {place jumps left : Nat} {pending : List Stmt} {state : State} {trace : Array Event},
    Follows code place jumps pending → state.won = false →
      Decisive budget left jumps
          ((Machine.atPlace code place).runFrom runLimit budget state trace)
          (Walk.go walkLimit left pending state trace) →
        EndsAlike ((Machine.atPlace code place).runFrom runLimit budget state trace)
          (Walk.go walkLimit left pending state trace)

namespace Simulates

variable {code : List Instr} {runLimit walkLimit line : Int} {place jumps left budget : Nat}
variable {rest pending yes no : List Stmt} {state : State} {trace : Array Event}
variable {condition : Condition}

theorem action {name : String} (next : Simulates code runLimit walkLimit budget)
    (fetched : code[place]? = some (.act name line))
    (after : Follows code (place + 1) jumps rest) (unwon : state.won = false)
    (decisive : Decisive (budget + 1) (left + 1) jumps
      ((Machine.atPlace code place).runFrom runLimit (budget + 1) state trace)
      (Walk.go walkLimit (left + 1) (.action name line :: rest) state trace)) :
    EndsAlike ((Machine.atPlace code place).runFrom runLimit (budget + 1) state trace)
      (Walk.go walkLimit (left + 1) (.action name line :: rest) state trace) := by
  rw [Walk.go] at decisive ⊢
  cases failed : (state.act name).fault with
  | some fault =>
      rw [Machine.runFrom_act_error fetched unwon failed]
      exact ⟨rfl, rfl, rfl⟩
  | none =>
      rw [Machine.runFrom_act fetched unwon failed] at decisive ⊢
      simp only [failed] at decisive ⊢
      cases won : (state.act name).state.won with
      | true =>
          rw [Machine.runFrom_done (by simp [Machine.goto])]
          exact ⟨rfl, rfl, rfl⟩
      | false =>
          have moved : (Machine.atPlace code place).goto (place + 1) false =
              Machine.atPlace code (place + 1) := Machine.goto_atPlace code place (place + 1)
          simp only [won, moved] at decisive ⊢
          exact next after won (decisive.after_count (by omega))

theorem test (next : Simulates code runLimit walkLimit budget)
    (branches : Branches code place jumps condition line yes no)
    (testsFirst : Walk.TestsFirst pending condition line yes no) (unwon : state.won = false)
    (decisive : Decisive (budget + 1) (left + 1) jumps
      ((Machine.atPlace code place).runFrom runLimit (budget + 1) state trace)
      (Walk.go walkLimit (left + 1) pending state trace)) :
    EndsAlike ((Machine.atPlace code place).runFrom runLimit (budget + 1) state trace)
      (Walk.go walkLimit (left + 1) pending state trace) := by
  obtain ⟨target, fetched, yesFollows, noFollows⟩ := branches
  rw [testsFirst] at decisive ⊢
  cases tested : condition.evaluate state with
  | error fault =>
      rw [Machine.runFrom_test_error fetched unwon tested]
      exact ⟨rfl, rfl, rfl⟩
  | ok value =>
      rw [Machine.runFrom_test fetched unwon tested] at decisive ⊢
      simp only [tested] at decisive ⊢
      cases value with
      | false => exact next noFollows unwon (decisive.after_count (by omega))
      | true => exact next yesFollows unwon (decisive.after_count (by omega))

theorem finish :
    EndsAlike ((Machine.atPlace code code.length).runFrom runLimit budget state trace)
      (Walk.go walkLimit left [] state trace) := by
  rw [Machine.runFrom_done (by simp [Machine.atPlace]), Walk.go]
  exact ⟨rfl, rfl, rfl⟩

/-- Without budget, neither a machine nor a walk decides anything before its end. -/
theorem zero : Simulates code runLimit walkLimit 0 := by
  intro place jumps left pending state trace follows unwon decisive
  cases follows with
  | finish => exact finish
  | jump fetched after =>
      rcases decisive with ⟨-, ended⟩ | ⟨enough, -⟩
      · exact (ended (Machine.runFrom_spent fetched)).elim
      · omega
  | statement whole held after =>
      obtain ⟨instr, fetched⟩ := Follows.fetch_statement whole held
      rcases decisive with ⟨-, ended⟩ | ⟨enough, ended⟩
      · exact (ended (Machine.runFrom_spent fetched)).elim
      · obtain rfl : left = 0 := by omega
        exact (ended (Walk.go_spent whole)).elim

theorem all (budget : Nat) : Simulates code runLimit walkLimit budget := by
  induction budget with
  | zero => exact zero
  | succ budget next =>
      intro place jumps left pending state trace follows unwon decisive
      cases follows with
      | finish => exact finish
      | jump fetched after =>
          rw [Machine.runFrom_jump fetched unwon] at decisive ⊢
          exact next after unwon decisive.after_jump
      | @statement _ _ statement rest whole held after =>
          cases left with
          | zero =>
              rcases decisive with ⟨enough, -⟩ | ⟨-, ended⟩
              · omega
              · exact (ended (Walk.go_spent whole)).elim
          | succ left =>
              cases statement with
              | action name line => exact next.action held.1 after unwon decisive
              | choice condition yes no line =>
                  exact next.test (Follows.branches_choice whole held after)
                    (Walk.testsFirst_choice yes no) unwon decisive
              | loop condition body line =>
                  exact next.test (Follows.branches_loop whole held after)
                    (Walk.testsFirst_loop body) unwon decisive
              | stray part => simp [Stmt.stray?] at whole

end Simulates

/-! ## Whole programs -/

/-- A program without stray parts has instructions, and a machine at their start has the whole
program to run. -/
theorem Code.compile_follows {program : List Stmt}
    (whole : Stmt.firstStray? program = none) :
    ∃ code, Code.compile program = .ok code ∧ Follows code 0 0 program := by
  refine ⟨assemble 0 program, compile_of_whole whole, ?_⟩
  have held : Holds (assemble 0 program) 0 (assemble 0 program) :=
    holds_suffix [] (assemble 0 program)
  simpa using Follows.block whole held (Follows.finish.of_place_eq (by simp))

/-- On a state that is won already, a machine ends at once, if its budget allows a single step. -/
theorem Machine.runFrom_won {limit : Int} {budget : Nat} {machine : Machine} {state : State}
    {trace : Array Event} (won : state.won = true)
    (ended : ¬ BudgetSpent (machine.runFrom limit budget state trace).failure ∨ 0 < budget) :
    EndsAlike (machine.runFrom limit budget state trace) ⟨state, trace, none⟩ := by
  cases running : machine.done with
  | true =>
      rw [runFrom_done running]
      exact ⟨rfl, rfl, rfl⟩
  | false =>
      cases budget with
      | zero =>
          rcases ended with ended | positive
          · rw [runFrom_zero running] at ended
            exact (ended ⟨_, _, rfl⟩).elim
          · omega
      | succ budget =>
          have stepped : machine.step state = _ := step_of_idle (.inr won)
          rw [runFrom_ok running (congrArg Stepped.outcome stepped), stepped,
            runFrom_done rfl]
          exact ⟨rfl, rfl, rfl⟩

/-- A machine that runs the instructions of a program ends like a walk over the program. If a run
ends within its budget, so does a walk with that budget, in the same way; and if a walk ends within
its budget, so does a run with twice that budget. -/
theorem compiled_run_endsAlike_walk (program : List Stmt)
    (whole : Stmt.firstStray? program = none) :
    ∃ code, Code.compile program = .ok code ∧ ∀ (limit : Int) (state : State),
      (¬ BudgetSpent ((Machine.start code).run limit state).failure →
        EndsAlike ((Machine.start code).run limit state) (walk limit program state)) ∧
      (1 ≤ limit → ¬ BudgetSpent (walk limit program state).failure →
        EndsAlike ((Machine.start code).run (2 * limit) state) (walk limit program state)) := by
  obtain ⟨code, compiled, follows⟩ := Code.compile_follows whole
  refine ⟨code, compiled, ?_⟩
  intro limit state
  cases won : state.won with
  | true =>
      simp only [walk, won, Machine.run]
      constructor
      · intro ended
        exact Machine.runFrom_won won (.inl ended)
      · intro positive _
        exact Machine.runFrom_won won (.inr (by omega))
  | false =>
      rw [Machine.start_eq_atPlace]
      simp only [walk, won, Machine.run]
      constructor
      · intro ended
        exact Simulates.all limit.toNat follows won (.inl ⟨by omega, ended⟩)
      · intro positive ended
        exact Simulates.all (2 * limit).toNat follows won (.inr ⟨by omega, ended⟩)

theorem compiled_run_endsAlike_walk_nested :
    let program : List Stmt :=
      [.loop (.not (.atom "beepersHere"))
        [.choice (.not (.atom "obstacleAhead")) [.action "forward" 3]
          (some [.action "turnLeft" 5, .action "forward" 6]) 2] 1]
    let corridor : State :=
      { world := { width := 1, height := 3, winRow := 5 }, robot := { cell := ⟨0, 2⟩ } }
    Stmt.firstStray? program = none ∧
      (walk 10 program corridor).failure = some ⟨.moveBlocked, none⟩ ∧
        ∃ code, Code.compile program = .ok code ∧
          EndsAlike ((Machine.start code).run 20 corridor) (walk 10 program corridor) := by
  intro program corridor
  have whole : Stmt.firstStray? program = none := by decide +kernel
  have failed : (walk 10 program corridor).failure = some ⟨.moveBlocked, none⟩ := by
    decide +kernel
  obtain ⟨code, compiled, agree⟩ := compiled_run_endsAlike_walk program whole
  refine ⟨whole, failed, code, compiled, (agree 10 corridor).2 (by decide) ?_⟩
  rintro ⟨limit, line, spent⟩
  rw [failed] at spent
  cases spent

end GridRobot
