import GridRobot.Proofs.Forms.Chains
import GridRobot.Session

/-!
# Programs that are read run safely

A program that is read from a source has instructions, whether or not the stack holds it while they
are made, and its machine never leaves them. Every target of a compiled program is one of its places
or the place after them. So, whatever states the machine is handed, it is done or stands at an
instruction, and only the world makes a step fail.
-/

namespace GridRobot

/-! ## Targets -/

/-- Whether the target of an instruction, if it has one, is a place before `stop` or `stop`. -/
def Instr.Within (stop : Nat) : Instr → Prop
  | .act _ _ => True
  | .jump target _ | .test _ target _ => 0 ≤ target ∧ target ≤ stop

theorem Instr.Within.mono {first second : Nat} {instr : Instr} (within : instr.Within first)
    (grows : first ≤ second) : instr.Within second := by
  have larger : (first : Int) ≤ second := Int.ofNat_le.mpr grows
  cases instr with
  | act name line => exact trivial
  | jump target line | test condition target line =>
      exact ⟨within.1, Int.le_trans within.2 larger⟩

namespace Code

/-- Whether every target of a list of instructions is a place before `stop` or `stop`. -/
def Within (stop : Nat) (code : List Instr) : Prop :=
  ∀ instr ∈ code, instr.Within stop

@[simp] theorem within_nil (stop : Nat) : Within stop [] := by
  simp [Within]

@[simp] theorem within_cons (stop : Nat) (instr : Instr) (rest : List Instr) :
    Within stop (instr :: rest) ↔ instr.Within stop ∧ Within stop rest := by
  simp [Within]

@[simp] theorem within_append (stop : Nat) (first second : List Instr) :
    Within stop (first ++ second) ↔ Within stop first ∧ Within stop second := by
  simp only [Within, List.mem_append, or_imp, forall_and]

theorem Within.mono {first second : Nat} {code : List Instr} (within : Within first code)
    (grows : first ≤ second) : Within second code :=
  fun instr among => (within instr among).mono grows

/-- The instructions of a program that starts at a place lead no further than behind its end. -/
theorem within_assemble (program : List Stmt) (base : Nat) :
    Within (base + (assemble base program).length) (assemble base program) := by
  induction program using Stmt.listInduction generalizing base with
  | nil => simp [assemble]
  | action name line rest ih =>
      simp only [assemble, assembleOne, within_append, within_cons, List.length_append]
      exact ⟨⟨trivial, within_nil _⟩, (ih _).mono (by omega)⟩
  | choice condition yes line rest yesIH restIH =>
      simp only [assemble, assembleOne, assembleOther, List.cons_append, within_append, within_cons,
        List.length_append, List.length_cons, List.length_nil, Instr.Within]
      exact ⟨by omega, ⟨(yesIH _).mono (by omega), by omega, within_nil _⟩,
        (restIH _).mono (by omega)⟩
  | choiceElse condition yes no line rest yesIH noIH restIH =>
      simp only [assemble, assembleOne, assembleOther, List.cons_append, within_append, within_cons,
        List.length_append, List.length_cons, Instr.Within]
      exact ⟨by omega, ⟨(yesIH _).mono (by omega), by omega, (noIH _).mono (by omega)⟩,
        (restIH _).mono (by omega)⟩
  | loop condition body line rest bodyIH restIH =>
      simp only [assemble, assembleOne, List.cons_append, within_append, within_cons,
        List.length_append, List.length_cons, List.length_nil, Instr.Within]
      exact ⟨by omega, ⟨(bodyIH _).mono (by omega), by omega, within_nil _⟩,
        (restIH _).mono (by omega)⟩
  | stray part rest ih => simpa [assemble, assembleOne] using ih base

end Code

theorem Stmt.firstStray?_of_known {program : List Stmt} (known : AllKnown program) :
    firstStray? program = none := by
  induction program using listInduction with
  | nil => rfl
  | action name line rest ih => exact ih known.2
  | choice condition yes line rest yesIH restIH =>
      rw [firstStray?_cons_eq_none_iff, stray?_choice_eq_none_iff]
      exact ⟨⟨yesIH known.1.2.1, rfl⟩, restIH known.2⟩
  | choiceElse condition yes no line rest yesIH noIH restIH =>
      rw [firstStray?_cons_eq_none_iff, stray?_choice_eq_none_iff]
      exact ⟨⟨yesIH known.1.2.1, noIH known.1.2.2⟩, restIH known.2⟩
  | loop condition body line rest bodyIH restIH =>
      rw [firstStray?_cons_eq_none_iff]
      exact ⟨bodyIH known.1.2, restIH known.2⟩
  | stray part rest ih => exact known.1.elim

theorem Code.compile_of_known {program : List Stmt} (known : Stmt.AllKnown program) :
    compile program = .ok (assemble 0 program) :=
  compile_of_whole (Stmt.firstStray?_of_known known)

/-! ## Machines -/

namespace Machine

/-- Whether a machine is done or stands at one of its instructions, and will always. -/
structure InRange (machine : Machine) : Prop where
  within : Code.Within machine.code.length machine.code
  low : 0 ≤ machine.place
  high : machine.place ≤ machine.code.length
  running : machine.done = false → machine.place < machine.code.length

namespace InRange

variable {machine : Machine}

theorem start {code : List Instr} (within : Code.Within code.length code) :
    InRange (Machine.start code) where
  within := within
  low := Int.le_refl 0
  high := Int.natCast_nonneg _
  running := by
    intro running
    have filled : code ≠ [] := by simpa [Machine.start] using running
    exact Int.natCast_pos.mpr (List.length_pos_iff.mpr filled)

theorem goto (inRange : machine.InRange) {place : Int} (low : 0 ≤ place)
    (high : place ≤ machine.code.length) (won : Bool) : (machine.goto place won).InRange where
  within := inRange.within
  low := low
  high := high
  running := by
    intro running
    have inside : ¬ (machine.code.length : Int) ≤ place := by
      simp [Machine.goto] at running
      omega
    exact Int.not_le.mp inside

theorem fetch (inRange : machine.InRange) (running : machine.done = false) :
    ∃ instr, machine.fetch? = some instr ∧ instr ∈ machine.code := by
  have low := inRange.low
  have inside := inRange.running running
  have bound : machine.place.toNat < machine.code.length := by omega
  refine ⟨machine.code[machine.place.toNat], ?_, List.getElem_mem bound⟩
  simp [fetch?, low, bound]

theorem execute (inRange : machine.InRange) (running : machine.done = false) {instr : Instr}
    (among : instr ∈ machine.code) (state : State) :
    (machine.execute state instr).machine.InRange := by
  have inside := inRange.running running
  have low := inRange.low
  have target := inRange.within instr among
  unfold Machine.execute
  cases instr with
  | act name line =>
      dsimp only
      split
      · exact inRange
      · exact inRange.goto (by omega) (by omega) _
  | jump place line => exact inRange.goto target.1 target.2 _
  | test condition place line =>
      dsimp only
      split
      · exact inRange
      · next value _ =>
          cases value
          · exact inRange.goto target.1 target.2 _
          · exact inRange.goto (by simp; omega) (by simp; omega) _

theorem step (inRange : machine.InRange) (state : State) :
    (machine.step state).machine.InRange := by
  rcases step_cases machine state with idle | ⟨instr, running, fetched, ran⟩
  · rw [idle]
    exact ⟨inRange.within, inRange.low, inRange.high, by simp⟩
  · obtain ⟨found, same, among⟩ := inRange.fetch running
    rw [fetched] at same
    cases same
    rw [ran]
    exact inRange.execute running among state

end InRange

/-- A machine after steps that are handed one state each. -/
def after (machine : Machine) (states : List State) : Machine :=
  states.foldl (fun machine state => (machine.step state).machine) machine

@[simp] theorem after_code (machine : Machine) (states : List State) :
    (machine.after states).code = machine.code := by
  induction states generalizing machine with
  | nil => rfl
  | cons state rest ih => rw [after, List.foldl_cons, ← after, ih, step_code]

theorem InRange.after {machine : Machine} (inRange : machine.InRange) (states : List State) :
    (machine.after states).InRange := by
  induction states generalizing machine with
  | nil => exact inRange
  | cons state rest ih => exact ih (inRange.step state)

end Machine

/-- What a source is read as, on whatever stack, cannot go wrong. It is a proper program and it
compiles, unless the stack gives it up. Let its machine take any number of steps, each with a state
of its own: then its place is among its instructions or at their end, and unless it is done there is
an instruction there, which has a line and which the next step runs in a state that is not won. Only
the world makes a step fail. -/
theorem Source.program_runs_safely {stack : Stack} {source : String} {program : List Stmt}
    (read : Source.program stack source = .ok program) :
    Stmt.AllProper program ∧
    ∃ code, Code.compile program = .ok code ∧
      Session.compile stack program =
        (if stack.program program then .error .nestedTooDeeply else .ok code) ∧
      ∀ states, let machine := (Machine.start code).after states
        machine.code = code ∧ 0 ≤ machine.place ∧ machine.place ≤ code.length ∧
        (machine.done = false → machine.place < code.length ∧
          ∃ instr, machine.fetch? = some instr ∧ machine.currentLine? = some instr.line ∧
            ∀ state, state.won = false → machine.step state = machine.execute state instr) ∧
        ∀ state fault, (machine.step state).outcome = .error fault → fault.OfWorld := by
  have proper := proper_program read
  have known := Code.known_assemble program proper.known 0
  have within := Code.within_assemble program 0
  rw [Nat.zero_add] at within
  have compiled := Code.compile_of_known proper.known
  refine ⟨proper, _, compiled, by rw [Session.compile, compiled]; rfl, fun states => ?_⟩
  have inRange := (Machine.InRange.start within).after states
  have code := Machine.after_code (Machine.start (Code.assemble 0 program)) states
  have ⟨_, low, high, running⟩ := inRange
  rw [code] at high running
  refine ⟨code, low, high, fun notDone => ⟨running notDone, ?_⟩, fun state fault failed => ?_⟩
  · obtain ⟨instr, fetched, -⟩ := inRange.fetch notDone
    refine ⟨instr, fetched, by simp [Machine.currentLine?, notDone, fetched], ?_⟩
    exact fun state unwon => Machine.step_of_fetch notDone unwon fetched
  · exact Machine.step_ofWorld (code ▸ known) failed

/-- A loop around a choice whose other part is empty. -/
def loopSource : String :=
  "program main \x7b\n" ++
  "  while !won \x7b if obstacleAhead \x7b turnLeft; \x7d else \x7b\x7d forward \x7d\n" ++
  "\x7d\n" ++
  "active main."

theorem Source.loopSource_runs_safely :
    ∃ program code, Source.program .usual loopSource = .ok program ∧ Stmt.AllProper program ∧
      Code.compile program = .ok code ∧
        ∀ states, let machine := (Machine.start code).after states
          machine.done = false → machine.place < code.length := by
  have accepted : (Source.program .usual loopSource).isOk = true := by decide +kernel
  cases read : Source.program .usual loopSource with
  | error fault =>
      rw [read] at accepted
      cases accepted
  | ok program =>
      obtain ⟨proper, code, compiled, -, runs⟩ := program_runs_safely read
      exact ⟨program, code, rfl, proper, compiled, fun states running =>
        ((runs states).2.2.2.1 running).1⟩

/-- A chain of choices that is read but not compiled. Reading takes no brace inside another one for
it, but compiling goes down its choices. -/
theorem Source.chain_read_but_not_compiled :
    Source.program .usual (Source.around (Stmt.chainLine 600)) = .ok [Stmt.chain 600] ∧
      Session.compile .usual [Stmt.chain 600] = .error .nestedTooDeeply := by
  refine ⟨Stmt.program_chain 600, if_pos ?_⟩
  simp [Stack.usual, Stmt.levels, Stmt.levelsOf_chain]

end GridRobot
