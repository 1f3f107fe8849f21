import GridRobot.Machine.Step

/-!
# Programs over the vocabulary

A program is known if all its names belong to an action or a sensor and it has no stray part. Its
instructions are known then, and they fail only because of the world: no step of them meets a name
or a part that means nothing.
-/

namespace GridRobot

namespace Stmt

mutual

/-- Whether every name of a statement has a meaning and it has no stray part. -/
def Known : Stmt → Prop
  | .action name _ => ∃ action : Action, action.name = name
  | .choice condition yes no _ => condition.Known ∧ AllKnown yes ∧ OtherKnown no
  | .loop condition body _ => condition.Known ∧ AllKnown body
  | .stray _ => False

/-- Whether every statement of a list is known. -/
def AllKnown : List Stmt → Prop
  | [] => True
  | statement :: rest => statement.Known ∧ AllKnown rest

/-- Whether every statement of the other part of a choice is known. -/
def OtherKnown : Option (List Stmt) → Prop
  | none => True
  | some statements => AllKnown statements

end

end Stmt

/-! ## Instructions -/

/-- Whether every name of an instruction has a meaning. -/
def Instr.Known : Instr → Prop
  | .act name _ => ∃ action : Action, action.name = name
  | .jump _ _ => True
  | .test condition _ _ => condition.Known

namespace Code

/-- Whether every instruction of a list is known. -/
def Known (code : List Instr) : Prop :=
  ∀ instr ∈ code, instr.Known

@[simp] theorem known_nil : Known [] := by
  simp [Known]

@[simp] theorem known_cons (instr : Instr) (rest : List Instr) :
    Known (instr :: rest) ↔ instr.Known ∧ Known rest := by
  simp [Known]

@[simp] theorem known_append (first second : List Instr) :
    Known (first ++ second) ↔ Known first ∧ Known second := by
  simp only [Known, List.mem_append, or_imp, forall_and]

theorem known_assemble (program : List Stmt) (known : Stmt.AllKnown program) (base : Nat) :
    Known (assemble base program) := by
  induction program using Stmt.listInduction generalizing base with
  | nil => simp [assemble]
  | action name line rest ih =>
      simp only [assemble, assembleOne, known_append, known_cons]
      exact ⟨⟨known.1, known_nil⟩, ih known.2 _⟩
  | choice condition yes line rest yesIH restIH =>
      obtain ⟨⟨conditionKnown, yesKnown, -⟩, restKnown⟩ := known
      simp only [assemble, assembleOne, assembleOther, List.cons_append, known_append, known_cons]
      exact ⟨conditionKnown, ⟨yesIH yesKnown _, trivial, known_nil⟩, restIH restKnown _⟩
  | choiceElse condition yes no line rest yesIH noIH restIH =>
      obtain ⟨⟨conditionKnown, yesKnown, noKnown⟩, restKnown⟩ := known
      simp only [assemble, assembleOne, assembleOther, List.cons_append, known_append, known_cons]
      exact ⟨conditionKnown, ⟨yesIH yesKnown _, trivial, noIH noKnown _⟩, restIH restKnown _⟩
  | loop condition body line rest bodyIH restIH =>
      obtain ⟨⟨conditionKnown, bodyKnown⟩, restKnown⟩ := known
      simp only [assemble, assembleOne, List.cons_append, known_append, known_cons]
      exact ⟨conditionKnown, ⟨bodyIH bodyKnown _, trivial, known_nil⟩, restIH restKnown _⟩
  | stray part rest ih => exact known.1.elim

theorem known_compile {program : List Stmt} {code : List Instr}
    (known : Stmt.AllKnown program) (compiled : compile program = .ok code) : Known code := by
  cases whole : Stmt.firstStray? program with
  | some part => simp [compile, whole] at compiled
  | none =>
      rw [compile_of_whole whole] at compiled
      cases compiled
      exact known_assemble program known 0

end Code

/-! ## Faults of known instructions -/

/-- Whether a fault is the world's: an action that could not be done, or no step left. -/
def Fault.OfWorld : Fault → Prop
  | .moveBlocked | .noBeeperHere | .noBeeperInBag | .stepLimit _ => True
  | .instructionLimit _ | .unknownName _ | .notCondition _ | .notCompilable _
  | .notExecutable _ => False

theorem Fault.OfWorld.classified {fault : Fault} (ofWorld : fault.OfWorld) :
    fault.classification?.isNone = false := by
  cases fault with
  | moveBlocked | noBeeperHere | noBeeperInBag | stepLimit limit => rfl
  | instructionLimit limit | unknownName name | notCondition part | notCompilable part
  | notExecutable part => exact ofWorld.elim

theorem Condition.Known.evaluates {condition : Condition} (known : condition.Known)
    (state : State) : ∃ value, condition.evaluate state = .ok value := by
  induction condition with
  | atom name =>
      obtain ⟨sensor, rfl⟩ := known
      exact ⟨sensor.read state, by simp [evaluate]⟩
  | not inner ih =>
      obtain ⟨value, evaluated⟩ := ih known
      exact ⟨!value, by simp [evaluate, evaluated]⟩
  | and left right leftIH rightIH =>
      obtain ⟨first, leftEvaluated⟩ := leftIH known.1
      obtain ⟨second, rightEvaluated⟩ := rightIH known.2
      cases first <;> simp [evaluate, leftEvaluated, rightEvaluated]
  | or left right leftIH rightIH =>
      obtain ⟨first, leftEvaluated⟩ := leftIH known.1
      obtain ⟨second, rightEvaluated⟩ := rightIH known.2
      cases first <;> simp [evaluate, leftEvaluated, rightEvaluated]
  | stray part => exact known.elim

/-- An action that takes no effect was blocked, or lacked a beeper. -/
theorem Action.fault_of_effect {action : Action} {state : State} {fault : Fault}
    (failed : action.effect state = .error fault) :
    fault = .moveBlocked ∨ fault = .noBeeperHere ∨ fault = .noBeeperInBag := by
  cases action with
  | forward =>
      simp only [effect, State.moved] at failed
      split at failed <;> cases failed
      exact .inl rfl
  | turnLeft => cases failed
  | turnRight => cases failed
  | pick =>
      simp only [effect, State.picked] at failed
      split at failed <;> cases failed
      exact .inr (.inl rfl)
  | put =>
      simp only [effect, State.dropped] at failed
      split at failed <;> cases failed
      exact .inr (.inr rfl)

theorem Action.effect_ofWorld {action : Action} {state : State} {fault : Fault}
    (failed : action.effect state = .error fault) : fault.OfWorld := by
  rcases fault_of_effect failed with rfl | rfl | rfl <;> exact trivial

theorem Action.attempt_ofWorld {action : Action} {state : State} {fault : Fault}
    (failed : (action.attempt state).fault = some fault) : fault.OfWorld := by
  rcases action.attempt_cases state with
    ⟨-, tried⟩ | ⟨-, ⟨cause, effect, tried⟩ | ⟨next, -, tried⟩⟩
  · rw [tried] at failed
    cases failed
    exact trivial
  · rw [tried] at failed
    cases failed
    exact effect_ofWorld effect
  · rw [tried] at failed
    cases failed

/-- A known instruction fails only because of the world. -/
theorem Instr.Known.ofWorld {instr : Instr} (known : instr.Known) {machine : Machine}
    {state : State} {fault : Fault}
    (failed : (machine.execute state instr).outcome = .error fault) : fault.OfWorld := by
  cases instr with
  | act name line =>
      obtain ⟨action, rfl⟩ := known
      simp only [Machine.execute, State.act, Action.ofName?_name] at failed
      split at failed
      · next cause tried =>
          cases failed
          exact Action.attempt_ofWorld tried
      · cases failed
  | jump target line => cases failed
  | test condition target line =>
      obtain ⟨value, evaluated⟩ := Condition.Known.evaluates known state
      simp [Machine.execute, evaluated] at failed

/-- A step of known instructions fails only because of the world. -/
theorem Machine.step_ofWorld {machine : Machine} (known : Code.Known machine.code)
    {state : State} {fault : Fault} (failed : (machine.step state).outcome = .error fault) :
    fault.OfWorld := by
  obtain ⟨-, instr, fetched, ran⟩ := step_error failed
  rw [ran] at failed
  refine Instr.Known.ofWorld (known instr ?_) failed
  unfold fetch? at fetched
  split at fetched
  · exact List.mem_of_getElem? fetched
  · cases fetched

end GridRobot
