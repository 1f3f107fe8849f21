import GridRobot.Proofs.Connectivity
import GridRobot.Proofs.Replay
import Mathlib.Logic.Function.Iterate

/-!
# Winning happens once

A robot wins when it steps forward into the win row, and only then. The flag that notes the win is
never taken back, the log gets one entry for it, and the machine whose instruction won is done with
that very step. Whatever is tried afterwards, no second win is noted: a machine runs nothing more,
and actions tried without one leave flag and log alone.
-/

namespace GridRobot

namespace State

/-! ## Attempts -/

/-- `before.Wins after` says that the robot has stepped forward into the win row, and that this was
noted for the first time. -/
structure Wins (before after : State) : Prop where
  free : before.world.blocked before.robot.cell before.robot.facing = false
  robot : after.robot = { before.robot with
    cell := before.robot.cell.neighbour before.robot.facing }
  row : after.robot.cell.y = after.world.winRow
  unwon : before.won = false
  won : after.won = true
  log : after.log = before.log ++ [winEntry]

/-- Noting a win sets the flag and adds the entry, or changes nothing. -/
theorem noteWin_cases (state : State) :
    (state.won = false ∧ state.robot.cell.y = state.world.winRow ∧ state.noteWin.won = true ∧
        state.noteWin.log = state.log ++ [winEntry]) ∨
      state.noteWin = state := by
  unfold noteWin
  split
  · next wins =>
      left
      simp only [Bool.and_eq_true, Bool.not_eq_true', beq_iff_eq] at wins
      exact ⟨wins.1, wins.2, rfl, rfl⟩
  · exact .inr rfl

end State

/-- An action that takes effect wins by a step forward, or it leaves flag and log alone. -/
theorem Action.effect_wins {action : Action} {before after : State}
    (took : action.effect before = .ok after) :
    (action = .forward ∧ before.Wins after) ∨
      (after.won = before.won ∧ after.log = before.log) := by
  cases action with
  | forward =>
      obtain ⟨free, rfl⟩ := State.moved_eq_ok_iff.mp took
      rcases State.noteWin_cases { before with
          robot := { before.robot with
            cell := before.robot.cell.neighbour before.robot.facing } } with
        ⟨unwon, row, won, log⟩ | same
      · left
        constructor
        · rfl
        · exact ⟨free, by simp, by simpa using row, unwon, won, log⟩
      · right
        rw [same]
        exact ⟨rfl, rfl⟩
  | turnLeft =>
      cases took
      exact .inr ⟨rfl, rfl⟩
  | turnRight =>
      cases took
      exact .inr ⟨rfl, rfl⟩
  | pick =>
      obtain ⟨-, rfl⟩ := State.picked_eq_ok_iff.mp took
      exact .inr ⟨rfl, rfl⟩
  | put =>
      obtain ⟨-, rfl⟩ := State.dropped_eq_ok_iff.mp took
      exact .inr ⟨rfl, rfl⟩

/-- An attempt wins by a step forward that does not fail, or it leaves flag and log alone. -/
theorem Action.attempt_wins (action : Action) (state : State) :
    (action = .forward ∧ (action.attempt state).fault = none ∧
        state.Wins (action.attempt state).state) ∨
      ((action.attempt state).state.won = state.won ∧
        (action.attempt state).state.log = state.log) := by
  rcases action.attempt_cases state with
    ⟨-, tried⟩ | ⟨-, ⟨fault, -, tried⟩ | ⟨next, took, tried⟩⟩
  · rw [tried]
    exact .inr ⟨rfl, rfl⟩
  · rw [tried]
    exact .inr ⟨rfl, rfl⟩
  · rw [tried]
    rcases effect_wins took with ⟨forward, wins⟩ | same
    · left
      exact ⟨forward, rfl, wins.free, wins.robot, wins.row, wins.unwon, wins.won, wins.log⟩
    · exact .inr same

namespace State

/-! ## Play -/

/-- `before.Latches after` says that a win noted in one state is noted in the other, and that the
log has grown by the entry of a win exactly if it was noted in between. -/
structure Latches (before after : State) : Prop where
  won : before.won = true → after.won = true
  log : after.log =
    before.log ++ if before.won = false ∧ after.won = true then [winEntry] else []

namespace Latches

variable {before middle after : State}

theorem of_same (won : after.won = before.won) (log : after.log = before.log) :
    before.Latches after where
  won := won.trans
  log := by
    rw [won, log]
    cases before.won <;> simp

theorem of_wins (wins : before.Wins after) : before.Latches after where
  won := fun _ => wins.won
  log := by
    rw [if_pos ⟨wins.unwon, wins.won⟩]
    exact wins.log

theorem trans (first : before.Latches middle) (second : middle.Latches after) :
    before.Latches after where
  won := second.won ∘ first.won
  log := by
    have later := second.won
    rw [second.log, first.log, List.append_assoc]
    -- A win is noted before the middle, after it, or not at all.
    cases noted : middle.won with
    | true => simp [later noted]
    | false =>
        have unwon : before.won = false := by
          rw [Bool.eq_false_iff]
          intro won
          rw [first.won won] at noted
          cases noted
        simp [unwon]

theorem play (state : State) (actions : List Action) : state.Latches (state.play actions) := by
  apply play_induction (of_same rfl rfl)
  · intro middle earlier _
    exact earlier.trans (of_same rfl rfl)
  · intro action middle next earlier took
    apply earlier.trans
    rcases action.effect_wins took with ⟨-, wins⟩ | ⟨won, log⟩
    · exact of_wins wins
    · exact of_same won log

end Latches

end State

/-! ## Machines -/

/-- A step of a machine wins by running an instruction to go forward, and the machine is done then,
or the step leaves the flag alone. -/
theorem Machine.step_wins (machine : Machine) (state : State) :
    (∃ line, machine.done = false ∧ machine.fetch? = some (.act "forward" line) ∧
        state.Wins (machine.step state).state ∧
          machine.step state = ⟨machine.goto (machine.place + 1) true, (machine.step state).state,
            .ok (some ⟨.act "forward" line, none⟩)⟩) ∨
      (machine.step state).state.won = state.won := by
  rcases machine.step_cases state with idle | ⟨instr, running, fetched, ran⟩
  · right
    rw [idle]
  · rw [ran]
    cases instr with
    | jump target line => exact .inr rfl
    | test condition target line =>
        right
        simp only [execute]
        split <;> rfl
    | act name line =>
        rw [execute_act_state]
        cases meaning : Action.ofName? name with
        | none =>
            right
            simp only [State.act, meaning]
        | some action =>
            have acted : state.act name = action.attempt state := by
              simp only [State.act, meaning]
            rw [acted]
            rcases action.attempt_wins state with ⟨rfl, succeeded, wins⟩ | ⟨won, -⟩
            · left
              have named : name = "forward" := (Action.name_of_ofName? meaning).symm
              subst named
              refine ⟨line, running, fetched, wins, ?_⟩
              simp only [execute, acted, succeeded, wins.won]
            · exact .inr won

namespace Stage

variable {stage : Stage}

/-- `stage.WinsAt line` says that the next step wins. It runs an instruction on that line to go
forward, it does not fail, it is the last event, and the machine is done after it. -/
structure WinsAt (stage : Stage) (line : Int) : Prop where
  running : stage.machine.done = false
  instr : stage.machine.fetch? = some (.act "forward" line)
  wins : stage.state.Wins stage.next.state
  machine : stage.next.machine =
    { stage.machine with place := stage.machine.place + 1, done := true }
  trace : stage.next.trace = stage.trace.push (.act line "forward")
  fault : stage.next.fault = none

theorem winsAt_of_won (unwon : stage.state.won = false) (won : stage.next.state.won = true) :
    ∃ line, stage.WinsAt line := by
  rcases stage.machine.step_wins stage.state with ⟨line, running, fetched, wins, stepped⟩ | same
  · have next := next_of_ok (congrArg Stepped.outcome stepped)
    rw [stepped] at next
    refine ⟨line, running, fetched, ?_, ?_, ?_, ?_⟩ <;> rw [next]
    · exact wins
    · rfl
    · rfl
  · rw [next_state, same, unwon] at won
    cases won

/-- If the flag is set after some steps and was not set before them, one of them has set it. -/
theorem exists_winsAt (unwon : stage.state.won = false) {steps : Nat}
    (won : (next^[steps] stage).state.won = true) :
    ∃ earlier < steps, ∃ line, (next^[earlier] stage).WinsAt line := by
  induction steps with
  | zero =>
      rw [Function.iterate_zero_apply, unwon] at won
      cases won
  | succ steps ih =>
      cases before : (next^[steps] stage).state.won with
      | true =>
          obtain ⟨earlier, less, line, winsAt⟩ := ih before
          exact ⟨earlier, Nat.lt_succ_of_lt less, line, winsAt⟩
      | false =>
          rw [Function.iterate_succ_apply'] at won
          exact ⟨steps, Nat.lt_succ_self steps, winsAt_of_won before won⟩

/-- After the step that wins, steps run nothing. -/
theorem WinsAt.step_next {line : Int} (winsAt : stage.WinsAt line) :
    stage.next.machine.step stage.next.state =
      ⟨stage.next.machine, stage.next.state, .ok none⟩ := by
  rw [Machine.step_of_idle (.inr winsAt.wins.won), winsAt.machine]

theorem WinsAt.next_next {line : Int} (winsAt : stage.WinsAt line) :
    stage.next.next = stage.next := by
  have stepped := winsAt.step_next
  rw [next_of_ok (congrArg Stepped.outcome stepped), stepped]
  have fault := winsAt.fault
  generalize stage.next = final at fault ⊢
  cases final
  simpa [observe] using fault.symm

end Stage

/-- Winning is a latch that stops the machine. Whatever is tried, failing attempts included, the
flag stays set once it is set, and the log grows by one entry if the flag was set on the way and by
nothing otherwise. When it is set in the course of steps of a machine, then by a step that runs an
instruction to go forward and moves the robot into the win row. The machine is done with that step,
which is the last event; further steps change neither machine nor state and run nothing. -/
theorem winning_latches_and_stops :
    (∀ (state : State) (earlier later : List Action),
      (state.play earlier).won = true → (state.play (earlier ++ later)).won = true) ∧
    (∀ (state : State) (actions : List Action),
      (state.play actions).log = state.log ++
        if state.won = false ∧ (state.play actions).won = true then [winEntry] else []) ∧
    ∀ (stage : Stage) (steps : Nat), stage.state.won = false →
      (Stage.next^[steps] stage).state.won = true →
        ∃ earlier < steps, ∃ line, (Stage.next^[earlier] stage).WinsAt line ∧
          let final := (Stage.next^[earlier] stage).next
          final.machine.step final.state = ⟨final.machine, final.state, .ok none⟩ ∧
            ∀ further, Stage.next^[further] final = final := by
  refine ⟨?_, ?_, ?_⟩
  · intro state earlier later
    rw [State.play_append]
    exact (State.Latches.play (state.play earlier) later).won
  · intro state actions
    exact (State.Latches.play state actions).log
  · intro stage steps unwon won
    obtain ⟨earlier, less, line, winsAt⟩ := Stage.exists_winsAt unwon won
    refine ⟨earlier, less, line, winsAt, winsAt.step_next, ?_⟩
    intro further
    exact Function.iterate_fixed winsAt.next_next further

theorem winning_latches_and_stops_early :
    let code : List Instr :=
      [.test (.atom "obstacleAhead") 2 1, .act "turnLeft" 2, .act "forward" 3, .jump 0 1]
    let stage : Stage :=
      { machine := .start code
        state :=
          { world := { width := 1, height := 3 }, robot := { cell := ⟨0, 2⟩ }, log := ["go"] } }
    stage.state.won = false ∧ (Stage.next^[9] stage).state.won = true ∧
      ∃ earlier < 9, ∃ line, (Stage.next^[earlier] stage).WinsAt line ∧
        ∀ further,
          Stage.next^[further] (Stage.next^[earlier] stage).next =
            (Stage.next^[earlier] stage).next := by
  intro code stage
  have unwon : stage.state.won = false := rfl
  have won : (Stage.next^[9] stage).state.won = true := by decide +kernel
  obtain ⟨earlier, less, line, winsAt, -, still⟩ := winning_latches_and_stops.2.2 stage 9 unwon won
  exact ⟨unwon, won, earlier, less, line, winsAt, still⟩

end GridRobot
