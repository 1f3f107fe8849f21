import GridRobot.Proofs.Replay

/-!
# Running a session to its end

However a session has been stepped, rewound and restarted, running it to its end gives what a
machine gives that runs the same instructions from the start, in one go and with the same budget.
-/

namespace GridRobot

/-- The step that a machine fails to take is the one of the instruction at its place. -/
def Machine.FailsAt (machine : Machine) (instr : Instr) (after : State) (fault : Fault) : Prop :=
  machine.fetch? = some instr ∧
    ∃ before, machine.step before = ⟨machine, after, .error fault⟩

/-- `finished.EndsLike run` says that a session ends as a run does. The failure of the session is
that of the run with the line of the instruction where it stopped, and a fault of the world is
blamed on the instruction that failed. -/
structure Session.Finished.EndsLike (finished : Session.Finished) (run : Run) : Prop where
  machine : finished.session.machine = some run.machine
  state : finished.session.state = run.state
  trace : finished.session.trace = run.trace
  halt : finished.session.halt = finished.failure
  failure : finished.failure =
    run.failure.map fun failure => ⟨failure.fault, run.machine.currentLine?⟩
  blamed : ∀ failure, run.failure = some failure → failure.fault.OfWorld →
    ∃ instr, run.machine.FailsAt instr run.state failure.fault ∧
      finished.failure = some ⟨failure.fault, some instr.line⟩

/-- A step that fails is that of the instruction at the machine's place, which is blamed. -/
theorem Machine.failsAt_of_error {machine : Machine} {state : State} {fault : Fault}
    (running : machine.done = false) (failed : (machine.step state).outcome = .error fault) :
    ∃ instr, (machine.step state).machine.FailsAt instr (machine.step state).state fault ∧
      (machine.step state).machine.currentLine? = some instr.line := by
  obtain ⟨same, instr, fetched, -⟩ := step_error failed
  rw [same]
  refine ⟨instr, ⟨fetched, state, step_eq_of_error failed⟩, ?_⟩
  rw [currentLine?, if_neg (by simp [running]), fetched]
  rfl

namespace Stage

/-- The rest of a run from a stage on. -/
def finish (stage : Stage) (limit : Int) (budget : Nat) : Run :=
  stage.machine.runFrom limit budget stage.state stage.trace

variable {stage : Stage} {limit : Int} {budget : Nat}

theorem finish_next (running : stage.machine.done = false)
    (succeeded : stage.next.fault = none) :
    stage.finish limit (budget + 1) = stage.next.finish limit budget := by
  cases outcome : (stage.machine.step stage.state).outcome with
  | ok ran =>
      rw [finish, Machine.runFrom_ok running outcome, next_of_ok outcome]
      rfl
  | error fault =>
      rw [next_of_error outcome] at succeeded
      cases succeeded

/-- A run ends at the stage of a step that fails. -/
theorem finish_error {fault : Fault} (running : stage.machine.done = false)
    (failed : (stage.machine.step stage.state).outcome = .error fault) :
    stage.finish limit (budget + 1) =
        ⟨stage.next.machine, stage.next.state, stage.next.trace, some ⟨fault, none⟩⟩ ∧
      stage.next.fault = some fault ∧
        ∃ instr, stage.next.machine.FailsAt instr stage.next.state fault ∧
          stage.next.machine.currentLine? = some instr.line := by
  rw [finish, Machine.runFrom_error running failed, next_of_error failed]
  exact ⟨rfl, rfl, Machine.failsAt_of_error running failed⟩

end Stage

/-- The run from the start passes through every stage up to the first that is done or has failed, as
far as its budget lasts. -/
theorem run_eq_finish_replay {code : List Instr} {initial : State} {limit : Int} {steps : Nat}
    (running : ∀ earlier < steps, (replay code initial earlier).machine.done = false)
    (succeeded : ∀ earlier < steps, (replay code initial (earlier + 1)).fault = none)
    (bound : steps ≤ limit.toNat) :
    (Machine.start code).run limit initial =
      (replay code initial steps).finish limit (limit.toNat - steps) := by
  induction steps with
  | zero => rfl
  | succ steps ih =>
      have budget : limit.toNat - steps = limit.toNat - (steps + 1) + 1 := by omega
      rw [ih (fun _ less => running _ (Nat.lt_succ_of_lt less))
        (fun _ less => succeeded _ (Nat.lt_succ_of_lt less)) (Nat.le_of_lt bound), budget,
        Stage.finish_next (running steps (Nat.lt_succ_self steps))
          (succeeded steps (Nat.lt_succ_self steps))]
      rfl

namespace Session

section RunFor

variable {session : Session} {machine : Machine} (loaded : session.machine = some machine)
  (unhalted : session.halt = none) (running : machine.done = false)

include loaded unhalted running

theorem runFor_ok {ran : Option Executed} (succeeded : session.step.outcome = .ok ran)
    (steps : Nat) : session.runFor (steps + 1) = session.step.session.runFor steps := by
  rw [runFor, if_neg (by simp [done, loaded, unhalted, running])]
  simp only [succeeded]

theorem runFor_error {failure : Failure} (failed : session.step.outcome = .error failure)
    (steps : Nat) : session.runFor (steps + 1) = ⟨session.step.session, some failure⟩ := by
  rw [runFor, if_neg (by simp [done, loaded, unhalted, running])]
  simp only [failed]

end RunFor

namespace Replays

variable {session : Session} {initial : State} {limit : Int} {code : List Instr}

/-- The run from the start passes through every stage that a session replays. -/
theorem run_eq_finish (replays : session.Replays initial limit code)
    (unhalted : session.halt = none) (steps : Nat) (bound : steps ≤ session.executed) :
    (Machine.start code).run limit initial =
      (replay code initial steps).finish limit (limit.toNat - steps) := by
  have bounded := replays.bounded
  apply run_eq_finish_replay
  · exact fun earlier less => replays.running earlier (by omega)
  · intro earlier less
    have reached : earlier + 1 ≤ session.executed := Nat.le_trans less bound
    rcases Nat.lt_or_eq_of_le reached with within | last
    · exact replays.succeeded _ within
    · rw [last]
      exact replays.fault_eq_none unhalted
  · omega

/-- A session that is stopped at a stage ends as a run does that is stopped there. -/
theorem endsLike (replays : session.Replays initial limit code) {ended stop : Option Failure}
    (halted : session.halt = ended)
    (same : ended = stop.map fun failure =>
      ⟨failure.fault, (replay code initial session.executed).machine.currentLine?⟩)
    (blamed : ∀ failure, stop = some failure → failure.fault.OfWorld →
      ∃ instr, (replay code initial session.executed).machine.FailsAt instr
          (replay code initial session.executed).state failure.fault ∧
        (replay code initial session.executed).machine.currentLine? = some instr.line) :
    Finished.EndsLike ⟨session, ended⟩
      ⟨(replay code initial session.executed).machine,
        (replay code initial session.executed).state,
        (replay code initial session.executed).trace, stop⟩ where
  machine := replays.machine
  state := replays.state
  trace := replays.trace
  halt := halted
  failure := same
  blamed := by
    intro failure stopped ofWorld
    obtain ⟨instr, fails, line⟩ := blamed failure stopped ofWorld
    refine ⟨instr, fails, ?_⟩
    dsimp only at stopped ⊢
    rw [same, stopped, Option.map_some, line]

/-- A session that takes steps to its end ends as the rest of the run does. -/
theorem runFor_endsLike (replays : session.Replays initial limit code)
    (known : Code.Known code) (unhalted : session.halt = none) (steps : Nat)
    (enough : limit.toNat - session.executed < steps) :
    (session.runFor steps).EndsLike
      ((replay code initial session.executed).finish limit
        (limit.toNat - session.executed)) := by
  induction steps generalizing session with
  | zero => omega
  | succ steps ih =>
      cases running : (replay code initial session.executed).machine.done with
      | true =>
          rw [Session.runFor, if_pos (by simp [done, replays.machine, running]), Stage.finish,
            Machine.runFrom_done running]
          refine replays.endsLike unhalted rfl ?_
          intro failure stopped
          cases stopped
      | false =>
          rcases Int.lt_or_le session.executed limit with left | spent
          · have budget :
                limit.toNat - session.executed = limit.toNat - (session.executed + 1) + 1 := by
              omega
            cases outcome : ((replay code initial session.executed).machine.step
                (replay code initial session.executed).state).outcome with
            | ok ran =>
                have stepped := replays.step_ok unhalted running left outcome
                have succeeded : (replay code initial (session.executed + 1)).fault = none := by
                  rw [replay, Stage.next_of_ok outcome]
                rw [runFor_ok replays.machine unhalted running (by rw [stepped]) steps, stepped,
                  budget, Stage.finish_next running succeeded]
                refine ih (replays.advance unhalted running left _) ?_ ?_
                · simp only [Session.advance, succeeded, Option.map_none]
                · simp only [Session.advance, counted]
                  omega
            | error fault =>
                have ofWorld := Machine.step_ofWorld (by rwa [replay_code]) outcome
                have stepped := replays.step_error unhalted running left outcome ofWorld
                obtain ⟨ending, failed, blamed⟩ :=
                  Stage.finish_error running outcome
                rw [runFor_error replays.machine unhalted running (by rw [stepped]) steps, stepped,
                  budget, ending]
                refine (replays.advance unhalted running left _).endsLike ?_ rfl ?_
                · exact congrArg (Option.map _) failed
                · intro failure stopped _
                  cases stopped
                  exact blamed
          · have stepped := step_of_limit replays.machine unhalted running
              (by rw [replays.sameLimit]; exact spent)
            have budget : limit.toNat - session.executed = 0 := by omega
            rw [runFor_error replays.machine unhalted running (by rw [stepped]) steps, stepped,
              budget, Stage.finish, Machine.runFrom_zero running]
            refine (replays.halt_limit unhalted spent).endsLike rfl ?_ ?_
            · simp only [Option.map_some, replays.sameLimit]
            · intro failure stopped ofWorld
              cases stopped
              exact ofWorld.elim

/-- A session that is run to its end ends as the run from the start does. -/
theorem run_endsLike (replays : session.Replays initial limit code) (known : Code.Known code)
    (unhalted : session.halt = none) :
    session.run.EndsLike ((Machine.start code).run limit initial) := by
  rw [replays.run_eq_finish unhalted session.executed (Nat.le_refl _)]
  refine replays.runFor_endsLike known unhalted _ ?_
  rw [stepsLeft, replays.sameLimit]
  omega

end Replays

/-- Whatever calls have led a session to where it is, unless it is halted there, running it ends as
the run of its instructions from the start does. -/
theorem afterAll_run_endsLike (stack : Stack) (initial : State) (limit : Int) (calls : List Call)
    {code : List Instr} (loaded : Call.codeAfter stack calls = some code)
    (unhalted : ((start initial limit).afterAll stack calls).halt = none) :
    ((start initial limit).afterAll stack calls).run.EndsLike
      ((Machine.start code).run limit initial) := by
  have tracks := tracks_afterAll stack initial limit calls
  rw [loaded] at tracks
  obtain ⟨known, replays⟩ := tracks
  exact replays.run_endsLike known unhalted

theorem afterAll_run_endsLike_undone :
    let initial : State := { world := { width := 3, height := 3 }, robot := { cell := ⟨0, 2⟩ } }
    let calls : List Call :=
      [.load "program main \x7b forward pick \x7d active main.", .step, .step, .stepBack,
        .load "program"]
    let code : List Instr := [.act "forward" 1, .act "pick" 1]
    Call.codeAfter .usual calls = some code ∧
      ((start initial 10).afterAll .usual calls).halt = none ∧
      ((start initial 10).afterAll .usual calls).run.EndsLike
        ((Machine.start code).run 10 initial) ∧
      ((start initial 10).afterAll .usual calls).run.failure = some ⟨.noBeeperHere, some 1⟩ := by
  intro initial calls code
  have loaded : Call.codeAfter .usual calls = some code := by decide +kernel
  have unhalted : ((start initial 10).afterAll .usual calls).halt = none := by decide +kernel
  exact ⟨loaded, unhalted, afterAll_run_endsLike .usual initial 10 calls loaded unhalted,
    by decide +kernel⟩

end Session

end GridRobot
