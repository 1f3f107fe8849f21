import GridRobot.Proofs.Connectivity

/-!
# Beepers are neither made nor lost

A pick moves one beeper from the pile in the robot's cell into its bag, a put moves one back, and
nothing else touches beepers. So the piles and the bag together hold the same number throughout
play, also when attempts fail on the way, and no count ever falls below zero.

The total is taken over every recorded pile, whether it is empty or not. A cell without a record
counts as an empty pile, so the first beeper put there adds a record.
-/

namespace GridRobot

namespace World

/-! ## Piles -/

/-- The number of beepers in all piles. -/
def total : List (Cell × Int) → Int
  | [] => 0
  | (_, count) :: rest => count + total rest

/-- Recording a count replaces the old one in the total. -/
theorem total_setPile (piles : List (Cell × Int)) (cell : Cell) (count : Int) :
    total (setPile piles cell count) + pile piles cell = total piles + count := by
  induction piles with
  | nil => simp [total, setPile, pile]
  | cons first rest ih =>
      obtain ⟨place, old⟩ := first
      by_cases same : place = cell
      · subst same
        simp only [total, setPile, pile, ↓reduceIte, List.lookup_cons_self, Option.getD_some]
        omega
      · have other : (cell == place) = false := beq_false_of_ne (Ne.symm same)
        simp only [total, setPile, pile, if_neg same, List.lookup_cons, other] at ih ⊢
        omega

theorem mem_setPile {piles : List (Cell × Int)} {cell : Cell} {count : Int}
    {entry : Cell × Int} (among : entry ∈ setPile piles cell count) :
    entry = (cell, count) ∨ entry ∈ piles := by
  induction piles with
  | nil => exact .inl (List.mem_singleton.mp among)
  | cons first rest ih =>
      obtain ⟨place, old⟩ := first
      by_cases same : place = cell
      · subst same
        simp only [setPile, ↓reduceIte, List.mem_cons] at among ⊢
        tauto
      · simp only [setPile, if_neg same, List.mem_cons] at among ⊢
        tauto

/-- Recording a count adds the cell to those with a pile, unless it is one of them. -/
theorem map_fst_setPile (piles : List (Cell × Int)) (cell : Cell) (count : Int) :
    (setPile piles cell count).map Prod.fst =
      if cell ∈ piles.map Prod.fst then piles.map Prod.fst
      else piles.map Prod.fst ++ [cell] := by
  induction piles with
  | nil => rfl
  | cons first rest ih =>
      obtain ⟨place, old⟩ := first
      by_cases same : place = cell
      · subst same
        simp [setPile]
      · simp only [setPile, if_neg same, List.map_cons, ih, List.mem_cons, Ne.symm same,
          false_or]
        split <;> rfl

theorem pile_nonneg {piles : List (Cell × Int)} (counts : ∀ entry ∈ piles, 0 ≤ entry.2)
    (cell : Cell) : 0 ≤ pile piles cell := by
  unfold pile
  cases found : piles.lookup cell with
  | none => exact Int.le_refl 0
  | some count =>
      obtain ⟨earlier, later, rfl, -⟩ := List.lookup_eq_some_iff.mp found
      exact counts (cell, count) (List.mem_append_right _ List.mem_cons_self)

/-- Whether no cell has two piles. -/
def OnePileEach (world : World) : Prop :=
  (world.beepers.map Prod.fst).Nodup

theorem OnePileEach.setBeepers {world : World} (distinct : world.OnePileEach) (cell : Cell)
    (count : Int) : (world.setBeepers cell count).OnePileEach := by
  unfold OnePileEach World.setBeepers
  rw [map_fst_setPile]
  split
  · exact distinct
  · next absent =>
      rw [← List.concat_eq_append]
      exact distinct.concat absent

end World

namespace State

/-! ## Sound states -/

/-- Whether the robot is on the grid, no count of beepers is negative, and no more steps are counted
than there may be. -/
structure Sound (state : State) : Prop where
  inside : state.world.Inside state.robot.cell
  bag : 0 ≤ state.robot.bag
  piles : ∀ entry ∈ state.world.beepers, 0 ≤ entry.2
  steps : state.steps ≤ state.maxSteps

namespace Sound

variable {before after : State}

theorem charged (sound : before.Sound) (left : before.steps < before.maxSteps) :
    before.charged.Sound :=
  ⟨sound.inside, sound.bag, sound.piles, left⟩

theorem setBeepers (sound : before.Sound) {count bag : Int} (counted : 0 ≤ count)
    (carried : 0 ≤ bag) :
    Sound { before with
      world := before.world.setBeepers before.robot.cell count
      robot := { before.robot with bag } } where
  inside := sound.inside
  bag := carried
  piles := by
    intro entry among
    rcases World.mem_setPile among with rfl | old
    · exact counted
    · exact sound.piles entry old
  steps := sound.steps

theorem effect {action : Action} (sound : before.Sound) (took : action.effect before = .ok after) :
    after.Sound := by
  cases action with
  | forward =>
      obtain ⟨free, rfl⟩ := moved_eq_ok_iff.mp took
      have onGrid := ((World.blocked_eq_false_iff _ _ _).mp free).1
      constructor
      · simpa using onGrid
      · simpa using sound.bag
      · simpa using sound.piles
      · simpa using sound.steps
  | turnLeft =>
      cases took
      exact ⟨sound.inside, sound.bag, sound.piles, sound.steps⟩
  | turnRight =>
      cases took
      exact ⟨sound.inside, sound.bag, sound.piles, sound.steps⟩
  | pick =>
      obtain ⟨present, rfl⟩ := picked_eq_ok_iff.mp took
      apply sound.setBeepers
      · exact Int.le_sub_one_of_lt present
      · exact Int.le_add_one sound.bag
  | put =>
      obtain ⟨carried, rfl⟩ := dropped_eq_ok_iff.mp took
      apply sound.setBeepers
      · exact Int.le_add_one (World.pile_nonneg sound.piles _)
      · exact Int.le_sub_one_of_lt carried

/-- Play keeps a state sound, whether its attempts fail or not. -/
theorem play (sound : before.Sound) (actions : List Action) : (before.play actions).Sound :=
  play_induction sound (fun _ => charged) (fun _ _ _ => effect) actions

end Sound

/-! ## What play conserves -/

/-- All beepers of a state: those in piles and those in the bag. -/
def beeperTotal (state : State) : Int :=
  World.total state.world.beepers + state.robot.bag

/-- `before.Conserves after` says that no beeper was made or lost between two states, and that the
grid, the win row and the limit of steps stayed as they were. -/
structure Conserves (before after : State) : Prop where
  beepers : after.beeperTotal = before.beeperTotal
  grid : after.world.SameGrid before.world
  maxSteps : after.maxSteps = before.maxSteps
  distinct : before.world.OnePileEach → after.world.OnePileEach

namespace Conserves

variable {before middle after : State}

theorem refl (state : State) : state.Conserves state :=
  ⟨rfl, .refl _, rfl, id⟩

theorem trans (first : before.Conserves middle) (second : middle.Conserves after) :
    before.Conserves after where
  beepers := second.beepers.trans first.beepers
  grid := second.grid.trans first.grid
  maxSteps := second.maxSteps.trans first.maxSteps
  distinct := second.distinct ∘ first.distinct

/-- Beepers that change places between the pile in the robot's cell and its bag. -/
theorem setBeepers {count bag : Int}
    (kept : count + bag = before.world.beepersAt before.robot.cell + before.robot.bag) :
    before.Conserves { before with
      world := before.world.setBeepers before.robot.cell count
      robot := { before.robot with bag } } where
  beepers := by
    have replaced := World.total_setPile before.world.beepers before.robot.cell count
    simp only [beeperTotal, World.setBeepers, World.beepersAt] at kept ⊢
    omega
  grid := .setBeepers _ _ _
  maxSteps := rfl
  distinct := fun distinct => distinct.setBeepers _ _

theorem effect {action : Action} (took : action.effect before = .ok after) :
    before.Conserves after := by
  cases action with
  | forward =>
      obtain ⟨-, rfl⟩ := moved_eq_ok_iff.mp took
      constructor
      · simp [beeperTotal]
      · simpa using World.SameGrid.refl before.world
      · simp
      · simp
  | turnLeft =>
      cases took
      exact ⟨rfl, .refl _, rfl, id⟩
  | turnRight =>
      cases took
      exact ⟨rfl, .refl _, rfl, id⟩
  | pick =>
      obtain ⟨-, rfl⟩ := picked_eq_ok_iff.mp took
      apply setBeepers
      omega
  | put =>
      obtain ⟨-, rfl⟩ := dropped_eq_ok_iff.mp took
      apply setBeepers
      omega

theorem play (state : State) (actions : List Action) : state.Conserves (state.play actions) := by
  apply play_induction (refl state)
  · intro middle earlier _
    exact earlier.trans ⟨rfl, .refl _, rfl, id⟩
  · intro action middle next earlier took
    exact earlier.trans (effect took)

end Conserves

/-- From a sound state, every play ends in a sound state again: the robot is on the grid, neither
its bag nor a pile is negative, and the limit of steps is not passed. The beepers in piles and bag
together are as many as before, and width, height, win row, walls and limit are the same. The same
is true at the end of every run of a machine. -/
theorem play_conserves_beepers (state : State) (sound : state.Sound) :
    (∀ actions, (state.play actions).Sound ∧ state.Conserves (state.play actions)) ∧
      ∀ (machine : Machine) (limit : Int),
        (machine.run limit state).state.Sound ∧
          state.Conserves (machine.run limit state).state := by
  have played (actions : List Action) :
      (state.play actions).Sound ∧ state.Conserves (state.play actions) :=
    ⟨sound.play actions, .play state actions⟩
  constructor
  · exact played
  · intro machine limit
    obtain ⟨actions, ran⟩ := machine.runFrom_plays limit limit.toNat state #[]
    rw [Machine.run, ran]
    exact played actions

theorem play_conserves_beepers_failing :
    let tight : State :=
      { world := { width := 1, height := 2, beepers := [(⟨0, 1⟩, 1), (⟨0, 0⟩, 0)], winRow := 5 }
        robot := { cell := ⟨0, 1⟩, bag := 2 }
        maxSteps := 7 }
    let attempts : List Action :=
      [.pick, .pick, .forward, .put, .forward, .put, .turnLeft, .pick, .put]
    tight.Sound ∧ (tight.play attempts).Sound ∧ (tight.play attempts).robot.bag = 1 ∧
      (tight.play attempts).world.beepers = [(⟨0, 1⟩, 0), (⟨0, 0⟩, 2)] ∧
        (tight.play attempts).steps = 7 ∧ (tight.play attempts).beeperTotal = 3 := by
  intro tight attempts
  have sound : tight.Sound := ⟨by decide, by decide, by decide, by decide⟩
  obtain ⟨stays, conserves⟩ := (play_conserves_beepers tight sound).1 attempts
  exact ⟨sound, stays, by decide, by decide, by decide, conserves.beepers.trans (by decide)⟩

end State

end GridRobot
