import GridRobot.Proofs.Obstacles
import Mathlib.Data.List.FinRange
import Mathlib.Data.Set.Card

/-!
# Placing obstacles

The cells to block are the first ones of all that may be blocked, put into an order that a seed
gives. The order moves places and never looks at what stands there, so it depends on the seed and
on the number of cells alone. Nothing else about it matters: whatever the places are exchanged for,
only cells that may be blocked are chosen, as many as the count says, and a larger count adds cells
to those of a smaller one.
-/

namespace GridRobot

/-! ## Orders that depend on the length -/

namespace Random

variable {α β : Type}

theorem exchange_map (image : α → β) (items : Array α) (places : Nat × Nat) :
    exchange (items.map image) places = (exchange items places).map image := by
  simp only [exchange, Array.swapIfInBounds_def, Array.size_map]
  split
  · split
    · apply Array.ext
      · simp only [Array.size_swap, Array.size_map]
      · intro place _ _
        simp only [Array.getElem_swap, Array.getElem_map]
        split
        · rfl
        · split <;> rfl
    · rfl
  · rfl

theorem foldl_exchange_map (image : α → β) (places : List (Nat × Nat)) (items : Array α) :
    places.foldl exchange (items.map image) = (places.foldl exchange items).map image := by
  induction places generalizing items with
  | nil => rfl
  | cons first rest ih => rw [List.foldl_cons, List.foldl_cons, exchange_map, ih]

/-- Shuffling does not look at the items. -/
theorem shuffle_map (seed : Int) (image : α → β) (items : List α) :
    shuffle seed (items.map image) = (shuffle seed items).map image := by
  simp only [shuffle, List.length_map, ← List.map_toArray, foldl_exchange_map, Array.toList_map]

end Random

namespace Level

theorem inOrderOf_map {α β : Type} (seed : Option Int) (image : α → β) (items : List α) :
    inOrderOf seed (items.map image) = (inOrderOf seed items).map image := by
  cases seed with
  | none => rfl
  | some seed => exact Random.shuffle_map seed image items

/-- A way to reorder lists that depends on their length alone: the places of a list of each length
in a new order. -/
structure Reordering where
  places : (length : Nat) → List (Fin length)
  perm : ∀ length, (places length).Perm (List.finRange length)

namespace Reordering

variable {α : Type}

/-- The items of a list in a new order. -/
def order (reordering : Reordering) (items : List α) : List α :=
  (reordering.places items.length).map items.get

theorem order_perm (reordering : Reordering) (items : List α) :
    (reordering.order items).Perm items := by
  have moved := (reordering.perm items.length).map items.get
  rwa [List.map_get_finRange] at moved

/-- The order that a seed gives. -/
def ofSeed (seed : Option Int) : Reordering where
  places length := inOrderOf seed (List.finRange length)
  perm length := inOrderOf_perm seed (List.finRange length)

theorem order_ofSeed (seed : Option Int) (items : List α) :
    (ofSeed seed).order items = inOrderOf seed items := by
  calc
    _ = inOrderOf seed ((List.finRange items.length).map items.get) :=
      (inOrderOf_map seed items.get _).symm
    _ = _ := by rw [List.map_get_finRange]

end Reordering

/-! ## Cells that may be blocked -/

/-- The cells of a grid that are neither excluded nor in the forbidden row. -/
def allowed (width height : Int) (excluded : List Cell) (forbiddenRow : Option Int) : Set Cell :=
  {cell | World.Inside { width, height } cell ∧ some cell.y ≠ forbiddenRow ∧ cell ∉ excluded}

theorem nodup_upTo (size : Int) : (World.upTo size).Nodup :=
  List.nodup_range.map Int.ofNat_injective

section Candidates

variable (width height : Int) (excluded : List Cell) (forbiddenRow : Option Int)

theorem nodup_candidates : (candidates width height excluded forbiddenRow).Nodup := by
  rw [candidates, List.nodup_flatMap]
  constructor
  · intro y _
    apply List.Nodup.filter
    apply (nodup_upTo width).map
    intro left right same
    exact congrArg Cell.x same
  · -- Two rows share no cell, and no row is met twice.
    apply ((nodup_upTo height).filter _).imp
    intro upper lower different cell above below
    obtain ⟨_, -, rfl⟩ := List.mem_map.mp (List.mem_of_mem_filter above)
    obtain ⟨_, -, same⟩ := List.mem_map.mp (List.mem_of_mem_filter below)
    exact different (congrArg Cell.y same).symm

theorem ncard_allowed :
    (allowed width height excluded forbiddenRow).ncard =
      (candidates width height excluded forbiddenRow).length := by
  have listed : allowed width height excluded forbiddenRow =
      ↑(candidates width height excluded forbiddenRow).toFinset := by
    ext cell
    rw [Finset.mem_coe, List.mem_toFinset, mem_candidates_iff]
    rfl
  rw [listed, Set.ncard_coe_finset, List.toFinset_card_of_nodup (nodup_candidates ..)]

end Candidates

/-! ## The choice for every count -/

section FirstItems

variable {α : Type} {items : List α}

theorem length_firstItems_of_nonneg {count : Int} (nonneg : 0 ≤ count) :
    ((firstItems items count).length : Int) = min count items.length := by
  rw [firstItems, if_pos nonneg, List.length_take]
  omega

theorem length_firstItems_of_neg {count : Int} (negative : count < 0) :
    ((firstItems items count).length : Int) = max 0 (items.length + count) := by
  rw [firstItems, if_neg (Int.not_le.mpr negative), List.length_take]
  omega

theorem firstItems_subset {fewer more : Int} (nonneg : 0 ≤ fewer) (le : fewer ≤ more) :
    firstItems items fewer ⊆ firstItems items more := by
  rw [firstItems, firstItems, if_pos nonneg, if_pos (Int.le_trans nonneg le)]
  exact List.take_subset_take_left items (Int.toNat_le_toNat le)

end FirstItems

/-- Whether the cells chosen for each count are a valid choice: they are free cells, each of them
once, as many as the count says. A negative count says how many free cells are left out. A larger
count keeps the cells of a smaller one. -/
structure Placement (free : Set Cell) (cells : Int → List Cell) : Prop where
  valid : ∀ count, ∀ cell ∈ cells count, cell ∈ free
  nodup : ∀ count, (cells count).Nodup
  size : ∀ count, 0 ≤ count → ((cells count).length : Int) = min count free.ncard
  sizeWithout : ∀ count, count < 0 → ((cells count).length : Int) = max 0 (free.ncard + count)
  monotone : ∀ fewer more, 0 ≤ fewer → fewer ≤ more → cells fewer ⊆ cells more

section Placement

variable {width height : Int} {excluded : List Cell} {forbiddenRow : Option Int}

/-- The first cells are a valid choice, in whatever order the cells that may be blocked are put. -/
theorem placement_of_perm {order : List Cell}
    (perm : order.Perm (candidates width height excluded forbiddenRow)) :
    Placement (allowed width height excluded forbiddenRow) (firstItems order) where
  valid count cell among :=
    mem_candidates_iff.mp (perm.subset ((firstItems_sublist order count).subset among))
  nodup count := by
    apply (firstItems_sublist order count).nodup
    exact (nodup_candidates ..).perm perm.symm
  size count nonneg := by
    rw [ncard_allowed, ← perm.length_eq]
    exact length_firstItems_of_nonneg nonneg
  sizeWithout count negative := by
    rw [ncard_allowed, ← perm.length_eq]
    exact length_firstItems_of_neg negative
  monotone _ _ nonneg le := firstItems_subset nonneg le

end Placement

/-- The choice of cells to block is valid, exactly sized and monotone, for all sizes, excluded
cells and forbidden rows. It is so for every order that depends on the number of cells alone. The
order that a seed gives is one of them, and so the cells that are blocked are such a choice. -/
theorem blockedCells_valid_sized_monotone (width height : Int) (excluded : List Cell)
    (forbiddenRow : Option Int) :
    (∀ reordering : Reordering,
      Placement (allowed width height excluded forbiddenRow) fun count =>
        firstItems (reordering.order (candidates width height excluded forbiddenRow)) count) ∧
    ∀ seed : Option Int,
      (∀ items : List Cell, inOrderOf seed items = (Reordering.ofSeed seed).order items) ∧
        Placement (allowed width height excluded forbiddenRow) fun count =>
          blockedCells width height count excluded forbiddenRow seed := by
  constructor
  · intro reordering
    exact placement_of_perm (reordering.order_perm _)
  · intro seed
    constructor
    · intro items
      exact (Reordering.order_ofSeed seed items).symm
    · exact placement_of_perm (inOrderOf_perm seed _)

/-- Five cells of three rows may be blocked, in reversed order: cells that are excluded twice or lie
off the grid do not count. -/
example :
    let reversed : Reordering :=
      ⟨fun length => (List.finRange length).reverse, fun _ => List.reverse_perm _⟩
    let cells := firstItems (reversed.order (candidates 3 3 [⟨1, 2⟩, ⟨1, 2⟩, ⟨9, 9⟩] (some 0)))
    cells 2 = [⟨2, 2⟩, ⟨0, 2⟩] ∧ cells (-3) = cells 2 ∧ (cells 9).length = 5 ∧ cells (-9) = [] := by
  decide

end Level

end GridRobot
