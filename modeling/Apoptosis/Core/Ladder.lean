import Mathlib.Tactic
/-!
# Ladders

Rungs with a cost each. To stand on rung `l` with a rest below the cost of that
rung is to have climbed the rungs below it and the rest.

* `standing_unique`: what was climbed determines the rung and the rest.
-/
namespace Apoptosis.Core

section
variable {α : Type*} [AddCommGroup α]

/-- The costs of the rungs below `l`. -/
def height (cost : Nat → α) (l : Nat) : α := ∑ i ∈ Finset.range l, cost i

@[simp] theorem height_zero (cost : Nat → α) : height cost 0 = 0 := rfl

theorem height_succ (cost : Nat → α) (l : Nat) : height cost (l + 1) = height cost l + cost l :=
  Finset.sum_range_succ cost l

variable [LinearOrder α] [IsOrderedAddMonoid α] {cost : Nat → α}

theorem height_mono (hcost : ∀ i, 0 ≤ cost i) {l l' : Nat} (h : l ≤ l') : height cost l ≤ height cost l' :=
  Finset.sum_le_sum_of_subset_of_nonneg (Finset.range_mono h) fun i _ _ => hcost i

/-- A rest below the cost of its rung does not reach a higher rung. -/
theorem standing_lt (hcost : ∀ i, 0 ≤ cost i) {l l' : Nat} {r r' : α} (hl : l < l') (hr : r < cost l)
    (hr' : 0 ≤ r') : height cost l + r < height cost l' + r' := by
  calc height cost l + r < height cost l + cost l := by gcongr
    _ = height cost (l + 1) := (height_succ cost l).symm
    _ ≤ height cost l' := height_mono hcost hl
    _ ≤ height cost l' + r' := le_add_of_nonneg_right hr'

theorem standing_unique (hcost : ∀ i, 0 ≤ cost i) {l l' : Nat} {r r' : α} (hr : 0 ≤ r ∧ r < cost l)
    (hr' : 0 ≤ r' ∧ r' < cost l') (h : height cost l + r = height cost l' + r') : l = l' ∧ r = r' := by
  rcases lt_trichotomy l l' with hlt | rfl | hgt
  · exact absurd h (standing_lt hcost hlt hr.2 hr'.1).ne
  · exact ⟨rfl, add_left_cancel h⟩
  · exact absurd h.symm (standing_lt hcost hgt hr'.2 hr.1).ne

end

end Apoptosis.Core
