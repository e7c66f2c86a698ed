import Mathlib.Tactic
/-!
# Rows in one list

A table of equally long rows stored row by row, and masks over its places.

* `place_div`, `place_mod`: a place gives its row and its column.
* `getElem?_rows`: the entry at a row and a column.
* `getElem?_marks`: what a loop that marks places leaves.
-/
namespace Apoptosis.Core.Rows

variable {α β : Type} {w x y : Nat}

theorem place_div (hx : x < w) : (y * w + x) / w = y := by
  rw [Nat.mul_comm, Nat.mul_add_div (by omega), Nat.div_eq_of_lt hx, Nat.add_zero]

theorem place_mod (hx : x < w) : (y * w + x) % w = x := by
  rw [Nat.mul_comm, Nat.mul_add_mod, Nat.mod_eq_of_lt hx]

theorem place_split (w n : Nat) : n / w * w + n % w = n := by
  rw [Nat.mul_comm]
  exact Nat.div_add_mod n w

theorem getElem?_rows {f : α → List β} {l : List α} (h : ∀ a ∈ l, (f a).length = w) (hx : x < w) :
    (l.flatMap f)[y * w + x]? = l[y]?.bind fun a => (f a)[x]? := by
  induction l generalizing y with
  | nil => rfl
  | cons a l ih =>
    have ha := h a (.head _)
    rw [List.flatMap_cons]
    cases y with
    | zero =>
      rw [Nat.zero_mul, Nat.zero_add, List.getElem?_append_left (ha ▸ hx)]
      rfl
    | succ y =>
      rw [List.getElem?_append_right (by rw [ha, Nat.add_mul]; omega), ha,
        show (y + 1) * w + x - w = y * w + x by rw [Nat.add_mul]; omega,
        ih fun b hb => h b (.tail _ hb)]
      rfl

theorem length_rows {f : α → List β} {l : List α} (h : ∀ a ∈ l, (f a).length = w) :
    (l.flatMap f).length = l.length * w := by
  induction l with
  | nil => exact (Nat.zero_mul w).symm
  | cons a l ih =>
    rw [List.flatMap_cons, List.length_append, h a (.head _), ih fun b hb => h b (.tail _ hb), List.length_cons,
      Nat.add_mul, Nat.one_mul, Nat.add_comm]

/-- The places that a loop marks. -/
theorem getElem?_marks (p : α → Bool) (place : α → Nat) (l : List α) {mask : List Bool} {i : Nat}
    (hi : i < mask.length) :
    (l.foldl (fun mask a => if p a then mask.set (place a) true else mask) mask)[i]? = some true ↔
      mask[i]? = some true ∨ ∃ a ∈ l, p a ∧ place a = i := by
  induction l generalizing mask with
  | nil => simp
  | cons a l ih =>
    rw [List.foldl_cons, ih (by split <;> simp [hi])]
    by_cases hp : p a
    · rw [if_pos hp, List.getElem?_set]
      by_cases heq : place a = i
      · simp [heq, hp, hi]
      · simp [heq]
    · simp [hp]

end Apoptosis.Core.Rows
