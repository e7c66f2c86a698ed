import Mathlib.Tactic
/-!
# Weighted sums over lists

`tally f l` adds up a weight over a list. Weights live in a commutative
additive monoid, so what one write changes is stated without subtraction
(`tally_set`): the new total and the replaced weight are the old total and the
written weight.
-/
namespace Apoptosis.Core

variable {α β M : Type*} [AddCommMonoid M]

def tally (f : α → M) (l : List α) : M := (l.map f).sum

@[simp] theorem tally_nil (f : α → M) : tally f [] = 0 := rfl

@[simp] theorem tally_cons (f : α → M) (a : α) (l : List α) :
    tally f (a :: l) = f a + tally f l := by
  simp [tally]

@[simp] theorem tally_append (f : α → M) (l l' : List α) :
    tally f (l ++ l') = tally f l + tally f l' := by
  simp [tally]

theorem tally_singleton (f : α → M) (a : α) : tally f [a] = f a := by
  simp [tally]

/-- One write moves the total by the written weight less the replaced one. -/
theorem tally_set (f : α → M) : ∀ {l : List α} {i : Nat} {old : α}, l[i]? = some old →
    ∀ a, tally f (l.set i a) + f old = tally f l + f a
  | [], _, _, h, _ => by cases h
  | x :: l, 0, old, h, a => by
    obtain rfl : x = old := by simpa using h
    rw [List.set_cons_zero, tally_cons, tally_cons]
    abel
  | x :: l, i + 1, old, h, a => by
    have ih := tally_set f (l := l) (i := i) (by simpa using h) a
    rw [List.set_cons_succ, tally_cons, tally_cons, add_assoc, ih, add_assoc]

theorem tally_modify (f : α → M) {l : List α} {i : Nat} {old : α} (h : l[i]? = some old)
    (g : α → α) : tally f (l.modify i g) + f old = tally f l + f (g old) := by
  have hset : l.modify i g = l.set i (g old) := by
    apply List.ext_getElem? fun j => ?_
    rw [List.getElem?_modify, List.getElem?_set]
    by_cases hij : i = j
    · subst hij
      obtain ⟨hlt, hget⟩ := List.getElem?_eq_some_iff.mp h
      simp [hlt, hget]
    · simp [hij]
  rw [hset]
  exact tally_set f h (g old)

end Apoptosis.Core
