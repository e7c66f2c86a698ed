import Mathlib.Logic.Relation
import Mathlib.Tactic
/-!
# Walks over a relation

A walk counts its steps. `Within r n a` bounds every walk from `a`, so nothing
reachable from `a` lies on a cycle.

* `within_iff`: the bound, by the length of walks.
* `Within.acyclic`: a bounded start reaches no cycle.
* `exists_within`: finitely many bounded successors bound their parent.
-/
namespace Apoptosis.Core

open Relation

variable {α : Type*} {r : α → α → Prop}

/-- A walk of this many steps. -/
inductive Steps (r : α → α → Prop) : Nat → α → α → Prop
  | nil (a : α) : Steps r 0 a a
  | cons {n : Nat} {a b c : α} (head : r a b) (tail : Steps r n b c) : Steps r (n + 1) a c

namespace Steps

theorem reaches {n : Nat} {a b : α} (h : Steps r n a b) : ReflTransGen r a b := by
  induction h with
  | nil a => exact .refl
  | cons head tail ih => exact .head head ih

theorem append {m n : Nat} {a b c : α} (h : Steps r m a b) (h' : Steps r n b c) :
    Steps r (n + m) a c := by
  induction h with
  | nil a => exact h'
  | cons head tail ih => exact .cons head (ih h')

end Steps

theorem exists_steps {a b : α} (h : ReflTransGen r a b) : ∃ n, Steps r n a b := by
  induction h using ReflTransGen.head_induction_on with
  | refl => exact ⟨0, .nil b⟩
  | head hstep htail ih =>
    obtain ⟨n, hn⟩ := ih
    exact ⟨n + 1, .cons hstep hn⟩

theorem exists_steps_succ {a b : α} (h : TransGen r a b) : ∃ n, Steps r (n + 1) a b := by
  obtain ⟨c, hstep, htail⟩ := TransGen.head'_iff.mp h
  obtain ⟨n, hn⟩ := exists_steps htail
  exact ⟨n, .cons hstep hn⟩

/-- A cycle is walked round as often as one likes. -/
theorem exists_long_steps {a : α} (h : TransGen r a a) (n : Nat) : ∃ m, n ≤ m ∧ Steps r m a a := by
  obtain ⟨k, hk⟩ := exists_steps_succ h
  induction n with
  | zero => exact ⟨0, le_rfl, .nil a⟩
  | succ n ih =>
    obtain ⟨m, hle, hm⟩ := ih
    exact ⟨m + (k + 1), by omega, hk.append hm⟩

/-! ## Bounded starts -/

/-- No walk from here takes more than this many steps. -/
def Within (r : α → α → Prop) : Nat → α → Prop
  | 0, a => ∀ b, ¬ r a b
  | n + 1, a => ∀ b, r a b → Within r n b

theorem within_iff {n : Nat} {a : α} : Within r n a ↔ ∀ m b, Steps r m a b → m ≤ n := by
  induction n generalizing a with
  | zero =>
    constructor
    · intro h m b hsteps
      cases hsteps with
      | nil => exact le_rfl
      | cons head tail => exact absurd head (h _)
    · intro h b hstep
      have := h 1 b (.cons hstep (.nil b))
      omega
  | succ n ih =>
    constructor
    · intro h m b hsteps
      cases hsteps with
      | nil => exact Nat.zero_le _
      | cons head tail => exact Nat.succ_le_succ (ih.mp (h _ head) _ _ tail)
    · intro h b hstep
      refine ih.mpr fun m c hsteps => ?_
      have := h (m + 1) c (.cons hstep hsteps)
      omega

namespace Within

theorem mono {m n : Nat} {a : α} (h : Within r m a) (hle : m ≤ n) : Within r n a :=
  within_iff.mpr fun k b hsteps => (within_iff.mp h k b hsteps).trans hle

theorem reaches {n : Nat} {a b : α} (h : Within r n a) (hreach : ReflTransGen r a b) :
    Within r n b := by
  obtain ⟨k, hk⟩ := exists_steps hreach
  refine within_iff.mpr fun m c hsteps => ?_
  have := within_iff.mp h _ _ (hk.append hsteps)
  omega

theorem step {n : Nat} {a b : α} (h : Within r n a) (hstep : r a b) : Within r n b :=
  h.reaches (.single hstep)

theorem acyclic {n : Nat} {a : α} (h : Within r n a) : ¬ TransGen r a a := by
  intro hcycle
  obtain ⟨m, hle, hm⟩ := exists_long_steps hcycle (n + 1)
  have := within_iff.mp h m a hm
  omega

end Within

theorem exists_within {a : α} {l : List α} (hl : ∀ b, r a b → b ∈ l)
    (h : ∀ b, r a b → ∃ n, Within r n b) : ∃ n, Within r n a := by
  have hall : ∃ n, ∀ b ∈ l, r a b → Within r n b := by
    clear hl
    induction l with
    | nil => exact ⟨0, nofun⟩
    | cons b l ih =>
      obtain ⟨n, hn⟩ := ih
      by_cases hb : r a b
      · obtain ⟨m, hm⟩ := h b hb
        refine ⟨max m n, fun c hc hac => ?_⟩
        obtain rfl | hc := List.mem_cons.mp hc
        · exact hm.mono (le_max_left m n)
        · exact (hn c hc hac).mono (le_max_right m n)
      · refine ⟨n, fun c hc hac => hn c ?_ hac⟩
        exact (List.mem_cons.mp hc).resolve_left fun heq => hb (heq ▸ hac)
  obtain ⟨n, hn⟩ := hall
  exact ⟨n + 1, fun b hstep => hn b (hl b hstep) hstep⟩

end Apoptosis.Core
