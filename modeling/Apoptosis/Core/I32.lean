import Mathlib.Tactic
/-!
# Thirty-two bit integers that saturate

* `saturatingAdd_val`: the sum, cut to the range.
* `one_back`, `negOne_back`: a step of one stands still at a bound, or the step back undoes it.
-/
namespace Apoptosis.Core

abbrev I32 := { i : Int // -2 ^ 31 ≤ i ∧ i < 2 ^ 31 }

namespace I32

def MIN : I32 := ⟨-2 ^ 31, by decide⟩

def MAX : I32 := ⟨2 ^ 31 - 1, by decide⟩

def clamp (i : Int) : I32 := ⟨max (-2 ^ 31) (min i (2 ^ 31 - 1)), by omega⟩

def saturatingAdd (a b : I32) : I32 := clamp (a.val + b.val)

theorem saturatingAdd_val (a b : I32) :
    (saturatingAdd a b).val = max (-2 ^ 31) (min (a.val + b.val) (2 ^ 31 - 1)) := rfl

/-- `i32::checked_sub`. -/
def checkedSub (a b : I32) : Option I32 :=
  if h : -2 ^ 31 ≤ a.val - b.val ∧ a.val - b.val < 2 ^ 31 then some ⟨a.val - b.val, h⟩ else none

/-- `i32::checked_add`. -/
def checkedAdd (a b : I32) : Option I32 :=
  if h : -2 ^ 31 ≤ a.val + b.val ∧ a.val + b.val < 2 ^ 31 then some ⟨a.val + b.val, h⟩ else none

def zero : I32 := ⟨0, by decide⟩

def one : I32 := ⟨1, by decide⟩

def negOne : I32 := ⟨-1, by decide⟩

theorem four_mem : -2 ^ 31 ≤ (4 : Int) ∧ (4 : Int) < 2 ^ 31 := by decide

theorem zero_val : zero.val = 0 := rfl

theorem one_val : one.val = 1 := rfl

theorem negOne_val : negOne.val = -1 := rfl

theorem clamp_of_mem {i : Int} (h : -2 ^ 31 ≤ i) (h' : i < 2 ^ 31) : (clamp i).val = i := by
  show max _ _ = i
  omega

theorem clamp_mono {i j : Int} (h : i ≤ j) : (clamp i).val ≤ (clamp j).val := by
  show max _ _ ≤ max _ _
  omega

theorem saturatingAdd_of_mem {a b : I32} (h : -2 ^ 31 ≤ a.val + b.val) (h' : a.val + b.val < 2 ^ 31) :
    (saturatingAdd a b).val = a.val + b.val := clamp_of_mem h h'

theorem checkedAdd_eq_some {a b c : I32} (h : a.checkedAdd b = some c) : c.val = a.val + b.val := by
  unfold checkedAdd at h
  split at h
  · cases h
    rfl
  · exact nomatch h

theorem checkedAdd_of_val {a b c : I32} (h : c.val = a.val + b.val) : a.checkedAdd b = some c := by
  have hrange := c.property
  rw [checkedAdd, dif_pos (h ▸ hrange)]
  exact congrArg some (Subtype.ext h.symm)

theorem checkedAdd_eq_none {a b : I32} (h : a.checkedAdd b = none) :
    ¬(-2 ^ 31 ≤ a.val + b.val ∧ a.val + b.val < 2 ^ 31) := by
  unfold checkedAdd at h
  split at h
  · exact nomatch h
  · assumption

theorem checkedSub_eq_some {a b c : I32} (h : a.checkedSub b = some c) : c.val = a.val - b.val := by
  unfold checkedSub at h
  split at h
  · cases h
    rfl
  · exact nomatch h

theorem checkedSub_of_val {a b c : I32} (h : c.val = a.val - b.val) : a.checkedSub b = some c := by
  have hrange := c.property
  rw [checkedSub, dif_pos (h ▸ hrange)]
  exact congrArg some (Subtype.ext h.symm)

theorem checkedSub_eq_none {a b : I32} (h : a.checkedSub b = none) :
    ¬(-2 ^ 31 ≤ a.val - b.val ∧ a.val - b.val < 2 ^ 31) := by
  unfold checkedSub at h
  split at h
  · exact nomatch h
  · assumption

/-- The step past a level is refused at the upper bound only. -/
theorem checkedAdd_one (a : I32) :
    (a.checkedAdd one = none ∧ a = MAX) ∨ ∃ b, a.checkedAdd one = some b ∧ b.val = a.val + 1 := by
  have := a.property
  unfold checkedAdd
  by_cases h : a.val + 1 < 2 ^ 31
  · exact .inr ⟨_, dif_pos ⟨by rw [one_val]; omega, h⟩, rfl⟩
  · refine .inl ⟨dif_neg fun hin => h hin.2, Subtype.ext ?_⟩
    show a.val = 2 ^ 31 - 1
    omega

@[simp] theorem saturatingAdd_zero (a : I32) : saturatingAdd a zero = a := by
  apply Subtype.ext
  rw [saturatingAdd_val, zero_val]
  have := a.property
  omega

/-- At a bound the step stands still; elsewhere the opposite step undoes it. -/
theorem one_back (a : I32) :
    saturatingAdd a one = a ∨ saturatingAdd (saturatingAdd a one) negOne = a := by
  have := a.property
  by_cases h : a.val = 2 ^ 31 - 1
  · left
    apply Subtype.ext
    rw [saturatingAdd_val, one_val]
    omega
  · right
    apply Subtype.ext
    rw [saturatingAdd_val, saturatingAdd_val, one_val, negOne_val]
    omega

theorem negOne_back (a : I32) :
    saturatingAdd a negOne = a ∨ saturatingAdd (saturatingAdd a negOne) one = a := by
  have := a.property
  by_cases h : a.val = -2 ^ 31
  · left
    apply Subtype.ext
    rw [saturatingAdd_val, negOne_val]
    omega
  · right
    apply Subtype.ext
    rw [saturatingAdd_val, saturatingAdd_val, one_val, negOne_val]
    omega

end I32

end Apoptosis.Core
