import Apoptosis.Core.Instances
import Mathlib.Tactic
/-!
# Bisection

A search between a good point and a bad one, halved a number of times. It ends
at a point of the grid that the halvings make, good with a bad one right after.

* `bisect_grid`: the result, as a point of the grid.
* `bisect_good_iff`: where the bad points lie above the good ones, it is the last good one of the grid.
-/
namespace Apoptosis.Core

variable {K : Type*} [Field K]

section
attribute [local instance] Apoptosis.Core.atLeastTwo

/-- The lower end after `n` halvings. -/
def bisect (bad : K → Bool) : Nat → K → K → K
  | 0, low, _ => low
  | n + 1, low, high =>
    if bad ((low + high) / 2) then bisect bad n low ((low + high) / 2) else bisect bad n ((low + high) / 2) high

end

variable [LinearOrder K] [IsStrictOrderedRing K] {bad : K → Bool}

theorem bisect_grid (n : Nat) {low high : K} (hlow : bad low = false) (hhigh : bad high = true) :
    ∃ j : ℕ, j < 2 ^ n ∧ bisect bad n low high = low + j * ((high - low) / 2 ^ n) ∧
      bad (low + j * ((high - low) / 2 ^ n)) = false ∧ bad (low + (j + 1 : ℕ) * ((high - low) / 2 ^ n)) = true := by
  induction n generalizing low high with
  | zero => exact ⟨0, by simp, by simp [bisect], by simpa using hlow, by simpa using hhigh⟩
  | succ n ih =>
    have hpow : (2 : K) ^ n ≠ 0 := pow_ne_zero n two_ne_zero
    rw [bisect]
    cases hmid : bad ((low + high) / 2) with
    | true =>
      obtain ⟨j, hj, heq, hgood, hbad⟩ := ih hlow hmid
      have hstep : ((low + high) / 2 - low) / 2 ^ n = (high - low) / 2 ^ (n + 1) := by
        rw [pow_succ]
        field_simp
        ring
      rw [hstep] at heq hgood hbad
      exact ⟨j, by rw [pow_succ]; omega, heq, hgood, hbad⟩
    | false =>
      obtain ⟨j, hj, heq, hgood, hbad⟩ := ih hmid hhigh
      have hstep (i : ℕ) : (low + high) / 2 + i * ((high - (low + high) / 2) / 2 ^ n) =
          low + (2 ^ n + i : ℕ) * ((high - low) / 2 ^ (n + 1)) := by
        rw [pow_succ]
        push_cast
        field_simp
        ring
      rw [hstep] at heq hgood
      rw [hstep] at hbad
      exact ⟨2 ^ n + j, by rw [pow_succ]; omega, heq, hgood, hbad⟩

/-- A point of the grid is good exactly up to the one the search ends at. -/
theorem bisect_good_iff (n : Nat) {low high : K} (hlt : low < high)
    (hmono : ∀ s t, low ≤ s → s ≤ t → bad s = true → bad t = true)
    (hlow : bad low = false) (hhigh : bad high = true) (i : ℕ) :
    bad (low + i * ((high - low) / 2 ^ n)) = false ↔
      low + i * ((high - low) / 2 ^ n) ≤ bisect bad n low high := by
  obtain ⟨j, -, heq, hgood, hbad⟩ := bisect_grid n hlow hhigh
  have hstep : 0 < (high - low) / 2 ^ n := div_pos (sub_pos.mpr hlt) (pow_pos two_pos n)
  have hpoint (i : ℕ) : low ≤ low + i * ((high - low) / 2 ^ n) :=
    le_add_of_nonneg_right (mul_nonneg (Nat.cast_nonneg i) hstep.le)
  have hle (i j : ℕ) (h : i ≤ j) : low + i * ((high - low) / 2 ^ n) ≤ low + j * ((high - low) / 2 ^ n) := by
    gcongr
  rw [heq]
  constructor
  · intro hi
    by_contra hgt
    have hij : j + 1 ≤ i := by
      by_contra hlt
      exact hgt (hle i j (by omega))
    rw [hmono _ _ (hpoint _) (hle _ _ hij) hbad] at hi
    exact nomatch hi
  · intro hi
    cases hb : bad (low + i * ((high - low) / 2 ^ n)) with
    | false => rfl
    | true =>
      rw [hmono _ _ (hpoint _) hi hb] at hgood
      exact nomatch hgood

end Apoptosis.Core
