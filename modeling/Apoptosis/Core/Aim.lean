import Mathlib.Analysis.Complex.Trigonometric
import Mathlib.Analysis.SpecialFunctions.Complex.Arg
import Mathlib.Analysis.SpecialFunctions.Trigonometric.Bounds
import Mathlib.Tactic
/-!
# Aiming at the middle of a cell

A turn cut into `n` equal angles points almost everywhere, and almost every circle passes close to
the middle of a unit cell.

* `exists_angle`: some angle of the cut points along a given direction, to within a cut.
* `exists_cell`: a cell's middle just outside a circle.
* `exists_angle_to_cell`: the two together.
-/
namespace Apoptosis.Core.Aim
open Real

/-- The `k`-th of `n` equal parts of a turn. -/
noncomputable def angle (n k : ℕ) : ℝ := k / n * (2 * π)

theorem exists_turn {a b : ℝ} (hunit : a ^ 2 + b ^ 2 = 1) :
    ∃ t, 0 ≤ t ∧ t < 1 ∧ cos (t * (2 * π)) = a ∧ sin (t * (2 * π)) = b := by
  have hne : (⟨a, b⟩ : ℂ) ≠ 0 := by
    intro h
    have ha : a = 0 := congrArg Complex.re h
    have hb : b = 0 := congrArg Complex.im h
    simp [ha, hb] at hunit
  have hnorm : ‖(⟨a, b⟩ : ℂ)‖ = 1 := by
    rw [Complex.norm_def, Complex.normSq_mk, ← pow_two, ← pow_two, hunit, sqrt_one]
  have hcos : cos (Complex.arg ⟨a, b⟩) = a := by
    rw [Complex.cos_arg hne, hnorm, div_one]
  have hsin : sin (Complex.arg ⟨a, b⟩) = b := by
    rw [Complex.sin_arg, hnorm, div_one]
  refine ⟨Int.fract (Complex.arg ⟨a, b⟩ / (2 * π)), Int.fract_nonneg _, Int.fract_lt_one _, ?_, ?_⟩
  all_goals
    have hturn : Int.fract (Complex.arg ⟨a, b⟩ / (2 * π)) * (2 * π) =
        Complex.arg ⟨a, b⟩ - ⌊Complex.arg ⟨a, b⟩ / (2 * π)⌋ * (2 * π) := by
      rw [← Int.self_sub_floor, sub_mul, div_mul_cancel₀ _ two_pi_pos.ne']
    rw [hturn]
  · rw [cos_sub_int_mul_two_pi, hcos]
  · rw [sin_sub_int_mul_two_pi, hsin]

/-- Some angle of the cut points along a direction, to within a cut on either axis. -/
theorem exists_angle {n : ℕ} (hn : 0 < n) {a b : ℝ} (hunit : a ^ 2 + b ^ 2 = 1) :
    ∃ k < n, |cos (angle n k) - a| ≤ 2 * π / n ∧ |sin (angle n k) - b| ≤ 2 * π / n := by
  obtain ⟨t, hlow, hhigh, rfl, rfl⟩ := exists_turn hunit
  have hn' : (0 : ℝ) < n := Nat.cast_pos.mpr hn
  refine ⟨⌊t * n⌋₊, ?_, ?_⟩
  · rw [Nat.floor_lt (by positivity)]
    exact mul_lt_of_lt_one_left hn' hhigh
  · have hnear : |angle n ⌊t * n⌋₊ - t * (2 * π)| ≤ 2 * π / n := by
      have hfloor := Nat.floor_le (mul_nonneg hlow hn'.le)
      have hceil := (Nat.lt_floor_add_one (t * n)).le
      have hdiff : angle n ⌊t * n⌋₊ - t * (2 * π) = (⌊t * n⌋₊ - t * n) / n * (2 * π) := by
        unfold angle
        field_simp
      have hpart : |((⌊t * n⌋₊ : ℝ) - t * n) / n| ≤ 1 / n := by
        rw [abs_div, abs_of_pos hn']
        gcongr
        rw [abs_le]
        constructor <;> linarith
      calc |angle n ⌊t * n⌋₊ - t * (2 * π)| = |((⌊t * n⌋₊ : ℝ) - t * n) / n| * (2 * π) := by
            rw [hdiff, abs_mul, abs_of_pos two_pi_pos]
        _ ≤ 1 / n * (2 * π) := by gcongr
        _ = 2 * π / n := by ring
    exact ⟨(abs_cos_sub_cos_le _ _).trans hnear, (abs_sin_sub_sin_le _ _).trans hnear⟩

/-- The middle of some cell lies on a circle or just outside it. -/
theorem exists_cell {d : ℝ} (hd : 120 ≤ d) : ∃ x z : ℤ, ∃ r : ℝ, d - 2 ≤ x ∧
    ((x : ℝ) + 1 / 2) ^ 2 + ((z : ℝ) + 1 / 2) ^ 2 = r ^ 2 ∧ d ≤ r ∧ r ≤ d + 1 / 6 := by
  have hlow : d - 2 < (⌊d⌋ - 1 : ℤ) := by
    have := Int.lt_floor_add_one d
    push_cast
    linarith
  have hhigh : ((⌊d⌋ - 1 : ℤ) : ℝ) ≤ d - 1 := by
    have := Int.floor_le d
    push_cast
    linarith
  generalize (⌊d⌋ - 1 : ℤ) = x at hlow hhigh
  -- the lowest row whose cell is outside the circle
  have hexists : ∃ n : ℕ, d ^ 2 ≤ ((x : ℝ) + 1 / 2) ^ 2 + ((n : ℝ) + 1 / 2) ^ 2 := by
    obtain ⟨n, hn⟩ := exists_nat_ge d
    exact ⟨n, by nlinarith⟩
  classical
  have hout := Nat.find_spec hexists
  have hrow : 0 < Nat.find hexists := by
    rw [Nat.find_pos]
    intro h
    push_cast at h
    nlinarith
  have hin := Nat.find_min hexists (Nat.sub_lt hrow one_pos)
  generalize Nat.find hexists = z at hout hrow hin
  obtain ⟨m, rfl⟩ : ∃ m, z = m + 1 := ⟨z - 1, by omega⟩
  rw [Nat.add_sub_cancel, not_le] at hin
  have hm : (m : ℝ) + 1 ≤ d / 6 := by nlinarith
  have hm0 : (0 : ℝ) ≤ m := Nat.cast_nonneg m
  refine ⟨x, (m + 1 : ℕ), √(((x : ℝ) + 1 / 2) ^ 2 + ((m + 1 : ℕ) + 1 / 2) ^ 2), by linarith, ?_, ?_, ?_⟩
  · rw [sq_sqrt (by positivity)]
    push_cast
    ring
  · exact le_sqrt_of_sq_le hout
  · rw [sqrt_le_left (by linarith)]
    push_cast
    nlinarith

/-- At any far distance, some angle of a fine cut comes within a quarter of the middle of a cell. -/
theorem exists_angle_to_cell {n : ℕ} {d : ℝ} (hd : 120 ≤ d) (hn : 1000 * d ≤ n) :
    ∃ k < n, ∃ x z : ℤ, d - 2 ≤ x ∧
      ((x : ℝ) + 1 / 2 - cos (angle n k) * d) ^ 2 + ((z : ℝ) + 1 / 2 - sin (angle n k) * d) ^ 2 ≤ 1 / 16 := by
  obtain ⟨x, z, r, hx, hr, hlow, hhigh⟩ := exists_cell hd
  have hr0 : 0 < r := by linarith
  have hn0 : (0 : ℝ) < n := by linarith
  obtain ⟨k, hk, hcos, hsin⟩ := exists_angle (n := n) (Nat.cast_pos.mp hn0)
    (show (((x : ℝ) + 1 / 2) / r) ^ 2 + (((z : ℝ) + 1 / 2) / r) ^ 2 = 1 by
      rw [div_pow, div_pow, ← add_div, hr, div_self (by positivity)])
  have hcut : d * (2 * π / n) ≤ 1 / 100 := by
    have hpi := pi_le_four
    rw [← mul_div_assoc, div_le_iff₀ hn0]
    nlinarith
  refine ⟨k, hk, x, z, hx, ?_⟩
  generalize cos (angle n k) = c at hcos ⊢
  generalize sin (angle n k) = s at hsin ⊢
  obtain ⟨a, ha⟩ : ∃ a, a = ((x : ℝ) + 1 / 2) / r := ⟨_, rfl⟩
  obtain ⟨b, hb⟩ : ∃ b, b = ((z : ℝ) + 1 / 2) / r := ⟨_, rfl⟩
  rw [← ha] at hcos
  rw [← hb] at hsin
  have hxa : (x : ℝ) + 1 / 2 = a * r := by rw [ha, div_mul_cancel₀ _ hr0.ne']
  have hzb : (z : ℝ) + 1 / 2 = b * r := by rw [hb, div_mul_cancel₀ _ hr0.ne']
  have hunit : a ^ 2 + b ^ 2 = 1 := by
    rw [hxa, hzb, mul_pow, mul_pow, ← add_mul] at hr
    exact mul_right_cancel₀ (pow_ne_zero 2 hr0.ne') (hr.trans (one_mul _).symm)
  have hε : |d * (c - a)| ≤ 1 / 100 := by
    rw [abs_mul, abs_of_pos (by linarith)]
    exact (mul_le_mul_of_nonneg_left hcos (by linarith)).trans hcut
  have hη : |d * (s - b)| ≤ 1 / 100 := by
    rw [abs_mul, abs_of_pos (by linarith)]
    exact (mul_le_mul_of_nonneg_left hsin (by linarith)).trans hcut
  rw [hxa, hzb, show a * r - c * d = a * (r - d) - d * (c - a) by ring,
    show b * r - s * d = b * (r - d) - d * (s - b) by ring]
  generalize d * (c - a) = ε at hε
  generalize d * (s - b) = η at hη
  obtain ⟨e, he⟩ : ∃ e, e = r - d := ⟨_, rfl⟩
  rw [← he]
  have he0 : 0 ≤ e := by linarith
  have he1 : e ≤ 1 / 6 := by linarith
  -- a square of a difference is at most twice the squares
  have hsum : (a * e - ε) ^ 2 + (b * e - η) ^ 2 ≤ 2 * e ^ 2 * (a ^ 2 + b ^ 2) + 2 * (ε ^ 2 + η ^ 2) := by
    nlinarith [sq_nonneg (a * e + ε), sq_nonneg (b * e + η)]
  have hε2 : ε ^ 2 ≤ (1 / 100) ^ 2 := sq_le_sq' (neg_le_of_abs_le hε) (le_of_abs_le hε)
  have hη2 : η ^ 2 ≤ (1 / 100) ^ 2 := sq_le_sq' (neg_le_of_abs_le hη) (le_of_abs_le hη)
  rw [hunit] at hsum
  nlinarith

end Apoptosis.Core.Aim
