import Apoptosis.Core.Instances
import Mathlib.Data.Real.Basic
import Mathlib.Tactic
/-!
# Random draws (`core/src/random.rs`)

The generator is a parameter: what is proved holds for every sequence of draws.
-/
namespace Apoptosis

/-- The draws the flow rules take of a `RandomSource` (crates/core/src/random.rs). -/
class RandomSource (R : Type) where
  nextI32Bounded : R → Int → R × Int

/-- A source that also draws the fifty-three bits of a double, and keeps to the bounds asked for. -/
class RandomDoubles (R : Type) extends RandomSource R where
  next53 : R → R × Fin (2 ^ 53)
  bounded : ∀ (random : R) (bound : Int), 0 < bound →
    0 ≤ (nextI32Bounded random bound).2 ∧ (nextI32Bounded random bound).2 < bound

namespace RandomDoubles
variable {R : Type} [RandomDoubles R]

/-- mirrors crates/core/src/random.rs:83-102 (`next_i32_bounded`) -/
def nextBounded (bound : Int) : StateM R Int := fun random =>
  let (random, value) := RandomSource.nextI32Bounded random bound
  (value, random)

/-- mirrors crates/core/src/random.rs:166-171 (`next_i32_inclusive`) -/
def nextI32Inclusive (min max : Int) : StateM R Int := do
  if max ≤ min then return min
  return min + (← nextBounded (max - min + 1))

section
attribute [local instance] Apoptosis.Core.atLeastTwo

/-- mirrors crates/core/src/random.rs:130-134 (`next_f64`) -/
noncomputable def nextF64 : StateM R ℝ := fun random =>
  let (random, bits) := next53 random
  ((bits : ℕ) / 2 ^ 53, random)

end

/-- mirrors crates/core/src/random.rs:154-160 (`next_f64_between`) -/
noncomputable def nextF64Between (min max : ℝ) : StateM R ℝ := do
  if max ≤ min then return min
  return min + (← nextF64) * (max - min)

theorem nextF64_range (random : R) : 0 ≤ (nextF64 random).1 ∧ (nextF64 random).1 < 1 := by
  unfold nextF64
  have h : (((next53 random).2 : ℕ) : ℝ) < 2 ^ 53 := by exact_mod_cast (next53 random).2.isLt
  exact ⟨by positivity, (div_lt_one (by positivity)).mpr h⟩

/-- A draw between two bounds is at most the greater. -/
theorem nextF64Between_le {min max bound : ℝ} (hmin : min ≤ bound) (hmax : max ≤ bound) (random : R) :
    (nextF64Between min max random).1 ≤ bound := by
  obtain ⟨hlow, hhigh⟩ := nextF64_range random
  unfold nextF64Between
  by_cases h : max ≤ min
  · rw [if_pos h]
    exact hmin
  · rw [if_neg h]
    show min + (nextF64 random).1 * (max - min) ≤ bound
    nlinarith [not_le.mp h]

end RandomDoubles
end Apoptosis
