import Apoptosis.Core.I32
import Apoptosis.RandomSource
/-!
# Dimension bounds and the ranges a pack draws from (`worldgen/src/seed.rs`, `pack_json.rs`)

Doubles are real numbers here.
-/
namespace Apoptosis.L2.Worldgen
open Apoptosis.Core Apoptosis.RandomDoubles

/-- `i32::saturating_add`, `i32::saturating_sub` and `i32::saturating_mul` cut their result so. -/
abbrev saturate (i : Int) : Int := (I32.clamp i).val

/-- mirrors crates/worldgen/src/seed.rs:249-262 (`WorldgenContext`), without the dimension's key -/
structure WorldgenContext where
  seed : Int
  minY : I32
  height : I32
  seaLevel : I32

namespace WorldgenContext

/-- mirrors crates/worldgen/src/seed.rs:326-328 (`max_y`) -/
def maxY (context : WorldgenContext) : Int := saturate (context.minY.val + context.height.val)

/-- mirrors crates/worldgen/src/seed.rs:368-371 (`section_count`) -/
def sectionCount (context : WorldgenContext) : Int := max 1 (min (context.height.val / 16) 128)

/-- mirrors crates/worldgen/src/seed.rs:382-385 (`effective_max_y`) -/
def effectiveMaxY (context : WorldgenContext) : Int :=
  saturate (context.minY.val + saturate (context.sectionCount * 16))

end WorldgenContext

/-- mirrors crates/worldgen/src/pack_json.rs:107-114 (`YAnchor`) -/
inductive YAnchor
  | absolute (y : Int)
  | aboveBottom (offset : Int)
  | belowTop (offset : Int)
  deriving DecidableEq

/-- mirrors crates/worldgen/src/pack_json.rs:142-150 (`YAnchor::resolve`) -/
def YAnchor.resolve (context : WorldgenContext) (anchor : YAnchor) : Int :=
  let maxInclusive := saturate (context.effectiveMaxY - 1)
  let raw := match anchor with
    | .absolute y => y
    | .aboveBottom offset => saturate (context.minY.val + offset)
    | .belowTop offset => saturate (context.maxY - offset)
  max context.minY.val (min raw maxInclusive)

/-- mirrors crates/worldgen/src/pack_json.rs:154-176 (`HeightDist`) -/
inductive HeightDist
  | uniform (min max : YAnchor)
  | trapezoid (min max : YAnchor) (plateau : Int)
  deriving DecidableEq

section
variable {R : Type} [RandomDoubles R]

/-- mirrors crates/worldgen/src/pack_json.rs:240-256 (`sample_trapezoid`) -/
def sampleTrapezoid (min max plateau : Int) : StateM R Int := do
  let span := saturate (max - min)
  if span ≤ 0 then return min
  let plateau := Max.max 0 (Min.min plateau span)
  let slope := span - plateau
  let rise := (← nextI32Inclusive 0 slope) + (← nextI32Inclusive 0 slope)
  let offset := rise / 2
  let flat ← if 0 < plateau then nextI32Inclusive 0 plateau else pure 0
  return min + offset + flat

/-- mirrors crates/worldgen/src/pack_json.rs:206-219 (`HeightDist::sample`) -/
def HeightDist.sample (context : WorldgenContext) : HeightDist → StateM R Int
  | .uniform min max => do
    let lo := min.resolve context
    let hi := max.resolve context
    nextI32Inclusive lo (Max.max hi lo)
  | .trapezoid min max plateau => do
    let lo := min.resolve context
    let hi := max.resolve context
    sampleTrapezoid lo (Max.max hi lo) plateau

end

/-- mirrors crates/worldgen/src/pack_json.rs:343-348 (`FloatRange`) -/
structure FloatRange where
  min : ℝ
  max : ℝ

namespace FloatRange
variable {R : Type} [RandomDoubles R]

/-- mirrors crates/worldgen/src/pack_json.rs:369-371 (`FloatRange::sample`) -/
noncomputable def sample (range : FloatRange) : StateM R ℝ := nextF64Between range.min range.max

theorem sample_le (range : FloatRange) {bound : ℝ} (hmin : range.min ≤ bound) (hmax : range.max ≤ bound)
    (random : R) : (range.sample random).1 ≤ bound := nextF64Between_le hmin hmax random

end FloatRange
end Apoptosis.L2.Worldgen
