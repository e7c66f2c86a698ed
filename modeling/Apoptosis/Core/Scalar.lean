import Mathlib.Tactic
/-!
# Numbers that may not be finite

A number as a program's float stores it, with exact finite values.
-/
namespace Apoptosis.Core

inductive Scalar
  | finite (q : ℚ)
  | posInf
  | negInf
  | nan
  deriving DecidableEq

namespace Scalar

def isFinite : Scalar → Bool
  | finite _ => true
  | _ => false

/-- The value, 0 where it is not finite. -/
def orZero : Scalar → ℚ
  | finite q => q
  | _ => 0

/-- The comparison `q > x` of a finite `q`; a NaN compares as false. -/
def below (x : Scalar) (q : ℚ) : Bool :=
  match x with
  | finite r => r < q
  | posInf => false
  | negInf => true
  | nan => false

end Scalar

/-- `f32::clamp` of finite numbers, which panics when the bounds cross. -/
def clampTo (x lo hi : ℚ) : Option ℚ := if lo ≤ hi then some (max lo (min x hi)) else none

theorem clampTo_of_le {lo hi : ℚ} (x : ℚ) (h : lo ≤ hi) : clampTo x lo hi = some (max lo (min x hi)) := if_pos h

end Apoptosis.Core
