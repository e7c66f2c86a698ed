import Mathlib.Data.Finset.Sort
import Mathlib.Tactic
/-!
# Instances by name

Facts that definitions rest on without saying so: how a numeral, a membership
test and a sorted list are read.
-/
namespace Apoptosis.Core

theorem atLeastTwo : Nat.AtLeastTwo 2 := inferInstance

theorem lawfulText : LawfulBEq (List Char) := inferInstance

theorem lawfulTriple : LawfulBEq (Int × Int × Int) := inferInstance

variable {α : Type*} [LinearOrder α]

theorem sortsTrans : IsTrans α fun a b => a ≤ b := inferInstance

theorem sortsAntisymm : Std.Antisymm fun a b : α => a ≤ b := inferInstance

end Apoptosis.Core
