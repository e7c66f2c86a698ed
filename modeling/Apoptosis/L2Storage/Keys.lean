import Mathlib.Data.Prod.Lex
import Mathlib.Data.String.Basic
import Mathlib.Tactic
/-!
# Chunk and region keys (`persistence/src/{dimension,chunk,dirty}.rs`)

The keys that order saves, with the orders the source derives: fields from
left to right, enumerations by variant.
-/
namespace Apoptosis.L2.Storage

/-- mirrors crates/core/src/ids.rs:19-22 (`ResourceId`) -/
@[ext] structure ResourceId where
  ns : String
  value : String
  deriving DecidableEq, Repr

/-- mirrors crates/persistence/src/dimension.rs:31-41 (`Dimension`) -/
inductive Dimension where
  | overworld | nether | end_
  | custom (id : ResourceId)
  deriving DecidableEq, Repr

def Dimension.rank : Dimension → Nat ×ₗ String ×ₗ String
  | .overworld => toLex (0, toLex ("", ""))
  | .nether => toLex (1, toLex ("", ""))
  | .end_ => toLex (2, toLex ("", ""))
  | .custom id => toLex (3, toLex (id.ns, id.value))

theorem Dimension.rank_injective : Function.Injective Dimension.rank := by
  intro d d' h
  cases d <;> cases d' <;> simp_all [rank, ResourceId.ext_iff]

instance : LinearOrder Dimension := LinearOrder.lift' Dimension.rank Dimension.rank_injective

/-- mirrors crates/persistence/src/chunk.rs:37-42 (`ChunkPos`) -/
structure ChunkPos where
  x : Int
  z : Int
  deriving DecidableEq, Repr

abbrev RegionCoord := Int ×ₗ Int
abbrev RegionKey := Dimension ×ₗ RegionCoord

namespace ChunkPos
def rank (p : ChunkPos) : Int ×ₗ Int := toLex (p.x, p.z)

theorem rank_injective : Function.Injective rank := by
  rintro ⟨x, z⟩ ⟨x', z'⟩ h
  simp_all [rank]

instance : LinearOrder ChunkPos := LinearOrder.lift' rank rank_injective

/-- mirrors crates/persistence/src/chunk.rs:54-64 (`region_x`, `region_z`) -/
def region (p : ChunkPos) : RegionCoord := toLex (p.x / 32, p.z / 32)

/-- mirrors crates/persistence/src/chunk.rs:69-71 (`ChunkPos::slot`) -/
def slot (p : ChunkPos) : Nat := (p.x % 32 + p.z % 32 * 32).toNat

end ChunkPos

/-- mirrors crates/persistence/src/chunk.rs:897-919 (`ChunkKey`) -/
abbrev ChunkKey := Dimension ×ₗ ChunkPos

/-- mirrors crates/persistence/src/chunk.rs:916-918 (`ChunkKey::region`), with its dimension -/
def ChunkKey.regionKey (k : ChunkKey) : RegionKey := toLex ((ofLex k).1, (ofLex k).2.region)

end Apoptosis.L2.Storage
