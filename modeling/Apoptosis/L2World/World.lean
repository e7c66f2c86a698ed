import Apoptosis.Core.Runs
import Apoptosis.L2World.Chunk
import Apoptosis.L2World.Light
/-!
# The loaded chunks of a dimension (`world/src/world.rs`)

Blocks are written through the world, which makes the chunk when there is none,
records the change and drops the light it may have changed. Positions are
unbounded here: where the source's `i32` sums overflow, it stops.
-/
namespace Apoptosis.L2.Terrain
open Apoptosis.Core Apoptosis.L2.Registry Apoptosis.L2.Storage

/-- mirrors crates/world/src/world.rs:27-41 (`BlockChange`) -/
structure BlockChange where
  pos : ChunkPos
  x : Int
  y : Int
  z : Int
  oldId : Int
  newId : Int
  deriving DecidableEq, Repr

/-- mirrors crates/world/src/world.rs:63-86 (`chunks_a_block_can_light`) -/
def chunksABlockCanLight (pos : ChunkPos) (x z : Int) : List ChunkPos :=
  let within (d localTo : Int) : Bool :=
    if d = -1 then localTo = 0 else if d = 0 then true else localTo = 15
  ([-1, 0, 1] : List Int).flatMap fun dx => ([-1, 0, 1] : List Int).filterMap fun dz =>
    if within dx (x % 16) && within dz (z % 16) then some ⟨pos.x + dx, pos.z + dz⟩ else none

/-- mirrors crates/world/src/world.rs:121-143 (`World`) -/
structure World where
  registry : BlockRegistry
  chunks : ChunkPos → Option Chunk
  light : ChunkPos → Option ChunkLight
  changes : List BlockChange
  minSectionY : Int
  sectionCount : Nat

/-- `x >> 4`, `z >> 4` -/
def chunkOf (x z : Int) : ChunkPos := ⟨x / 16, z / 16⟩

namespace World

/-- mirrors crates/world/src/world.rs:154-170 (`World::with_height`) -/
def withHeight (registry : BlockRegistry) (minSectionY : Int) (sectionCount : Nat) : World :=
  ⟨registry, fun _ => none, fun _ => none, [], minSectionY, sectionCount⟩

/-- mirrors crates/world/src/world.rs:229-231 (`is_loaded`) -/
def isLoaded (w : World) (pos : ChunkPos) : Bool := (w.chunks pos).isSome

/-- mirrors crates/world/src/world.rs:214-216 (`load_chunk`) -/
def loadChunk (w : World) (chunk : Chunk) : World :=
  { w with chunks := Function.update w.chunks chunk.pos (some chunk) }

/-- The chunk of `ensure_chunk`, made of air when there is none. -/
def ensured (w : World) (pos : ChunkPos) : Chunk :=
  (w.chunks pos).getD (Chunk.air pos w.minSectionY w.sectionCount w.registry)

/-- mirrors crates/world/src/world.rs:237-243 (`ensure_chunk`) -/
def ensureChunk (w : World) (pos : ChunkPos) : World :=
  { w with chunks := Function.update w.chunks pos (some (w.ensured pos)) }

def dropLight (w : World) (positions : List ChunkPos) : World :=
  { w with light := fun pos => if pos ∈ positions then none else w.light pos }

/-- mirrors crates/world/src/world.rs:379-385 (`invalidate_light_3x3`) -/
def invalidateLight3x3 (w : World) (pos : ChunkPos) : World :=
  w.dropLight (([-1, 0, 1] : List Int).flatMap fun dx =>
    ([-1, 0, 1] : List Int).map fun dz => ⟨pos.x + dx, pos.z + dz⟩)

/-- mirrors crates/world/src/world.rs:253-256 (`unload_chunk`) -/
def unloadChunk (w : World) (pos : ChunkPos) : World :=
  let w := w.invalidateLight3x3 pos
  { w with chunks := Function.update w.chunks pos none }

/-- mirrors crates/world/src/world.rs:301-306 (`get_block`): air where nothing is loaded -/
def getBlock (w : World) (x y z : Int) : Int :=
  ((w.chunks (chunkOf x z)).map (·.getBlock x y z)).getD 0

/-- mirrors crates/world/src/world.rs:309-312 (`get_block_loaded`), and `BlockCursor::get` -/
def getBlockLoaded (w : World) (x y z : Int) : Option Int :=
  (w.chunks (chunkOf x z)).map (·.getBlock x y z)

/-- mirrors crates/world/src/world.rs:325-352 (`set_block`): a write that fails has made the chunk -/
def setBlock (w : World) (x y z id : Int) : ServerResult (Option BlockChange) × World :=
  let pos := chunkOf x z
  let made := w.ensureChunk pos
  match (w.ensured pos).setBlock x y z id w.registry with
  | .error e => (.error e, made)
  | .ok (none, _) => (.ok none, made)
  | .ok (some (oldId, newId), chunk) =>
    let change : BlockChange := ⟨pos, x, y, z, oldId, newId⟩
    (.ok (some change), { made.dropLight (chunksABlockCanLight pos x z) with
      chunks := Function.update w.chunks pos (some chunk)
      changes := w.changes ++ [change] })

/-- What `compute_chunk_light` gives for a loaded chunk. -/
def lightOf (w : World) (table : LightTable) (pos : ChunkPos) (chunk : Chunk) :
    Option (ServerResult ChunkLight) :=
  computeChunkLight table pos.x pos.z chunk.minY chunk.sections.length w.getBlockLoaded

/-- mirrors crates/world/src/world.rs:391-419 (`compute_light`); `none` where the arithmetic
overflows -/
def computeLight (w : World) (table : LightTable) (pos : ChunkPos) : Option (ServerResult Unit × World) :=
  if (w.light pos).isSome then some (.ok (), w)
  else match w.chunks pos with
    | none => some (.error (.invariant ("no chunk at (" ++ toString pos.x ++ ", " ++
        toString pos.z ++ ") to light")), w)
    | some chunk => match w.lightOf table pos chunk with
      | none => none
      | some (.error e) => some (.error e, w)
      | some (.ok light) => some (.ok (), { w with light := Function.update w.light pos (some light) })

/-- mirrors crates/world/src/world.rs:429-431 (`cached_light`) -/
def cachedLight (w : World) (pos : ChunkPos) : Option ChunkLight := w.light pos

/-- mirrors crates/world/src/world.rs:434-436 (`clear_light`) -/
def clearLight (w : World) : World := { w with light := fun _ => none }

/-! ## Reading after writing -/

/-- A write inside a loaded chunk: it goes through, and changes that cell of that chunk alone. -/
theorem setBlock_loaded {w : World} {x y z : Int} {chunk : Chunk}
    (hchunk : w.chunks (chunkOf x z) = some chunk) (hin : chunk.idAt x y z ≠ none) (id : Int) :
    ∃ change chunk', (w.setBlock x y z id).1 = .ok change ∧
      chunk.setBlock x y z id w.registry = .ok (change.map fun c => (c.oldId, c.newId), chunk') ∧
      (w.setBlock x y z id).2.registry = w.registry ∧
      (w.setBlock x y z id).2.chunks = Function.update w.chunks (chunkOf x z) (some chunk') := by
  have hensured : w.ensured (chunkOf x z) = chunk := by rw [ensured, hchunk, Option.getD_some]
  obtain ⟨⟨change, chunk'⟩, hset⟩ := Chunk.setBlock_isOk hin id w.registry
  unfold setBlock
  dsimp only
  rw [hensured, hset]
  cases change with
  | none =>
    refine ⟨none, chunk', rfl, rfl, rfl, ?_⟩
    rw [Chunk.setBlock_unchanged hset]
    simp only [ensureChunk, hensured]
  | some change => exact ⟨some _, chunk', rfl, rfl, rfl, rfl⟩

theorem sameCell_iff {x y z x' y' z' : Int} : (x', y', z') = (x, y, z) ↔
    chunkOf x' z' = chunkOf x z ∧ Chunk.SameCell x y z x' y' z' := by
  simp only [Prod.mk.injEq, chunkOf, ChunkPos.mk.injEq, Chunk.SameCell]
  omega

/-- A write over a block that is there goes through, and changes that block alone. -/
theorem getBlockLoaded_setBlock {w : World} {x y z old : Int} (h : w.getBlockLoaded x y z = some old)
    (hold : old ≠ 0) (id : Int) : (∃ change, (w.setBlock x y z id).1 = .ok change) ∧
      (w.setBlock x y z id).2.registry = w.registry ∧ ∀ x' y' z',
      (w.setBlock x y z id).2.getBlockLoaded x' y' z' =
        if (x', y', z') = (x, y, z) then some id else w.getBlockLoaded x' y' z' := by
  obtain ⟨chunk, hchunk, hget⟩ := Option.map_eq_some_iff.mp h
  have hin : chunk.idAt x y z ≠ none := by
    intro hnone
    rw [Chunk.getBlock_eq, hnone] at hget
    exact hold hget.symm
  obtain ⟨change, chunk', hok, hset, hregistry, hchunks⟩ := setBlock_loaded hchunk hin id
  obtain ⟨-, -, -, hcells⟩ := Chunk.setBlock_spec hset
  refine ⟨⟨change, hok⟩, hregistry, fun x' y' z' => ?_⟩
  rw [if_congr sameCell_iff rfl rfl]
  by_cases hpos : chunkOf x' z' = chunkOf x z
  · by_cases hcell : Chunk.SameCell x y z x' y' z'
    · simp [getBlockLoaded, hchunks, hpos, Chunk.getBlock_eq, hcells, hcell]
    · simp [getBlockLoaded, hchunks, hpos, Chunk.getBlock_eq, hcells, hcell, hchunk]
  · simp [getBlockLoaded, hchunks, hpos]

end World
end Apoptosis.L2.Terrain
