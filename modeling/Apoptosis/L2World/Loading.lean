import Apoptosis.L2World.World
/-!
# Chunks made available (`server/src/game/persist.rs`)

A place that is to be read or written is loaded first: from what is stored
there, else from the generator, else as air. What is stored but cannot be read
is marked and never generated over.

* `loadOrCreateChunk_spec`: what a place holds then, and that nothing else changes.
-/
namespace Apoptosis.L2.Terrain
open Apoptosis.Core Apoptosis.L2.Registry Apoptosis.L2.Storage

/-- mirrors crates/world/src/chunk.rs:388-390 (`Chunk::mark_clean`) -/
def Chunk.markClean (chunk : Chunk) : Chunk := { chunk with dirty := false }

/-- What is stored and what is generated. Both answer with a chunk of the place they were asked
for: a stored one is checked for it (crates/persistence/src/world.rs:349 and 404). -/
structure ChunkSource where
  /-- `read_stored_chunk`, and `Chunk::from_chunk_data` of what it read. -/
  read : ChunkPos → ServerResult (Option Chunk)
  /-- The generated chunk with its structures and trees; `none` without a generator, or where it
  fails. -/
  generate : ChunkPos → Option Chunk
  canRead : Bool
  read_pos : ∀ pos chunk, read pos = .ok (some chunk) → chunk.pos = pos
  generate_pos : ∀ pos chunk, generate pos = some chunk → chunk.pos = pos

/-- mirrors crates/server/src/game/mod.rs:830-890 (`Game`), the chunks of it -/
structure Game where
  world : World
  unreadableChunks : ChunkPos → Bool

namespace Game

/-- mirrors crates/server/src/game/mod.rs:1587-1589 (`chunk_is_unreadable`) -/
def chunkIsUnreadable (game : Game) (pos : ChunkPos) : Bool := game.unreadableChunks pos

/-- mirrors crates/server/src/game/session.rs:5144-5149 (`in_build_range`) -/
def inBuildRange (game : Game) (y : Int) : Bool :=
  game.world.minSectionY * 16 ≤ y && y < (game.world.minSectionY + game.world.sectionCount) * 16

/-- mirrors crates/server/src/game/persist.rs:889-893 (`mark_chunk_clean`) -/
def markChunkClean (world : World) (pos : ChunkPos) : World :=
  { world with chunks := Function.update world.chunks pos ((world.chunks pos).map Chunk.markClean) }

/-- mirrors crates/server/src/game/persist.rs:124-252 (`load_or_create_chunk`), without the entities
of the chunk and the queue of light updates -/
def loadOrCreateChunk (source : ChunkSource) (game : Game) (pos : ChunkPos) : Game :=
  if game.world.isLoaded pos then game
  else
    let stored := source.read pos
    let unreadable := match stored with
      | .error _ => Function.update game.unreadableChunks pos true
      | .ok _ => game.unreadableChunks
    let available := match stored with
      | .ok (some chunk) => some chunk
      | _ => if source.canRead && !unreadable pos then source.generate pos else none
    let world := match available with
      | some chunk => (game.world.loadChunk chunk).invalidateLight3x3 pos
      | none => game.world.ensureChunk pos
    ⟨markChunkClean world pos, unreadable⟩

/-! ## What a place holds when it is loaded -/

variable (source : ChunkSource)

/-- The chunk of a place, and its mark. -/
def arrival (game : Game) (pos : ChunkPos) : Chunk × Bool :=
  let air := Chunk.air pos game.world.minSectionY game.world.sectionCount game.world.registry
  match game.world.chunks pos with
  | some chunk => (chunk, game.unreadableChunks pos)
  | none =>
    match source.read pos with
    | .ok (some chunk) => (chunk.markClean, game.unreadableChunks pos)
    | .ok none =>
      let generated :=
        if source.canRead && !game.unreadableChunks pos then source.generate pos else none
      ((generated.getD air).markClean, game.unreadableChunks pos)
    | .error _ => (air.markClean, true)

/-- The chunk a place holds, loaded if it was not. -/
def chunkAt (game : Game) (pos : ChunkPos) : Chunk := (game.arrival source pos).1

/-- The block of a cell, loaded if it was not. -/
def cell (game : Game) (p : Int × Int × Int) : Int :=
  (game.chunkAt source (chunkOf p.1 p.2.2)).getBlock p.1 p.2.1 p.2.2

/-- Both have worlds of one height over one registry. -/
structure SameSize (game game' : Game) : Prop where
  registry : game'.world.registry = game.world.registry
  minSectionY : game'.world.minSectionY = game.world.minSectionY
  sectionCount : game'.world.sectionCount = game.world.sectionCount

variable {source} {game game' : Game} {pos : ChunkPos}

theorem SameSize.refl : SameSize game game := ⟨rfl, rfl, rfl⟩

theorem SameSize.trans {game'' : Game} (h : SameSize game game') (h' : SameSize game' game'') :
    SameSize game game'' :=
  ⟨h'.registry.trans h.registry, h'.minSectionY.trans h.minSectionY,
    h'.sectionCount.trans h.sectionCount⟩

theorem arrival_of_loaded {chunk : Chunk} (h : game.world.chunks pos = some chunk) :
    game.arrival source pos = (chunk, game.unreadableChunks pos) := by
  simp only [arrival, h]

theorem arrival_congr (hsize : SameSize game game')
    (hchunks : game'.world.chunks pos = game.world.chunks pos)
    (hmark : game'.unreadableChunks pos = game.unreadableChunks pos) :
    game'.arrival source pos = game.arrival source pos := by
  simp only [arrival, hsize.registry, hsize.minSectionY, hsize.sectionCount, hchunks, hmark]

theorem markChunkClean_chunks {world : World} {chunks : ChunkPos → Option Chunk} {chunk : Chunk}
    (h : world.chunks = Function.update chunks pos (some chunk)) :
    (markChunkClean world pos).chunks = Function.update chunks pos (some chunk.markClean) := by
  simp [markChunkClean, h]

theorem loadChunk_chunks {chunk : Chunk} (h : chunk.pos = pos) (world : World) :
    ((world.loadChunk chunk).invalidateLight3x3 pos).chunks =
      Function.update world.chunks pos (some chunk) := by
  rw [← h]
  rfl

theorem loadOrCreateChunk_spec (game : Game) (pos : ChunkPos) :
    (loadOrCreateChunk source game pos).world.chunks =
        Function.update game.world.chunks pos (some (game.arrival source pos).1) ∧
      (loadOrCreateChunk source game pos).unreadableChunks =
        Function.update game.unreadableChunks pos (game.arrival source pos).2 ∧
      SameSize game (loadOrCreateChunk source game pos) := by
  unfold loadOrCreateChunk World.isLoaded arrival
  cases hchunk : game.world.chunks pos with
  | some chunk =>
    simp only [Option.isSome_some, if_true]
    exact ⟨by rw [← hchunk, Function.update_eq_self], by rw [Function.update_eq_self], .refl⟩
  | none =>
    have hensured : (game.world.ensureChunk pos).chunks = Function.update game.world.chunks pos
        (some (Chunk.air pos game.world.minSectionY game.world.sectionCount game.world.registry)) := by
      rw [World.ensureChunk, World.ensured, hchunk, Option.getD_none]
    simp only [Option.isSome_none, Bool.false_eq_true, if_false]
    cases hread : source.read pos with
    | error e =>
      simp only [Function.update_self, Bool.not_true, Bool.and_false, Bool.false_eq_true, if_false]
      exact ⟨markChunkClean_chunks hensured, trivial, rfl, rfl, rfl⟩
    | ok stored =>
      cases stored with
      | some chunk =>
        exact ⟨markChunkClean_chunks (loadChunk_chunks (source.read_pos pos chunk hread) _),
          by rw [Function.update_eq_self], rfl, rfl, rfl⟩
      | none =>
        cases hgenerated : (if source.canRead && !game.unreadableChunks pos then source.generate pos
          else none) with
        | none => exact ⟨markChunkClean_chunks hensured, by rw [Function.update_eq_self], rfl, rfl, rfl⟩
        | some chunk =>
          have hpos : chunk.pos = pos := by
            split at hgenerated
            · exact source.generate_pos pos chunk hgenerated
            · cases hgenerated
          exact ⟨markChunkClean_chunks (loadChunk_chunks hpos _), by rw [Function.update_eq_self],
            rfl, rfl, rfl⟩

/-- Loading a place changes what no place holds. -/
theorem arrival_loadOrCreateChunk (game : Game) (pos pos' : ChunkPos) :
    (loadOrCreateChunk source game pos).arrival source pos' = game.arrival source pos' := by
  obtain ⟨hchunks, hmarks, hsize⟩ := @loadOrCreateChunk_spec source game pos
  by_cases hpos : pos' = pos
  · subst hpos
    rw [arrival_of_loaded (by rw [hchunks, Function.update_self]), hmarks, Function.update_self]
  · exact arrival_congr hsize (by rw [hchunks, Function.update_of_ne hpos])
      (by rw [hmarks, Function.update_of_ne hpos])

end Game
end Apoptosis.L2.Terrain
