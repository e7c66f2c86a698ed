import Apoptosis.L2Storage.Flush
/-!
# Chunk storage (`persistence/src/world.rs`)

Where a chunk is: among the payloads that wait for a flush, in the handle of an
open region file, or in the file itself. Region files and the chunk codec are
parameters; opens, reads, writes and syncs may fail at any point.
-/
namespace Apoptosis.L2.Storage
open Apoptosis.Core

/-! ## Region files -/

/-- mirrors crates/persistence/src/dimension.rs:67-74 (`Dimension::key`) -/
def Dimension.key : Dimension → ResourceId
  | .overworld => ⟨"minecraft", "overworld"⟩
  | .nether => ⟨"minecraft", "the_nether"⟩
  | .end_ => ⟨"minecraft", "the_end"⟩
  | .custom id => id

/-- What `Dimension::parse` gives: a custom dimension has a key of its own. -/
def Dimension.Parsed : Dimension → Prop
  | .custom id => id ≠ Dimension.overworld.key ∧ id ≠ Dimension.nether.key ∧ id ≠ Dimension.end_.key
  | _ => True

/-- The path of a region file: the directory of the dimension, and the region in the name. -/
abbrev FileKey := ResourceId × RegionCoord

/-- mirrors crates/persistence/src/world.rs:272-278 (`WorldStorage::region_path`). The choice
between the modern and the legacy tree is made by what directories there are, and stays. -/
def regionPath (k : RegionKey) : FileKey := ((ofLex k).1.key, (ofLex k).2)

/-- What the storage does with a region file. A file `F` and a handle `H` may carry a script of
their failures. -/
structure RegionOps (H F β : Type) where
  openFile : F → ServerResult H × F
  /-- The file as the handle leaves it. -/
  file : H → F
  readChunk : H → ChunkPos → ServerResult (Option β) × H
  hasChunk : H → ChunkPos → Bool
  writeChunk : H → ChunkPos → β → ServerResult Unit × H
  removeChunk : H → ChunkPos → ServerResult Bool × H
  sync : H → ServerResult Unit × H
  /-- The payload of a slot by the header in memory. -/
  view : H → Nat → Option β
  /-- The payload of a slot by the header in the file. -/
  stored : F → Nat → Option β

namespace RegionOps
variable {H F β : Type} (ops : RegionOps H F β)

/-- Nothing at this slot has changed, in memory or in the file. -/
def SameAt (h h' : H) (slot : Nat) : Prop :=
  ops.view h' slot = ops.view h slot ∧ ops.stored (ops.file h') slot = ops.stored (ops.file h) slot

/-- The slot holds this payload, in memory and in the file. -/
def HoldsAt (h : H) (slot : Nat) (payload : Option β) : Prop :=
  ops.view h slot = payload ∧ ops.stored (ops.file h) slot = payload

/-- The operations of one slot leave the others alone, and a failed write leaves the old payload
or the new one. -/
structure Lawful : Prop where
  open_ok : ∀ f h f', ops.openFile f = (.ok h, f') →
    ops.view h = ops.stored f ∧ ops.stored (ops.file h) = ops.stored f
  open_file : ∀ f, ops.stored (ops.openFile f).2 = ops.stored f
  read_ok : ∀ h pos v, (ops.readChunk h pos).1 = .ok v → v = ops.view h pos.slot
  read_same : ∀ h pos slot, ops.SameAt h (ops.readChunk h pos).2 slot
  has_eq : ∀ h pos, ops.hasChunk h pos = (ops.view h pos.slot).isSome
  write_ok : ∀ h pos b, (ops.writeChunk h pos b).1 = .ok () →
    ops.HoldsAt (ops.writeChunk h pos b).2 pos.slot (some b)
  write_any : ∀ h pos b, (ops.view (ops.writeChunk h pos b).2 pos.slot = ops.view h pos.slot ∨
      ops.view (ops.writeChunk h pos b).2 pos.slot = some b) ∧
    (ops.stored (ops.file (ops.writeChunk h pos b).2) pos.slot = ops.stored (ops.file h) pos.slot ∨
      ops.stored (ops.file (ops.writeChunk h pos b).2) pos.slot = some b)
  write_others : ∀ h pos b slot, slot ≠ pos.slot → ops.SameAt h (ops.writeChunk h pos b).2 slot
  remove_ok : ∀ h pos b, (ops.removeChunk h pos).1 = .ok b →
    ops.HoldsAt (ops.removeChunk h pos).2 pos.slot none
  remove_others : ∀ h pos slot, slot ≠ pos.slot → ops.SameAt h (ops.removeChunk h pos).2 slot
  sync_same : ∀ h slot, ops.SameAt h (ops.sync h).2 slot

end RegionOps

/-! ## The storage -/

/-- A chunk to the storage: its position, whether its `DataVersion` is supported, and its bytes. -/
structure ChunkCodec (C β : Type) where
  pos : C → ChunkPos
  supported : C → Bool
  encode : C → ServerResult β
  decode : β → ServerResult C

def ChunkCodec.RoundTrips {C β : Type} (codec : ChunkCodec C β) : Prop :=
  ∀ c b, codec.encode c = .ok b → codec.decode b = .ok c

/-- mirrors crates/persistence/src/chunk.rs:860-868 (`verify_position`) -/
def verifyPosition (pos expected : ChunkPos) : ServerResult Unit :=
  if pos = expected then .ok ()
  else .error (.corruptData ("chunk stored at (" ++ toString expected.x ++ ", " ++
    toString expected.z ++ ") declares position (" ++ toString pos.x ++ ", " ++
    toString pos.z ++ ")"))

/-- The storage with the region files under it. -/
structure ChunkStore (H F β L : Type) where
  world : WorldStorage H β L
  files : FileKey → F

namespace ChunkStore
variable {H F C β L T : Type} (ops : RegionOps H F β) (codec : ChunkCodec C β)
  (writeLevel : L → ServerResult Unit)

/-- mirrors crates/persistence/src/world.rs:80-99 (`WorldStorage::open`) -/
def openWorld (level : Option L) (files : FileKey → F) : ChunkStore H F β L :=
  ⟨⟨level, .fresh, .empty, .empty⟩, files⟩

/-- What `with_region` has in hand before it runs the closure. -/
def taken (s : ChunkStore H F β L) (key : RegionKey) : ServerResult H × RegionCache RegionKey H :=
  s.world.cache.take key (ops.openFile (s.files (regionPath key))).1

/-- The files once the region is in the cache. -/
def opened (s : ChunkStore H F β L) (key : RegionKey) : FileKey → F :=
  if key ∈ s.world.cache.regions.keys then s.files
  else Function.update s.files (regionPath key) (ops.openFile (s.files (regionPath key))).2

/-- mirrors crates/persistence/src/world.rs:589-622 (`WorldStorage::with_region`) -/
def withRegion (s : ChunkStore H F β L) (key : RegionKey) (f : H → ServerResult T × H) :
    ServerResult T × ChunkStore H F β L :=
  match s.taken ops key with
  | (.error e, cache) => (.error e, ⟨{ s.world with cache }, s.opened ops key⟩)
  | (.ok handle, cache) =>
    let (result, handle) := f handle
    (result, ⟨{ s.world with
        cache := RegionCache.evictRegions { cache with regions := cache.regions.insert key handle } },
      Function.update (s.opened ops key) (regionPath key) (ops.file handle)⟩)

/-- mirrors crates/persistence/src/world.rs:321-331 (`queue_chunk_save`) -/
def queueChunkSave (s : ChunkStore H F β L) (d : Dimension) (c : C) :
    ServerResult Unit × ChunkStore H F β L :=
  match codec.encode c with
  | .error e => (.error e, s)
  | .ok bytes => (.ok (), { s with world := s.world.queueChunkSave (toLex (d, codec.pos c)) bytes })

/-- The closure of `write_chunk_now`. -/
def writeThenSync (pos : ChunkPos) (bytes : β) (handle : H) : ServerResult Unit × H :=
  match ops.writeChunk handle pos bytes with
  | (.error e, handle) => (.error e, handle)
  | (.ok (), handle) => ops.sync handle

/-- mirrors crates/persistence/src/world.rs:343-360 (`write_chunk_now`) -/
def writeChunkNow (s : ChunkStore H F β L) (d : Dimension) (pos : ChunkPos) (c : C) :
    ServerResult Unit × ChunkStore H F β L :=
  match verifyPosition (codec.pos c) pos with
  | .error e => (.error e, s)
  | .ok () =>
    match codec.encode c with
    | .error e => (.error e, s)
    | .ok bytes =>
      match s.withRegion ops (ChunkKey.regionKey (toLex (d, pos))) (writeThenSync ops pos bytes) with
      | (.error e, s) => (.error e, s)
      | (.ok (), s) =>
        (.ok (), { s with world := { s.world with
          pending := s.world.pending.erase (toLex (d, pos)) } })

/-- mirrors crates/persistence/src/world.rs:367-373 (`has_chunk`) -/
def hasChunk (s : ChunkStore H F β L) (d : Dimension) (pos : ChunkPos) :
    ServerResult Bool × ChunkStore H F β L :=
  if (s.world.pending.get? (toLex (d, pos))).isSome then (.ok true, s)
  else s.withRegion ops (ChunkKey.regionKey (toLex (d, pos))) fun handle =>
    (.ok (ops.hasChunk handle pos), handle)

/-- The checks of `read_chunk` on a chunk from a region file. -/
def accept (pos : ChunkPos) (bytes : β) : ServerResult (Option C) := do
  let c ← codec.decode bytes
  verifyPosition (codec.pos c) pos
  if codec.supported c then return some c
  else .error (.corruptData "chunk has a DataVersion outside the supported window")

/-- mirrors crates/persistence/src/world.rs:392-422 (`read_chunk`) -/
def readChunk (s : ChunkStore H F β L) (d : Dimension) (pos : ChunkPos) :
    ServerResult (Option C) × ChunkStore H F β L :=
  match s.world.pending.get? (toLex (d, pos)) with
  | some bytes => ((codec.decode bytes).map some, s)
  | none =>
    match s.withRegion ops (ChunkKey.regionKey (toLex (d, pos))) (ops.readChunk · pos) with
    | (.error e, s) => (.error e, s)
    | (.ok none, s) => (.ok none, s)
    | (.ok (some bytes), s) => (accept codec pos bytes, s)

/-- mirrors crates/persistence/src/world.rs:419-423 (`remove_chunk`): the pending payload goes
before the region is asked -/
def removeChunk (s : ChunkStore H F β L) (d : Dimension) (pos : ChunkPos) :
    ServerResult Bool × ChunkStore H F β L :=
  let s := { s with world := { s.world with pending := s.world.pending.erase (toLex (d, pos)) } }
  s.withRegion ops (ChunkKey.regionKey (toLex (d, pos))) (ops.removeChunk · pos)

/-- The file operations of a flush. -/
def io (s : ChunkStore H F β L) : Io H β L where
  openRegion key := (ops.openFile (s.files (regionPath key))).1
  writeChunk := ops.writeChunk
  sync := ops.sync
  writeLevel := writeLevel

/-- mirrors crates/persistence/src/world.rs:500-566 (`write_chunks`, one region), less the report,
which is `WorldStorage.writeRegion`'s -/
def flushRegion (s : ChunkStore H F β L) (key : RegionKey) (cs : List ChunkKey) :
    ChunkStore H F β L :=
  let batch := s.world.batchOf cs
  match s.withRegion ops key (writeAndSync (s.io ops writeLevel) batch) with
  | (.ok w, s) => ⟨WorldStorage.settle (w.failures.map Prod.fst) batch s.world, s.files⟩
  | (.error _, s) => ⟨WorldStorage.markAll batch s.world, s.files⟩

/-- mirrors crates/persistence/src/world.rs:451-474 (`flush`), less the report -/
def flush (s : ChunkStore H F β L) : ChunkStore H F β L :=
  let s' := s.world.dirty.byRegion.foldl (fun s region => s.flushRegion ops writeLevel region.1 region.2)
    { s with world := { s.world with dirty := .empty } }
  if s.world.dirty.level && s'.world.level.any fun level => !(writeLevel level).toBool then
    { s' with world := { s'.world with dirty := s'.world.dirty.markLevel } }
  else s'

def setMaxOpenRegions (s : ChunkStore H F β L) (limit : Nat) : ChunkStore H F β L :=
  { s with world := { s.world with cache := s.world.cache.setMaxOpenRegions limit } }

end ChunkStore
end Apoptosis.L2.Storage
