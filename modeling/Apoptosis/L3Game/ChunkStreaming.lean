import Apoptosis.Core.OrdMap
import Apoptosis.Core.Runs
import Apoptosis.L2World.Collision
import Apoptosis.L2World.Loading
import Apoptosis.L2Worldgen.SaplingGrowth
/-!
# What players are sent of the world (`server/src/game/tick.rs`, `server/src/game/mod.rs`)

The game owns the chunks, and what each player was sent of them. Every tick ends
with a Broadcast phase: the blocks changed since the last one and the light they
changed go to the players who hold the chunk, then each player is sent the
chunks missing around it, and the chunks nobody is near are unloaded.

A player's queue may refuse a packet at any moment: which offers it takes is the
player's own, as an answer to each. Coordinates are unbounded here; the queue of
other packets, the entities and the blocks' own data are left out.
-/
namespace Apoptosis.L3.Streaming
open Apoptosis.Core Apoptosis.L2.Registry Apoptosis.L2.Storage Apoptosis.L2.Terrain
open Apoptosis.L2.Worldgen (growOakTree)

/-- The packets a chunk is told with. -/
inductive Packet where
  | levelChunkWithLight (chunk : Chunk) (light : ChunkLight)
  | blockUpdate (x y z blockState : Int)
  | lightUpdate (pos : ChunkPos) (light : ChunkLight)
  | forgetLevelChunk (pos : ChunkPos)
  | setChunkCacheCenter (pos : ChunkPos)
  | setChunkCacheRadius (radius : Int)

/-- mirrors crates/server/src/game/session.rs:60-379 (`Session`), what of it the chunks read. It is
found by its `id`. -/
structure Session where
  /-- `chunk()`: the chunk its player stands in. -/
  chunk : ChunkPos
  center : ChunkPos
  viewDistance : Int
  sentChunks : Finset ChunkPos
  /-- Whether `try_send` takes each packet, the first, the second and so on. -/
  outbound : Nat → Bool
  /-- Every packet that was offered, with whether it was taken. -/
  sends : List (Packet × Bool)

/-- mirrors crates/server/src/game/mod.rs:744-822 (`TickReport`), what of it the chunks count -/
structure TickReport where
  blockChanges : Nat
  lightUpdates : Nat
  chunksSent : Nat
  packets : Nat
  disconnects : Nat
  overflowed : List Nat

/-- mirrors crates/server/src/game/mod.rs:830-1010 (`Game`), with the report of the tick it is in -/
structure Game where
  terrain : L2.Terrain.Game
  sessions : OrdMap Nat Session
  pendingLight : Finset ChunkPos
  viewDistance : Int
  report : TickReport

/-- mirrors crates/server/src/game/mod.rs:529 -/
def CHUNKS_PER_TICK : Nat := 64

/-- mirrors crates/server/src/game/mod.rs:434 -/
def LIGHT_UPDATES_PER_TICK : Nat := 4

/-- mirrors crates/server/src/game/mod.rs:651 -/
def UNLOAD_MARGIN_CHUNKS : Int := 2

/-- What the game runs on. -/
structure Host where
  source : ChunkSource
  table : LightTable
  /-- The fields of a packet and its bytes, made and thrown away. -/
  encode : Packet → ServerResult Unit

abbrev Tick (α : Type) := ExceptT ServerError (StateM Game) α

def TickReport.empty : TickReport := ⟨0, 0, 0, 0, 0, []⟩

def Game.world (game : Game) : World := game.terrain.world

def Game.withWorld (game : Game) (world : World) : Game :=
  { game with terrain := { game.terrain with world := world } }

/-! ## Sending -/

/-- A session after a packet was offered to its queue. -/
def Session.offered (s : Session) (packet : Packet) : Session :=
  { s with sends := s.sends ++ [(packet, s.outbound s.sends.length)] }

def Session.takes (s : Session) : Bool := s.outbound s.sends.length

def TickReport.counted (report : TickReport) (id : Nat) (queued : Bool) : TickReport :=
  { report with
    packets := report.packets + 1
    overflowed := if queued || id ∈ report.overflowed then report.overflowed
      else report.overflowed ++ [id] }

/-- mirrors crates/server/src/game/mod.rs:2333-2354 (`Game::send_raw`) -/
def sendRaw (id : Nat) (packet : Packet) : Tick Bool := do
  match (← get).sessions.get? id with
  | none => return false
  | some s =>
    modify fun game => { game with
      sessions := game.sessions.insert id (s.offered packet)
      report := game.report.counted id s.takes }
    return s.takes

def lift {α : Type} (r : ServerResult α) : Tick α := ExceptT.mk (Pure.pure r)

/-- mirrors crates/server/src/game/mod.rs:2318-2326 (`Game::send`) -/
def send (host : Host) (id : Nat) (packet : Packet) : Tick Bool := do
  lift (host.encode packet)
  sendRaw id packet

def Session.holds (pos : ChunkPos) (s : Session) : Bool := decide (pos ∈ s.sentChunks)

/-- The players a chunk was sent to. -/
def Game.holders (game : Game) (pos : ChunkPos) : List (Nat × Session) :=
  game.sessions.entries.filter fun e => e.2.holds pos

/-- mirrors crates/server/src/game/mod.rs:2408-2417 (`Game::broadcast_chunk`) -/
def broadcastChunk (pos : ChunkPos) (packet : Packet) : Tick Nat := do
  let holders := (← get).holders pos
  modify fun game => { game with
    sessions := game.sessions.mapValues fun s => if s.holds pos then s.offered packet else s
    report := holders.foldl (fun report e => report.counted e.1 e.2.takes) game.report }
  return holders.length

/-- mirrors crates/server/src/game/mod.rs:2490-2508 (`Game::drop_session`): its last packet goes to
nobody who is left -/
def dropSession (id : Nat) : Tick Bool := do
  let known := ((← get).sessions.get? id).isSome
  modify fun game => { game with sessions := game.sessions.erase id }
  return known

/-- One turn of the loop of `enforce_overflow`. -/
def enforceOne (id : Nat) : Tick Unit := do
  let dropped ← dropSession id
  modify fun game => { game with report := { game.report with
    disconnects := game.report.disconnects + dropped.toNat } }

/-- mirrors crates/server/src/game/tick.rs:402-403 (`phase_network`) and
crates/server/src/game/mod.rs:2473-2482 (`Game::enforce_overflow`) -/
def enforceOverflow : Tick Unit := do
  let overflowed := (← get).report.overflowed
  modify fun game => { game with report := { game.report with overflowed := [] } }
  overflowed.forM enforceOne

/-! ## Chunks and their light -/

/-- The nine chunks around a place. -/
def around (pos : ChunkPos) : List ChunkPos :=
  ([-1, 0, 1] : List Int).flatMap fun dx => ([-1, 0, 1] : List Int).map fun dz => ⟨pos.x + dx, pos.z + dz⟩

/-- The chunk that is stored or generated for a place that is not loaded. -/
def available (source : ChunkSource) (terrain : L2.Terrain.Game) (pos : ChunkPos) : Option Chunk :=
  match source.read pos with
  | .ok (some chunk) => some chunk
  | .ok none => if source.canRead && !terrain.unreadableChunks pos then source.generate pos else none
  | .error _ => none

/-- mirrors crates/server/src/game/persist.rs:112-122 (`refresh_light_for_new_chunk`) and 124-252
(`load_or_create_chunk`): the light around a chunk of air is left as it is -/
def loadOrCreateChunk (host : Host) (pos : ChunkPos) : Tick Unit :=
  modify fun game => { game with
    terrain := game.terrain.loadOrCreateChunk host.source pos
    pendingLight :=
      if !game.world.isLoaded pos && (available host.source game.terrain pos).isSome then
        game.pendingLight ∪ (around pos).toFinset
      else game.pendingLight }

/-- `compute_light` of the game's world; an overflow stops the server like an error. -/
def computeLight (host : Host) (pos : ChunkPos) : Tick Unit := do
  match (← get).world.computeLight host.table pos with
  | none => throw (.invariant "attempt to add with overflow")
  | some (.error e, _) => throw e
  | some (.ok (), world) => modify fun game => game.withWorld world

/-- The number a block is told by, `u32::try_from(*id).unwrap_or(0)`. -/
def wireId (id : Int) : Int := max id 0

/-- mirrors crates/server/src/game/tick.rs:5126-5300 (`Game::vanilla_chunk_packet`), the light of it -/
def vanillaChunkPacket (host : Host) (chunk : Chunk) : Tick Packet := do
  let world := (← get).world
  match world.cachedLight chunk.pos with
  | some light => return .levelChunkWithLight chunk light
  | none => match world.lightOf host.table chunk.pos chunk with
    | none => throw (.invariant "attempt to add with overflow")
    | some (.error e) => throw e
    | some (.ok light) => return .levelChunkWithLight chunk light

/-- What follows a chunk packet that was queued. -/
def recordSent (id : Nat) (pos : ChunkPos) (queued : Bool) : Tick Unit :=
  if queued then modify fun game => { game with
    sessions := game.sessions.modify id fun s => { s with sentChunks := insert pos s.sentChunks }
    report := { game.report with chunksSent := game.report.chunksSent + 1 } }
  else pure ()

/-- mirrors crates/server/src/game/tick.rs:4787-4853 (`Game::send_chunk`) -/
def sendChunk (host : Host) (id : Nat) (pos : ChunkPos) : Tick Unit := do
  loadOrCreateChunk host pos
  computeLight host pos
  match (← get).world.chunks pos with
  | none => return ()
  | some chunk =>
    let packet ← vanillaChunkPacket host chunk
    let queued ← send host id packet
    recordSent id pos queued

/-- The chunks within the radius of the one a player stands in. -/
def Session.square (s : Session) : List ChunkPos :=
  (span (-s.viewDistance) (s.viewDistance + 1)).flatMap fun dx =>
    (span (-s.viewDistance) (s.viewDistance + 1)).map fun dz => ⟨s.chunk.x + dx, s.chunk.z + dz⟩

/-- The nearest first, then by their coordinates. -/
def Session.key (s : Session) (p : ChunkPos) : Int ×ₗ ChunkPos :=
  toLex ((p.x - s.chunk.x) * (p.x - s.chunk.x) + (p.z - s.chunk.z) * (p.z - s.chunk.z), p)

/-- The chunks a session is to hold and does not, in the order they are sent in. -/
def Session.wanted (s : Session) : List ChunkPos :=
  (s.square.filter fun p => !s.holds p).insertionSort fun p q => s.key p ≤ s.key q

/-- The stale centre is told before the chunks around it. -/
def tellCenter (host : Host) (id : Nat) (s : Session) : Tick Unit :=
  if s.center = s.chunk then pure ()
  else do
    let _ ← send host id (.setChunkCacheCenter s.chunk)
    modify fun game => { game with
      sessions := game.sessions.modify id fun t => { t with center := s.chunk } }

/-- mirrors crates/server/src/game/tick.rs:4726-4785 (`Game::stream_for`) -/
def streamFor (host : Host) (id : Nat) : Tick Unit := do
  match (← get).sessions.get? id with
  | none => return ()
  | some s =>
    tellCenter host id s
    let budget := CHUNKS_PER_TICK - (← get).report.chunksSent
    (s.wanted.take budget).forM (sendChunk host id)

/-- mirrors crates/server/src/game/tick.rs:4717-4723 (`Game::stream_all`) -/
def streamAll (host : Host) : Tick Unit := do
  let ids := (← get).sessions.entries.map Prod.fst
  ids.forM (streamFor host)

/-! ## The Broadcast phase -/

/-- One turn of the loop of `broadcast_block_changes`. -/
def broadcastBlockChange (host : Host) (change : BlockChange) : Tick Unit := do
  let packet := Packet.blockUpdate change.x change.y change.z change.newId
  lift (host.encode packet)
  let sent ← broadcastChunk change.pos packet
  modify fun game => { game with
    report := { game.report with blockChanges := game.report.blockChanges + (decide (sent > 0)).toNat }
    pendingLight := game.pendingLight ∪ (chunksABlockCanLight change.pos change.x change.z).toFinset }

/-- mirrors crates/server/src/game/tick.rs:4206-4390 (`Game::broadcast_block_changes`) -/
def broadcastBlockChanges (host : Host) : Tick Unit := do
  let changes := (← get).world.changes
  modify fun game => game.withWorld { game.world with changes := [] }
  changes.forM (broadcastBlockChange host)

/-- The light of a chunk, told to the players who hold it. -/
def tellLight (host : Host) (pos : ChunkPos) : Tick Unit := do
  let game ← get
  match game.world.cachedLight pos with
  | none => return ()
  | some light =>
    if (game.holders pos).isEmpty then pure ()
    else do
      lift (host.encode (.lightUpdate pos light))
      let sent ← broadcastChunk pos (.lightUpdate pos light)
      modify fun game => { game with report := { game.report with
        lightUpdates := game.report.lightUpdates + sent } }

/-- A chunk that has been unloaded has nothing to light. -/
def relight (host : Host) (pos : ChunkPos) : Tick Unit := do
  if (← get).world.isLoaded pos then do
    computeLight host pos
    tellLight host pos
  else pure ()

/-- mirrors crates/server/src/game/tick.rs:3994-4041 (`Game::broadcast_light_updates`), with the turns
of its loop that are left -/
def broadcastLightUpdates (host : Host) : Nat → Tick Unit
  | 0 => pure ()
  | turns + 1 => do
    let pending := (← get).pendingLight
    if h : pending.Nonempty then do
      let pos := pending.min' h
      modify fun game => { game with pendingLight := game.pendingLight.erase pos }
      relight host pos
      broadcastLightUpdates host turns
    else pure ()

/-- mirrors crates/world/src/world.rs:774-791 (`light_updates_for_unload`) -/
def lightUpdatesForUnload (unloaded : ChunkPos) (isLoaded : ChunkPos → Bool) : List ChunkPos :=
  (around unloaded).filter fun p => decide (p ≠ unloaded) && isLoaded p

/-- Within `radius` of the chunk a player stands in. -/
def Session.near (s : Session) (radius : Int) (pos : ChunkPos) : Bool :=
  decide (|pos.x - s.chunk.x| ≤ radius) && decide (|pos.z - s.chunk.z| ≤ radius)

/-- What unloading a chunk leaves, and who is to forget it. -/
def Game.unloaded (game : Game) (pos : ChunkPos) : Game :=
  let world := game.world.unloadChunk pos
  { game.withWorld world with
    sessions := game.sessions.mapValues fun s => { s with sentChunks := s.sentChunks.erase pos }
    pendingLight :=
      if game.world.isLoaded pos then
        game.pendingLight ∪ (lightUpdatesForUnload pos world.isLoaded).toFinset
      else game.pendingLight }

/-- One turn of the loop of `unload_distant_chunks`. -/
def unloadOne (centres : List Session) (state : Game × List (Nat × ChunkPos)) (pos : ChunkPos) :
    Game × List (Nat × ChunkPos) :=
  if (state.1.world.chunks pos).any (·.dirty) then state
  else if centres.any fun s => s.near (s.viewDistance + UNLOAD_MARGIN_CHUNKS) pos then state
  else (state.1.unloaded pos, state.2 ++ (state.1.holders pos).map fun e => (e.1, pos))

/-- `chunk_positions`, in the order the map lists them. -/
def Game.chunkPositions (game : Game) (order : List ChunkPos) : List ChunkPos :=
  order.dedup.filter game.world.isLoaded

/-- mirrors crates/server/src/game/tick.rs:4988-5071 (`Game::unload_distant_chunks`) -/
def unloadDistantChunks (host : Host) (order : List ChunkPos) : Tick Unit := do
  let game ← get
  let centres := game.sessions.entries.map Prod.snd
  if centres.isEmpty then pure ()
  else do
    let unloaded := (game.chunkPositions order).foldl (unloadOne centres) (game, [])
    set unloaded.1
    unloaded.2.forM fun forget => do
      let _ ← send host forget.1 (.forgetLevelChunk forget.2)

/-- mirrors crates/server/src/game/tick.rs:3759-3772 (`phase_broadcast`), what of it the chunks are told
with -/
def phaseBroadcast (host : Host) (order : List ChunkPos) : Tick Unit := do
  broadcastBlockChanges host
  broadcastLightUpdates host LIGHT_UPDATES_PER_TICK
  streamAll host
  unloadDistantChunks host order

/-! ## The rest of a tick -/

/-- mirrors crates/server/src/game/session.rs:760-856 (`join`): the session, its centre and its
radius -/
def join (host : Host) (id : Nat) (chunk : ChunkPos) (outbound : Nat → Bool) : Tick Unit := do
  let viewDistance := (← get).viewDistance
  modify fun game => { game with
    sessions := game.sessions.insert id ⟨chunk, chunk, viewDistance, ∅, outbound, []⟩ }
  let _ ← send host id (.setChunkCacheCenter chunk)
  let _ ← send host id (.setChunkCacheRadius viewDistance)

/-- What a change of the radius sends. -/
def changeViewDistance (host : Host) (id : Nat) (s : Session) (radius : Int) : Tick Unit :=
  if s.viewDistance = radius then pure ()
  else do
    modify fun game => { game with
      sessions := game.sessions.insert id { s with viewDistance := radius } }
    let _ ← send host id (.setChunkCacheRadius radius)

/-- mirrors crates/server/src/game/tick.rs:5085-5103 (`Game::apply_view_distance`); `clamp` stops the
server where the bounds cross -/
def applyViewDistance (host : Host) (id : Nat) (distance : Int) : Tick Unit := do
  let game ← get
  if game.viewDistance < 2 then throw (.invariant "assertion failed: min <= max")
  else match game.sessions.get? id with
    | none => return ()
    | some s => changeViewDistance host id s (max 2 (min distance game.viewDistance))

/-- mirrors crates/server/src/game/mod.rs:2810-2818 (`mark_block_dirty`) -/
def markDirty (world : World) (pos : ChunkPos) : World :=
  let dirty (chunk : Chunk) : Chunk := { chunk with dirty := true }
  { world with chunks := Function.update world.chunks pos ((world.chunks pos).map dirty) }

/-- What happens to the game, in the order it happens. -/
inductive Event where
  /-- `tick`, with an empty report. -/
  | begin
  | join (id : Nat) (chunk : ChunkPos) (outbound : Nat → Bool)
  | viewDistance (id : Nat) (distance : Int)
  /-- The end of the Network phase. -/
  | enforce
  /-- The player left or is sent away. -/
  | leave (id : Nat)
  | moved (id : Nat) (chunk : ChunkPos)
  /-- The player fell out of the world (crates/server/src/game/tick.rs:4503-4513). -/
  | fell (id : Nat) (chunk : ChunkPos)
  /-- `respawn_player`, crates/server/src/game/session.rs:6228-6294. -/
  | respawned (id : Nat) (chunk : ChunkPos)
  /-- Any write of a block: block states are counted from nought. -/
  | setBlock (x y z : Int) (id : Nat)
  | growOakTree (x y z : I32) (draw : Fin 3)
  | loadChunk (pos : ChunkPos)
  | markClean (pos : ChunkPos)
  | markDirty (pos : ChunkPos)
  /-- The Broadcast phase; `order` is how the map of the chunks lists them. -/
  | broadcast (order : List ChunkPos)

/-- A player somewhere else, to whom every chunk is to be sent again. -/
def sendAgain (id : Nat) (chunk : ChunkPos) : Tick Unit :=
  modify fun game => { game with
    sessions := game.sessions.modify id fun s => { s with chunk := chunk, sentChunks := ∅ } }

def apply (host : Host) : Event → Tick Unit
  | .begin => modify fun game => { game with report := .empty }
  | .join id chunk outbound => join host id chunk outbound
  | .viewDistance id distance => applyViewDistance host id distance
  | .enforce => enforceOverflow
  | .leave id => modify fun game => { game with sessions := game.sessions.erase id }
  | .moved id chunk => modify fun game => { game with
      sessions := game.sessions.modify id fun s => { s with chunk := chunk } }
  | .fell id chunk => sendAgain id chunk
  | .respawned id chunk => do
    sendAgain id chunk
    streamFor host id
  | .setBlock x y z id => modify fun game => game.withWorld (game.world.setBlock x y z id).2
  | .growOakTree x y z draw => modify fun game => game.withWorld (growOakTree game.world x y z draw).2.1
  | .loadChunk pos => loadOrCreateChunk host pos
  | .markClean pos => modify fun game => game.withWorld (L2.Terrain.Game.markChunkClean game.world pos)
  | .markDirty pos => modify fun game => game.withWorld (markDirty game.world pos)
  | .broadcast order => phaseBroadcast host order

/-- One event; an error or a panic ends the server. -/
def step (host : Host) (state : Option Game) (event : Event) : Option Game :=
  state.bind fun game => match apply host event game with
    | (.ok (), game) => some game
    | (.error _, _) => none

/-- A server that starts. -/
def start (registry : BlockRegistry) (minSectionY : Int) (sectionCount : Nat) (viewDistance : Int) : Game where
  terrain := ⟨World.withHeight registry minSectionY sectionCount, fun _ => false⟩
  sessions := .empty
  pendingLight := ∅
  viewDistance := viewDistance
  report := .empty

end Apoptosis.L3.Streaming
