import Apoptosis.Core.Triples
import Apoptosis.L2World.LightCache
import Apoptosis.L3Game.ChunkStreaming
/-!
# What the players see is what the world is

A client keeps a copy of each chunk it was sent and takes the packets of its
queue in order. The copy shows the chunk as it will be once the changes that wait
have been told (`settled`); its light is the light the world has cached, or waits
too (`Relit`). Trees grow without a word to the changes, so the cells they may
grow in (`G`) are left open.

* `Shows`, `Follows`, `Served`: a copy, a client and a session that are kept.
* `Kept`: what holds of the whole game between two packets, with the changes not
  told yet and the chunks whose light is owed.
-/
namespace Apoptosis.L3.Streaming
open Apoptosis.Core Apoptosis.L2.Registry Apoptosis.L2.Storage Apoptosis.L2.Terrain
open Apoptosis.L2.Worldgen

/-! ## A client -/

/-- A client's copy of a chunk. -/
structure Copy where
  blocks : Int → Int → Int → Int
  light : ChunkLight

structure Client where
  center : Option ChunkPos
  radius : Option Int
  chunks : ChunkPos → Option Copy

def Copy.written (copy : Copy) (x y z blockState : Int) : Copy :=
  { copy with blocks := fun x' y' z' => if (x', y', z') = (x, y, z) then blockState else copy.blocks x' y' z' }

/-- What a client does with a packet: a chunk it does not have is not updated. -/
def Client.take (c : Client) : Packet → Client
  | .levelChunkWithLight chunk light => { c with
      chunks := Function.update c.chunks chunk.pos (some ⟨fun x y z => wireId (chunk.getBlock x y z), light⟩) }
  | .blockUpdate x y z blockState => { c with
      chunks := Function.update c.chunks (chunkOf x z)
        ((c.chunks (chunkOf x z)).map fun copy => copy.written x y z blockState) }
  | .lightUpdate pos light => { c with
      chunks := Function.update c.chunks pos ((c.chunks pos).map fun copy => { copy with light := light }) }
  | .forgetLevelChunk pos => { c with chunks := Function.update c.chunks pos none }
  | .setChunkCacheCenter pos => { c with center := some pos }
  | .setChunkCacheRadius radius => { c with radius := some radius }

/-- The client after the packets its queue took. -/
def Session.client (s : Session) : Client :=
  s.sends.foldl (fun c e => if e.2 then c.take e.1 else c) ⟨none, none, fun _ => none⟩

/-- A chunk packet that is refused is sent again. -/
def Packet.Resent : Packet → Prop
  | .levelChunkWithLight _ _ => True
  | _ => False

/-- Nothing was refused that is not sent again. -/
def Session.Whole (s : Session) : Prop := ∀ e ∈ s.sends, e.2 = true ∨ e.1.Resent

theorem client_offered (s : Session) (p : Packet) :
    (s.offered p).client = if s.takes then s.client.take p else s.client := by
  rw [Session.client, Session.offered, List.foldl_append]
  rfl

theorem whole_offered (s : Session) (p : Packet) :
    (s.offered p).Whole ↔ s.Whole ∧ (s.takes = true ∨ p.Resent) := by
  unfold Session.Whole Session.offered Session.takes
  simp only [List.mem_append, List.mem_singleton]
  constructor
  · exact fun h => ⟨fun e he => h e (.inl he), h _ (.inr rfl)⟩
  · rintro ⟨hold, hnew⟩ e (he | rfl)
    · exact hold e he
    · exact hnew

/-! ## Changes that wait to be told -/

/-- What a block is once the changes have been told. -/
def settled (changes : List BlockChange) (x y z id : Int) : Int :=
  changes.foldl (fun id c => if (x, y, z) = (c.x, c.y, c.z) then c.newId else id) id

theorem settled_cons (c : BlockChange) (changes : List BlockChange) (x y z id : Int) :
    settled (c :: changes) x y z id =
      settled changes x y z (if (x, y, z) = (c.x, c.y, c.z) then c.newId else id) := rfl

theorem settled_snoc (changes : List BlockChange) (c : BlockChange) (x y z id : Int) :
    settled (changes ++ [c]) x y z id =
      if (x, y, z) = (c.x, c.y, c.z) then c.newId else settled changes x y z id := by
  rw [settled, List.foldl_append]
  rfl

theorem settled_of_apart {changes : List BlockChange} {x y z : Int}
    (h : ∀ c ∈ changes, (x, y, z) ≠ (c.x, c.y, c.z)) (id : Int) : settled changes x y z id = id := by
  induction changes generalizing id with
  | nil => rfl
  | cons c changes ih =>
    rw [settled_cons, if_neg (h c (.head _))]
    exact ih (fun c' hc' => h c' (.tail _ hc')) id

/-- No change is there, or the last one decides. -/
theorem settled_cases (changes : List BlockChange) (x y z : Int) :
    (∀ id, settled changes x y z id = id) ∨ ∃ id', ∀ id, settled changes x y z id = id' := by
  induction changes with
  | nil => exact .inl fun _ => rfl
  | cons c changes ih =>
    by_cases hc : (x, y, z) = (c.x, c.y, c.z)
    · right
      exact ⟨settled changes x y z c.newId, fun id => by rw [settled_cons, if_pos hc]⟩
    · simpa only [settled_cons, if_neg hc] using ih

theorem settled_settled (changes : List BlockChange) (x y z id : Int) :
    settled changes x y z (settled changes x y z id) = settled changes x y z id := by
  obtain hsame | ⟨id', hlast⟩ := settled_cases changes x y z
  · rw [hsame]
  · rw [hlast, hlast]

/-! ## What is kept -/

variable {table : LightTable} {G : Int → Int → Int → Prop} {rest : List BlockChange} {w w' : World}
  {pending pending' : Finset ChunkPos}

/-- The light of a chunk is to be told. -/
def Relit (rest : List BlockChange) (pending : Finset ChunkPos) (pos : ChunkPos) : Prop :=
  pos ∈ pending ∨ ∃ c ∈ rest, pos ∈ chunksABlockCanLight c.pos c.x c.z

/-- The copy is the chunk, once what waits has been told, but for the cells of `G`. -/
structure Shows (G : Int → Int → Int → Prop) (rest : List BlockChange) (w : World)
    (pending : Finset ChunkPos) (pos : ChunkPos) (chunk : Chunk) (copy : Copy) : Prop where
  blocks : ∀ x y z, chunkOf x z = pos → ¬G x y z →
    settled rest x y z (copy.blocks x y z) = wireId (chunk.getBlock x y z)
  light : w.light pos = some copy.light ∨ Relit rest pending pos

/-- The client knows where its player is, and shows the chunks the session was sent. -/
structure Follows (G : Int → Int → Int → Prop) (rest : List BlockChange) (w : World)
    (pending : Finset ChunkPos) (s : Session) (c : Client) : Prop where
  center : c.center = some s.center
  radius : c.radius = some s.viewDistance
  copies : ∀ pos ∈ s.sentChunks, ∀ chunk, w.chunks pos = some chunk →
    ∃ copy, c.chunks pos = some copy ∧ Shows G rest w pending pos chunk copy

structure Served (G : Int → Int → Int → Prop) (rest : List BlockChange) (w : World)
    (pending : Finset ChunkPos) (s : Session) : Prop where
  loaded : ∀ pos ∈ s.sentChunks, w.isLoaded pos
  follows : s.Whole → Follows G rest w pending s s.client

/-- The changes that wait are of loaded chunks and end in the blocks that are there. -/
structure Logged (G : Int → Int → Int → Prop) (rest : List BlockChange) (w : World) : Prop where
  finite : {pos | w.isLoaded pos}.Finite
  placed : ∀ pos chunk, w.chunks pos = some chunk → chunk.pos = pos
  logged : ∀ c ∈ rest, c.pos = chunkOf c.x c.z ∧ w.isLoaded c.pos
  current : ∀ x y z chunk, w.chunks (chunkOf x z) = some chunk → ¬G x y z →
    settled rest x y z (wireId (chunk.getBlock x y z)) = wireId (chunk.getBlock x y z)

/-- The light that is cached is what would be worked out now, but beside the cells of `G`. -/
def Bright (table : LightTable) (G : Int → Int → Int → Prop) (w : World) : Prop :=
  w.registry.airId = 0 → ∀ pos l, w.light pos = some l → (∀ x y z, Beside pos x z → ¬G x y z) →
    ∃ chunk, w.chunks pos = some chunk ∧ w.lightOf table pos chunk = some (.ok l)

/-- Every player is served, where the light of `owed` is still to be told. -/
structure Kept (table : LightTable) (G : Int → Int → Int → Prop) (rest : List BlockChange)
    (owed : Finset ChunkPos) (game : Game) : Prop where
  logged : Logged G rest game.world
  bright : Bright table G game.world
  served : ∀ id s, game.sessions.get? id = some s → Served G rest game.world (game.pendingLight ∪ owed) s

/-- A world whose loaded chunks stay as they are, but for the cells of `G`. -/
structure Passes (G : Int → Int → Int → Prop) (w w' : World) : Prop where
  finite : {pos | w.isLoaded pos}.Finite → {pos | w'.isLoaded pos}.Finite
  chunks : ∀ pos chunk, w.chunks pos = some chunk → ∃ chunk', w'.chunks pos = some chunk' ∧
    ∀ x y z, chunkOf x z = pos → ¬G x y z → chunk'.getBlock x y z = chunk.getBlock x y z
  placed : ∀ pos chunk, w'.chunks pos = some chunk → chunk.pos = pos

/-- A world in which light that stays is of what stays as it is, but for the cells of `G`. -/
structure Steady (G : Int → Int → Int → Prop) (w w' : World) : Prop where
  registry : w'.registry = w.registry
  light : ∀ pos l, w'.light pos = some l → w.light pos = some l
  shape : ∀ pos l, w'.light pos = some l → ∀ chunk, w.chunks pos = some chunk → ∃ chunk', w'.chunks pos = some chunk' ∧
    chunk'.minSectionY = chunk.minSectionY ∧ chunk'.sections.length = chunk.sections.length
  blocks : w.registry.airId = 0 → ∀ pos l, w'.light pos = some l → ∀ x y z, Beside pos x z → ¬G x y z →
    w'.blockOrAir x y z = w.blockOrAir x y z

theorem lightOf_shape {chunk chunk' : Chunk} {pos : ChunkPos} (hlow : chunk'.minSectionY = chunk.minSectionY)
    (hsections : chunk'.sections.length = chunk.sections.length) :
    w.lightOf table pos chunk' = w.lightOf table pos chunk := by
  simp only [World.lightOf, Chunk.minY, hlow, hsections]

theorem Bright.steady (h : Bright table G w) (hw : Steady G w w') : Bright table G w' := by
  intro hair pos l hl hG
  rw [hw.registry] at hair
  obtain ⟨chunk, hchunk, hlight⟩ := h hair pos l (hw.light pos l hl) hG
  obtain ⟨chunk', hchunk', hlow, hsections⟩ := hw.shape pos l hl chunk hchunk
  refine ⟨chunk', hchunk', ?_⟩
  rw [lightOf_shape hlow hsections, ← hlight]
  exact World.lightOf_congr fun x y z hbeside => hw.blocks hair pos l hl x y z hbeside (hG x y z hbeside)

theorem isLoaded_iff {pos : ChunkPos} : w.isLoaded pos ↔ ∃ chunk, w.chunks pos = some chunk :=
  Option.isSome_iff_exists

theorem Passes.loaded (h : Passes G w w') {pos : ChunkPos} (hpos : w.isLoaded pos) : w'.isLoaded pos := by
  obtain ⟨chunk, hchunk⟩ := isLoaded_iff.mp hpos
  obtain ⟨chunk', hchunk', -⟩ := h.chunks pos chunk hchunk
  exact isLoaded_iff.mpr ⟨chunk', hchunk'⟩

theorem Logged.apart (h : Logged G rest w) {x z : Int} (hnone : w.chunks (chunkOf x z) = none) (y : Int) :
    ∀ c ∈ rest, (x, y, z) ≠ (c.x, c.y, c.z) := by
  rintro c hc heq
  cases heq
  obtain ⟨hpos, hloaded⟩ := h.logged c hc
  rw [World.isLoaded, hpos, hnone] at hloaded
  cases hloaded

theorem Logged.passes (h : Logged G rest w) (hw : Passes G w w') : Logged G rest w' := by
  refine ⟨hw.finite h.finite, hw.placed, fun c hc => ⟨(h.logged c hc).1, hw.loaded (h.logged c hc).2⟩, ?_⟩
  intro x y z chunk' hchunk' hG
  cases hold : w.chunks (chunkOf x z) with
  | none => exact settled_of_apart (h.apart hold y) _
  | some chunk =>
    obtain ⟨found, hfound, hblocks⟩ := hw.chunks _ chunk hold
    cases hfound.symm.trans hchunk'
    rw [hblocks x y z rfl hG]
    exact h.current x y z chunk hold hG

/-- A change of the world that is told by the light that waits. -/
theorem Served.passes {s : Session} (h : Served G rest w pending s) (hw : Passes G w w')
    (hlight : ∀ pos, w.isLoaded pos → ∀ l, w.light pos = some l → w'.light pos = some l ∨ pos ∈ pending')
    (hpending : ∀ pos, w.isLoaded pos → pos ∈ pending → pos ∈ pending') : Served G rest w' pending' s := by
  refine ⟨fun pos hpos => hw.loaded (h.loaded pos hpos), fun hwhole => ?_⟩
  obtain ⟨hcenter, hradius, hcopies⟩ := h.follows hwhole
  refine ⟨hcenter, hradius, fun pos hpos chunk' hchunk' => ?_⟩
  obtain ⟨chunk, hchunk⟩ := isLoaded_iff.mp (h.loaded pos hpos)
  obtain ⟨copy, hcopy, hblocks, hlit⟩ := hcopies pos hpos chunk hchunk
  obtain ⟨found, hfound, hsame⟩ := hw.chunks pos chunk hchunk
  cases hfound.symm.trans hchunk'
  refine ⟨copy, hcopy, fun x y z hcell hG => by rw [hsame x y z hcell hG]; exact hblocks x y z hcell hG, ?_⟩
  rcases hlit with hlit | hlit | hlit
  · exact (hlight pos (h.loaded pos hpos) _ hlit).imp_right .inl
  · exact .inr (.inl (hpending pos (h.loaded pos hpos) hlit))
  · exact .inr (.inr hlit)

theorem Kept.passes {game game' : Game} {owed : Finset ChunkPos} (h : Kept table G rest owed game)
    (hsessions : game'.sessions = game.sessions) (hw : Passes G game.world game'.world)
    (hbright : Bright table G game'.world)
    (hlight : ∀ pos, game.world.isLoaded pos → ∀ l, game.world.light pos = some l →
      game'.world.light pos = some l ∨ pos ∈ game'.pendingLight)
    (hpending : ∀ pos, game.world.isLoaded pos → pos ∈ game.pendingLight → pos ∈ game'.pendingLight) :
    Kept table G rest owed game' := by
  refine ⟨h.logged.passes hw, hbright, fun id s hs => ?_⟩
  rw [hsessions] at hs
  refine (h.served id s hs).passes hw (fun pos hpos l hl => ?_) fun pos hpos hmem => ?_
  · exact (hlight pos hpos l hl).imp_right (Finset.mem_union_left _)
  · obtain hmem | hmem := Finset.mem_union.mp hmem
    · exact Finset.mem_union_left _ (hpending pos hpos hmem)
    · exact Finset.mem_union_right _ hmem

/-! ## What happens to the world -/

/-- Every loaded chunk is where it says. -/
def Placed (w : World) : Prop := ∀ pos chunk, w.chunks pos = some chunk → chunk.pos = pos

/-- One chunk more or less. -/
theorem finite_update {chunk : Option Chunk} {pos : ChunkPos} (h : {p | w.isLoaded p}.Finite)
    (hchunks : w'.chunks = Function.update w.chunks pos chunk) : {p | w'.isLoaded p}.Finite := by
  refine (h.insert pos).subset fun p hp => ?_
  by_cases hpos : p = pos
  · exact .inl hpos
  · refine .inr ?_
    rwa [Set.mem_setOf_eq, World.isLoaded, hchunks, Function.update_of_ne hpos] at hp

theorem passes_map {f : Chunk → Chunk} (hplaced : Placed w) (hpos : ∀ c, (f c).pos = c.pos)
    (hget : ∀ c x y z, (f c).getBlock x y z = c.getBlock x y z) (pos : ChunkPos) :
    Passes G w { w with chunks := Function.update w.chunks pos ((w.chunks pos).map f) } := by
  refine ⟨fun h => finite_update h rfl, ?_, ?_⟩
  · intro p chunk hchunk
    by_cases hp : p = pos
    · subst hp
      exact ⟨f chunk, by simp [hchunk], fun x y z _ _ => hget chunk x y z⟩
    · exact ⟨chunk, by simp [hp, hchunk], fun _ _ _ _ _ => rfl⟩
  · intro p chunk hchunk
    by_cases hp : p = pos
    · subst hp
      simp only [Function.update_self, Option.map_eq_some_iff] at hchunk
      obtain ⟨before, hbefore, rfl⟩ := hchunk
      exact (hpos before).trans (hplaced p before hbefore)
    · exact hplaced p chunk (by simpa [hp] using hchunk)

theorem steady_map {f : Chunk → Chunk} (hget : ∀ c x y z, (f c).getBlock x y z = c.getBlock x y z)
    (hlow : ∀ c, (f c).minSectionY = c.minSectionY) (hsections : ∀ c, (f c).sections.length = c.sections.length)
    (pos : ChunkPos) : Steady G w { w with chunks := Function.update w.chunks pos ((w.chunks pos).map f) } := by
  refine ⟨rfl, fun _ _ hl => hl, fun p _ _ chunk hchunk => ?_, fun _ _ _ _ x y z _ _ => ?_⟩
  · by_cases hp : p = pos
    · subst hp
      exact ⟨f chunk, by simp [hchunk], hlow chunk, hsections chunk⟩
    · exact ⟨chunk, by simp [hp, hchunk], rfl, rfl⟩
  · unfold World.blockOrAir World.getBlockLoaded
    dsimp only
    by_cases hp : chunkOf x z = pos
    · rw [hp, Function.update_self]
      cases w.chunks pos with
      | none => rfl
      | some chunk => exact hget chunk x y z
    · rw [Function.update_of_ne hp]

theorem passes_markClean (hplaced : Placed w) (pos : ChunkPos) : Passes G w (L2.Terrain.Game.markChunkClean w pos) :=
  passes_map (f := Chunk.markClean) hplaced (fun _ => rfl) (fun _ _ _ _ => rfl) pos

theorem passes_markDirty (hplaced : Placed w) (pos : ChunkPos) : Passes G w (markDirty w pos) :=
  passes_map (f := fun chunk => { chunk with dirty := true }) hplaced (fun _ => rfl) (fun _ _ _ _ => rfl) pos

theorem steady_markClean (pos : ChunkPos) : Steady G w (L2.Terrain.Game.markChunkClean w pos) :=
  steady_map (f := Chunk.markClean) (fun _ _ _ _ => rfl) (fun _ => rfl) (fun _ => rfl) pos

theorem steady_markDirty (pos : ChunkPos) : Steady G w (markDirty w pos) :=
  steady_map (f := fun chunk => { chunk with dirty := true }) (fun _ _ _ _ => rfl) (fun _ => rfl) (fun _ => rfl) pos

theorem Steady.refl : Steady G w w :=
  ⟨rfl, fun _ _ hl => hl, fun _ _ _ chunk hchunk => ⟨chunk, hchunk, rfl, rfl⟩, fun _ _ _ _ _ _ _ _ _ => rfl⟩

theorem Steady.trans {w'' : World} (h : Steady G w w') (h' : Steady G w' w'') : Steady G w w'' := by
  refine ⟨h'.registry.trans h.registry, fun pos l hl => h.light pos l (h'.light pos l hl),
    fun pos l hl chunk hchunk => ?_, fun hair pos l hl x y z hbeside hG => ?_⟩
  · obtain ⟨chunk', hchunk', hlow, hsections⟩ := h.shape pos l (h'.light pos l hl) chunk hchunk
    obtain ⟨chunk'', hchunk'', hlow', hsections'⟩ := h'.shape pos l hl chunk' hchunk'
    exact ⟨chunk'', hchunk'', hlow'.trans hlow, hsections'.trans hsections⟩
  · exact (h'.blocks (h.registry ▸ hair) pos l hl x y z hbeside hG).trans
      (h.blocks hair pos l (h'.light pos l hl) x y z hbeside hG)

theorem steady_ensureChunk (pos : ChunkPos) : Steady G w (w.ensureChunk pos) := by
  refine ⟨rfl, fun _ _ hl => hl, fun p _ _ chunk hchunk => ?_, fun hair _ _ _ x y z _ _ => ?_⟩
  · by_cases hp : p = pos
    · subst hp
      exact ⟨chunk, by simp [World.ensureChunk, World.ensured, hchunk], rfl, rfl⟩
    · exact ⟨chunk, by simp [World.ensureChunk, hp, hchunk], rfl, rfl⟩
  · by_cases hp : chunkOf x z = pos
    · subst hp
      rw [← World.ensured_getBlock hair x y z]
      simp [World.blockOrAir, World.getBlockLoaded, World.ensureChunk]
    · simp [World.blockOrAir, World.getBlockLoaded, World.ensureChunk, hp]

/-- A chunk that comes or goes, where the light around it is dropped. -/
theorem steady_replace (pos : ChunkPos) (hregistry : w'.registry = w.registry)
    (hlight : w'.light = (w.invalidateLight3x3 pos).light) (hchunks : ∀ q, q ≠ pos → w'.chunks q = w.chunks q) :
    Steady G w w' := by
  have hfar {q : ChunkPos} {l : ChunkLight} (hl : w'.light q = some l) (x z : Int)
      (hb : Beside q x z) : chunkOf x z ≠ pos := by
    intro heq
    rw [hlight] at hl
    exact (World.dropLight_light hl).1 (heq ▸ near_of_beside hb)
  refine ⟨hregistry, fun q l hl => (World.dropLight_light (hlight ▸ hl)).2, fun q l hl chunk hchunk => ?_,
    fun _ q l hl x y z hb _ => ?_⟩
  · have hself : Beside q (q.x * 16) (q.z * 16) := by
      have := beside_self (q.x * 16) (q.z * 16)
      rwa [World.chunkOf_corner] at this
    have hne := hfar hl _ _ hself
    rw [World.chunkOf_corner] at hne
    exact ⟨chunk, (hchunks q hne).trans hchunk, rfl, rfl⟩
  · simp [World.blockOrAir, World.getBlockLoaded, hchunks _ (hfar hl x z hb)]

/-- A chunk that comes where there was none. -/
theorem passes_new {chunk : Chunk} {pos : ChunkPos} (hplaced : Placed w) (hpos : chunk.pos = pos)
    (hnone : w.chunks pos = none) (hchunks : w'.chunks = Function.update w.chunks pos (some chunk)) :
    Passes G w w' := by
  refine ⟨fun h => finite_update h hchunks, ?_, ?_⟩
  · intro p before hbefore
    have hp : p ≠ pos := fun heq => by rw [heq, hnone] at hbefore; cases hbefore
    exact ⟨before, by simp [hchunks, hp, hbefore], fun _ _ _ _ _ => rfl⟩
  · intro p found hfound
    by_cases hp : p = pos
    · subst hp
      simp only [hchunks, Function.update_self, Option.some.injEq] at hfound
      rw [← hfound, hpos]
    · exact hplaced p found (by simpa [hchunks, hp] using hfound)

theorem Passes.refl (hplaced : Placed w) : Passes G w w :=
  ⟨id, fun _ chunk hchunk => ⟨chunk, hchunk, fun _ _ _ _ _ => rfl⟩, hplaced⟩

variable {source : ChunkSource} {terrain : L2.Terrain.Game} {pos : ChunkPos}

theorem arrival_pos (hplaced : Placed terrain.world) : (terrain.arrival source pos).1.pos = pos := by
  unfold L2.Terrain.Game.arrival
  dsimp only
  split
  · next chunk hchunk => exact hplaced pos chunk hchunk
  · split
    · next chunk hread => exact source.read_pos pos chunk hread
    · dsimp only
      split
      · cases hgenerated : source.generate pos with
        | none => rfl
        | some chunk => exact source.generate_pos pos chunk hgenerated
      · rfl
    · rfl

theorem loadOrCreate_loaded (h : terrain.world.isLoaded pos = true) :
    terrain.loadOrCreateChunk source pos = terrain := by
  unfold L2.Terrain.Game.loadOrCreateChunk
  rw [if_pos h]

/-- Only a chunk that was read or generated changes the light around it. -/
theorem loadOrCreate_light (source : ChunkSource) (terrain : L2.Terrain.Game) (pos p : ChunkPos) :
    (terrain.loadOrCreateChunk source pos).world.changes = terrain.world.changes ∧
      ((terrain.loadOrCreateChunk source pos).world.light p = terrain.world.light p ∨
        (!terrain.world.isLoaded pos && (available source terrain pos).isSome) = true ∧ p ∈ around pos) := by
  cases hloaded : terrain.world.isLoaded pos with
  | true => exact ⟨by rw [loadOrCreate_loaded hloaded], .inl (by rw [loadOrCreate_loaded hloaded])⟩
  | false =>
    have hdrop (w : World) : (w.invalidateLight3x3 pos).changes = w.changes ∧
        ((w.invalidateLight3x3 pos).light p = w.light p ∨ p ∈ around pos) := by
      refine ⟨rfl, ?_⟩
      by_cases hp : p ∈ around pos
      · exact .inr hp
      · exact .inl (if_neg hp)
    unfold L2.Terrain.Game.loadOrCreateChunk available
    simp only [hloaded, Bool.false_eq_true, if_false, Bool.not_false, Bool.true_and]
    cases hread : source.read pos with
    | error e =>
      simp only [Function.update_self, Bool.not_true, Bool.and_false, Bool.false_eq_true, if_false]
      exact ⟨rfl, .inl rfl⟩
    | ok stored =>
      cases stored with
      | some chunk => exact ⟨(hdrop _).1, (hdrop _).2.imp_right fun hp => ⟨rfl, hp⟩⟩
      | none =>
        dsimp only
        split
        · next chunk hchunk => exact ⟨(hdrop _).1, (hdrop _).2.imp_right fun hp => ⟨by rw [hchunk]; rfl, hp⟩⟩
        · exact ⟨rfl, .inl rfl⟩

theorem loadOrCreate_passes (hplaced : Placed terrain.world) :
    Passes G terrain.world (terrain.loadOrCreateChunk source pos).world := by
  cases hchunk : terrain.world.chunks pos with
  | some chunk =>
    rw [loadOrCreate_loaded (isLoaded_iff.mpr ⟨chunk, hchunk⟩)]
    exact .refl hplaced
  | none =>
    obtain ⟨hchunks, -, -⟩ := @L2.Terrain.Game.loadOrCreateChunk_spec source terrain pos
    exact passes_new hplaced (arrival_pos hplaced) hchunk hchunks

theorem loadOrCreate_steady : Steady G terrain.world (terrain.loadOrCreateChunk source pos).world := by
  have hcome {chunk : Chunk} (hpos : chunk.pos = pos) : Steady G terrain.world
      (L2.Terrain.Game.markChunkClean ((terrain.world.loadChunk chunk).invalidateLight3x3 pos) pos) := by
    subst hpos
    have hloads : Steady G terrain.world ((terrain.world.loadChunk chunk).invalidateLight3x3 chunk.pos) :=
      steady_replace chunk.pos rfl rfl fun q hq => Function.update_of_ne hq ..
    exact hloads.trans (steady_markClean _)
  have hair : Steady G terrain.world (L2.Terrain.Game.markChunkClean (terrain.world.ensureChunk pos) pos) :=
    (steady_ensureChunk pos).trans (steady_markClean _)
  cases hloaded : terrain.world.isLoaded pos with
  | true =>
    rw [loadOrCreate_loaded hloaded]
    exact .refl
  | false =>
    unfold L2.Terrain.Game.loadOrCreateChunk
    simp only [hloaded, Bool.false_eq_true, if_false]
    cases hread : source.read pos with
    | error e =>
      simp only [Function.update_self, Bool.not_true, Bool.and_false, Bool.false_eq_true, if_false]
      exact hair
    | ok stored =>
      cases stored with
      | some chunk => exact hcome (source.read_pos pos chunk hread)
      | none =>
        dsimp only
        split
        · next chunk hchunk =>
          split at hchunk
          · exact hcome (source.generate_pos pos chunk hchunk)
          · cases hchunk
        · exact hair

theorem loadOrCreate_isLoaded : (terrain.loadOrCreateChunk source pos).world.isLoaded pos := by
  obtain ⟨hchunks, -, -⟩ := @L2.Terrain.Game.loadOrCreateChunk_spec source terrain pos
  rw [World.isLoaded, hchunks, Function.update_self]
  rfl

/-- Light is worked out and nothing else. -/
structure Lights (table : LightTable) (w w' : World) : Prop where
  registry : w'.registry = w.registry
  chunks : w'.chunks = w.chunks
  changes : w'.changes = w.changes
  light : ∀ pos l, w.light pos = some l → w'.light pos = some l
  lit : ∀ pos l, w'.light pos = some l → w.light pos = some l ∨
    ∃ chunk, w.chunks pos = some chunk ∧ w.lightOf table pos chunk = some (.ok l)

theorem computeLight_lights (h : w.computeLight table pos = some (.ok (), w')) :
    Lights table w w' ∧ (w'.light pos).isSome := by
  unfold World.computeLight at h
  split at h
  · next hsome =>
    cases h
    exact ⟨⟨rfl, rfl, rfl, fun _ _ hl => hl, fun _ _ hl => .inl hl⟩, hsome⟩
  next hnone =>
  split at h
  · cases h
  next chunk hchunk =>
  split at h
  · cases h
  · cases h
  · next light hlight =>
    cases h
    refine ⟨⟨rfl, rfl, rfl, fun p l hl => ?_, fun p l hl => ?_⟩, by simp⟩
    · have hp : p ≠ pos := fun heq => hnone (by rw [← heq, hl]; rfl)
      simpa [hp] using hl
    · by_cases hp : p = pos
      · subst hp
        obtain rfl : light = l := by simpa using hl
        exact .inr ⟨chunk, hchunk, hlight⟩
      · exact .inl (by simpa [hp] using hl)

theorem Bright.lights (h : Bright table G w) (hw : Lights table w w') : Bright table G w' := by
  intro hair pos l hl hG
  rw [hw.registry] at hair
  have hsame (chunk : Chunk) : w'.lightOf table pos chunk = w.lightOf table pos chunk :=
    World.lightOf_congr fun x y z _ => by simp only [World.blockOrAir, World.getBlockLoaded, hw.chunks]
  obtain hold | ⟨chunk, hchunk, hlight⟩ := hw.lit pos l hl
  · obtain ⟨chunk, hchunk, hlight⟩ := h hair pos l hold hG
    exact ⟨chunk, by rw [hw.chunks]; exact hchunk, by rw [hsame]; exact hlight⟩
  · exact ⟨chunk, by rw [hw.chunks]; exact hchunk, by rw [hsame]; exact hlight⟩

theorem ensureChunk_passes (hplaced : Placed w) (pos : ChunkPos) : Passes G w (w.ensureChunk pos) := by
  cases hchunk : w.chunks pos with
  | some chunk =>
    have hsame : (w.ensureChunk pos).chunks = w.chunks := by
      rw [World.ensureChunk, World.ensured, hchunk, Option.getD_some, ← hchunk, Function.update_eq_self]
    exact ⟨fun h => finite_update h rfl, fun p c hc => ⟨c, by rw [hsame, hc], fun _ _ _ _ _ => rfl⟩,
      fun p c hc => hplaced p c (hsame ▸ hc)⟩
  | none =>
    refine passes_new hplaced (show (w.ensured pos).pos = pos from ?_) hchunk rfl
    rw [World.ensured, hchunk, Option.getD_none]
    rfl

/-- A write leaves its chunk, or changes one block of it and notes that. -/
theorem setBlock_cases (w : World) (x y z id : Int) :
    (w.setBlock x y z id).2 = w.ensureChunk (chunkOf x z) ∨
      ∃ chunk oldId, chunk.pos = (w.ensured (chunkOf x z)).pos ∧
        (∀ x' y' z', chunkOf x' z' = chunkOf x z → chunk.getBlock x' y' z' =
          if (x', y', z') = (x, y, z) then id else (w.ensured (chunkOf x z)).getBlock x' y' z') ∧
        (w.setBlock x y z id).2 = { (w.ensureChunk (chunkOf x z)).dropLight (chunksABlockCanLight (chunkOf x z) x z) with
          chunks := Function.update w.chunks (chunkOf x z) (some chunk)
          changes := w.changes ++ [⟨chunkOf x z, x, y, z, oldId, id⟩] } := by
  unfold World.setBlock
  dsimp only
  cases hset : (w.ensured (chunkOf x z)).setBlock x y z id w.registry with
  | error e => exact .inl rfl
  | ok result =>
    obtain ⟨change, chunk⟩ := result
    cases change with
    | none => exact .inl rfl
    | some change =>
      obtain ⟨oldId, newId⟩ := change
      obtain ⟨hpos, -, -, hcells⟩ := Chunk.setBlock_spec hset
      obtain rfl : newId = id := by
        unfold Chunk.setBlock at hset
        split at hset
        · cases hset
        split at hset
        · cases hset
        dsimp only at hset
        split at hset
        · cases hset
        · cases hset
          rfl
      refine .inr ⟨chunk, oldId, hpos, fun x' y' z' hchunk => ?_, rfl⟩
      rw [Chunk.getBlock_eq, Chunk.getBlock_eq, hcells, if_congr World.sameCell_iff rfl rfl]
      by_cases hcell : Chunk.SameCell x y z x' y' z'
      · rw [if_pos hcell, if_pos ⟨hchunk, hcell⟩]
        rfl
      · rw [if_neg hcell, if_neg fun h => hcell h.2]

/-- A block of a loaded chunk is written over. -/
structure Writes (w w' : World) (c : BlockChange) : Prop where
  registry : w'.registry = w.registry
  here : c.pos = chunkOf c.x c.z
  told : 0 ≤ c.newId
  chunks : ∃ before after, w.chunks c.pos = some before ∧ after.pos = before.pos ∧
    w'.chunks = Function.update w.chunks c.pos (some after) ∧
    ∀ x y z, chunkOf x z = c.pos → after.getBlock x y z =
      if (x, y, z) = (c.x, c.y, c.z) then c.newId else before.getBlock x y z
  light : ∀ p, w'.light p = if p ∈ chunksABlockCanLight c.pos c.x c.z then none else w.light p

theorem Writes.steady {c : BlockChange} (h : Writes w w' c) : Steady G w w' := by
  obtain ⟨before, after, hbefore, -, hchunks, hblocks⟩ := h.chunks
  have hkept {p : ChunkPos} {l : ChunkLight} (hl : w'.light p = some l) :
      w.light p = some l ∧ ¬Beside p c.x c.z := by
    rw [h.light] at hl
    split at hl
    · cases hl
    · next hnot => exact ⟨hl, fun hbeside => hnot (by rw [h.here]; exact lit_by_column hbeside)⟩
  refine ⟨h.registry, fun p l hl => (hkept hl).1, fun p l hl chunk hchunk => ?_, fun _ p l hl x y z hbeside _ => ?_⟩
  · have hp : p ≠ c.pos := fun heq => (hkept hl).2 (by rw [heq, h.here]; exact beside_self c.x c.z)
    exact ⟨chunk, by rw [hchunks, Function.update_of_ne hp]; exact hchunk, rfl, rfl⟩
  · unfold World.blockOrAir World.getBlockLoaded
    rw [hchunks]
    by_cases hpos : chunkOf x z = c.pos
    · have hcell : (x, y, z) ≠ (c.x, c.y, c.z) := by
        intro heq
        cases heq
        exact (hkept hl).2 hbeside
      rw [hpos, Function.update_self, hbefore, Option.map_some, Option.map_some, hblocks x y z hpos, if_neg hcell]
    · rw [Function.update_of_ne hpos]

theorem Writes.loaded {c : BlockChange} (h : Writes w w' c) {p : ChunkPos} (hp : w.isLoaded p) : w'.isLoaded p := by
  obtain ⟨before, after, -, -, hchunks, -⟩ := h.chunks
  rw [World.isLoaded, hchunks]
  by_cases hpos : p = c.pos
  · rw [hpos, Function.update_self]
    rfl
  · rw [Function.update_of_ne hpos]
    exact hp

/-- The blocks after a write, from those before. -/
theorem Writes.block {c : BlockChange} (h : Writes w w' c) {x z : Int} {after : Chunk}
    (hafter : w'.chunks (chunkOf x z) = some after) : ∃ before, w.chunks (chunkOf x z) = some before ∧
      ∀ y, wireId (after.getBlock x y z) =
        if (x, y, z) = (c.x, c.y, c.z) then c.newId else wireId (before.getBlock x y z) := by
  obtain ⟨before, found, hbefore, -, hchunks, hblocks⟩ := h.chunks
  rw [hchunks] at hafter
  by_cases hpos : chunkOf x z = c.pos
  · rw [hpos, Function.update_self, Option.some.injEq] at hafter
    subst hafter
    refine ⟨before, hpos ▸ hbefore, fun y => ?_⟩
    rw [hblocks x y z hpos, apply_ite wireId, wireId, max_eq_left h.told]
  · rw [Function.update_of_ne hpos] at hafter
    refine ⟨after, hafter, fun y => (if_neg fun heq => hpos ?_).symm⟩
    cases heq
    exact h.here.symm

theorem Logged.writes {c : BlockChange} (h : Logged G rest w) (hw : Writes w w' c) : Logged G (rest ++ [c]) w' := by
  obtain ⟨before, after, hbefore, hpos, hchunks, -⟩ := hw.chunks
  refine ⟨finite_update h.finite hchunks, fun p chunk hchunk => ?_, fun c' hc' => ?_,
    fun x y z chunk hchunk hG => ?_⟩
  · rw [hchunks] at hchunk
    by_cases hp : p = c.pos
    · subst hp
      rw [Function.update_self, Option.some.injEq] at hchunk
      rw [← hchunk, hpos]
      exact h.placed c.pos before hbefore
    · exact h.placed p chunk (by rwa [Function.update_of_ne hp] at hchunk)
  · obtain hold | hnew := List.mem_append.mp hc'
    · exact ⟨(h.logged c' hold).1, hw.loaded (h.logged c' hold).2⟩
    · rw [List.mem_singleton.mp hnew]
      exact ⟨hw.here, hw.loaded (isLoaded_iff.mpr ⟨before, hbefore⟩)⟩
  · obtain ⟨chunk', hchunk', hblock⟩ := hw.block hchunk
    rw [settled_snoc, hblock]
    split
    · rfl
    · exact h.current x y z chunk' hchunk' hG

theorem Served.writes {c : BlockChange} {s : Session} (h : Served G rest w pending s) (hw : Writes w w' c) :
    Served G (rest ++ [c]) w' pending s := by
  refine ⟨fun p hp => hw.loaded (h.loaded p hp), fun hwhole => ?_⟩
  obtain ⟨hcenter, hradius, hcopies⟩ := h.follows hwhole
  refine ⟨hcenter, hradius, fun p hp after hafter => ?_⟩
  obtain ⟨before, hbefore⟩ := isLoaded_iff.mp (h.loaded p hp)
  obtain ⟨copy, hcopy, hblocks, hlit⟩ := hcopies p hp before hbefore
  refine ⟨copy, hcopy, fun x y z hcell hG => ?_, ?_⟩
  · subst hcell
    obtain ⟨before', hbefore', hblock⟩ := hw.block hafter
    cases hbefore.symm.trans hbefore'
    rw [settled_snoc, hblock, hblocks x y z rfl hG]
  · rcases hlit with hlit | hlit | ⟨c', hc', hlit⟩
    · rw [hw.light]
      split
      · next hlights => exact .inr (.inr ⟨c, by simp, hlights⟩)
      · exact .inl hlit
    · exact .inr (.inl hlit)
    · exact .inr (.inr ⟨c', List.mem_append_left _ hc', hlit⟩)

/-- Nothing is on its way but what the world notes. -/
def Good (table : LightTable) (G : Int → Int → Int → Prop) (game : Game) : Prop :=
  Kept table G game.world.changes ∅ game

variable {game : Game}

theorem Good.passes {w' : World} (h : Good table G game) (hw : Passes G game.world w') (hsteady : Steady G game.world w')
    (hchanges : w'.changes = game.world.changes) (hlight : w'.light = game.world.light) :
    Good table G (game.withWorld w') := by
  have hkept : Kept table G game.world.changes ∅ (game.withWorld w') :=
    Kept.passes h rfl hw (h.bright.steady hsteady) (fun p _ l hl => .inl (by rw [← hl]; exact congrFun hlight p)) fun p _ hp => hp
  rw [Good, show (game.withWorld w').world.changes = game.world.changes from hchanges]
  exact hkept

theorem Good.setBlock (h : Good table G game) (x y z : Int) (id : Nat) :
    Good table G (game.withWorld (game.world.setBlock x y z id).2) := by
  have hmade : Good table G (game.withWorld (game.world.ensureChunk (chunkOf x z))) :=
    h.passes (ensureChunk_passes h.logged.placed _) (steady_ensureChunk _) rfl rfl
  obtain heq | ⟨chunk, oldId, hpos, hblocks, heq⟩ := setBlock_cases game.world x y z id
  · rw [heq]
    exact hmade
  · have hwrites : Writes (game.world.ensureChunk (chunkOf x z)) (game.world.setBlock x y z id).2
        ⟨chunkOf x z, x, y, z, oldId, id⟩ := by
      refine ⟨by rw [heq]; rfl, rfl, Int.natCast_nonneg id, ⟨_, chunk, Function.update_self .., hpos, ?_, hblocks⟩,
        fun p => by rw [heq]; rfl⟩
      rw [heq]
      exact (Function.update_idem ..).symm
    rw [Good, show (game.withWorld (game.world.setBlock x y z id).2).world.changes =
      game.world.changes ++ [⟨chunkOf x z, x, y, z, oldId, id⟩] by rw [heq]; rfl]
    exact ⟨hmade.logged.writes hwrites, hmade.bright.steady hwrites.steady,
      fun i s hs => (hmade.served i s hs).writes hwrites⟩

theorem write_shape (chunk : Chunk) (registry : BlockRegistry) (x y z id : Int) :
    Chunk.SameShape chunk (write chunk registry x y z id).2 := by
  unfold write
  cases hset : chunk.setBlock x y z id registry with
  | error e => exact .refl chunk
  | ok result =>
    obtain ⟨change, after⟩ := result
    obtain ⟨hpos, hlow, hsections, -⟩ := Chunk.setBlock_spec hset
    cases change <;> exact ⟨hpos, hlow, hsections⟩

theorem foldl_shape {α : Type} {f : Nat × Chunk → α → Nat × Chunk}
    (hf : ∀ state a, Chunk.SameShape state.2 (f state a).2) (l : List α) (state : Nat × Chunk) :
    Chunk.SameShape state.2 (l.foldl f state).2 := by
  induction l generalizing state with
  | nil => exact .refl state.2
  | cons a l ih => exact (hf state a).trans (ih (f state a))

theorem placeOakAt_shape (chunk : Chunk) (registry : BlockRegistry) (palette : BlockPalette)
    (blockX surfaceY blockZ trunkHeight : I32) :
    Chunk.SameShape chunk (placeOakAt chunk registry palette blockX surfaceY blockZ trunkHeight).2 := by
  unfold placeOakAt
  dsimp only
  split
  · exact .refl chunk
  split
  · exact .refl chunk
  · refine Chunk.SameShape.trans (foldl_shape (fun state y => ?_) _ (0, chunk)) (foldl_shape (fun state offset => ?_) _ _)
    · have hshape := write_shape state.2 registry blockX.val y blockZ.val palette.oakLog
      unfold growLog
      split
      all_goals
        next heq => rw [heq] at hshape; exact hshape
    · unfold growLeaf
      dsimp only
      split
      · exact .refl state.2
      · have hshape := write_shape state.2 registry (I32.clamp (blockX.val + offset.1)).val
          (I32.clamp ((I32.clamp ((surfaceY.saturatingAdd (clampHeight trunkHeight)).val + 1)).val + offset.2.1)).val
          (I32.clamp (blockZ.val + offset.2.2)).val palette.oakLeaves
        split
        all_goals
          next heq => rw [heq] at hshape; exact hshape

/-- A tree changes no chunk but the sapling's, and notes nothing. -/
theorem growOakTree_world (w : World) (x y z : I32) (draw : Fin 3) :
    (growOakTree w x y z draw).2.1 = w ∨ ∃ chunk after, w.chunks (chunkOf x.val z.val) = some chunk ∧
      Chunk.SameShape chunk after ∧ (growOakTree w x y z draw).2.1 =
        { w with chunks := Function.update w.chunks (chunkOf x.val z.val) (some after) } := by
  unfold growOakTree
  dsimp only
  split
  · exact .inl rfl
  split
  · exact .inl rfl
  split
  · exact .inl rfl
  next palette _ =>
  split
  · exact .inl rfl
  next chunk hchunk =>
  have hshape := placeOakAt_shape chunk w.registry palette x (I32.clamp (saplingOak x y z draw).surface) z
    (I32.clamp (saplingOak x y z draw).height)
  refine .inr ⟨chunk, _, hchunk, hshape, ?_⟩
  split <;> rfl

theorem Good.growOakTree (h : Good table G game) {x y z : I32} {draw : Fin 3}
    (hG : ∀ a b c, (growOakTree game.world x y z draw).2.1.getBlockLoaded a b c ≠ game.world.getBlockLoaded a b c →
      G a b c) : Good table G (game.withWorld (growOakTree game.world x y z draw).2.1) := by
  obtain heq | ⟨chunk, after, hchunk, hshape, heq⟩ := growOakTree_world game.world x y z draw
  · rw [heq]
    exact h.passes (.refl h.logged.placed) .refl rfl rfl
  rw [heq] at hG ⊢
  refine h.passes ⟨fun hfinite => finite_update hfinite rfl, fun p before hbefore => ?_,
    fun p found hfound => ?_⟩ ⟨rfl, fun _ _ hl => hl,
    fun p _ _ before hbefore => ?_, fun _ _ _ _ a b c _ hout => ?_⟩ rfl rfl
  · by_cases hp : p = chunkOf x.val z.val
    · subst hp
      refine ⟨after, Function.update_self .., fun a b c hcell hout => ?_⟩
      by_contra hne
      refine hout (hG a b c fun hsame => hne ?_)
      simpa [World.getBlockLoaded, hcell, hbefore] using hsame
    · exact ⟨before, (Function.update_of_ne hp ..).trans hbefore, fun _ _ _ _ _ => rfl⟩
  · by_cases hp : p = chunkOf x.val z.val
    · subst hp
      obtain rfl : after = found := by simpa using hfound
      exact hshape.pos.trans (h.logged.placed _ chunk hchunk)
    · exact h.logged.placed p found ((Function.update_of_ne hp ..).symm.trans hfound)
  · by_cases hp : p = chunkOf x.val z.val
    · subst hp
      cases hbefore.symm.trans hchunk
      exact ⟨after, Function.update_self .., hshape.low, hshape.sections⟩
    · exact ⟨before, (Function.update_of_ne hp ..).trans hbefore, rfl, rfl⟩
  · rw [World.blockOrAir, World.blockOrAir]
    by_contra hne
    exact hout (hG a b c fun hsame => hne (by rw [hsame]))

end Apoptosis.L3.Streaming
