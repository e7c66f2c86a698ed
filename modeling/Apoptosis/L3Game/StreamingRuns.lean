import Apoptosis.L3Game.ChunkReplicas
/-!
# What every run of the game keeps of its players' chunks

One rule for each function of the game, as a triple over what it keeps, and from
them that every event keeps it (`step_good`), and so every run (`run_good`).

* `run_shown`: a player shows every chunk it was sent as the chunk is, but for
  what waits to be told and what a tree grew over.
* `run_lit`: the light it shows is that of the world as it is, unless that waits.
-/
namespace Apoptosis.L3.Streaming
open Apoptosis.Core Apoptosis.L2.Registry Apoptosis.L2.Storage Apoptosis.L2.Terrain Apoptosis.L2.Worldgen

variable {G : Int → Int → Int → Prop} {rest changes : List BlockChange} {owed pending pending' : Finset ChunkPos}
  {w : World} {game : Game} {host : Host} {id : Nat} {s s' : Session} {p : Packet} {pos : ChunkPos}
  {report : TickReport}

/-! ## What a player follows -/

theorem Follows.mono {c : Client} (h : Follows G rest w pending s c)
    (hpending : ∀ pos ∈ s.sentChunks, pos ∈ pending → pos ∈ pending') : Follows G rest w pending' s c := by
  refine ⟨h.center, h.radius, fun pos hpos chunk hchunk => ?_⟩
  obtain ⟨copy, hcopy, hblocks, hlit⟩ := h.copies pos hpos chunk hchunk
  refine ⟨copy, hcopy, hblocks, ?_⟩
  rcases hlit with hlit | hlit | hlit
  · exact .inl hlit
  · exact .inr (.inl (hpending pos hpos hlit))
  · exact .inr (.inr hlit)

/-- It is the centre, the radius and the chunks of a session that are followed. -/
theorem Follows.same {c : Client} (h : Follows G rest w pending s c) (hcenter : s'.center = s.center)
    (hradius : s'.viewDistance = s.viewDistance) (hsent : s'.sentChunks = s.sentChunks) :
    Follows G rest w pending s' c :=
  ⟨by rw [hcenter]; exact h.center, by rw [hradius]; exact h.radius, by rw [hsent]; exact h.copies⟩

theorem Served.mono (h : Served G rest w pending s)
    (hpending : ∀ pos ∈ s.sentChunks, pos ∈ pending → pos ∈ pending') : Served G rest w pending' s :=
  ⟨h.loaded, fun hwhole => (h.follows hwhole).mono hpending⟩

/-- A session after a packet: what it follows if the packet was taken, and if it is sent again. -/
theorem Served.offered (hsends : s'.sends = (s.offered p).sends)
    (hloaded : ∀ pos ∈ s'.sentChunks, w.isLoaded pos)
    (htaken : s.Whole → s.takes = true → Follows G rest w pending s' (s.client.take p))
    (hresent : s.Whole → p.Resent → s.takes = false → Follows G rest w pending s' s.client) :
    Served G rest w pending s' := by
  refine ⟨hloaded, fun hwhole => ?_⟩
  have hclient : s'.client = (s.offered p).client := by rw [Session.client, hsends]; rfl
  have hoffered : (s.offered p).Whole := by rwa [Session.Whole, hsends] at hwhole
  obtain ⟨hbefore, htakes⟩ := (whole_offered s p).mp hoffered
  rw [hclient, client_offered]
  cases htake : s.takes with
  | true => exact htaken hbefore htake
  | false => exact hresent hbefore (htakes.resolve_left (by simp [htake])) htake

theorem Follows.chunk {c : Client} {chunk : Chunk} {light : ChunkLight} (h : Follows G rest w pending s c)
    (hw : Logged G rest w) (hchunk : w.chunks pos = some chunk) (hlight : w.light pos = some light) :
    Follows G rest w pending { s with sentChunks := insert pos s.sentChunks }
      (c.take (.levelChunkWithLight chunk light)) := by
  refine ⟨h.center, h.radius, fun q hq found hfound => ?_⟩
  have hplaced := hw.placed pos chunk hchunk
  show ∃ copy, Function.update c.chunks chunk.pos _ q = some copy ∧ _
  rw [hplaced]
  by_cases hqp : q = pos
  · subst hqp
    cases hchunk.symm.trans hfound
    refine ⟨_, Function.update_self .., fun x y z hcell hG => ?_, .inl hlight⟩
    subst hcell
    exact hw.current x y z chunk hchunk hG
  · obtain ⟨copy, hcopy, hshows⟩ := h.copies q (Finset.mem_of_mem_insert_of_ne hq hqp) found hfound
    exact ⟨copy, (Function.update_of_ne hqp ..).trans hcopy, hshows⟩

theorem Follows.forget {c : Client} (h : Follows G rest w pending s c) (hpos : pos ∉ s.sentChunks) :
    Follows G rest w pending s (c.take (.forgetLevelChunk pos)) := by
  refine ⟨h.center, h.radius, fun q hq chunk hchunk => ?_⟩
  obtain ⟨copy, hcopy, hshows⟩ := h.copies q hq chunk hchunk
  have hqp : q ≠ pos := fun heq => hpos (heq ▸ hq)
  exact ⟨copy, (Function.update_of_ne hqp ..).trans hcopy, hshows⟩

/-- The light of a chunk, told to one who holds it. -/
theorem Follows.light {c : Client} {light : ChunkLight} (h : Follows G rest w (insert pos pending) s c)
    (hlight : w.light pos = some light) : Follows G rest w pending s (c.take (.lightUpdate pos light)) := by
  refine ⟨h.center, h.radius, fun q hq chunk hchunk => ?_⟩
  obtain ⟨copy, hcopy, hblocks, hlit⟩ := h.copies q hq chunk hchunk
  show ∃ copy, Function.update c.chunks pos _ q = some copy ∧ _
  by_cases hqp : q = pos
  · subst hqp
    refine ⟨{ copy with light := light }, ?_, hblocks, .inl hlight⟩
    rw [Function.update_self, hcopy]
    rfl
  · refine ⟨copy, (Function.update_of_ne hqp ..).trans hcopy, hblocks, ?_⟩
    exact hlit.imp_right (Or.imp_left fun hmem => Finset.mem_of_mem_insert_of_ne hmem hqp)

/-- The first change that waits, told to one who holds its chunk. -/
theorem Follows.change {c : Client} {change : BlockChange} (h : Follows G (change :: rest) w pending s c)
    (hpending : pending ∪ (chunksABlockCanLight change.pos change.x change.z).toFinset ⊆ pending') :
    Follows G rest w pending' s (c.take (.blockUpdate change.x change.y change.z change.newId)) := by
  refine ⟨h.center, h.radius, fun q hq chunk hchunk => ?_⟩
  obtain ⟨copy, hcopy, hblocks, hlit⟩ := h.copies q hq chunk hchunk
  have hlight : w.light q = some copy.light ∨ Relit rest pending' q := by
    rcases hlit with hlit | hlit | ⟨found, hfound, hlit⟩
    · exact .inl hlit
    · exact .inr (.inl (hpending (Finset.mem_union_left _ hlit)))
    · cases hfound with
      | head => exact .inr (.inl (hpending (Finset.mem_union_right _ (List.mem_toFinset.mpr hlit))))
      | tail _ hfound => exact .inr (.inr ⟨found, hfound, hlit⟩)
  show ∃ copy, Function.update c.chunks (chunkOf change.x change.z) _ q = some copy ∧ _
  by_cases hqp : q = chunkOf change.x change.z
  · subst hqp
    refine ⟨copy.written change.x change.y change.z change.newId, ?_, hblocks, hlight⟩
    rw [Function.update_self, hcopy]
    rfl
  · refine ⟨copy, (Function.update_of_ne hqp ..).trans hcopy, fun x y z hcell hG => ?_, hlight⟩
    have hapart : (x, y, z) ≠ (change.x, change.y, change.z) := by
      intro heq
      cases heq
      exact hqp hcell.symm
    rw [← hblocks x y z hcell hG, settled_cons, if_neg hapart]

/-- As `Follows.change`, for one who does not hold the chunk. -/
theorem Follows.unchanged {c : Client} {change : BlockChange} (h : Follows G (change :: rest) w pending s c)
    (hpos : change.pos = chunkOf change.x change.z) (hheld : change.pos ∉ s.sentChunks)
    (hpending : pending ∪ (chunksABlockCanLight change.pos change.x change.z).toFinset ⊆ pending') :
    Follows G rest w pending' s c := by
  refine ⟨h.center, h.radius, fun q hq chunk hchunk => ?_⟩
  obtain ⟨copy, hcopy, hblocks, hlight⟩ := (h.change hpending).copies q hq chunk hchunk
  have hqp : q ≠ chunkOf change.x change.z := fun heq => hheld (by rw [hpos, ← heq]; exact hq)
  exact ⟨copy, (Function.update_of_ne hqp ..).symm.trans hcopy, hblocks, hlight⟩

/-! ## Sending -/

/-- As `Kept`, with what the world still notes. -/
def Here (host : Host) (G : Int → Int → Int → Prop) (rest : List BlockChange) (owed : Finset ChunkPos)
    (changes : List BlockChange) (game : Game) : Prop :=
  Kept host.table G rest owed game ∧ game.world.changes = changes

/-- Triples for which an error ends the server. -/
abbrev Spec {α : Type} (P : Game → Prop) (x : Tick α) (Q : α → Game → Prop) : Prop :=
  Triple P x Q fun _ _ => True

theorem good_iff : Good host.table G game ↔ ∃ changes, Here host G changes ∅ changes game :=
  ⟨fun h => ⟨_, h, rfl⟩, by rintro ⟨_, h, rfl⟩; exact h⟩

theorem Kept.insert (h : Kept host.table G rest owed game)
    (hs : Served G rest game.world (game.pendingLight ∪ owed) s) :
    Kept host.table G rest owed { game with sessions := game.sessions.insert id s, report := report } := by
  refine ⟨h.logged, h.bright, fun k t ht => ?_⟩
  rw [OrdMap.get?_insert] at ht
  split at ht
  · cases ht
    exact hs
  · exact h.served k t ht

theorem Here.insert (h : Here host G rest owed changes game)
    (hs : Served G rest game.world (game.pendingLight ∪ owed) s) :
    Here host G rest owed changes { game with sessions := game.sessions.insert id s, report := report } :=
  ⟨h.1.insert hs, h.2⟩

theorem Here.counted (h : Here host G rest owed changes game) (report : TickReport) :
    Here host G rest owed changes { game with report := report } := ⟨⟨h.1.logged, h.1.bright, h.1.served⟩, h.2⟩

theorem Here.erase (h : Here host G rest owed changes game) (id : Nat) :
    Here host G rest owed changes { game with sessions := game.sessions.erase id } := by
  refine ⟨⟨h.1.logged, h.1.bright, fun k t ht => ?_⟩, h.2⟩
  rw [OrdMap.get?_erase] at ht
  split at ht
  · cases ht
  · exact h.1.served k t ht

theorem modify_insert (m : OrdMap Nat Session) (s : Session) (f : Session → Session) :
    (m.insert id s).modify id f = m.insert id (f s) := by
  unfold OrdMap.modify
  rw [OrdMap.get?_insert, if_pos rfl]
  exact OrdMap.insert_insert m id s (f s)

theorem spec_lift {α : Type} {P : Game → Prop} (r : ServerResult α) : Spec P (lift r) fun _ => P := by
  intro g hg
  refine ⟨fun a g' heq => ?_, fun _ _ _ => trivial⟩
  have hrun : (r, g) = (Except.ok a, g') := heq
  cases hrun
  exact hg

theorem spec_sendRaw {P : Game → Prop} {Q : Bool → Game → Prop}
    (hsome : ∀ g s, P g → g.sessions.get? id = some s → Q s.takes { g with
      sessions := g.sessions.insert id (s.offered p), report := g.report.counted id s.takes })
    (hnone : ∀ g, P g → g.sessions.get? id = none → Q false g) : Spec P (sendRaw id p) Q := by
  refine Triple.get fun g hg => ?_
  split
  · next hs => exact Triple.pure _ fun t ht => ht ▸ hnone g hg hs
  · next s hs =>
    refine (Triple.modify (Q := fun _ t => Q s.takes t) fun t ht => ?_).bind fun _ => Triple.pure _ fun _ ht => ht
    subst ht
    exact hsome t s hg hs

theorem spec_send {P : Game → Prop} {Q : Bool → Game → Prop}
    (hsome : ∀ g s, P g → g.sessions.get? id = some s → Q s.takes { g with
      sessions := g.sessions.insert id (s.offered p), report := g.report.counted id s.takes })
    (hnone : ∀ g, P g → g.sessions.get? id = none → Q false g) : Spec P (send host id p) Q :=
  (spec_lift _).bind fun _ => spec_sendRaw hsome hnone

/-! ## Streaming -/

theorem spec_loadOrCreate : Spec (Here host G rest owed changes) (loadOrCreateChunk host pos) fun _ g =>
    Here host G rest owed changes g ∧ g.world.isLoaded pos := by
  refine Triple.modify fun g ⟨hkept, hchanges⟩ => ⟨⟨?_, ?_⟩, loadOrCreate_isLoaded⟩
  · refine hkept.passes rfl (loadOrCreate_passes hkept.logged.placed) (hkept.bright.steady loadOrCreate_steady)
      (fun q _ l hl => ?_) fun q _ hmem => ?_
    · obtain ⟨-, hsame | ⟨hnew, hq⟩⟩ := loadOrCreate_light host.source g.terrain pos q
      · exact .inl (hsame.trans hl)
      · right
        show q ∈ if (!g.terrain.world.isLoaded pos && _) = true then _ else _
        rw [if_pos hnew]
        exact Finset.mem_union_right _ (List.mem_toFinset.mpr hq)
    · dsimp only
      split
      · exact Finset.mem_union_left _ hmem
      · exact hmem
  · exact (loadOrCreate_light host.source g.terrain pos pos).1.trans hchanges

theorem Here.lights {w' : World} (h : Here host G rest owed changes game) (hw : Lights host.table game.world w') :
    Here host G rest owed changes (game.withWorld w') := by
  refine ⟨Kept.passes h.1 rfl ⟨fun hfinite => ?_, fun q chunk hchunk => ?_, fun q chunk hchunk => ?_⟩
    (h.1.bright.lights hw) (fun q _ l hl => ?_)
    fun q _ hmem => hmem, hw.changes.trans h.2⟩
  · rw [show (game.withWorld w').world = w' from rfl]
    simpa only [World.isLoaded, hw.chunks] using hfinite
  · exact ⟨chunk, (congrFun hw.chunks q).trans hchunk, fun _ _ _ _ _ => rfl⟩
  · exact h.1.logged.placed q chunk ((congrFun hw.chunks q).symm.trans hchunk)
  · exact .inl (hw.light q l hl)

theorem spec_computeLight {P : Game → Prop}
    (hP : ∀ g w', P g → Lights host.table g.world w' → P (g.withWorld w')) :
    Spec P (computeLight host pos) fun _ g => P g ∧ (g.world.light pos).isSome := by
  refine Triple.get fun g hg => ?_
  split
  · exact Triple.throw _ fun _ _ => trivial
  · exact Triple.throw _ fun _ _ => trivial
  next world hcompute =>
  refine Triple.modify fun t ht => ?_
  subst ht
  obtain ⟨hlights, hsome⟩ := computeLight_lights hcompute
  exact ⟨hP t world hg hlights, hsome⟩

/-- The game once a packet is recorded. -/
def recorded (id : Nat) (pos : ChunkPos) (queued : Bool) (game : Game) : Game :=
  if queued then { game with
    sessions := game.sessions.modify id fun s => { s with sentChunks := insert pos s.sentChunks }
    report := { game.report with chunksSent := game.report.chunksSent + 1 } }
  else game

theorem spec_recordSent {P : Game → Prop} (queued : Bool) :
    Spec (fun g => P (recorded id pos queued g)) (recordSent id pos queued) fun _ => P := by
  unfold recordSent recorded
  cases queued with
  | true => exact Triple.modify fun _ hg => hg
  | false => exact Triple.pure _ fun _ hg => hg

theorem Served.sent {chunk : Chunk} {light : ChunkLight} (h : Served G rest w pending s) (hw : Logged G rest w)
    (hchunk : w.chunks pos = some chunk) (hlight : w.light pos = some light) :
    (s.takes = true → Served G rest w pending { s.offered (.levelChunkWithLight chunk light) with
      sentChunks := insert pos s.sentChunks }) ∧
    (s.takes = false → Served G rest w pending (s.offered (.levelChunkWithLight chunk light))) := by
  constructor
  · refine fun htakes => Served.offered (s := s) (p := .levelChunkWithLight chunk light) rfl (fun q hq => ?_)
      (fun hwhole _ => ((h.follows hwhole).chunk hw hchunk hlight).same rfl rfl rfl) fun _ _ hno => ?_
    · obtain rfl | hq := Finset.mem_insert.mp hq
      · exact isLoaded_iff.mpr ⟨chunk, hchunk⟩
      · exact h.loaded q hq
    · rw [htakes] at hno
      cases hno
  · refine fun htakes => Served.offered (s := s) (p := .levelChunkWithLight chunk light) rfl h.loaded
      (fun _ hyes => ?_) fun hwhole _ _ => (h.follows hwhole).same rfl rfl rfl
    rw [htakes] at hyes
    cases hyes

theorem spec_vanillaChunkPacket {chunk : Chunk} (hpos : chunk.pos = pos) (hlit : (game.world.light pos).isSome) :
    Spec (fun g => g = game) (vanillaChunkPacket host chunk) fun packet g =>
      g = game ∧ ∃ light, packet = .levelChunkWithLight chunk light ∧ game.world.light pos = some light := by
  refine Triple.get fun g hg => ?_
  subst hg
  obtain ⟨light, hlight⟩ := Option.isSome_iff_exists.mp hlit
  have hcached : g.world.cachedLight chunk.pos = some light := by rw [hpos]; exact hlight
  dsimp only
  rw [hcached]
  exact Triple.pure _ fun t ht => ⟨ht, light, rfl, hlight⟩

theorem spec_sendChunk : Spec (Here host G rest owed changes) (sendChunk host id pos) fun _ =>
    Here host G rest owed changes := by
  refine spec_loadOrCreate.bind fun _ => (Triple.conseq (spec_computeLight fun g w' hg hw => hg.lights hw)
    (fun _ hg => hg.1) (fun _ _ hg => hg) fun _ _ hg => hg).bind fun _ => Triple.get fun g hg => ?_
  obtain ⟨hhere, hlit⟩ := hg
  split
  · exact Triple.pure _ fun t ht => ht ▸ hhere
  next chunk hchunk =>
  have hpos := hhere.1.logged.placed pos chunk hchunk
  refine (spec_vanillaChunkPacket hpos hlit).bind fun packet => ?_
  refine (spec_send (Q := fun queued t => Here host G rest owed changes (recorded id pos queued t)) ?_ ?_).bind
    fun queued => spec_recordSent queued
  · rintro t s ⟨rfl, light, rfl, hlight⟩ hs
    obtain ⟨htaken, hrefused⟩ := (hhere.1.served id s hs).sent hhere.1.logged hchunk hlight
    unfold recorded
    cases htakes : s.takes with
    | true =>
      rw [if_pos rfl]
      dsimp only
      rw [modify_insert]
      exact hhere.insert (htaken htakes)
    | false =>
      rw [if_neg (by decide)]
      exact hhere.insert (hrefused htakes)
  · rintro t ⟨rfl, -⟩ -
    exact hhere

theorem spec_tellCenter : Spec (fun g => Here host G rest owed changes g ∧ g.sessions.get? id = some s)
    (tellCenter host id s) fun _ => Here host G rest owed changes := by
  refine Triple.ite (fun _ => Triple.pure _ fun g hg => hg.1) fun _ => ?_
  refine (spec_send (Q := fun _ g => Here host G rest owed changes { g with
    sessions := g.sessions.modify id fun t => { t with center := s.chunk } }) ?_ ?_).bind
      fun _ => Triple.modify fun g hg => hg
  · rintro g t ⟨hhere, hs⟩ ht
    cases hs.symm.trans ht
    have hserved := hhere.1.served id s hs
    dsimp only
    rw [modify_insert]
    refine hhere.insert (Served.offered (s := s) (p := .setChunkCacheCenter s.chunk) rfl hserved.loaded
      (fun hwhole _ => ?_) fun _ hno => hno.elim)
    obtain ⟨-, hradius, hcopies⟩ := hserved.follows hwhole
    exact ⟨rfl, hradius, hcopies⟩
  · rintro g ⟨-, hs⟩ hnone
    cases hs.symm.trans hnone

theorem spec_streamFor : Spec (Here host G rest owed changes) (streamFor host id) fun _ => Here host G rest owed changes := by
  refine Triple.get fun g hg => ?_
  split
  · exact Triple.pure _ fun t ht => ht ▸ hg
  next s hs =>
  refine (Triple.start ⟨hg, hs⟩ spec_tellCenter).bind fun _ => Triple.get fun t ht => Triple.start ht ?_
  exact Triple.forM (I := fun _ => Here host G rest owed changes) (fun _ _ => spec_sendChunk) _

theorem spec_streamAll : Spec (Here host G rest owed changes) (streamAll host) fun _ => Here host G rest owed changes :=
  Triple.get fun _ hg => Triple.start hg
    (Triple.forM (I := fun _ => Here host G rest owed changes) (fun _ _ => spec_streamFor) _)

/-! ## Telling those who hold a chunk -/

theorem counted_chunksSent (l : List (Nat × Session)) (report : TickReport) :
    (l.foldl (fun report e => report.counted e.1 e.2.takes) report).chunksSent = report.chunksSent := by
  induction l generalizing report with
  | nil => rfl
  | cons e l ih => exact ih _

theorem spec_broadcastChunk {P Q : Game → Prop}
    (h : ∀ g report, P g → report.chunksSent = g.report.chunksSent → Q { g with
      sessions := g.sessions.mapValues fun s => if s.holds pos then s.offered p else s, report := report }) :
    Spec P (broadcastChunk pos p) fun _ => Q := by
  refine Triple.get fun g hg => ?_
  refine (Triple.modify (Q := fun _ => Q) fun t ht => ?_).bind fun _ => Triple.pure _ fun _ ht => ht
  subst ht
  exact h t _ hg (counted_chunksSent _ _)

/-- A packet offered to the players who hold a chunk, when it serves each of them. -/
theorem Kept.told {rest' : List BlockChange} {owed' : Finset ChunkPos} (h : Kept host.table G rest owed game)
    (hlogged : Logged G rest' game.world)
    (hserved : ∀ s, Served G rest game.world (game.pendingLight ∪ owed) s →
      Served G rest' game.world (game.pendingLight ∪ owed') (if s.holds pos then s.offered p else s)) :
    Kept host.table G rest' owed' { game with
      sessions := game.sessions.mapValues fun s => if s.holds pos then s.offered p else s, report := report } := by
  refine ⟨hlogged, h.bright, fun id s hs => ?_⟩
  obtain ⟨before, hbefore, rfl⟩ := Option.map_eq_some_iff.mp ((OrdMap.get?_mapValues _ _ _).symm.trans hs)
  exact hserved before (h.served id before hbefore)

theorem Logged.tail {c : BlockChange} (h : Logged G (c :: rest) w) : Logged G rest w := by
  refine ⟨h.finite, h.placed, fun c' hc' => h.logged c' (.tail _ hc'), fun x y z chunk hchunk hG => ?_⟩
  have hcurrent := h.current x y z chunk hchunk hG
  rw [settled_cons] at hcurrent
  split at hcurrent
  · rw [← hcurrent, settled_settled]
  · exact hcurrent

theorem Served.change {c : BlockChange} (h : Served G (c :: rest) w pending s) (hpos : c.pos = chunkOf c.x c.z)
    (hpending : pending ∪ (chunksABlockCanLight c.pos c.x c.z).toFinset ⊆ pending') :
    Served G rest w pending'
      (if s.holds c.pos then s.offered (.blockUpdate c.x c.y c.z c.newId) else s) := by
  split
  · exact Served.offered (s := s) rfl h.loaded
      (fun hwhole _ => ((h.follows hwhole).change hpending).same rfl rfl rfl) fun _ hno => hno.elim
  · next hheld =>
    exact ⟨h.loaded, fun hwhole => (h.follows hwhole).unchanged hpos (by simpa [Session.holds] using hheld) hpending⟩

theorem spec_broadcastBlockChange (c : BlockChange) :
    Spec (Here host G (c :: rest) ∅ changes) (broadcastBlockChange host c) fun _ => Here host G rest ∅ changes := by
  refine (spec_lift _).bind fun _ => ?_
  refine (spec_broadcastChunk (Q := Here host G rest (chunksABlockCanLight c.pos c.x c.z).toFinset changes)
    fun g report hg _ => ?_).bind fun _ => Triple.modify fun g hg => ?_
  · refine ⟨hg.1.told hg.1.logged.tail fun s hs => ?_, hg.2⟩
    exact hs.change (hg.1.logged.logged c (.head _)).1 (by rw [Finset.union_empty])
  · refine ⟨⟨hg.1.logged, hg.1.bright, fun id s hs => ?_⟩, hg.2⟩
    rw [Finset.union_empty]
    exact hg.1.served id s hs

theorem steady_taken : Steady G w { w with changes := [] } :=
  ⟨rfl, fun _ _ hl => hl, fun _ _ _ chunk hchunk => ⟨chunk, hchunk, rfl, rfl⟩, fun _ _ _ _ _ _ _ _ _ => rfl⟩

theorem spec_broadcastBlockChanges :
    Spec (Here host G changes ∅ changes) (broadcastBlockChanges host) fun _ => Here host G [] ∅ [] := by
  refine Triple.get fun g hg => ?_
  refine (Triple.modify (Q := fun _ => Here host G changes ∅ []) fun t ht => ?_).bind fun _ => ?_
  · subst ht
    exact ⟨⟨⟨hg.1.logged.finite, hg.1.logged.placed, hg.1.logged.logged, hg.1.logged.current⟩, hg.1.bright.steady steady_taken,
      fun id s hs => ⟨(hg.1.served id s hs).loaded, fun hwhole =>
        ⟨((hg.1.served id s hs).follows hwhole).center, ((hg.1.served id s hs).follows hwhole).radius,
          fun pos hpos chunk hchunk => by
            obtain ⟨copy, hcopy, hblocks, hlit⟩ := ((hg.1.served id s hs).follows hwhole).copies pos hpos chunk hchunk
            exact ⟨copy, hcopy, hblocks, hlit⟩⟩⟩⟩, rfl⟩
  · rw [hg.2]
    exact Triple.forM (I := fun rest => Here host G rest ∅ []) (fun c rest => spec_broadcastBlockChange c) changes

/-- The light of a chunk nobody holds need not be told. -/
theorem Here.paid (h : Here host G rest {pos} changes game)
    (hnone : ∀ id s, game.sessions.get? id = some s → pos ∉ s.sentChunks) : Here host G rest ∅ changes game := by
  refine ⟨⟨h.1.logged, h.1.bright, fun id s hs => (h.1.served id s hs).mono fun q hq hmem => ?_⟩, h.2⟩
  obtain hmem | hmem := Finset.mem_union.mp hmem
  · exact Finset.mem_union_left _ hmem
  · rw [Finset.mem_singleton.mp hmem] at hq
    exact absurd hq (hnone id s hs)

theorem holders_isEmpty (h : (game.holders pos).isEmpty = true) (id : Nat) (s : Session)
    (hs : game.sessions.get? id = some s) : pos ∉ s.sentChunks := by
  intro hpos
  have hmem : (id, s) ∈ game.holders pos :=
    List.mem_filter.mpr ⟨OrdMap.mem_entries.mpr hs, by simpa [Session.holds] using hpos⟩
  rw [List.isEmpty_iff.mp h] at hmem
  cases hmem

theorem Served.light {light : ChunkLight} (h : Served G rest w (pending ∪ {pos}) s) (hlight : w.light pos = some light) :
    Served G rest w (pending ∪ ∅) (if s.holds pos then s.offered (.lightUpdate pos light) else s) := by
  rw [Finset.union_empty]
  rw [Finset.union_comm, ← Finset.insert_eq] at h
  split
  · exact Served.offered (s := s) rfl h.loaded
      (fun hwhole _ => ((h.follows hwhole).light hlight).same rfl rfl rfl) fun _ hno => hno.elim
  · next hheld =>
    refine h.mono fun q hq hmem => Finset.mem_of_mem_insert_of_ne hmem fun heq => hheld ?_
    simpa [Session.holds, ← heq] using hq

theorem spec_tellLight : Spec (fun g => Here host G rest {pos} changes g ∧ (g.world.light pos).isSome) (tellLight host pos)
    fun _ => Here host G rest ∅ changes := by
  refine Triple.get fun g hg => ?_
  obtain ⟨hhere, hlit⟩ := hg
  obtain ⟨light, hlight⟩ := Option.isSome_iff_exists.mp hlit
  rw [show g.world.cachedLight pos = some light from hlight]
  dsimp only
  refine Triple.ite (fun hnone => Triple.pure _ fun t ht => ?_) fun _ => ?_
  · subst ht
    exact hhere.paid (holders_isEmpty hnone)
  · refine (spec_lift _).bind fun _ => ?_
    refine (spec_broadcastChunk (Q := Here host G rest ∅ changes) fun t report ht _ => ?_).bind
      fun _ => Triple.modify fun t ht => ht.counted _
    subst ht
    exact ⟨hhere.1.told hhere.1.logged fun s hs => hs.light hlight, hhere.2⟩

theorem spec_relight : Spec (Here host G rest {pos} changes) (relight host pos) fun _ => Here host G rest ∅ changes := by
  refine Triple.get fun g hg => ?_
  refine Triple.ite (fun _ => ?_) fun hgone => Triple.pure _ fun t ht => ?_
  · exact (Triple.start hg (spec_computeLight fun _ _ ht hw => ht.lights hw)).bind fun _ => spec_tellLight
  · subst ht
    exact hg.paid fun id s hs hpos => hgone ((hg.1.served id s hs).loaded pos hpos)

theorem spec_broadcastLightUpdates (turns : Nat) :
    Spec (Here host G rest ∅ changes) (broadcastLightUpdates host turns) fun _ => Here host G rest ∅ changes := by
  induction turns with
  | zero => exact Triple.pure _ fun _ hg => hg
  | succ turns ih =>
    refine Triple.get fun g hg => ?_
    dsimp only
    split
    · next hpending =>
      refine (Triple.modify (Q := fun _ => Here host G rest {g.pendingLight.min' hpending} changes) fun t ht => ?_).bind
        fun _ => spec_relight.bind fun _ => ih
      subst ht
      refine ⟨⟨hg.1.logged, hg.1.bright, fun id s hs => (hg.1.served id s hs).mono fun q _ hmem => ?_⟩, hg.2⟩
      rw [Finset.union_empty] at hmem
      simp only [Finset.mem_union, Finset.mem_erase, Finset.mem_singleton]
      by_cases hq : q = t.pendingLight.min' hpending
      · exact .inr hq
      · exact .inl ⟨hq, hmem⟩
    · exact Triple.pure _ fun t ht => ht ▸ hg

/-! ## Unloading -/

theorem unloaded_chunks (game : Game) (pos : ChunkPos) :
    (game.unloaded pos).world.chunks = Function.update game.world.chunks pos none := rfl

theorem steady_unload (pos : ChunkPos) : Steady G w (w.unloadChunk pos) :=
  steady_replace pos rfl rfl fun q hq => by
    simp [World.unloadChunk, hq, World.invalidateLight3x3, World.dropLight]

theorem Here.unloaded (h : Here host G [] ∅ changes game) (hpos : game.world.isLoaded pos = true) :
    Here host G [] ∅ changes (game.unloaded pos) := by
  have hchunk {q : ChunkPos} {chunk : Chunk} (hq : (game.unloaded pos).world.chunks q = some chunk) :
      q ≠ pos ∧ game.world.chunks q = some chunk := by
    rw [unloaded_chunks] at hq
    by_cases hqp : q = pos
    · rw [hqp, Function.update_self] at hq
      cases hq
    · exact ⟨hqp, by rwa [Function.update_of_ne hqp] at hq⟩
  refine ⟨⟨⟨finite_update h.1.logged.finite rfl, fun q chunk hq => h.1.logged.placed q chunk (hchunk hq).2, fun c hc => (by cases hc),
    fun _ _ _ _ _ _ => rfl⟩, h.1.bright.steady (steady_unload pos), fun id s hs => ?_⟩, h.2⟩
  obtain ⟨before, hbefore, rfl⟩ := Option.map_eq_some_iff.mp ((OrdMap.get?_mapValues _ _ _).symm.trans hs)
  have hserved := h.1.served id before hbefore
  have hloaded : ∀ q ∈ before.sentChunks.erase pos, (game.unloaded pos).world.isLoaded q := by
    intro q hq
    obtain ⟨hqp, hq⟩ := Finset.mem_erase.mp hq
    rw [World.isLoaded, unloaded_chunks, Function.update_of_ne hqp]
    exact hserved.loaded q hq
  refine ⟨hloaded, fun hwhole => ?_⟩
  obtain ⟨hcenter, hradius, hcopies⟩ := hserved.follows hwhole
  refine ⟨hcenter, hradius, fun q hq chunk hqchunk => ?_⟩
  obtain ⟨copy, hcopy, hblocks, hlit⟩ := hcopies q (Finset.mem_of_mem_erase hq) chunk (hchunk hqchunk).2
  refine ⟨copy, hcopy, hblocks, ?_⟩
  have hpending : (game.unloaded pos).pendingLight =
      game.pendingLight ∪ (lightUpdatesForUnload pos (game.world.unloadChunk pos).isLoaded).toFinset := if_pos hpos
  rw [Finset.union_empty] at hlit ⊢
  rw [hpending]
  rcases hlit with hlit | hlit | ⟨c, hc, -⟩
  · by_cases hnear : q ∈ around pos
    · refine .inr (.inl (Finset.mem_union_right _ (List.mem_toFinset.mpr (List.mem_filter.mpr ⟨hnear, ?_⟩))))
      rw [Bool.and_eq_true, decide_eq_true_eq]
      exact ⟨(Finset.mem_erase.mp hq).1, hloaded q hq⟩
    · exact .inl ((if_neg hnear).trans hlit)
  · exact .inr (.inl (Finset.mem_union_left _ hlit))
  · cases hc

/-- What holds while chunks are unloaded: those that are left are loaded, and nobody holds one that is to
be forgotten. -/
structure Unloading (host : Host) (G : Int → Int → Int → Prop) (changes : List BlockChange) (left : List ChunkPos)
    (state : Game × List (Nat × ChunkPos)) : Prop where
  here : Here host G [] ∅ changes state.1
  loaded : ∀ pos ∈ left, state.1.world.isLoaded pos = true
  apart : left.Nodup
  forgotten : ∀ forget ∈ state.2, ∀ s, state.1.sessions.get? forget.1 = some s → forget.2 ∉ s.sentChunks

theorem Unloading.one {left : List ChunkPos} {state : Game × List (Nat × ChunkPos)}
    (h : Unloading host G changes (pos :: left) state) (centres : List Session) :
    Unloading host G changes left (unloadOne centres state pos) := by
  have hleft : ∀ q ∈ left, state.1.world.isLoaded q = true := fun q hq => h.loaded q (.tail _ hq)
  obtain ⟨hfresh, hapart⟩ := List.nodup_cons.mp h.apart
  unfold unloadOne
  split
  · exact ⟨h.here, hleft, hapart, h.forgotten⟩
  split
  · exact ⟨h.here, hleft, hapart, h.forgotten⟩
  refine ⟨h.here.unloaded (h.loaded pos (.head _)), fun q hq => ?_, hapart, fun forget hforget s hs => ?_⟩
  · have hqp : q ≠ pos := fun heq => hfresh (heq ▸ hq)
    rw [World.isLoaded, unloaded_chunks, Function.update_of_ne hqp]
    exact hleft q hq
  · obtain ⟨before, hbefore, rfl⟩ := Option.map_eq_some_iff.mp ((OrdMap.get?_mapValues _ _ _).symm.trans hs)
    obtain hold | hnew := List.mem_append.mp hforget
    · exact fun hmem => h.forgotten forget hold before hbefore (Finset.mem_of_mem_erase hmem)
    · obtain ⟨e, -, rfl⟩ := List.mem_map.mp hnew
      exact Finset.notMem_erase pos before.sentChunks

theorem Unloading.fold {left : List ChunkPos} {state : Game × List (Nat × ChunkPos)}
    (h : Unloading host G changes left state) (centres : List Session) :
    Unloading host G changes [] (left.foldl (unloadOne centres) state) := by
  induction left generalizing state with
  | nil => exact h
  | cons pos left ih => exact ih (h.one centres)

theorem Served.forget (h : Served G rest w pending s) (hpos : pos ∉ s.sentChunks) :
    Served G rest w pending (s.offered (.forgetLevelChunk pos)) :=
  Served.offered (s := s) rfl h.loaded (fun hwhole _ => ((h.follows hwhole).forget hpos).same rfl rfl rfl)
    fun _ hno => hno.elim

/-- Packets go out and nobody holds more than before. -/
theorem spec_forget (forget : Nat × ChunkPos) (forgets : List (Nat × ChunkPos)) :
    Spec (fun g => Unloading host G changes [] (g, forget :: forgets))
      (do let _ ← send host forget.1 (.forgetLevelChunk forget.2)) fun _ g => Unloading host G changes [] (g, forgets) := by
  refine (spec_send (Q := fun _ g => Unloading host G changes [] (g, forgets)) ?_ ?_).bind
    fun _ => Triple.pure _ fun _ hg => hg
  · intro g s hg hs
    have hheld := hg.forgotten forget (.head _) s hs
    refine ⟨hg.here.insert ((hg.here.1.served _ s hs).forget hheld), fun q hq => (by cases hq), .nil,
      fun f hf t ht => ?_⟩
    dsimp only at ht
    rw [OrdMap.get?_insert] at ht
    split at ht
    · next heq =>
      cases ht
      exact hg.forgotten f (.tail _ hf) s (heq ▸ hs)
    · exact hg.forgotten f (.tail _ hf) t ht
  · exact fun g hg _ => ⟨hg.here, fun q hq => (by cases hq), .nil, fun f hf => hg.forgotten f (.tail _ hf)⟩

theorem spec_unloadDistantChunks (order : List ChunkPos) :
    Spec (Here host G [] ∅ changes) (unloadDistantChunks host order) fun _ => Here host G [] ∅ changes := by
  refine Triple.get fun g hg => ?_
  dsimp only
  refine Triple.ite (fun _ => Triple.pure _ fun t ht => ht ▸ hg) fun _ => ?_
  have hstart : Unloading host G changes (g.chunkPositions order) (g, []) :=
    ⟨hg, fun q hq => (List.mem_filter.mp hq).2, (List.nodup_dedup order).filter _, fun f hf => (by cases hf)⟩
  have hend := hstart.fold (g.sessions.entries.map Prod.snd)
  refine (Triple.modify (Q := fun _ t => Unloading host G changes []
    (t, ((g.chunkPositions order).foldl (unloadOne (g.sessions.entries.map Prod.snd)) (g, [])).2))
      fun t ht => ?_).bind fun _ => ?_
  · exact hend
  · exact (Triple.forM (I := fun l t => Unloading host G changes [] (t, l)) spec_forget _).conseq (fun _ ht => ht)
      (fun _ _ ht => ht.here) fun _ _ ht => ht

theorem spec_phaseBroadcast (order : List ChunkPos) :
    Spec (Here host G changes ∅ changes) (phaseBroadcast host order) fun _ => Here host G [] ∅ [] :=
  spec_broadcastBlockChanges.bind fun _ => (spec_broadcastLightUpdates _).bind fun _ =>
    spec_streamAll.bind fun _ => spec_unloadDistantChunks order

/-! ## The rest of a tick -/

theorem spec_join (chunk : ChunkPos) (outbound : Nat → Bool) :
    Spec (Here host G rest owed changes) (join host id chunk outbound) fun _ => Here host G rest owed changes := by
  refine Triple.get fun g hg => ?_
  let fresh : Session := ⟨chunk, chunk, g.viewDistance, ∅, outbound, []⟩
  let centred := fresh.offered (.setChunkCacheCenter chunk)
  have hjoined : Served G rest g.world (g.pendingLight ∪ owed)
      (centred.offered (.setChunkCacheRadius g.viewDistance)) := by
    refine Served.offered (s := centred) rfl (fun _ hq => (by cases hq)) (fun hwhole _ => ?_) fun _ hno => hno.elim
    obtain ⟨-, htakes | hno⟩ := (whole_offered fresh (.setChunkCacheCenter chunk)).mp hwhole
    · refine ⟨?_, rfl, fun _ hq => (by cases hq)⟩
      rw [client_offered, if_pos htakes]
      rfl
    · exact hno.elim
  refine (Triple.modify (Q := fun _ t => ∃ report, t = { g with
    sessions := g.sessions.insert id fresh, report := report }) fun t ht => ⟨t.report, by rw [ht]⟩).bind fun _ => ?_
  refine (spec_send (Q := fun _ t => ∃ report, t = { g with
    sessions := g.sessions.insert id centred, report := report }) ?_ ?_).bind fun _ => ?_
  · rintro _ s ⟨report, rfl⟩ hs
    rw [OrdMap.get?_insert, if_pos rfl, Option.some.injEq] at hs
    subst hs
    dsimp only
    rw [OrdMap.insert_insert]
    exact ⟨_, rfl⟩
  · rintro _ ⟨report, rfl⟩ hnone
    rw [OrdMap.get?_insert, if_pos rfl] at hnone
    cases hnone
  refine (spec_send (Q := fun _ => Here host G rest owed changes) ?_ ?_).bind fun _ => Triple.pure _ fun _ ht => ht
  · rintro _ s ⟨report, rfl⟩ hs
    rw [OrdMap.get?_insert, if_pos rfl, Option.some.injEq] at hs
    subst hs
    dsimp only
    rw [OrdMap.insert_insert]
    exact hg.insert hjoined
  · rintro _ ⟨report, rfl⟩ hnone
    rw [OrdMap.get?_insert, if_pos rfl] at hnone
    cases hnone

theorem spec_changeViewDistance (radius : Int) :
    Spec (fun g => Here host G rest owed changes g ∧ g.sessions.get? id = some s) (changeViewDistance host id s radius)
      fun _ => Here host G rest owed changes := by
  refine Triple.ite (fun _ => Triple.pure _ fun _ hg => hg.1) fun _ => ?_
  refine (Triple.modify (Q := fun _ t => ∃ g, (Here host G rest owed changes g ∧ g.sessions.get? id = some s) ∧
    t = { g with sessions := g.sessions.insert id { s with viewDistance := radius } })
      fun g hg => ⟨g, hg, rfl⟩).bind fun _ => ?_
  refine (spec_send (Q := fun _ => Here host G rest owed changes) ?_ ?_).bind fun _ => Triple.pure _ fun _ ht => ht
  · rintro _ t ⟨g, ⟨hhere, hs⟩, rfl⟩ ht
    rw [OrdMap.get?_insert, if_pos rfl, Option.some.injEq] at ht
    subst ht
    dsimp only
    rw [OrdMap.insert_insert]
    have hserved := hhere.1.served id s hs
    refine hhere.insert (Served.offered (s := s) (p := .setChunkCacheRadius radius) rfl hserved.loaded
      (fun hwhole _ => ?_) fun _ hno => hno.elim)
    obtain ⟨hcenter, -, hcopies⟩ := hserved.follows hwhole
    exact ⟨hcenter, rfl, hcopies⟩
  · rintro _ ⟨g, -, rfl⟩ hnone
    rw [OrdMap.get?_insert, if_pos rfl] at hnone
    cases hnone

theorem spec_applyViewDistance (distance : Int) :
    Spec (Here host G rest owed changes) (applyViewDistance host id distance) fun _ => Here host G rest owed changes := by
  refine Triple.get fun g hg => ?_
  refine Triple.ite (fun _ => Triple.throw _ fun _ _ => trivial) fun _ => ?_
  split
  · exact Triple.pure _ fun t ht => ht ▸ hg
  · next s hs => exact Triple.start ⟨hg, hs⟩ (spec_changeViewDistance _)

theorem spec_enforceOverflow : Spec (Here host G rest owed changes) enforceOverflow fun _ => Here host G rest owed changes := by
  refine Triple.get fun g hg => ?_
  refine (Triple.modify (Q := fun _ => Here host G rest owed changes) fun t ht => ?_).bind fun _ => ?_
  · subst ht
    exact hg.counted _
  · refine Triple.forM (I := fun _ => Here host G rest owed changes) (fun id _ => ?_) _
    have hdrop : Spec (Here host G rest owed changes) (dropSession id) fun _ => Here host G rest owed changes :=
      Triple.get fun t ht => (Triple.modify (Q := fun _ => Here host G rest owed changes) fun u hu => hu ▸ ht.erase id).bind
        fun _ => Triple.pure _ fun _ hu => hu
    exact hdrop.bind fun _ => Triple.modify fun t ht => ht.counted _

/-- A session that is changed where nothing is followed. -/
theorem Here.modify (h : Here host G rest owed changes game) (id : Nat) (f : Session → Session)
    (hf : ∀ s, Served G rest game.world (game.pendingLight ∪ owed) s →
      Served G rest game.world (game.pendingLight ∪ owed) (f s)) :
    Here host G rest owed changes { game with sessions := game.sessions.modify id f } := by
  refine ⟨⟨h.1.logged, h.1.bright, fun k s hs => ?_⟩, h.2⟩
  dsimp only at hs
  rw [OrdMap.get?_modify] at hs
  split at hs
  · obtain ⟨before, hbefore, rfl⟩ := Option.map_eq_some_iff.mp hs
    exact hf before (h.1.served k before hbefore)
  · exact h.1.served k s hs

theorem spec_sendAgain (chunk : ChunkPos) :
    Spec (Here host G rest owed changes) (sendAgain id chunk) fun _ => Here host G rest owed changes :=
  Triple.modify fun g hg => hg.modify id _ fun s hs => ⟨fun _ hq => (by cases hq), fun hwhole =>
    ⟨(hs.follows hwhole).center, (hs.follows hwhole).radius, fun _ hq => (by cases hq)⟩⟩

/-- The cells a tree changes are in `G`. -/
def Within (G : Int → Int → Int → Prop) (state : Option Game) : Event → Prop
  | .growOakTree x y z draw => ∀ game, state = some game → ∀ a b c,
    (growOakTree game.world x y z draw).2.1.getBlockLoaded a b c ≠ game.world.getBlockLoaded a b c → G a b c
  | _ => True

theorem apply_good {event : Event} (hevent : Within G (some game) event) :
    Spec (fun g => g = game ∧ Good host.table G g) (apply host event) fun _ => Good host.table G := by
  have hhere {x : Tick Unit}
      (hx : ∀ changes, Spec (Here host G changes ∅ changes) x fun _ => Here host G changes ∅ changes) :
      Spec (fun g => g = game ∧ Good host.table G g) x fun _ => Good host.table G := by
    rintro g ⟨rfl, hg⟩
    obtain ⟨changes, hg⟩ := good_iff.mp hg
    exact ((hx changes).conseq (fun _ ht => ht) (fun _ _ ht => good_iff.mpr ⟨changes, ht⟩) fun _ _ ht => ht) g hg
  have hworld {f : World → World} (hf : Good host.table G game → Good host.table G (game.withWorld (f game.world))) :
      Spec (fun g => g = game ∧ Good host.table G g) (modify fun g => g.withWorld (f g.world)) fun _ => Good host.table G :=
    Triple.modify fun g hg => by
      obtain ⟨rfl, hgood⟩ := hg
      exact hf hgood
  cases event with
  | begin => exact hhere fun changes => Triple.modify fun g hg => hg.counted _
  | join id chunk outbound => exact hhere fun changes => spec_join chunk outbound
  | viewDistance id distance => exact hhere fun changes => spec_applyViewDistance distance
  | enforce => exact hhere fun changes => spec_enforceOverflow
  | leave id => exact hhere fun changes => Triple.modify fun g hg => hg.erase id
  | moved id chunk =>
    exact hhere fun changes => Triple.modify fun g hg => hg.modify id _ fun s hs =>
      ⟨hs.loaded, fun hwhole => (hs.follows hwhole).same rfl rfl rfl⟩
  | fell id chunk => exact hhere fun changes => spec_sendAgain chunk
  | respawned id chunk => exact hhere fun changes => (spec_sendAgain chunk).bind fun _ => spec_streamFor
  | setBlock x y z id => exact hworld (f := fun w => (w.setBlock x y z id).2) fun hg => hg.setBlock x y z id
  | growOakTree x y z draw =>
    exact hworld (f := fun w => (growOakTree w x y z draw).2.1) fun hg => hg.growOakTree (hevent game rfl)
  | loadChunk pos =>
    exact hhere fun changes => spec_loadOrCreate.conseq (fun _ hg => hg) (fun _ _ hg => hg.1) fun _ _ hg => hg
  | markClean pos =>
    exact hworld (f := fun w => L2.Terrain.Game.markChunkClean w pos) fun hg =>
      hg.passes (passes_markClean hg.logged.placed pos) (steady_markClean pos) rfl rfl
  | markDirty pos =>
    exact hworld (f := fun w => L3.Streaming.markDirty w pos) fun hg =>
      hg.passes (passes_markDirty hg.logged.placed pos) (steady_markDirty pos) rfl rfl
  | broadcast order =>
    rintro g ⟨rfl, hg⟩
    refine ((spec_phaseBroadcast order).conseq (fun _ ht => ht) (fun _ _ ht => ?_) fun _ _ ht => ht) g ⟨hg, rfl⟩
    exact good_iff.mpr ⟨[], ht⟩

/-- The server, while it runs. -/
def Runs (R : Game → Prop) (state : Option Game) : Prop := ∀ game, state = some game → R game

theorem step_good {state : Option Game} {event : Event} (hstate : Runs (Good host.table G) state)
    (hevent : Within G state event) :
    Runs (Good host.table G) (step host state event) := by
  intro game' hstep
  obtain ⟨game, rfl, hran⟩ := Option.bind_eq_some_iff.mp hstep
  have hspec : Spec _ (apply host event) fun _ => Good host.table G := apply_good hevent
  obtain ⟨hok, -⟩ := hspec game ⟨rfl, hstate game rfl⟩
  rcases hrun : outcome (apply host event) game with ⟨e | _, after⟩
  · rw [show apply host event game = _ from hrun] at hran
    cases hran
  · rw [show apply host event game = _ from hrun] at hran
    cases hran
    exact hok _ _ hrun

theorem start_good (registry : BlockRegistry) (minSectionY : Int) (sectionCount : Nat) (viewDistance : Int) :
    Good host.table G (start registry minSectionY sectionCount viewDistance) :=
  ⟨⟨Set.finite_empty.subset fun _ h => (by cases h), fun _ _ h => (by cases h), fun _ h => (by cases h), fun _ _ _ _ _ _ => rfl⟩, fun _ _ _ h => (by cases h),
    fun _ _ h => (by cases h)⟩

theorem Served.copy (h : Served G rest w pending s) (hwhole : s.Whole) (hpos : pos ∈ s.sentChunks) :
    ∃ chunk copy, w.chunks pos = some chunk ∧ s.client.chunks pos = some copy ∧
      Shows G rest w pending pos chunk copy := by
  obtain ⟨chunk, hchunk⟩ := isLoaded_iff.mp (h.loaded pos hpos)
  obtain ⟨copy, hcopy, hshows⟩ := (h.follows hwhole).copies pos hpos chunk hchunk
  exact ⟨chunk, copy, hchunk, hcopy, hshows⟩

/-- Whatever happens, the server keeps its players served. -/
theorem run_good {registry : BlockRegistry} {minSectionY viewDistance : Int} {sectionCount : Nat} {events : List Event}
    (hG : Along (step host) (Within G) (some (start registry minSectionY sectionCount viewDistance)) events) :
    Runs (Good host.table G) (run (step host) (some (start registry minSectionY sectionCount viewDistance)) events) := by
  refine run_inv_along (fun _ _ hstate hevent => step_good hstate hevent) (fun game heq => ?_) hG
  cases heq
  exact start_good ..

/-- Where no tree grows. -/
theorem along_within {events : List Event} (h : ∀ x y z draw, .growOakTree x y z draw ∉ events) (state : Option Game) :
    Along (step host) (Within G) state events := by
  induction events generalizing state with
  | nil => trivial
  | cons event events ih =>
    refine ⟨?_, ih (fun x y z draw hmem => h x y z draw (.tail _ hmem)) _⟩
    cases event with
    | growOakTree x y z draw => exact absurd (.head _) (h x y z draw)
    | _ => trivial

/-! ## Runs -/

variable (host) (G) (registry : BlockRegistry) (minSectionY viewDistance : Int) (sectionCount : Nat)
  (events : List Event)

/-- In every run, a player whose queue took what is not sent again shows the centre and the radius the server
has for it, and every chunk it was sent as the chunk is, but for what still waits to be told and for cells in
which a tree grew. -/
theorem run_shown (hG : Along (step host) (Within G) (some (start registry minSectionY sectionCount viewDistance)) events)
    {game : Game} (hrun : run (step host) (some (start registry minSectionY sectionCount viewDistance)) events = some game)
    {id : Nat} {s : Session} (hs : game.sessions.get? id = some s) (hwhole : s.Whole) :
    s.client.center = some s.center ∧ s.client.radius = some s.viewDistance ∧ ∀ pos ∈ s.sentChunks,
      ∃ chunk copy, game.world.chunks pos = some chunk ∧ s.client.chunks pos = some copy ∧
        Shows G game.world.changes game.world game.pendingLight pos chunk copy := by
  have hserved := (run_good hG game hrun).served id s hs
  rw [Finset.union_empty] at hserved
  exact ⟨(hserved.follows hwhole).center, (hserved.follows hwhole).radius, fun pos hpos => hserved.copy hwhole hpos⟩

theorem nothing_read (pos : ChunkPos) (chunk : Chunk)
    (h : (.ok none : ServerResult (Option Chunk)) = .ok (some chunk)) : chunk.pos = pos := by cases h

theorem nothing_made (pos : ChunkPos) (chunk : Chunk) (h : none = some chunk) : chunk.pos = pos := by cases h

/-- Nothing is stored and nothing is generated: every chunk is of air. -/
def flat : Host where
  source := ⟨fun _ => .ok none, fun _ => none, true, nothing_read, nothing_made⟩
  table := ⟨[], [], []⟩
  encode _ := .ok ()

def airOnly : BlockRegistry := ⟨fun _ => none, [], 0, [0]⟩

/-- A player who is sent one chunk. -/
def joining : List Event := [.join 7 ⟨0, 0⟩ fun _ => true, .begin, .enforce, .broadcast []]

/-- A block of it is written, and not told yet. -/
def writing : List Event := joining ++ [.setBlock 1 1 1 1]

theorem joining_run (events : List Event) (changes : List BlockChange)
    (h : (run (step flat) (some (start airOnly 0 1 0)) events).any (fun game =>
      (game.sessions.get? 7).any fun s => s.sends.all (·.2) && decide ((⟨0, 0⟩ : ChunkPos) ∈ s.sentChunks ∧
        game.pendingLight = ∅ ∧ game.world.registry.airId = 0 ∧ game.world.changes = changes)) = true) :
    ∃ game s, run (step flat) (some (start airOnly 0 1 0)) events = some game ∧
      game.sessions.get? 7 = some s ∧ s.Whole ∧ (⟨0, 0⟩ : ChunkPos) ∈ s.sentChunks ∧ game.pendingLight = ∅ ∧
      game.world.registry.airId = 0 ∧ game.world.changes = changes := by
  obtain ⟨game, hgame, hrun⟩ := (Option.any_eq_true ..).mp h
  obtain ⟨s, hs, hrun⟩ := (Option.any_eq_true ..).mp hrun
  obtain ⟨hsends, hrest⟩ := Bool.and_eq_true_iff.mp hrun
  exact ⟨game, s, hgame, hs, fun e he => .inl (List.all_eq_true.mp hsends e he), of_decide_eq_true hrest⟩

theorem run_shown_joining : ∃ game s chunk copy,
    run (step flat) (some (start airOnly 0 1 0)) writing = some game ∧
    game.sessions.get? 7 = some s ∧ game.world.chunks ⟨0, 0⟩ = some chunk ∧ s.client.chunks ⟨0, 0⟩ = some copy ∧
    Shows (fun _ _ _ => False) [⟨⟨0, 0⟩, 1, 1, 1, 0, 1⟩] game.world game.pendingLight ⟨0, 0⟩ chunk copy := by
  obtain ⟨game, s, hrun, hs, hwhole, hpos, -, -, hchanges⟩ := joining_run writing
    [⟨⟨0, 0⟩, 1, 1, 1, 0, 1⟩] (by decide +kernel)
  obtain ⟨-, -, hcopies⟩ := run_shown (fun _ _ _ => False) flat airOnly 0 0 1 writing
    (along_within (by simp [writing, joining]) _) hrun hs hwhole
  obtain ⟨chunk, copy, hchunk, hcopy, hshows⟩ := hcopies ⟨0, 0⟩ hpos
  rw [hchanges] at hshows
  exact ⟨game, s, chunk, copy, hrun, hs, hchunk, hcopy, hshows⟩

end Apoptosis.L3.Streaming
