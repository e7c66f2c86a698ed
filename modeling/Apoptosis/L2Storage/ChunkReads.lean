import Apoptosis.Core.Framing
import Apoptosis.L2Storage.ChunkStore
/-!
# Chunk storage reads its own writes

* `use_spec`: what a use of one region does to what every chunk reads as.
* `flush_tells`: a flush changes what no chunk reads as.
* `run_reads_writes`: over any run in which no removal fails after it gave up the
  pending payload, reads give what was last saved.
* `failed_removal_loses_save`: a removal that fails has lost the payload.
-/
namespace Apoptosis.L2.Storage
open Apoptosis.Core

/-! ## Keys -/

theorem Dimension.key_inj {d d' : Dimension} (hd : d.Parsed) (hd' : d'.Parsed)
    (h : d.key = d'.key) : d = d' := by
  cases d <;> cases d' <;> simp_all [Dimension.Parsed, Dimension.key]

def RegionKey.Parsed (k : RegionKey) : Prop := (ofLex k).1.Parsed

theorem regionPath_inj {k k' : RegionKey} (hk : RegionKey.Parsed k) (hk' : RegionKey.Parsed k')
    (h : regionPath k = regionPath k') : k = k' := by
  obtain ⟨hdim, hregion⟩ := Prod.mk.inj h
  exact ofLex_inj.mp (Prod.ext (Dimension.key_inj hk hk' hdim) hregion)

theorem ChunkPos.eq_of_slot {p p' : ChunkPos} (h : p.region = p'.region) (hslot : p.slot = p'.slot) :
    p = p' := by
  obtain ⟨x, z⟩ := p
  obtain ⟨x', z'⟩ := p'
  obtain ⟨hx, hz⟩ := Prod.mk.inj (toLex_inj.mp h)
  dsimp only [ChunkPos.slot] at hx hz hslot
  simp only [ChunkPos.mk.injEq]
  omega

/-- Two chunks of one region have slots of their own. -/
theorem slot_ne {c c' : ChunkKey} (hne : c ≠ c') (h : c.regionKey = c'.regionKey) :
    (ofLex c).2.slot ≠ (ofLex c').2.slot := by
  intro hslot
  apply hne
  obtain ⟨hdim, hregion⟩ := Prod.mk.inj (toLex_inj.mp h)
  exact ofLex_inj.mp (Prod.ext hdim (ChunkPos.eq_of_slot hregion hslot))

namespace ChunkStore
variable {H F C β L T : Type} (ops : RegionOps H F β) (codec : ChunkCodec C β)
  (writeLevel : L → ServerResult Unit)

/-! ## What a chunk reads as -/

/-- By the file and by the handle, if it is open, the chunk's payload is one of these. -/
structure Within (s : ChunkStore H F β L) (c : ChunkKey) (payloads : Set (Option β)) : Prop where
  file : ops.stored (s.files (regionPath c.regionKey)) (ofLex c).2.slot ∈ payloads
  handle : ∀ h, s.world.cache.regions.get? c.regionKey = some h →
    ops.view h (ofLex c).2.slot ∈ payloads

/-- Handles and dirty chunks are of parsed dimensions, and a handle's file is the one on disk. -/
structure Sound (s : ChunkStore H F β L) : Prop where
  parsed : ∀ k h, s.world.cache.regions.get? k = some h → RegionKey.Parsed k
  backed : ∀ k h, s.world.cache.regions.get? k = some h →
    ops.stored (ops.file h) = ops.stored (s.files (regionPath k))
  dirty : ∀ c ∈ s.world.dirty.chunks, RegionKey.Parsed c.regionKey

variable {ops codec writeLevel} {s : ChunkStore H F β L} {key : RegionKey}

/-- Only the cache and the files matter, and fewer open handles do not hurt. -/
theorem Within.of_sub {s' : ChunkStore H F β L} {c : ChunkKey} {A : Set (Option β)}
    (h : s.Within ops c A) (hfiles : ops.stored (s'.files (regionPath c.regionKey)) =
      ops.stored (s.files (regionPath c.regionKey)))
    (hcache : ∀ hd, s'.world.cache.regions.get? c.regionKey = some hd →
      s.world.cache.regions.get? c.regionKey = some hd) : s'.Within ops c A :=
  ⟨by rw [hfiles]; exact h.file, fun hd hget => h.handle hd (hcache hd hget)⟩

theorem stored_opened (hops : ops.Lawful) (s : ChunkStore H F β L) (key : RegionKey) (path : FileKey) :
    ops.stored (s.opened ops key path) = ops.stored (s.files path) := by
  unfold opened
  split
  · rfl
  · rw [Function.update_apply]
    split
    next heq => rw [hops.open_file, heq]
    · rfl

/-- What a use of one region comes to. -/
inductive Uses (ops : RegionOps H F β) (s : ChunkStore H F β L) (key : RegionKey)
    (f : H → ServerResult T × H) (r : ServerResult T × ChunkStore H F β L) : Prop
  | unreached (e : ServerError) (htaken : (s.taken ops key).1 = .error e) (hresult : r.1 = .error e)
      (hkeeps : ∀ c A, s.Within ops c A → r.2.Within ops c A)
  | reached (h : H) (htaken : (s.taken ops key).1 = .ok h) (hresult : r.1 = (f h).1)
      (hbefore : ∀ c A, c.regionKey = key → s.Within ops c A →
        ops.view h (ofLex c).2.slot ∈ A ∧ ops.stored (ops.file h) (ofLex c).2.slot ∈ A)
      (hafter : ∀ c A, c.regionKey = key → ops.view (f h).2 (ofLex c).2.slot ∈ A →
        ops.stored (ops.file (f h).2) (ofLex c).2.slot ∈ A → r.2.Within ops c A)
      (hothers : ∀ c A, RegionKey.Parsed c.regionKey → c.regionKey ≠ key → s.Within ops c A →
        r.2.Within ops c A)

theorem use_spec (hops : ops.Lawful) (hs : s.Sound ops) (hkey : RegionKey.Parsed key)
    (f : H → ServerResult T × H) : Uses ops s key f (s.withRegion ops key f) ∧
      (s.withRegion ops key f).2.Sound ops ∧
      (s.withRegion ops key f).2.world.pending = s.world.pending ∧
      (s.withRegion ops key f).2.world.dirty = s.world.dirty := by
  obtain ⟨hsub, htaken⟩ := RegionCache.take_spec s.world.cache key
    (ops.openFile (s.files (regionPath key))).1
  change ∀ k handle, (s.taken ops key).2.regions.get? k = some handle → _ at hsub
  change ∀ handle, (s.taken ops key).1 = .ok handle → _ ∧ (s.taken ops key).2.regions.get? key = none
    at htaken
  unfold withRegion
  rcases htake : s.taken ops key with ⟨e | h, cache⟩
  · rw [htake] at hsub
    dsimp only
    refine ⟨.unreached e (by rw [htake]) rfl fun c A hc => ?_, ⟨fun k hd hget => ?_,
      fun k hd hget => ?_, hs.dirty⟩, rfl, rfl⟩
    · exact hc.of_sub (stored_opened hops s key _) (hsub _)
    · exact hs.parsed k hd (hsub k hd hget)
    · rw [hs.backed k hd (hsub k hd hget)]
      exact (stored_opened hops s key _).symm
  · rw [htake] at hsub htaken
    obtain ⟨hgot, hnone⟩ := htaken h rfl
    dsimp only
    -- a handle in the cache afterwards is the one the closure left, or was there before
    have hcases : ∀ k hd, (RegionCache.evictRegions { cache with
        regions := cache.regions.insert key (f h).2 }).regions.get? k = some hd →
        (k = key ∧ hd = (f h).2) ∨ (k ≠ key ∧ s.world.cache.regions.get? k = some hd) := by
      intro k hd hget
      have hget' := RegionCache.evictRegions_sub hget
      rw [OrdMap.get?_insert] at hget'
      split at hget'
      · cases hget'
        exact .inl ⟨Eq.symm ‹_›, rfl⟩
      next hne => exact .inr ⟨Ne.symm hne, hsub k hd hget'⟩
    have hfile : ops.stored (ops.file h) = ops.stored (s.files (regionPath key)) := by
      obtain hin | ⟨-, hopen⟩ := hgot
      · exact hs.backed key h hin
      · exact (hops.open_ok _ h _ (Prod.ext hopen rfl)).2
    refine ⟨.reached h (by rw [htake]) rfl ?_ ?_ ?_, ⟨?_, ?_, hs.dirty⟩, rfl, rfl⟩
    · intro c A hc hA
      subst hc
      refine ⟨?_, by rw [hfile]; exact hA.file⟩
      obtain hin | ⟨-, hopen⟩ := hgot
      · exact hA.handle h hin
      · rw [(hops.open_ok _ h _ (Prod.ext hopen rfl)).1]
        exact hA.file
    · intro c A hc hview hstored
      subst hc
      refine ⟨?_, fun hd hget => ?_⟩
      · dsimp only
        rw [Function.update_self]
        exact hstored
      · obtain ⟨-, rfl⟩ | ⟨hne, -⟩ := hcases _ hd hget
        · exact hview
        · exact absurd rfl hne
    · intro c A hparsed hne hA
      have hpath : regionPath c.regionKey ≠ regionPath key := fun heq =>
        hne (regionPath_inj hparsed hkey heq)
      refine hA.of_sub ?_ fun hd hget => ?_
      · dsimp only
        rw [Function.update_of_ne hpath, stored_opened hops]
      · obtain ⟨heq, -⟩ | ⟨-, hget⟩ := hcases _ hd hget
        · exact absurd heq hne
        · exact hget
    · intro k hd hget
      obtain ⟨rfl, -⟩ | ⟨-, hget⟩ := hcases k hd hget
      · exact hkey
      · exact hs.parsed k hd hget
    · intro k hd hget
      dsimp only
      obtain ⟨rfl, rfl⟩ | ⟨hne, hget⟩ := hcases k hd hget
      · rw [Function.update_self]
      · have hpath : regionPath k ≠ regionPath key := fun heq =>
          hne (regionPath_inj (hs.parsed k hd hget) hkey heq)
        rw [Function.update_of_ne hpath, stored_opened hops]
        exact hs.backed k hd hget

/-! ## A flush -/

theorem sameAt_trans {h₁ h₂ h₃ : H} {slot : Nat} (h : ops.SameAt h₁ h₂ slot)
    (h' : ops.SameAt h₂ h₃ slot) : ops.SameAt h₁ h₃ slot := ⟨h'.1.trans h.1, h'.2.trans h.2⟩

theorem holdsAt_same {h₁ h₂ : H} {slot : Nat} {v : Option β} (h : ops.HoldsAt h₁ slot v)
    (h' : ops.SameAt h₁ h₂ slot) : ops.HoldsAt h₂ slot v := ⟨h'.1.trans h.1, h'.2.trans h.2⟩

/-- What the writes of a batch leave of each slot of the region. -/
theorem writeBatch_spec (hops : ops.Lawful) (io : Io H β L) (hio : io.writeChunk = ops.writeChunk)
    {batch : List (ChunkKey × β)} (hregion : ∀ w ∈ batch, w.1.regionKey = key)
    (hnodup : (batch.map Prod.fst).Nodup) (h : H) :
    let r := writeBatch io batch h
    (∀ c, c.regionKey = key → c ∉ batch.map Prod.fst → ops.SameAt h r.2.2 (ofLex c).2.slot) ∧
      ∀ w ∈ batch, w.1 ∉ r.2.1.map Prod.fst → ops.HoldsAt r.2.2 (ofLex w.1).2.slot (some w.2) := by
  induction batch generalizing h with
  | nil => exact ⟨fun c _ _ => ⟨rfl, rfl⟩, nofun⟩
  | cons w batch ih =>
    obtain ⟨c, bytes⟩ := w
    rw [List.map_cons, List.nodup_cons] at hnodup
    have hc : c.regionKey = key := hregion (c, bytes) (List.mem_cons_self ..)
    have hrest := fun hd => ih (fun w hw => hregion w (List.mem_cons_of_mem _ hw)) hnodup.2 hd
    have hothers : ∀ c', c'.regionKey = key → c' ≠ c →
        ops.SameAt h (ops.writeChunk h (ofLex c).2 bytes).2 (ofLex c').2.slot := fun c' hc' hne =>
      hops.write_others h _ bytes _ (slot_ne hne (hc'.trans hc.symm))
    have hok := hops.write_ok h (ofLex c).2 bytes
    unfold writeBatch
    rw [hio]
    rcases hwrite : ops.writeChunk h (ofLex c).2 bytes with ⟨e | ⟨⟨⟩⟩, h'⟩
    all_goals
      rw [hwrite] at hothers hok
      obtain ⟨hsame, hholds⟩ := hrest h'
      dsimp only at hsame hholds ⊢
    · refine ⟨fun c' hc' hmem => ?_, fun w hw hfailed => ?_⟩
      · rw [List.map_cons, List.mem_cons, not_or] at hmem
        exact sameAt_trans (hothers c' hc' hmem.1) (hsame c' hc' hmem.2)
      · rw [List.map_cons, List.mem_cons, not_or] at hfailed
        obtain rfl | hw := List.mem_cons.mp hw
        · exact absurd rfl hfailed.1
        · exact hholds w hw hfailed.2
    · refine ⟨fun c' hc' hmem => ?_, fun w hw hfailed => ?_⟩
      · rw [List.map_cons, List.mem_cons, not_or] at hmem
        exact sameAt_trans (hothers c' hc' hmem.1) (hsame c' hc' hmem.2)
      · obtain rfl | hw := List.mem_cons.mp hw
        · exact holdsAt_same (hok rfl) (hsame c hc hnodup.1)
        · exact hholds w hw hfailed

/-- The closure of a flush writes and syncs; it never fails as a whole. -/
theorem writeAndSync_spec (hops : ops.Lawful) (io : Io H β L) (hio : io.writeChunk = ops.writeChunk)
    (hsync : io.sync = ops.sync) {batch : List (ChunkKey × β)}
    (hregion : ∀ w ∈ batch, w.1.regionKey = key) (hnodup : (batch.map Prod.fst).Nodup) (h : H) :
    ∃ w : Written, (writeAndSync io batch h).1 = .ok w ∧
      (∀ c, c.regionKey = key → c ∉ batch.map Prod.fst →
        ops.SameAt h (writeAndSync io batch h).2 (ofLex c).2.slot) ∧
      ∀ v ∈ batch, v.1 ∉ w.failures.map Prod.fst →
        ops.HoldsAt (writeAndSync io batch h).2 (ofLex v.1).2.slot (some v.2) := by
  have hspec := writeBatch_spec hops io hio hregion hnodup h
  unfold writeAndSync
  rcases hbatch : writeBatch io batch h with ⟨written, failures, h'⟩
  rw [hbatch] at hspec
  obtain ⟨hsame, hholds⟩ := hspec
  dsimp only
  rw [hsync]
  have hslots := hops.sync_same h'
  rcases hresult : ops.sync h' with ⟨e | ⟨⟨⟩⟩, h''⟩
  all_goals
    rw [hresult] at hslots
    exact ⟨_, rfl, fun c hc hmem => sameAt_trans (hsame c hc hmem) (hslots _),
      fun v hv hfailed => holdsAt_same (hholds v hv hfailed) (hslots _)⟩

/-! ## What reads may give -/

/-- What a read of each chunk may give: nothing, or what the codec makes of a payload. -/
abbrev Truth (C : Type) := ChunkKey → Set (Option (ServerResult C))

/-- The payloads that read as the truth has it. -/
def Truth.payloads (codec : ChunkCodec C β) (t : Truth C) (c : ChunkKey) : Set (Option β) :=
  {v | v.map codec.decode ∈ t c}

/-- A pending payload is the truth, and without one the region tells it. -/
structure Tells (ops : RegionOps H F β) (codec : ChunkCodec C β) (s : ChunkStore H F β L)
    (t : Truth C) : Prop where
  sound : s.Sound ops
  pending : ∀ c b, s.world.pending.get? c = some b → some b ∈ t.payloads codec c
  region : ∀ c, RegionKey.Parsed c.regionKey → s.world.pending.get? c = none →
    s.Within ops c (t.payloads codec c)

theorem mem_batchOf {w : WorldStorage H β L} {cs : List ChunkKey} {v : ChunkKey × β} :
    v ∈ w.batchOf cs ↔ v.1 ∈ cs ∧ w.pending.get? v.1 = some v.2 := by
  rw [WorldStorage.batchOf, List.mem_filterMap]
  constructor
  · intro h
    obtain ⟨c, hc, hv⟩ := h
    obtain ⟨b, hb, rfl⟩ := Option.map_eq_some_iff.mp hv
    exact ⟨hc, hb⟩
  · intro h
    exact ⟨v.1, h.1, by rw [h.2]; rfl⟩

theorem nodup_batchOf {w : WorldStorage H β L} {cs : List ChunkKey} (h : cs.Nodup) :
    ((w.batchOf cs).map Prod.fst).Nodup := by
  have hsub : ((w.batchOf cs).map Prod.fst).Sublist cs := by
    induction cs with
    | nil => exact .slnil
    | cons c cs ih =>
      simp only [WorldStorage.batchOf, List.filterMap_cons] at ih ⊢
      cases w.pending.get? c with
      | none => exact (ih (List.nodup_cons.mp h).2).cons c
      | some b => exact (ih (List.nodup_cons.mp h).2).cons_cons c
  exact hsub.nodup h

theorem settle_cache (failed : List ChunkKey) (batch : List (ChunkKey × β)) (w : WorldStorage H β L) :
    (WorldStorage.settle failed batch w).cache = w.cache := by
  induction batch generalizing w with
  | nil => rfl
  | cons b batch ih =>
    rw [WorldStorage.settle, ih]
    split <;> rfl

theorem flushRegion_tells (hops : ops.Lawful) {t : Truth C} (h : s.Tells ops codec t)
    {cs : List ChunkKey} (hkey : RegionKey.Parsed key) (hcs : ∀ c ∈ cs, c.regionKey = key)
    (hnodup : cs.Nodup) : (s.flushRegion ops writeLevel key cs).Tells ops codec t := by
  have hregion : ∀ v ∈ s.world.batchOf cs, v.1.regionKey = key := fun v hv =>
    hcs v.1 (mem_batchOf.mp hv).1
  have hbatch : ∀ c ∈ (s.world.batchOf cs).map Prod.fst, c.regionKey = key := by
    intro c hc
    obtain ⟨v, hv, rfl⟩ := List.mem_map.mp hc
    exact hregion v hv
  obtain ⟨huse, hsound, hpending, hdirty⟩ := use_spec hops h.sound hkey
    (writeAndSync (s.io ops writeLevel) (s.world.batchOf cs))
  unfold flushRegion
  dsimp only
  rcases hrun : s.withRegion ops key (writeAndSync (s.io ops writeLevel) (s.world.batchOf cs)) with
    ⟨result, s'⟩
  rw [hrun] at huse hsound hpending hdirty
  dsimp only at hsound hpending hdirty
  cases huse with
  | unreached e htaken hresult hkeeps =>
    dsimp only at hresult hkeeps
    subst hresult
    refine ⟨⟨hsound.parsed, hsound.backed, fun c hc => ?_⟩, fun c b hb => ?_, fun c hc hnone => ?_⟩
    · obtain hin | hin := ((WorldStorage.markAll_spec _ s'.world c).1.mp hc)
      · exact hsound.dirty c hin
      · rw [hbatch c hin]
        exact hkey
    · exact h.pending c b (hpending ▸ hb)
    · exact (hkeeps c _ (h.region c hc (hpending ▸ hnone))).of_sub rfl fun _ hget => hget
  | reached hd htaken hresult hbefore hafter hothers =>
    obtain ⟨w, hw, hsame, hholds⟩ := writeAndSync_spec hops (s.io ops writeLevel) rfl rfl hregion
      (nodup_batchOf hnodup) hd
    dsimp only at hresult hafter hothers
    rw [hw] at hresult
    subst hresult
    have hsettle := WorldStorage.settle_spec (w.failures.map Prod.fst) (s.world.batchOf cs) s'.world
    dsimp only
    refine ⟨⟨?_, ?_, fun c hc => ?_⟩, fun c b hb => ?_, fun c hc hnone => ?_⟩
    · rw [settle_cache]
      exact hsound.parsed
    · rw [settle_cache]
      exact hsound.backed
    · obtain hin | ⟨hin, -⟩ := (hsettle c).2.2.1.mp hc
      · exact hsound.dirty c hin
      · rw [hbatch c hin]
        exact hkey
    · by_cases hwrote : c ∈ (s.world.batchOf cs).map Prod.fst ∧ c ∉ w.failures.map Prod.fst
      · rw [(hsettle c).1 hwrote.1 hwrote.2] at hb
        cases hb
      · rw [(hsettle c).2.1 fun hin => not_not.mp fun hno => hwrote ⟨hin, hno⟩, hpending] at hb
        exact h.pending c b hb
    · refine Within.of_sub (s := s') ?_ rfl fun hd' hget => by rwa [settle_cache] at hget
      by_cases hwrote : c ∈ (s.world.batchOf cs).map Prod.fst ∧ c ∉ w.failures.map Prod.fst
      · obtain ⟨v, hv, rfl⟩ := List.mem_map.mp hwrote.1
        obtain ⟨hview, hstored⟩ := hholds v hv hwrote.2
        have hmem := h.pending v.1 v.2 (mem_batchOf.mp hv).2
        exact hafter v.1 _ (hregion v hv) (by rw [hview]; exact hmem) (by rw [hstored]; exact hmem)
      · rw [(hsettle c).2.1 fun hin => not_not.mp fun hno => hwrote ⟨hin, hno⟩, hpending] at hnone
        have hwithin := h.region c hc hnone
        by_cases hkey' : c.regionKey = key
        · have hnot : c ∉ (s.world.batchOf cs).map Prod.fst := by
            intro hin
            obtain ⟨v, hv, rfl⟩ := List.mem_map.mp hin
            rw [(mem_batchOf.mp hv).2] at hnone
            cases hnone
          obtain ⟨hview, hstored⟩ := hsame c hkey' hnot
          obtain ⟨hview', hstored'⟩ := hbefore c _ hkey' hwithin
          exact hafter c _ hkey' (by rw [hview]; exact hview') (by rw [hstored]; exact hstored')
        · exact hothers c _ hc hkey' hwithin

theorem flush_tells (hops : ops.Lawful) {t : Truth C} (h : s.Tells ops codec t) :
    (s.flush ops writeLevel).Tells ops codec t := by
  have hfold : ∀ (regions : List (RegionKey × List ChunkKey)) (s' : ChunkStore H F β L),
      (∀ g ∈ regions, RegionKey.Parsed g.1 ∧ (∀ c ∈ g.2, c.regionKey = g.1) ∧ g.2.Nodup) →
      s'.Tells ops codec t →
      (regions.foldl (fun s region => s.flushRegion ops writeLevel region.1 region.2) s').Tells
        ops codec t := by
    intro regions
    induction regions with
    | nil => exact fun s' _ hs' => hs'
    | cons g regions ih =>
      intro s' hall hs'
      obtain ⟨hkey, hcs, hnodup⟩ := hall g (List.mem_cons_self ..)
      exact ih _ (fun g' hg' => hall g' (List.mem_cons_of_mem _ hg'))
        (flushRegion_tells hops hs' hkey hcs hnodup)
  have hstart : Tells ops codec ({ s with world := { s.world with dirty := .empty } }) t :=
    ⟨⟨h.sound.parsed, h.sound.backed, fun c hc => absurd hc (Finset.notMem_empty c)⟩, h.pending,
      fun c hc hnone => (h.region c hc hnone).of_sub rfl fun _ hget => hget⟩
  have hregions := hfold s.world.dirty.byRegion _ (fun g hg => ?_) hstart
  · unfold flush
    dsimp only
    split
    · exact ⟨⟨hregions.sound.parsed, hregions.sound.backed, hregions.sound.dirty⟩, hregions.pending,
        fun c hc hnone => (hregions.region c hc hnone).of_sub rfl fun _ hget => hget⟩
    · exact hregions
  · have hmem := fun c => @DirtyTracker.mem_byRegion _ g.1 g.2 hg c
    obtain ⟨k, hk, heq⟩ := List.mem_map.mp hg
    refine ⟨?_, fun c hc => ((hmem c).mp hc).2, ?_⟩
    · rw [Finset.mem_sort, Finset.mem_image] at hk
      obtain ⟨c, hc, rfl⟩ := hk
      rw [← heq]
      exact h.sound.dirty c hc
    · rw [← heq]
      exact Finset.sort_nodup _ _

/-! ## One use of a region -/

theorem taken_within (hops : ops.Lawful) (hs : s.Sound ops) {c : ChunkKey} {A : Set (Option β)}
    {hd : H} (hc : RegionKey.Parsed c.regionKey) (htaken : (s.taken ops c.regionKey).1 = .ok hd)
    (h : s.Within ops c A) :
    ops.view hd (ofLex c).2.slot ∈ A ∧ ops.stored (ops.file hd) (ofLex c).2.slot ∈ A := by
  obtain ⟨huse, -⟩ := use_spec hops hs hc fun hd => (.ok (), hd)
  cases huse with
  | unreached e htaken' => rw [htaken] at htaken'; cases htaken'
  | reached hd' htaken' hresult hbefore hafter hothers =>
    rw [htaken] at htaken'
    cases htaken'
    exact hbefore c A rfl h

/-- A use that touches one slot tells the truth of the others as before. -/
theorem use_tells (hops : ops.Lawful) {t t' : Truth C} (h : s.Tells ops codec t) {c₀ : ChunkKey}
    (hc₀ : RegionKey.Parsed c₀.regionKey) {f : H → ServerResult T × H}
    (hf : ∀ hd slot, slot ≠ (ofLex c₀).2.slot → ops.SameAt hd (f hd).2 slot)
    {pending : OrdMap ChunkKey β}
    (hothers : ∀ c, c ≠ c₀ → t' c = t c ∧ pending.get? c = s.world.pending.get? c)
    (hpending : ∀ b, pending.get? c₀ = some b → some b ∈ t'.payloads codec c₀)
    (hmissed : ∀ e, (s.taken ops c₀.regionKey).1 = .error e → pending.get? c₀ = none →
      s.Within ops c₀ (t'.payloads codec c₀))
    (hreached : ∀ hd, (s.taken ops c₀.regionKey).1 = .ok hd → pending.get? c₀ = none →
      ops.view (f hd).2 (ofLex c₀).2.slot ∈ t'.payloads codec c₀ ∧
        ops.stored (ops.file (f hd).2) (ofLex c₀).2.slot ∈ t'.payloads codec c₀) :
    Tells ops codec ⟨{ (s.withRegion ops c₀.regionKey f).2.world with pending },
      (s.withRegion ops c₀.regionKey f).2.files⟩ t' := by
  obtain ⟨huse, hsound, -, -⟩ := use_spec hops h.sound hc₀ f
  refine ⟨⟨hsound.parsed, hsound.backed, hsound.dirty⟩, fun c b hb => ?_, fun c hc hnone => ?_⟩
  · by_cases hc : c = c₀
    · subst hc
      exact hpending b hb
    · rw [Truth.payloads, (hothers c hc).1]
      rw [(hothers c hc).2] at hb
      exact h.pending c b hb
  · refine Within.of_sub (s := (s.withRegion ops c₀.regionKey f).2) ?_ rfl fun _ hget => hget
    by_cases hcc : c = c₀
    · subst hcc
      cases huse with
      | unreached e htaken hresult hkeeps => exact hkeeps c _ (hmissed e htaken hnone)
      | reached hd htaken hresult hbefore hafter hothers' =>
        obtain ⟨hview, hstored⟩ := hreached hd htaken hnone
        exact hafter c _ rfl hview hstored
    · rw [Truth.payloads, (hothers c hcc).1]
      have hwithin := h.region c hc (by rw [← (hothers c hcc).2]; exact hnone)
      cases huse with
      | unreached e htaken hresult hkeeps => exact hkeeps c _ hwithin
      | reached hd htaken hresult hbefore hafter hothers' =>
        by_cases hkey : c.regionKey = c₀.regionKey
        · obtain ⟨hview, hstored⟩ := hf hd _ (slot_ne hcc hkey)
          obtain ⟨hview', hstored'⟩ := hbefore c _ hkey hwithin
          exact hafter c _ hkey (by rw [hview]; exact hview') (by rw [hstored]; exact hstored')
        · exact hothers' c _ hc hkey hwithin

/-- A use that changes nothing tells the same truth. -/
theorem look_tells (hops : ops.Lawful) {t : Truth C} (h : s.Tells ops codec t) {c₀ : ChunkKey}
    (hc₀ : RegionKey.Parsed c₀.regionKey) {f : H → ServerResult T × H}
    (hf : ∀ hd slot, ops.SameAt hd (f hd).2 slot) :
    (s.withRegion ops c₀.regionKey f).2.Tells ops codec t := by
  obtain ⟨-, -, hpending, -⟩ := use_spec hops h.sound hc₀ f
  have htells := @use_tells _ _ _ _ _ _ _ _ _ hops _ t h _ hc₀ _
    (fun hd slot _ => hf hd slot) s.world.pending (fun c _ => ⟨rfl, rfl⟩) (fun b hb => h.pending c₀ b hb)
    (fun e _ hnone => h.region c₀ hc₀ hnone) fun hd htaken hnone => by
      obtain ⟨hview, hstored⟩ := hf hd (ofLex c₀).2.slot
      rw [hview, hstored]
      exact taken_within hops h.sound hc₀ htaken (h.region c₀ hc₀ hnone)
  rw [← hpending] at htells
  exact htells

/-! ## Runs -/

/-- What is done with the storage. -/
inductive StoreOp (C : Type)
  | queueSave (d : Dimension) (c : C)
  | writeNow (d : Dimension) (pos : ChunkPos) (c : C)
  | remove (d : Dimension) (pos : ChunkPos)
  | has (d : Dimension) (pos : ChunkPos)
  | read (d : Dimension) (pos : ChunkPos)
  | flush
  | setCap (limit : Nat)

def StoreOp.Parsed : StoreOp C → Prop
  | .queueSave d _ | .writeNow d _ _ | .remove d _ | .has d _ | .read d _ => d.Parsed
  | .flush | .setCap _ => True

variable (ops codec writeLevel)

def step (s : ChunkStore H F β L) : StoreOp C → ChunkStore H F β L
  | .queueSave d c => (s.queueChunkSave codec d c).2
  | .writeNow d pos c => (s.writeChunkNow ops codec d pos c).2
  | .remove d pos => (s.removeChunk ops d pos).2
  | .has d pos => (s.hasChunk ops d pos).2
  | .read d pos => (s.readChunk ops codec d pos).2
  | .flush => s.flush ops writeLevel
  | .setCap limit => s.setMaxOpenRegions limit

/-- A write that failed after the region was reached. -/
def attempted (s : ChunkStore H F β L) (d : Dimension) (pos : ChunkPos) (c : C) : Bool :=
  codec.pos c = pos && (codec.encode c).toBool &&
    (s.taken ops (ChunkKey.regionKey (toLex (d, pos)))).1.toBool

/-- A successful save, write or removal settles what the chunk reads as; a failed write leaves the
old chunk or the new one; nothing else counts. -/
def tell (s : ChunkStore H F β L) (t : Truth C) : StoreOp C → Truth C
  | .queueSave d c =>
    if (s.queueChunkSave codec d c).1.toBool then
      Function.update t (toLex (d, codec.pos c)) {some (.ok c)}
    else t
  | .writeNow d pos c =>
    if (s.writeChunkNow ops codec d pos c).1.toBool then
      Function.update t (toLex (d, pos)) {some (.ok c)}
    else if s.attempted ops codec d pos c then
      Function.update t (toLex (d, pos)) (insert (some (.ok c)) (t (toLex (d, pos))))
    else t
  | .remove d pos =>
    if (s.removeChunk ops d pos).1.toBool then Function.update t (toLex (d, pos)) {none} else t
  | _ => t

/-- Before anything is done, a chunk reads as the file has it. -/
def truthOf (files : FileKey → F) : Truth C := fun c =>
  {(ops.stored (files (regionPath c.regionKey)) (ofLex c).2.slot).map codec.decode}

/-- A step of the storage, with what is known of the chunks. -/
def tellStep (s : ChunkStore H F β L × Truth C) (op : StoreOp C) : ChunkStore H F β L × Truth C :=
  (s.1.step ops codec writeLevel op, s.1.tell ops codec s.2 op)

/-- A removal succeeds, or it cannot reach the region and there is no pending payload. -/
def Spares (s : ChunkStore H F β L) : StoreOp C → Prop
  | .remove d pos =>
    match (s.taken ops (ChunkKey.regionKey (toLex (d, pos)))).1 with
    | .ok handle => (ops.removeChunk handle pos).1.toBool = true
    | .error _ => s.world.pending.get? (toLex (d, pos)) = none
  | _ => True

/-- A read that succeeds gives what the truth allows, and `has_chunk` agrees with it. -/
def Serves (s : ChunkStore H F β L) (t : Truth C) : Prop :=
  ∀ d pos, d.Parsed → ∃ v ∈ t (toLex (d, pos)),
    (∀ r, (s.readChunk ops codec d pos).1 = .ok r → r.map .ok = v) ∧
      ∀ b, (s.hasChunk ops d pos).1 = .ok b → b = v.isSome

variable {ops codec writeLevel}

theorem serves_of_tells (hops : ops.Lawful) {t : Truth C} (h : s.Tells ops codec t) :
    s.Serves ops codec t := by
  intro d pos hd
  cases hpend : s.world.pending.get? (toLex (d, pos)) with
  | some bytes =>
    refine ⟨some (codec.decode bytes), h.pending _ _ hpend, fun r hr => ?_, fun b hb => ?_⟩
    · rw [readChunk, hpend] at hr
      cases hdecode : codec.decode bytes with
      | error e =>
        simp only [hdecode] at hr
        cases hr
      | ok c =>
        simp only [hdecode] at hr
        cases hr
        rfl
    · simp only [hasChunk, hpend] at hb
      cases hb
      rfl
  | none =>
    have hwithin := h.region (toLex (d, pos)) hd hpend
    have hread := @use_spec _ _ _ _ _ _ _ (ChunkKey.regionKey (toLex (d, pos))) hops h.sound hd
      (ops.readChunk · pos)
    have hhas := @use_spec _ _ _ _ _ _ _ (ChunkKey.regionKey (toLex (d, pos))) hops h.sound hd
      fun handle => (.ok (ops.hasChunk handle pos), handle)
    have hhas' : s.hasChunk ops d pos = s.withRegion ops (ChunkKey.regionKey (toLex (d, pos)))
        fun handle => (.ok (ops.hasChunk handle pos), handle) := by
      rw [hasChunk, hpend]
      rfl
    cases htaken : (s.taken ops (ChunkKey.regionKey (toLex (d, pos)))).1 with
    | error e =>
      refine ⟨_, hwithin.file, fun r hr => ?_, fun b hb => ?_⟩
      · cases hread.1 with
        | reached hd htaken' => rw [htaken] at htaken'; cases htaken'
        | unreached e htaken' hresult =>
          simp only [readChunk, hpend] at hr
          rcases hrun : s.withRegion ops (ChunkKey.regionKey (toLex (d, pos))) (ops.readChunk · pos)
            with ⟨result, s'⟩
          rw [hrun] at hresult hr
          dsimp only at hresult
          subst hresult
          cases hr
      · cases hhas.1 with
        | reached hd htaken' => rw [htaken] at htaken'; cases htaken'
        | unreached e htaken' hresult =>
          rw [hhas', hresult] at hb
          cases hb
    | ok handle =>
      obtain ⟨hview, -⟩ := taken_within hops h.sound (c := toLex (d, pos)) hd htaken hwithin
      refine ⟨_, hview, fun r hr => ?_, fun b hb => ?_⟩
      · cases hread.1 with
        | unreached e htaken' => rw [htaken] at htaken'; cases htaken'
        | reached hd htaken' hresult =>
          rw [htaken] at htaken'
          cases htaken'
          simp only [readChunk, hpend] at hr
          rcases hrun : s.withRegion ops (ChunkKey.regionKey (toLex (d, pos))) (ops.readChunk · pos)
            with ⟨result, s'⟩
          rw [hrun] at hresult hr
          dsimp only at hresult
          subst hresult
          rcases hgot : (ops.readChunk handle pos).1 with e | v
          · rw [hgot] at hr
            cases hr
          · have hv : v = ops.view handle pos.slot := hops.read_ok handle pos v hgot
            rw [hgot] at hr
            change r.map .ok = (ops.view handle pos.slot).map codec.decode
            rw [← hv]
            cases v with
            | none =>
              cases hr
              rfl
            | some bytes =>
              obtain ⟨c, hc, hr⟩ := Framing.bind_ok hr
              obtain ⟨-, -, hr⟩ := Framing.bind_ok hr
              split at hr
              · cases hr
                exact congrArg some hc.symm
              · cases hr
      · cases hhas.1 with
        | unreached e htaken' => rw [htaken] at htaken'; cases htaken'
        | reached hd htaken' hresult =>
          rw [htaken] at htaken'
          cases htaken'
          rw [hhas', hresult] at hb
          cases hb
          rw [hops.has_eq, Option.isSome_map]
          rfl

theorem withRegion_pending (s : ChunkStore H F β L) (pending : OrdMap ChunkKey β) (key : RegionKey)
    (f : H → ServerResult T × H) :
    withRegion ops ⟨{ s.world with pending }, s.files⟩ key f = ((s.withRegion ops key f).1,
      ⟨{ (s.withRegion ops key f).2.world with pending }, (s.withRegion ops key f).2.files⟩) := by
  have htaken : taken ops (⟨{ s.world with pending }, s.files⟩ : ChunkStore H F β L) key =
      s.taken ops key := rfl
  rw [withRegion, withRegion, htaken]
  rcases s.taken ops key with ⟨e | h, cache⟩ <;> rfl

theorem removeChunk_tells (hops : ops.Lawful) {t : Truth C} (h : s.Tells ops codec t)
    {d : Dimension} (hd : d.Parsed) {pos : ChunkPos}
    (hspares : s.Spares ops (.remove d pos : StoreOp C)) :
    (s.removeChunk ops d pos).2.Tells ops codec (s.tell ops codec t (.remove d pos)) := by
  have heq : s.removeChunk ops d pos = _ := withRegion_pending s
    (s.world.pending.erase (toLex (d, pos))) (ChunkKey.regionKey (toLex (d, pos)))
    (ops.removeChunk · pos)
  obtain ⟨huse, -⟩ := @use_spec _ _ _ _ _ _ _ (ChunkKey.regionKey (toLex (d, pos))) hops h.sound hd
    (ops.removeChunk · pos)
  simp only [tell]
  rw [heq]
  refine use_tells hops h (show RegionKey.Parsed (ChunkKey.regionKey (toLex (d, pos))) from hd)
    (fun hd' slot hslot => ?_) (fun c hc => ?_)
    (fun b hb => ?_) (fun e htaken _ => ?_) fun hd' htaken _ => ?_
  · exact hops.remove_others hd' pos slot hslot
  · rw [OrdMap.get?_erase, if_neg (Ne.symm hc)]
    refine ⟨?_, rfl⟩
    split
    · exact Function.update_of_ne hc ..
    · rfl
  · rw [OrdMap.get?_erase, if_pos rfl] at hb
    cases hb
  · cases huse with
    | reached hd' htaken' => rw [htaken] at htaken'; cases htaken'
    | unreached e' htaken' hresult' =>
      simp only [Spares, htaken] at hspares
      rw [hresult']
      exact h.region _ hd hspares
  · cases huse with
    | unreached e' htaken' => rw [htaken] at htaken'; cases htaken'
    | reached hd'' htaken' hresult' =>
      rw [htaken] at htaken'
      cases htaken'
      simp only [Spares, htaken] at hspares
      rw [hresult', if_pos hspares]
      rcases hgot : (ops.removeChunk hd' pos).1 with e | b
      · rw [hgot] at hspares
        cases hspares
      · obtain ⟨hview, hstored⟩ := hops.remove_ok hd' pos b hgot
        have hnone : none ∈ Truth.payloads codec (Function.update t (toLex (d, pos)) {none})
            (toLex (d, pos)) := by simp [Truth.payloads]
        exact ⟨hview ▸ hnone, hstored ▸ hnone⟩

theorem writeThenSync_spec (hops : ops.Lawful) (pos : ChunkPos) (bytes : β) (h : H) :
    (∀ slot, slot ≠ pos.slot → ops.SameAt h (writeThenSync ops pos bytes h).2 slot) ∧
      ((writeThenSync ops pos bytes h).1 = .ok () →
        ops.HoldsAt (writeThenSync ops pos bytes h).2 pos.slot (some bytes)) ∧
      (ops.view (writeThenSync ops pos bytes h).2 pos.slot = ops.view h pos.slot ∨
        ops.view (writeThenSync ops pos bytes h).2 pos.slot = some bytes) ∧
      (ops.stored (ops.file (writeThenSync ops pos bytes h).2) pos.slot =
          ops.stored (ops.file h) pos.slot ∨
        ops.stored (ops.file (writeThenSync ops pos bytes h).2) pos.slot = some bytes) := by
  have hothers := hops.write_others h pos bytes
  have hok := hops.write_ok h pos bytes
  have hany := hops.write_any h pos bytes
  unfold writeThenSync
  rcases hwrite : ops.writeChunk h pos bytes with ⟨e | ⟨⟨⟩⟩, h'⟩
  all_goals rw [hwrite] at hothers hok hany
  · exact ⟨hothers, nofun, hany⟩
  · have hsync := hops.sync_same h'
    obtain ⟨hview, hstored⟩ := holdsAt_same (hok rfl) (hsync pos.slot)
    exact ⟨fun slot hslot => sameAt_trans (hothers slot hslot) (hsync slot),
      fun _ => ⟨hview, hstored⟩, .inr hview, .inr hstored⟩

theorem writeChunkNow_eq {s : ChunkStore H F β L} {d : Dimension} {pos : ChunkPos} {c : C} {bytes : β}
    (hpos : codec.pos c = pos) (hencode : codec.encode c = .ok bytes) :
    s.writeChunkNow ops codec d pos c =
      match s.withRegion ops (ChunkKey.regionKey (toLex (d, pos))) (writeThenSync ops pos bytes) with
      | (.error e, s) => (.error e, s)
      | (.ok (), s) => (.ok (), { s with world := { s.world with
          pending := s.world.pending.erase (toLex (d, pos)) } }) := by
  simp only [writeChunkNow, verifyPosition, if_pos hpos, hencode] <;> rfl

theorem writeChunkNow_tells (hops : ops.Lawful) (hcodec : codec.RoundTrips) {t : Truth C}
    (h : s.Tells ops codec t) {d : Dimension} (hd : d.Parsed) (pos : ChunkPos) (c : C) :
    (s.writeChunkNow ops codec d pos c).2.Tells ops codec
      (s.tell ops codec t (.writeNow d pos c)) := by
  simp only [tell]
  by_cases hpos : codec.pos c = pos
  swap
  · obtain ⟨e, hnow⟩ : ∃ e, s.writeChunkNow ops codec d pos c = (.error e, s) := by
      rw [writeChunkNow, verifyPosition, if_neg hpos]
      exact ⟨_, rfl⟩
    simpa [hnow, attempted, hpos, Except.toBool] using h
  cases hencode : codec.encode c with
  | error e =>
    have hnow : s.writeChunkNow ops codec d pos c = (.error e, s) := by
      simp only [writeChunkNow, verifyPosition, if_pos hpos, hencode]
    simpa [hnow, attempted, hencode, Except.toBool] using h
  | ok bytes =>
    have hdecode := hcodec c bytes hencode
    have hnow := @writeChunkNow_eq _ _ _ _ _ ops codec s d pos c bytes hpos hencode
    have hattempted : s.attempted ops codec d pos c =
        (s.taken ops (ChunkKey.regionKey (toLex (d, pos)))).1.toBool := by
      simp [attempted, hpos, hencode, Except.toBool]
    obtain ⟨huse, -, hpending, -⟩ := @use_spec _ _ _ _ _ _ _
      (ChunkKey.regionKey (toLex (d, pos))) hops h.sound hd (writeThenSync ops pos bytes)
    have htells := fun t' pending' => @use_tells _ _ _ _ _ _ _ _ _ hops _ t' h
      (toLex (d, pos)) hd (writeThenSync ops pos bytes)
      (fun hd' slot hslot => (writeThenSync_spec hops pos bytes hd').1 slot hslot) pending'
    rw [hnow, hattempted]
    rcases hrun : s.withRegion ops (ChunkKey.regionKey (toLex (d, pos))) (writeThenSync ops pos bytes)
      with ⟨result, s'⟩
    rw [hrun] at huse hpending htells
    dsimp only at hpending htells
    cases huse with
    | unreached e htaken hresult hkeeps =>
      dsimp only at hresult
      subst hresult
      rw [htaken]
      exact htells t s'.world.pending (fun c' _ => ⟨rfl, by rw [hpending]⟩)
        (fun b hb => h.pending _ b (hpending ▸ hb)) (fun e _ hnone => h.region _ hd (hpending ▸ hnone))
        fun hd' htaken' => by rw [htaken] at htaken'; cases htaken'
    | reached hd' htaken hresult hbefore hafter hothers =>
      obtain ⟨-, hok, hview, hstored⟩ := writeThenSync_spec hops pos bytes hd'
      dsimp only at hresult
      rw [htaken]
      rcases hwrite : (writeThenSync ops pos bytes hd').1 with e | ⟨⟨⟩⟩
      · rw [hwrite] at hresult
        subst hresult
        have hmono : t.payloads codec (toLex (d, pos)) ⊆ Truth.payloads codec (Function.update t
            (toLex (d, pos)) (insert (some (.ok c)) (t (toLex (d, pos))))) (toLex (d, pos)) := by
          intro v hv
          rw [Truth.payloads, Function.update_self]
          exact .inr hv
        have hnew : some bytes ∈ Truth.payloads codec (Function.update t (toLex (d, pos))
            (insert (some (.ok c)) (t (toLex (d, pos))))) (toLex (d, pos)) := by
          rw [Truth.payloads, Function.update_self]
          exact .inl (congrArg some hdecode)
        refine htells _ s'.world.pending (fun c' hc' => ⟨Function.update_of_ne hc' .., by rw [hpending]⟩)
          (fun b hb => hmono (h.pending _ b (hpending ▸ hb)))
          (fun e htaken' _ => by rw [htaken] at htaken'; cases htaken') fun hd'' htaken' hnone => ?_
        rw [htaken] at htaken'
        cases htaken'
        obtain ⟨hview', hstored'⟩ := hbefore (toLex (d, pos)) _ rfl
          (h.region _ hd (hpending ▸ hnone))
        refine ⟨?_, ?_⟩
        · obtain hv | hv := hview
          · exact hv ▸ hmono hview'
          · exact hv ▸ hnew
        · obtain hv | hv := hstored
          · exact hv ▸ hmono hstored'
          · exact hv ▸ hnew
      · rw [hwrite] at hresult
        subst hresult
        obtain ⟨hview, hstored⟩ := hok hwrite
        have hnew : some bytes ∈ Truth.payloads codec
            (Function.update t (toLex (d, pos)) {some (.ok c)}) (toLex (d, pos)) := by
          rw [Truth.payloads, Function.update_self]
          exact congrArg some hdecode
        refine htells _ _ (fun c' hc' => ⟨Function.update_of_ne hc' .., ?_⟩) (fun b hb => ?_)
          (fun e htaken' _ => by rw [htaken] at htaken'; cases htaken') fun hd'' htaken' _ => ?_
        · rw [OrdMap.get?_erase, if_neg (Ne.symm hc'), hpending]
        · rw [OrdMap.get?_erase, if_pos rfl] at hb
          cases hb
        · rw [htaken] at htaken'
          cases htaken'
          exact ⟨hview ▸ hnew, hstored ▸ hnew⟩

theorem step_tells (hops : ops.Lawful) (hcodec : codec.RoundTrips) {t : Truth C}
    (h : s.Tells ops codec t) {op : StoreOp C} (hparsed : op.Parsed) (hspares : s.Spares ops op) :
    (s.step ops codec writeLevel op).Tells ops codec (s.tell ops codec t op) := by
  cases op with
  | queueSave d c =>
    simp only [step, tell]
    cases hencode : codec.encode c with
    | error e =>
      have hqueue : s.queueChunkSave codec d c = (.error e, s) := by rw [queueChunkSave, hencode]
      simpa [hqueue, Except.toBool] using h
    | ok bytes =>
      have hqueue : s.queueChunkSave codec d c =
          (.ok (), ⟨s.world.queueChunkSave (toLex (d, codec.pos c)) bytes, s.files⟩) := by
        rw [queueChunkSave, hencode]
      rw [hqueue]
      have hnew : some bytes ∈ Truth.payloads codec
          (Function.update t (toLex (d, codec.pos c)) {some (.ok c)}) (toLex (d, codec.pos c)) := by
        rw [Truth.payloads, Function.update_self]
        exact congrArg some (hcodec c bytes hencode)
      have hsame : ∀ c', c' ≠ toLex (d, codec.pos c) → Truth.payloads codec
          (Function.update t (toLex (d, codec.pos c)) {some (.ok c)}) c' = t.payloads codec c' :=
        fun c' hc' => by rw [Truth.payloads, Function.update_of_ne hc', Truth.payloads]
      refine ⟨⟨h.sound.parsed, h.sound.backed, fun c' hc' => ?_⟩, fun c' b hb => ?_,
        fun c' hc' hnone => ?_⟩
      · obtain rfl | hc' := Finset.mem_insert.mp hc'
        · exact hparsed
        · exact h.sound.dirty c' hc'
      · simp only [WorldStorage.queueChunkSave, OrdMap.get?_insert] at hb
        split at hb
        next heq =>
          cases hb
          exact heq ▸ hnew
        next hne =>
          exact (hsame c' (Ne.symm hne)).symm ▸ h.pending c' b hb
      · simp only [WorldStorage.queueChunkSave, OrdMap.get?_insert] at hnone
        split at hnone
        · cases hnone
        next hne =>
          rw [if_pos (by rfl), hsame c' (Ne.symm hne)]
          exact (h.region c' hc' hnone).of_sub rfl fun _ hget => hget
  | writeNow d pos c => exact writeChunkNow_tells hops hcodec h hparsed pos c
  | remove d pos => exact removeChunk_tells hops h hparsed hspares
  | has d pos =>
    simp only [step, tell, hasChunk]
    split
    · exact h
    · exact @look_tells _ _ _ _ _ _ _ _ _ hops _ h (toLex (d, pos)) hparsed _ fun _ _ => ⟨rfl, rfl⟩
  | read d pos =>
    have hlook := @look_tells _ _ _ _ _ _ _ _ _ hops _ h (toLex (d, pos)) hparsed (ops.readChunk · pos)
      fun hd slot => hops.read_same hd pos slot
    simp only [step, tell, readChunk]
    rcases hrun : s.withRegion ops (ChunkKey.regionKey (toLex (d, pos))) (ops.readChunk · pos) with
      ⟨result, s'⟩
    rw [hrun] at hlook
    cases s.world.pending.get? (toLex (d, pos)) with
    | some bytes => exact h
    | none =>
      rcases result with e | ⟨_ | bytes⟩ <;> exact hlook
  | flush => exact flush_tells hops h
  | setCap limit =>
    have hsub : ∀ k hd, (s.world.cache.setMaxOpenRegions limit).regions.get? k = some hd →
        s.world.cache.regions.get? k = some hd := fun k hd hget =>
      RegionCache.evictRegions_sub (c := { s.world.cache with maxOpenRegions := max limit 1 }) hget
    exact ⟨⟨fun k hd hget => h.sound.parsed k hd (hsub k hd hget),
        fun k hd hget => h.sound.backed k hd (hsub k hd hget), h.sound.dirty⟩,
      h.pending, fun c hc hnone => (h.region c hc hnone).of_sub rfl (hsub _)⟩

theorem openWorld_tells (level : Option L) (files : FileKey → F) :
    (openWorld level files : ChunkStore H F β L).Tells ops codec (truthOf ops codec files) :=
  ⟨⟨fun _ _ h => (nomatch h), fun _ _ h => (nomatch h), fun c hc => absurd hc (Finset.notMem_empty c)⟩,
    fun _ _ h => (nomatch h), fun _ _ _ => ⟨rfl, fun _ h => (nomatch h)⟩⟩

/-- Over every run in which no removal fails once it gave up a payload, reads and `has_chunk` tell
what was last saved, written or removed. -/
theorem run_reads_writes (hops : ops.Lawful) (hcodec : codec.RoundTrips) (level : Option L)
    (files : FileKey → F) (run : List (StoreOp C)) (hrun : Along (tellStep ops codec writeLevel)
      (fun s op => op.Parsed ∧ s.1.Spares ops op) (openWorld level files, truthOf ops codec files) run) :
    let s := Core.run (tellStep ops codec writeLevel)
      (openWorld level files, truthOf ops codec files) run
    s.1.Serves ops codec s.2 := by
  refine serves_of_tells hops (@run_inv_along _ _ _ (fun s => s.1.Tells ops codec s.2) _
    (fun s op hs hop => ?_) _ _ (openWorld_tells level files) hrun)
  exact step_tells hops hcodec hs hop.1 hop.2

/-! ## A region that opens at the second attempt -/

/-- Slots in memory, with a script of the opens to come. -/
structure SlotFile (β : Type) where
  slots : Nat → Option β
  opens : List Bool

/-- Region files whose only failures are the scripted opens. -/
def slotFiles (β : Type) : RegionOps (SlotFile β) (SlotFile β) β where
  openFile f :=
    let f' : SlotFile β := { f with opens := f.opens.tail }
    if f.opens.headD true then (.ok f', f')
    else (.error (.operational "cannot open the region file"), f')
  file h := h
  readChunk h pos := (.ok (h.slots pos.slot), h)
  hasChunk h pos := (h.slots pos.slot).isSome
  writeChunk h pos b := (.ok (), { h with slots := Function.update h.slots pos.slot (some b) })
  removeChunk h pos := (.ok (h.slots pos.slot).isSome,
    { h with slots := Function.update h.slots pos.slot none })
  sync h := (.ok (), h)
  view h := h.slots
  stored f := f.slots

theorem slotFiles_lawful (β : Type) : (slotFiles β).Lawful where
  open_ok f h f' hopen := by
    simp only [slotFiles] at hopen
    split at hopen
    · cases hopen
      exact ⟨rfl, rfl⟩
    · cases hopen
  open_file f := by
    simp only [slotFiles]
    split <;> rfl
  read_ok h pos v hread := (Except.ok.inj hread).symm
  read_same h pos slot := ⟨rfl, rfl⟩
  has_eq h pos := rfl
  write_ok h pos b _ := ⟨Function.update_self .., Function.update_self ..⟩
  write_any h pos b := ⟨.inr (Function.update_self ..), .inr (Function.update_self ..)⟩
  write_others h pos b slot hne := ⟨Function.update_of_ne hne .., Function.update_of_ne hne ..⟩
  remove_ok h pos b _ := ⟨Function.update_self .., Function.update_self ..⟩
  remove_others h pos slot hne := ⟨Function.update_of_ne hne .., Function.update_of_ne hne ..⟩
  sync_same h slot := ⟨rfl, rfl⟩

/-- Chunks that are their position, and nothing else. -/
def bareChunks : ChunkCodec ChunkPos ChunkPos := ⟨id, fun _ => true, .ok, .ok⟩

/-- Files without a chunk, whose opens follow the script. -/
def emptyFiles (opens : List Bool) : FileKey → SlotFile ChunkPos := fun _ => ⟨fun _ => none, opens⟩

def bareStep := tellStep (L := Unit) (slotFiles ChunkPos) bareChunks fun _ => .ok ()

def bareStart (opens : List Bool) : ChunkStore (SlotFile ChunkPos) (SlotFile ChunkPos) ChunkPos Unit ×
    Truth ChunkPos :=
  (openWorld none (emptyFiles opens), truthOf (slotFiles ChunkPos) bareChunks (emptyFiles opens))

theorem run_reads_writes_saved :
    let s := Core.run bareStep (bareStart [false])
      [.queueSave .overworld ⟨0, 0⟩, .read .overworld ⟨0, 1⟩, .remove .overworld ⟨0, 0⟩]
    s.1.Serves (slotFiles ChunkPos) bareChunks s.2 := by
  refine run_reads_writes (slotFiles_lawful _) (fun c b h => ?_) none (emptyFiles [false]) _
    ⟨⟨trivial, trivial⟩, ⟨trivial, trivial⟩, ⟨trivial, ?_⟩, trivial⟩
  · cases h
    rfl
  · rfl

/-- The region does not open, the removal fails, and the saved chunk is gone. -/
theorem failed_removal_loses_save :
    let s := Core.run bareStep (bareStart [false])
      [.queueSave .overworld ⟨0, 0⟩, .remove .overworld ⟨0, 0⟩]
    s.2 (toLex (.overworld, ⟨0, 0⟩)) = {some (.ok ⟨0, 0⟩)} ∧
      (s.1.readChunk (slotFiles ChunkPos) bareChunks .overworld ⟨0, 0⟩).1 = .ok none ∧
      ¬ s.1.Serves (slotFiles ChunkPos) bareChunks s.2 := by
  have htruth : (Core.run bareStep (bareStart [false])
      [.queueSave .overworld ⟨0, 0⟩, .remove .overworld ⟨0, 0⟩]).2 (toLex (.overworld, ⟨0, 0⟩)) =
      {some (.ok ⟨0, 0⟩)} := by
    change Function.update (bareStart [false]).2 (toLex (.overworld, ⟨0, 0⟩)) {some (.ok ⟨0, 0⟩)}
      (toLex (.overworld, ⟨0, 0⟩)) = _
    exact Function.update_self ..
  have hread : ((Core.run bareStep (bareStart [false])
      [.queueSave .overworld ⟨0, 0⟩, .remove .overworld ⟨0, 0⟩]).1.readChunk (slotFiles ChunkPos)
        bareChunks .overworld ⟨0, 0⟩).1 = .ok none := rfl
  refine ⟨htruth, hread, fun h => ?_⟩
  obtain ⟨v, hv, hserved, -⟩ := h .overworld ⟨0, 0⟩ trivial
  have hnone := hserved none hread
  rw [htruth, Set.mem_singleton_iff, ← hnone] at hv
  cases hv

end ChunkStore
end Apoptosis.L2.Storage
