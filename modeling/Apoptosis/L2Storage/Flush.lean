import Apoptosis.L2Storage.RegionCache
/-!
# Flushing the dirty chunks (`persistence/src/{dirty,world}.rs`)

`flush` takes a snapshot of the dirty set, which empties it, writes the pending
payloads region by region, syncs each region file and writes `level.dat` last.
The file operations are a parameter (`Io`) with any outcome at any point: a
handle is of any type, so it may carry a script of its failures.

* `writeChunks_spec`: what becomes of a chunk, by the outcome of its region.
* `flush_keeps_iff`: no chunk is lost or passed over in silence exactly when no
  region with a written chunk fails to sync.
-/
namespace Apoptosis.L2.Storage
open Apoptosis.Core

/-- mirrors crates/persistence/src/dirty.rs:25-29 (`DirtyTracker`, and `DirtySnapshot`) -/
structure DirtyTracker where
  chunks : Finset ChunkKey
  level : Bool

namespace DirtyTracker

def empty : DirtyTracker := ⟨∅, false⟩

/-- mirrors crates/persistence/src/dirty.rs:37-39 (`mark_chunk`) -/
def markChunk (d : DirtyTracker) (c : ChunkKey) : DirtyTracker :=
  { d with chunks := insert c d.chunks }

/-- mirrors crates/persistence/src/dirty.rs:42-44 (`mark_level`) -/
def markLevel (d : DirtyTracker) : DirtyTracker := { d with level := true }

/-- mirrors crates/persistence/src/dirty.rs:76-81 (`snapshot`): what was pending, and what stays -/
def snapshot (d : DirtyTracker) : DirtyTracker × DirtyTracker := (d, empty)

/-- mirrors crates/persistence/src/dirty.rs:122-136 (`DirtySnapshot::by_region`): the regions in
ascending order, each with its chunks in ascending order -/
def byRegion (d : DirtyTracker) : List (RegionKey × List ChunkKey) :=
  (d.chunks.image ChunkKey.regionKey).sort.map fun k =>
    (k, (d.chunks.filter (·.regionKey = k)).sort)

theorem mem_byRegion {d : DirtyTracker} {k : RegionKey} {cs : List ChunkKey}
    (h : (k, cs) ∈ d.byRegion) (c : ChunkKey) : c ∈ cs ↔ c ∈ d.chunks ∧ c.regionKey = k := by
  obtain ⟨k', -, heq⟩ := List.mem_map.mp h
  cases heq
  rw [Finset.mem_sort, Finset.mem_filter]

theorem exists_byRegion {d : DirtyTracker} {c : ChunkKey} (h : c ∈ d.chunks) :
    ∃ cs, (c.regionKey, cs) ∈ d.byRegion ∧ c ∈ cs := by
  refine ⟨(d.chunks.filter (·.regionKey = c.regionKey)).sort, List.mem_map.mpr ?_, ?_⟩
  · exact ⟨c.regionKey, (Finset.mem_sort _).mpr (Finset.mem_image_of_mem _ h), rfl⟩
  · rw [Finset.mem_sort, Finset.mem_filter]
    exact ⟨h, rfl⟩

theorem byRegion_nodup (d : DirtyTracker) : (d.byRegion.map Prod.fst).Nodup := by
  rw [byRegion, List.map_map]
  exact (List.map_id _).symm ▸ Finset.sort_nodup _ _

end DirtyTracker

/-! ## The report -/

/-- The failures a report names, before they are formatted. -/
inductive SaveFailure where
  | write (chunk : ChunkKey) (e : ServerError)
  | sync (region : RegionKey) (e : ServerError)
  | opening (region : RegionKey) (e : ServerError)
  | level (e : ServerError)
  deriving DecidableEq

/-- The failure is about the chunk, or about the region it lives in. -/
def SaveFailure.Names (c : ChunkKey) : SaveFailure → Prop
  | .write chunk _ => chunk = c
  | .sync region _ | .opening region _ => region = c.regionKey
  | .level _ => False

/-- mirrors crates/persistence/src/save.rs:189-202 (`SaveReport`) -/
structure SaveReport where
  chunksWritten : Nat
  chunksFailed : Nat
  regionsSynced : Nat
  levelWritten : Bool
  chunksSkipped : Nat
  errors : List SaveFailure

def SaveReport.default : SaveReport := ⟨0, 0, 0, false, 0, []⟩

/-! ## The storage -/

variable {H β L : Type}

/-- The file operations a flush uses: opening a region file, `write_chunk`, `sync` and
`write_level`. -/
structure Io (H β L : Type) where
  openRegion : RegionKey → ServerResult H
  writeChunk : H → ChunkPos → β → ServerResult Unit × H
  sync : H → ServerResult Unit × H
  writeLevel : L → ServerResult Unit

/-- mirrors crates/persistence/src/world.rs:57-69 (`WorldStorage`); `β` is an encoded chunk, `L`
the level document -/
structure WorldStorage (H β L : Type) where
  level : Option L
  cache : RegionCache RegionKey H
  pending : OrdMap ChunkKey β
  dirty : DirtyTracker

/-- mirrors crates/persistence/src/world.rs:321-331 (`queue_chunk_save`), once encoded -/
def WorldStorage.queueChunkSave (s : WorldStorage H β L) (c : ChunkKey) (bytes : β) :
    WorldStorage H β L :=
  { s with pending := s.pending.insert c bytes, dirty := s.dirty.markChunk c }

/-- What the closure of `write_chunks` returns. -/
structure Written where
  written : Nat
  failures : List (ChunkKey × ServerError)
  syncError : Option ServerError

variable (io : Io H β L)

/-- The writes of one region, in order. -/
def writeBatch : List (ChunkKey × β) → H → Nat × List (ChunkKey × ServerError) × H
  | [], handle => (0, [], handle)
  | (c, bytes) :: batch, handle =>
    match io.writeChunk handle (ofLex c).2 bytes with
    | (.ok (), handle) =>
      let (written, failures, handle) := writeBatch batch handle
      (written + 1, failures, handle)
    | (.error e, handle) =>
      let (written, failures, handle) := writeBatch batch handle
      (written, (c, e) :: failures, handle)

/-- The closure `write_chunks` passes to `with_region`. -/
def writeAndSync (batch : List (ChunkKey × β)) (handle : H) : ServerResult Written × H :=
  let (written, failures, handle) := writeBatch io batch handle
  match io.sync handle with
  | (.ok (), handle) => (.ok ⟨written, failures, none⟩, handle)
  | (.error e, handle) => (.ok ⟨written, failures, some e⟩, handle)

namespace WorldStorage

/-- `filter_map` of the positions over the pending payloads. -/
def batchOf (s : WorldStorage H β L) (cs : List ChunkKey) : List (ChunkKey × β) :=
  cs.filterMap fun c => (s.pending.get? c).map (c, ·)

/-- The bookkeeping after a region was written: a failed chunk is dirty again, any other is no
longer pending. -/
def settle (failed : List ChunkKey) : List (ChunkKey × β) →
    WorldStorage H β L → WorldStorage H β L
  | [], s => s
  | (c, _) :: batch, s =>
    settle failed batch <|
      if c ∈ failed then { s with dirty := s.dirty.markChunk c }
      else { s with pending := s.pending.erase c }

/-- Every chunk of the batch is dirty again. -/
def markAll (batch : List (ChunkKey × β)) (s : WorldStorage H β L) : WorldStorage H β L :=
  { s with dirty := batch.foldl (fun d b => d.markChunk b.1) s.dirty }

/-- What one region came to, kept beside the report to speak about it. -/
structure Visit where
  region : RegionKey
  batch : List ChunkKey
  outcome : ServerResult Written

/-- One turn of the loop of `write_chunks`. -/
def writeRegion (s : WorldStorage H β L) (report : SaveReport) (key : RegionKey)
    (cs : List ChunkKey) : SaveReport × WorldStorage H β L × Visit :=
  let batch := s.batchOf cs
  let report := { report with chunksSkipped := report.chunksSkipped + (cs.length - batch.length) }
  let (outcome, cache) := s.cache.withRegion key (io.openRegion key) (writeAndSync io batch)
  let s := { s with cache }
  let visit : Visit := ⟨key, batch.map Prod.fst, outcome⟩
  match outcome with
  | .ok ⟨written, failures, syncError⟩ =>
    let report := { report with
      chunksWritten := report.chunksWritten + written
      chunksFailed := report.chunksFailed + failures.length
      errors := report.errors ++ failures.map fun (c, e) => SaveFailure.write c e }
    let report := match syncError with
      | some e => { report with errors := report.errors ++ [SaveFailure.sync key e] }
      | none => { report with regionsSynced := report.regionsSynced + 1 }
    (report, settle (failures.map Prod.fst) batch s, visit)
  | .error e =>
    ({ report with
        chunksFailed := report.chunksFailed + batch.length
        errors := report.errors ++ [SaveFailure.opening key e] },
      markAll batch s, visit)

/-- mirrors crates/persistence/src/world.rs:495-582 (`write_chunks`) -/
def writeChunks : List (RegionKey × List ChunkKey) → SaveReport → WorldStorage H β L →
    SaveReport × WorldStorage H β L × List Visit
  | [], report, s => (report, s, [])
  | (key, cs) :: regions, report, s =>
    let (report, s, visit) := s.writeRegion io report key cs
    let (report, s, visits) := writeChunks regions report s
    (report, s, visit :: visits)

/-- mirrors crates/persistence/src/world.rs:451-474 (`flush`) -/
def flush (s : WorldStorage H β L) : ServerResult SaveReport × WorldStorage H β L :=
  let (snapshot, dirty) := s.dirty.snapshot
  let (report, s, _) := writeChunks io snapshot.byRegion SaveReport.default { s with dirty }
  if snapshot.level then
    match s.level with
    | some level =>
      match io.writeLevel level with
      | .ok () => (.ok { report with levelWritten := true }, s)
      | .error e => (.error e, { s with dirty := s.dirty.markLevel })
    | none => (.ok report, s)
  else (.ok report, s)

/-- The visits of a flush. -/
def visits (s : WorldStorage H β L) : List Visit :=
  (writeChunks io s.dirty.byRegion SaveReport.default { s with dirty := .empty }).2.2

/-! ## One region -/

/-- The chunk's write failed. -/
def Failed (w : Written) (c : ChunkKey) : Prop := c ∈ w.failures.map Prod.fst

theorem settle_spec (failed : List ChunkKey) (batch : List (ChunkKey × β))
    (s : WorldStorage H β L) (c : ChunkKey) :
    (c ∈ batch.map Prod.fst → c ∉ failed → (settle failed batch s).pending.get? c = none) ∧
      ((c ∈ batch.map Prod.fst → c ∈ failed) →
        (settle failed batch s).pending.get? c = s.pending.get? c) ∧
      (c ∈ (settle failed batch s).dirty.chunks ↔
        c ∈ s.dirty.chunks ∨ (c ∈ batch.map Prod.fst ∧ c ∈ failed)) ∧
      (settle failed batch s).dirty.level = s.dirty.level ∧
      (settle failed batch s).level = s.level := by
  induction batch generalizing s with
  | nil => simp [settle]
  | cons b batch ih =>
    obtain ⟨c', bytes⟩ := b
    unfold settle
    rw [List.map_cons, List.mem_cons]
    by_cases hf : c' ∈ failed
    · rw [if_pos hf]
      obtain ⟨h1, h2, h3, h4, h5⟩ := ih { s with dirty := s.dirty.markChunk c' }
      refine ⟨fun hc hno => ?_, fun hc => h2 fun h => hc (.inr h), ?_, h4, h5⟩
      · rcases hc with rfl | hc
        · exact absurd hf hno
        · exact h1 hc hno
      · rw [h3]
        by_cases hc : c = c'
        · subst hc
          simp [DirtyTracker.markChunk, hf]
        · simp [DirtyTracker.markChunk, hc]
    · rw [if_neg hf]
      obtain ⟨h1, h2, h3, h4, h5⟩ := ih { s with pending := s.pending.erase c' }
      rw [OrdMap.get?_erase] at h2
      refine ⟨fun hc hno => ?_, fun hc => ?_, ?_, h4, h5⟩
      · by_cases hin : c ∈ batch.map Prod.fst
        · exact h1 hin hno
        · rcases hc with rfl | hc
          · rw [h2 fun h => absurd h hin, if_pos rfl]
          · exact absurd hc hin
      · have hne : c' ≠ c := by
          rintro rfl
          exact hf (hc (.inl rfl))
        rw [h2 fun h => hc (.inr h), if_neg hne]
      · rw [h3]
        by_cases hc : c = c'
        · subst hc
          simp [hf]
        · simp [hc]

theorem markAll_spec (batch : List (ChunkKey × β)) (s : WorldStorage H β L) (c : ChunkKey) :
    (c ∈ (markAll batch s).dirty.chunks ↔ c ∈ s.dirty.chunks ∨ c ∈ batch.map Prod.fst) ∧
      (markAll batch s).dirty.level = s.dirty.level := by
  have hfold (d : DirtyTracker) : (c ∈ (batch.foldl (fun d b => d.markChunk b.1) d).chunks ↔
      c ∈ d.chunks ∨ c ∈ batch.map Prod.fst) ∧
      (batch.foldl (fun d b => d.markChunk b.1) d).level = d.level := by
    induction batch generalizing d with
    | nil => simp
    | cons b batch ih =>
      obtain ⟨h1, h2⟩ := ih (d.markChunk b.1)
      refine ⟨?_, h2⟩
      rw [List.foldl_cons, h1]
      simp only [DirtyTracker.markChunk, Finset.mem_insert, List.map_cons, List.mem_cons]
      tauto
  exact hfold s.dirty

/-- Every chunk of the region is pending: the batch is all of them. -/
theorem batchOf_all {s : WorldStorage H β L} {cs : List ChunkKey}
    (h : ∀ c ∈ cs, ∃ bytes, s.pending.get? c = some bytes) : (s.batchOf cs).map Prod.fst = cs := by
  induction cs with
  | nil => rfl
  | cons c cs ih =>
    obtain ⟨bytes, hbytes⟩ := h c (List.mem_cons_self ..)
    have hrest := ih fun c' hc' => h c' (List.mem_cons_of_mem _ hc')
    simp only [batchOf, List.filterMap_cons, hbytes, Option.map_some, List.map_cons] at hrest ⊢
    rw [hrest]

/-- What one visit does to a chunk of its region. -/
structure Treats (s s' : WorldStorage H β L) (errors : List SaveFailure) (v : Visit)
    (c : ChunkKey) : Prop where
  failedOpen : ∀ e, v.outcome = .error e → c ∈ s'.dirty.chunks ∧
    s'.pending.get? c = s.pending.get? c ∧ .opening v.region e ∈ errors
  failedWrite : ∀ w, v.outcome = .ok w → Failed w c → c ∈ s'.dirty.chunks ∧
    s'.pending.get? c = s.pending.get? c ∧ ∃ e, .write c e ∈ errors
  wrote : ∀ w, v.outcome = .ok w → ¬Failed w c → s'.pending.get? c = none ∧
    (c ∈ s'.dirty.chunks ↔ c ∈ s.dirty.chunks)
  failedSync : ∀ w e, v.outcome = .ok w → w.syncError = some e → .sync v.region e ∈ errors

theorem writeRegion_spec (s : WorldStorage H β L) (report : SaveReport) (key : RegionKey)
    {cs : List ChunkKey} (hpending : ∀ c ∈ cs, ∃ bytes, s.pending.get? c = some bytes) :
    let r := s.writeRegion io report key cs
    r.2.2.region = key ∧ r.2.2.batch = cs ∧
      (∀ e ∈ report.errors, e ∈ r.1.errors) ∧
      (∀ c ∈ cs, Treats s r.2.1 r.1.errors r.2.2 c) ∧
      (∀ c, c ∉ cs → r.2.1.pending.get? c = s.pending.get? c ∧
        (c ∈ r.2.1.dirty.chunks ↔ c ∈ s.dirty.chunks)) ∧
      r.2.1.dirty.level = s.dirty.level ∧ r.2.1.level = s.level := by
  have hbatch := batchOf_all hpending
  unfold writeRegion
  dsimp only
  generalize s.cache.withRegion key (io.openRegion key) (writeAndSync io (s.batchOf cs)) = use
  obtain ⟨outcome, cache⟩ := use
  cases outcome with
  | error e =>
    have hmark := markAll_spec (s.batchOf cs) { s with cache }
    rw [hbatch] at hmark
    dsimp only
    refine ⟨rfl, hbatch, fun e' he' => List.mem_append_left _ he', fun c hc => ?_, fun c hc => ?_,
      (hmark (toLex (.overworld, ⟨0, 0⟩))).2, rfl⟩
    · refine ⟨fun e' he' => ?_, fun w hw => (nomatch hw), fun w hw => (nomatch hw),
        fun w e' hw => (nomatch hw)⟩
      cases he'
      exact ⟨(hmark c).1.mpr (.inr hc), rfl, by simp⟩
    · refine ⟨rfl, (hmark c).1.trans (or_iff_left hc)⟩
  | ok w =>
    have hsettle := settle_spec (w.failures.map Prod.fst) (s.batchOf cs) { s with cache }
    rw [hbatch] at hsettle
    obtain ⟨written, failures, syncError⟩ := w
    dsimp only at hsettle ⊢
    refine ⟨rfl, hbatch, fun e' he' => ?_, fun c hc => ?_, fun c hc => ?_,
      (hsettle (toLex (.overworld, ⟨0, 0⟩))).2.2.2⟩
    · cases syncError <;> simp [he']
    · obtain ⟨h1, h2, h3, -⟩ := hsettle c
      refine ⟨fun e he => (nomatch he), fun w hw hfailed => ?_, fun w hw hfailed => ?_,
        fun w e hw hsync => ?_⟩
      · cases hw
        obtain ⟨⟨c', e⟩, hmem, rfl⟩ := List.mem_map.mp hfailed
        refine ⟨h3.mpr (.inr ⟨hc, hfailed⟩), h2 fun _ => hfailed, e, ?_⟩
        have hline : SaveFailure.write c' e ∈
            failures.map fun (c, e) => SaveFailure.write c e := List.mem_map.mpr ⟨_, hmem, rfl⟩
        cases syncError <;> simp [hmem]
      · cases hw
        exact ⟨h1 hc hfailed, h3.trans (or_iff_left fun h => hfailed h.2)⟩
      · cases hw
        dsimp only at hsync
        subst hsync
        simp
    · obtain ⟨h1, h2, h3, -⟩ := hsettle c
      exact ⟨h2 fun h => absurd h hc, h3.trans (or_iff_left fun h => hc h.1)⟩

/-! ## All regions -/

/-- The chunk was written, and its region file synced. -/
def Durable (visits : List Visit) (c : ChunkKey) : Prop :=
  ∃ v ∈ visits, c ∈ v.batch ∧ ∃ w, v.outcome = .ok w ∧ w.syncError = none ∧ ¬Failed w c

/-- The chunk is dirty and its payload pending, for the next flush. -/
def Retained (s s' : WorldStorage H β L) (c : ChunkKey) : Prop :=
  c ∈ s'.dirty.chunks ∧ s'.pending.get? c = s.pending.get? c

/-- The chunk was written, and its region file failed to sync. -/
def Unsynced (visits : List Visit) (c : ChunkKey) : Prop :=
  ∃ v ∈ visits, c ∈ v.batch ∧ ∃ w e, v.outcome = .ok w ∧ w.syncError = some e ∧ ¬Failed w c

/-- What becomes of a dirty chunk: it is durable, or kept and named, or written without a sync and
named. -/
def Ends (s s' : WorldStorage H β L) (errors : List SaveFailure) (visits : List Visit)
    (c : ChunkKey) : Prop :=
  (Durable visits c ∧ ¬Unsynced visits c) ∨
  ((∃ e ∈ errors, e.Names c) ∧ ¬Durable visits c ∧
    ((Retained s s' c ∧ ¬Unsynced visits c) ∨ (¬Retained s s' c ∧ Unsynced visits c)))

/-- The end of a chunk is decided by the one visit of its region. -/
theorem ends_of_treats {s s₁ s' : WorldStorage H β L} {errors errors' : List SaveFailure}
    {v : Visit} {visits : List Visit} {c : ChunkKey} (hc : c ∈ v.batch)
    (htreats : Treats s s₁ errors v c) (hregion : v.region = c.regionKey)
    (herrors : ∀ e ∈ errors, e ∈ errors') (hothers : ∀ v' ∈ visits, c ∉ v'.batch)
    (hpending : s'.pending.get? c = s₁.pending.get? c)
    (hdirty : c ∈ s'.dirty.chunks ↔ c ∈ s₁.dirty.chunks) (hclean : c ∉ s.dirty.chunks) :
    Ends s s' errors' (v :: visits) c := by
  have hdurable : Durable (v :: visits) c ↔
      ∃ w, v.outcome = .ok w ∧ w.syncError = none ∧ ¬Failed w c := by
    constructor
    · rintro ⟨v', hv', hc', h⟩
      rcases List.mem_cons.mp hv' with rfl | hv'
      · exact h
      · exact absurd hc' (hothers v' hv')
    · exact fun h => ⟨v, List.mem_cons_self .., hc, h⟩
  have hunsynced : Unsynced (v :: visits) c ↔
      ∃ w e, v.outcome = .ok w ∧ w.syncError = some e ∧ ¬Failed w c := by
    constructor
    · rintro ⟨v', hv', hc', h⟩
      rcases List.mem_cons.mp hv' with rfl | hv'
      · exact h
      · exact absurd hc' (hothers v' hv')
    · exact fun h => ⟨v, List.mem_cons_self .., hc, h⟩
  unfold Ends Retained
  rw [hdurable, hunsynced, hpending, hdirty]
  cases houtcome : v.outcome with
  | error e =>
    obtain ⟨h1, h2, h3⟩ := htreats.failedOpen e houtcome
    exact .inr ⟨⟨_, herrors _ h3, hregion⟩, by simp, .inl ⟨⟨h1, h2⟩, by simp⟩⟩
  | ok w =>
    by_cases hfailed : Failed w c
    · obtain ⟨h1, h2, e, h3⟩ := htreats.failedWrite w houtcome hfailed
      exact .inr ⟨⟨_, herrors _ h3, rfl⟩, by simp [hfailed], .inl ⟨⟨h1, h2⟩, by simp [hfailed]⟩⟩
    · obtain ⟨-, h2⟩ := htreats.wrote w houtcome hfailed
      cases hsync : w.syncError with
      | none => exact .inl ⟨⟨w, rfl, hsync, hfailed⟩, by simp [hsync]⟩
      | some e =>
        have h3 := htreats.failedSync w e houtcome hsync
        refine .inr ⟨⟨_, herrors _ h3, hregion⟩, by simp [hsync], .inr ⟨?_, ⟨w, e, rfl, hsync, hfailed⟩⟩⟩
        exact fun h => hclean (h2.mp h.1)

/-- A chunk outside a region keeps its end when the region is visited before. -/
theorem ends_of_rest {s s₁ s' : WorldStorage H β L} {errors : List SaveFailure} {v : Visit}
    {visits : List Visit} {c : ChunkKey} (hc : c ∉ v.batch)
    (hpending : s₁.pending.get? c = s.pending.get? c) (h : Ends s₁ s' errors visits c) :
    Ends s s' errors (v :: visits) c := by
  have hdurable : Durable (v :: visits) c ↔ Durable visits c := by
    simp only [Durable, List.mem_cons, exists_eq_or_imp, hc, false_and, false_or]
  have hunsynced : Unsynced (v :: visits) c ↔ Unsynced visits c := by
    simp only [Unsynced, List.mem_cons, exists_eq_or_imp, hc, false_and, false_or]
  unfold Ends Retained at *
  rw [hdurable, hunsynced, ← hpending]
  exact h

theorem writeChunks_spec (regions : List (RegionKey × List ChunkKey)) (report : SaveReport)
    {s : WorldStorage H β L} (hnodup : (regions.map Prod.fst).Nodup)
    (hregion : ∀ g ∈ regions, ∀ c ∈ g.2, c.regionKey = g.1)
    (hpending : ∀ g ∈ regions, ∀ c ∈ g.2, ∃ bytes, s.pending.get? c = some bytes)
    (hclean : ∀ g ∈ regions, ∀ c ∈ g.2, c ∉ s.dirty.chunks) :
    let r := writeChunks io regions report s
    (∀ e ∈ report.errors, e ∈ r.1.errors) ∧
      (∀ c, (∀ g ∈ regions, c ∉ g.2) → r.2.1.pending.get? c = s.pending.get? c ∧
        (c ∈ r.2.1.dirty.chunks ↔ c ∈ s.dirty.chunks)) ∧
      (∀ g ∈ regions, ∀ c ∈ g.2, Ends s r.2.1 r.1.errors r.2.2 c) ∧
      (∀ v ∈ r.2.2, ∃ g ∈ regions, v.batch = g.2) ∧
      r.2.1.dirty.level = s.dirty.level ∧ r.2.1.level = s.level := by
  induction regions generalizing report s with
  | nil =>
    refine ⟨fun e he => he, fun c _ => ⟨rfl, Iff.rfl⟩, ?_, ?_, rfl, rfl⟩
    · intro g hg
      cases hg
    · intro v hv
      cases hv
  | cons g regions ih =>
    obtain ⟨key, cs⟩ := g
    obtain ⟨hkey, hnodup'⟩ := List.nodup_cons.mp (List.map_cons ▸ hnodup)
    have hcs := hregion (key, cs) (List.mem_cons_self ..)
    -- chunks of other regions are not among these
    have hother : ∀ g ∈ regions, ∀ c ∈ g.2, c ∉ cs := by
      intro g hg c hc hmem
      have h1 := hregion g (List.mem_cons_of_mem _ hg) c hc
      rw [hcs c hmem] at h1
      exact hkey (List.mem_map.mpr ⟨g, hg, h1.symm⟩)
    obtain ⟨hvregion, hvbatch, hvreport, htreats, hvrest, hvlevel, hvlevel'⟩ :=
      writeRegion_spec io s report key (hpending (key, cs) (List.mem_cons_self ..))
    unfold writeChunks
    dsimp only
    generalize s.writeRegion io report key cs = first at *
    obtain ⟨report₁, s₁, v⟩ := first
    dsimp only at *
    obtain ⟨hreport, hrest, hends, hvisits, hlevel, hlevel'⟩ := ih report₁ (s := s₁) hnodup'
      (fun g hg => hregion g (List.mem_cons_of_mem _ hg))
      (fun g hg c hc => by
        rw [(hvrest c (hother g hg c hc)).1]
        exact hpending g (List.mem_cons_of_mem _ hg) c hc)
      (fun g hg c hc => by
        rw [(hvrest c (hother g hg c hc)).2]
        exact hclean g (List.mem_cons_of_mem _ hg) c hc)
    generalize writeChunks io regions report₁ s₁ = later at *
    obtain ⟨report₂, s₂, visits⟩ := later
    dsimp only at *
    refine ⟨fun e he => hreport e (hvreport e he), fun c hc => ?_, fun g hg c hc => ?_,
      fun v' hv' => ?_, hlevel.trans hvlevel, hlevel'.trans hvlevel'⟩
    · obtain ⟨h1, h2⟩ := hrest c fun g hg => hc g (List.mem_cons_of_mem _ hg)
      obtain ⟨h3, h4⟩ := hvrest c (hc (key, cs) (List.mem_cons_self ..))
      exact ⟨h1.trans h3, h2.trans h4⟩
    · rcases List.mem_cons.mp hg with rfl | hg
      · obtain ⟨h1, h2⟩ := hrest c fun g hg hc' => hother g hg c hc' hc
        refine ends_of_treats (hvbatch ▸ hc) (htreats c hc) (hvregion.trans (hcs c hc).symm) hreport
          (fun v' hv' hc' => ?_) h1 h2 (hclean _ (List.mem_cons_self ..) c hc)
        obtain ⟨g, hg, hbatch⟩ := hvisits v' hv'
        exact hother g hg c (hbatch ▸ hc') hc
      · have hnot := hother g hg c hc
        exact ends_of_rest (hvbatch ▸ hnot) (hvrest c hnot).1 (hends g hg c hc)
    · rcases List.mem_cons.mp hv' with rfl | hv'
      · exact ⟨(key, cs), List.mem_cons_self .., hvbatch⟩
      · obtain ⟨g, hg, hbatch⟩ := hvisits v' hv'
        exact ⟨g, List.mem_cons_of_mem _ hg, hbatch⟩

/-! ## A flush -/

/-- Every dirty chunk has a payload. -/
def Backed (s : WorldStorage H β L) : Prop :=
  ∀ c ∈ s.dirty.chunks, ∃ bytes, s.pending.get? c = some bytes

/-- The result speaks of the chunk: a report names it or its region. An error is `level.dat`'s. -/
def Says (r : ServerResult SaveReport) (c : ChunkKey) : Prop :=
  ∃ report, r = .ok report ∧ ∃ e ∈ report.errors, e.Names c

/-- The write of `level.dat` fails. -/
def LevelFails (s : WorldStorage H β L) : Prop :=
  s.dirty.level = true ∧ ∃ level e, s.level = some level ∧ io.writeLevel level = .error e

/-- No dirty chunk is lost. -/
def Keeps (s : WorldStorage H β L) : Prop :=
  ∀ c ∈ s.dirty.chunks, Durable (s.visits io) c ∨ Retained s (s.flush io).2 c

/-- The report names every dirty chunk that is not durable. -/
def Speaks (s : WorldStorage H β L) : Prop :=
  ∀ c ∈ s.dirty.chunks, ¬Durable (s.visits io) c → Says (s.flush io).1 c

/-- As `Speaks`, where any error of the flush counts as saying so. -/
def SpeaksOrFails (s : WorldStorage H β L) : Prop :=
  ∀ c ∈ s.dirty.chunks, ¬Durable (s.visits io) c →
    Says (s.flush io).1 c ∨ ∃ e, (s.flush io).1 = .error e

/-- What a flush does with the chunks is what `write_chunks` does; it fails with `level.dat`. -/
theorem flush_eq (s : WorldStorage H β L) :
    let r := writeChunks io s.dirty.byRegion .default { s with dirty := .empty }
    (s.flush io).2.pending = r.2.1.pending ∧ (s.flush io).2.dirty.chunks = r.2.1.dirty.chunks ∧
      (r.2.1.level = s.level → (LevelFails io s → ∃ e, (s.flush io).1 = .error e) ∧
        (¬LevelFails io s → ∃ report, (s.flush io).1 = .ok report ∧
          report.errors = r.1.errors)) := by
  unfold flush DirtyTracker.snapshot LevelFails
  dsimp only
  generalize writeChunks io s.dirty.byRegion .default { s with dirty := .empty } = r
  obtain ⟨report, s', visits⟩ := r
  dsimp only
  by_cases hlevel : s.dirty.level = true
  · rw [if_pos hlevel]
    cases hcached : s'.level with
    | none =>
      refine ⟨rfl, rfl, fun h => ⟨?_, fun _ => ⟨report, rfl, rfl⟩⟩⟩
      rintro ⟨-, level, e, hsome, -⟩
      rw [← h] at hsome
      cases hsome
    | some level =>
      dsimp only
      cases hwrite : io.writeLevel level with
      | ok u =>
        refine ⟨rfl, rfl, fun h => ⟨?_, fun _ => ⟨_, rfl, rfl⟩⟩⟩
        rintro ⟨-, level', e, hsome, herr⟩
        rw [← h] at hsome
        cases hsome
        rw [hwrite] at herr
        cases herr
      | error e =>
        exact ⟨rfl, rfl, fun h => ⟨fun _ => ⟨e, rfl⟩,
          fun hno => absurd ⟨hlevel, level, e, h.symm, hwrite⟩ hno⟩⟩
  · rw [if_neg hlevel]
    exact ⟨rfl, rfl, fun _ => ⟨fun h => absurd h.1 hlevel, fun _ => ⟨report, rfl, rfl⟩⟩⟩

theorem flush_ends {s : WorldStorage H β L} (hs : Backed s) :
    ∃ errors, (∀ c ∈ s.dirty.chunks, Ends s (s.flush io).2 errors (s.visits io) c) ∧
      (LevelFails io s → ∃ e, (s.flush io).1 = .error e) ∧
      (¬LevelFails io s → ∃ report, (s.flush io).1 = .ok report ∧ report.errors = errors) := by
  have hregion : ∀ g ∈ s.dirty.byRegion, ∀ c ∈ g.2, c.regionKey = g.1 := fun g hg c hc =>
    ((DirtyTracker.mem_byRegion hg c).mp hc).2
  have hmem : ∀ g ∈ s.dirty.byRegion, ∀ c ∈ g.2, c ∈ s.dirty.chunks := fun g hg c hc =>
    ((DirtyTracker.mem_byRegion hg c).mp hc).1
  obtain ⟨-, -, hends, -, -, hlevel⟩ := writeChunks_spec io s.dirty.byRegion .default
    (s := { s with dirty := .empty }) s.dirty.byRegion_nodup hregion
    (fun g hg c hc => hs c (hmem g hg c hc)) (fun g hg c hc h => by simp [DirtyTracker.empty] at h)
  obtain ⟨hpending, hdirty, hresult⟩ := flush_eq io s
  refine ⟨_, fun c hc => ?_, (hresult hlevel).1, (hresult hlevel).2⟩
  obtain ⟨cs, hg, hc'⟩ := DirtyTracker.exists_byRegion hc
  have h := hends _ hg c hc'
  unfold Ends Retained at h ⊢
  rw [hpending, hdirty]
  exact h

/-- A flush loses no chunk and passes over none in silence exactly when no written chunk's region
fails to sync; it also names every chunk exactly when a failure of `level.dat` does not take the
report of one with it. -/
theorem flush_keeps_iff (s : WorldStorage H β L) (hs : Backed s) :
    ((Keeps io s ∧ SpeaksOrFails io s) ↔ ∀ c ∈ s.dirty.chunks, ¬Unsynced (s.visits io) c) ∧
      ((Keeps io s ∧ Speaks io s) ↔ (∀ c ∈ s.dirty.chunks, ¬Unsynced (s.visits io) c) ∧
        ¬(LevelFails io s ∧ ∃ c ∈ s.dirty.chunks, ¬Durable (s.visits io) c)) := by
  obtain ⟨errors, hends, hfails, hok⟩ := flush_ends io hs
  have hkeeps : Keeps io s ↔ ∀ c ∈ s.dirty.chunks, ¬Unsynced (s.visits io) c := by
    refine forall₂_congr fun c hc => ?_
    rcases hends c hc with ⟨h1, h2⟩ | ⟨-, h2, ⟨h3, h4⟩ | ⟨h3, h4⟩⟩
    · exact iff_of_true (.inl h1) h2
    · exact iff_of_true (.inr h3) h4
    · exact iff_of_false (not_or.mpr ⟨h2, h3⟩) (not_not.mpr h4)
  have hnamed (hno : ¬LevelFails io s) : Speaks io s := by
    intro c hc hlost
    obtain ⟨report, hreport, herrors⟩ := hok hno
    rcases hends c hc with ⟨h1, -⟩ | ⟨⟨e, he, hname⟩, -⟩
    · exact absurd h1 hlost
    · exact ⟨report, hreport, e, herrors ▸ he, hname⟩
  constructor
  · rw [hkeeps, and_iff_left_iff_imp]
    intro _ c hc hlost
    by_cases hlevel : LevelFails io s
    · exact .inr (hfails hlevel)
    · exact .inl (hnamed hlevel c hc hlost)
  · rw [hkeeps]
    refine and_congr_right fun _ => ?_
    constructor
    · rintro hspeaks ⟨hlevel, c, hc, hlost⟩
      obtain ⟨report, hreport, -⟩ := hspeaks c hc hlost
      obtain ⟨e, herr⟩ := hfails hlevel
      rw [hreport] at herr
      cases herr
    · intro hno c hc hlost
      exact hnamed (fun hlevel => hno ⟨hlevel, c, hc, hlost⟩) c hc hlost

/-- One dirty chunk whose region opens, takes the write, and fails to sync. -/
def oneChunk : WorldStorage Unit Nat Unit where
  level := none
  cache := .fresh
  pending := OrdMap.empty.insert (toLex (.overworld, ⟨0, 0⟩)) 7
  dirty := ⟨{toLex (.overworld, ⟨0, 0⟩)}, false⟩

def noSync : Io Unit Nat Unit where
  openRegion _ := .ok ()
  writeChunk _ _ _ := (.ok (), ())
  sync _ := (.error (.operational "fsync r.0.0.mca: Input/output error"), ())
  writeLevel _ := .ok ()

theorem oneChunk_backed : Backed oneChunk := by
  intro c hc
  obtain rfl := Finset.mem_singleton.mp hc
  exact ⟨7, rfl⟩

theorem flush_keeps_oneChunk :
    (Keeps noSync oneChunk ∧ SpeaksOrFails noSync oneChunk ↔
      ∀ c ∈ oneChunk.dirty.chunks, ¬Unsynced (oneChunk.visits noSync) c) ∧
    (Keeps noSync oneChunk ∧ Speaks noSync oneChunk ↔
      (∀ c ∈ oneChunk.dirty.chunks, ¬Unsynced (oneChunk.visits noSync) c) ∧
        ¬(LevelFails noSync oneChunk ∧
          ∃ c ∈ oneChunk.dirty.chunks, ¬Durable (oneChunk.visits noSync) c)) :=
  flush_keeps_iff noSync oneChunk oneChunk_backed

theorem oneChunk_byRegion : oneChunk.dirty.byRegion =
    [(toLex (.overworld, toLex (0, 0)), [toLex (.overworld, ⟨0, 0⟩)])] := by
  have hfilter : oneChunk.dirty.chunks.filter
      (·.regionKey = (toLex (.overworld, toLex (0, 0)) : RegionKey)) =
      {toLex (.overworld, ⟨0, 0⟩)} := by decide
  have himage : oneChunk.dirty.chunks.image ChunkKey.regionKey =
      {(toLex (.overworld, toLex (0, 0)) : RegionKey)} := by decide
  simp only [DirtyTracker.byRegion, himage, Finset.sort_singleton, List.map_cons, List.map_nil,
    hfilter]

/-- After the flush the written chunk is neither dirty nor pending, and its region is not synced. -/
theorem unsynced_chunk_dropped :
    Backed oneChunk ∧ ¬Keeps noSync oneChunk ∧ (oneChunk.flush noSync).2.dirty.chunks = ∅ ∧
      (oneChunk.flush noSync).2.pending.entries = [] := by
  have hflush : (oneChunk.flush noSync).2.dirty.chunks = ∅ ∧
      (oneChunk.flush noSync).2.pending.entries = [] := by
    simp only [flush, DirtyTracker.snapshot, oneChunk_byRegion]
    exact ⟨rfl, rfl⟩
  refine ⟨oneChunk_backed, fun h => ?_, hflush⟩
  rcases h (toLex (.overworld, ⟨0, 0⟩)) (Finset.mem_singleton_self _) with hdurable | hkept
  · obtain ⟨v, hv, -, w, hw, hsync, -⟩ := hdurable
    simp only [visits, oneChunk_byRegion] at hv
    have hv' : v ∈ [(⟨toLex (.overworld, toLex (0, 0)), [toLex (.overworld, ⟨0, 0⟩)],
      .ok ⟨1, [], some (.operational "fsync r.0.0.mca: Input/output error")⟩⟩ : Visit)] := hv
    rw [List.mem_singleton] at hv'
    subst hv'
    cases hw
    cases hsync
  · rw [Retained, hflush.1] at hkept
    exact absurd hkept.1 (Finset.notMem_empty _)

end WorldStorage
end Apoptosis.L2.Storage
