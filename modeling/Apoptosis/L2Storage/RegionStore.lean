import Apoptosis.Core.Runs
import Apoptosis.L2Storage.RegionWords
/-!
# Calls on a region file

What a write or a removal does to the slots of a region file.

* `plan_spec`: all that a planned write can be; `apply_cases` adds removals.
* `others_unchanged`: in a file whose slots are all whole, a call on one slot
  never changes what another slot reads. `truncated_interferes` is a file with
  a slot that is not: the sectors past the end of a file are not marked, so the
  first write that needs new sectors is given them.
-/
namespace Apoptosis.L2.Storage
open Apoptosis.Core
open Apoptosis.Core.Codec (Bytes toBe ofBe)

/-! ## What a write does -/

namespace RegionFile
variable {z : Codecs} {r : RegionFile} {slot : Nat} {data : Bytes} {codec : Compression} {now : BitVec 32}
  {plan : Plan}

/-- The header write, made when the file is still empty. -/
def headerWrites (r : RegionFile) : List FileWrite := if r.file.len = 0 then [⟨0, r.header.bytes⟩] else []

/-- The file when the payload is about to be written. -/
def prepared (r : RegionFile) : ByteFile := r.file.writes r.headerWrites

def payloadWrite (l : ChunkLocation) (codec : Compression) (packed : Bytes) : FileWrite :=
  ⟨l.byteOffset, body codec packed l.sectorCount⟩

/-- All that a planned write of a tidy file can be: `packed` goes to the new run `l`. -/
structure Planned (z : Codecs) (r : RegionFile) (slot : Nat) (data : Bytes) (codec : Compression)
    (now : BitVec 32) (plan : Plan) (packed : Bytes) (l : ChunkLocation) : Prop where
  compressed : codec.compress z data = .ok packed
  slot_lt : slot < CHUNK_SLOTS
  low : FIRST_CHUNK_SECTOR ≤ l.sector
  sector_lt : l.sector < 2 ^ 20
  count_pos : 0 < l.sectorCount
  count_le : l.sectorCount ≤ 255
  fits : packed.length + 5 ≤ l.sectorCount * SECTOR_BYTES
  fresh : ∀ t i, r.header.Owns t i → ¬l.Has i
  header : plan.header = r.header.setLocation slot (some l) now
  tidy : Tidy plan.header plan.bitmap
  length : plan.bitmap.used.length = max r.bitmap.used.length (l.sector + l.sectorCount)
  writes : plan.writes = r.headerWrites ++
    [payloadWrite l codec packed, timestampWrite slot now, locationWrite slot l.encode]

theorem freePrevious_length (b : SectorBitmap) (previous : Option ChunkLocation) (l : ChunkLocation) :
    (freePrevious b previous l).used.length = b.used.length := by
  unfold freePrevious
  split
  · rfl
  · split
    · rfl
    · exact SectorBitmap.free_length

theorem plan_spec (ht : Tidy r.header r.bitmap) (h : r.planWrite z slot data codec now = .ok plan) :
    ∃ packed l, Planned z r slot data codec now plan packed l := by
  unfold planWrite at h
  dsimp only at h
  split at h
  · exact nomatch h
  split at h
  · exact nomatch h
  next hro hslot =>
  cases hpacked : codec.compress z data with
  | error e =>
    rw [hpacked] at h
    exact nomatch h
  | ok packed =>
    rw [hpacked] at h
    simp only [bind, Except.bind] at h
    split at h
    · exact nomatch h
    next hbig =>
    generalize hcount : divCeil (packed.length + 1 + 4) SECTOR_BYTES = count at h
    have hcounts : 0 < count ∧ count ≤ 255 ∧ packed.length + 5 ≤ count * SECTOR_BYTES := by
      unfold divCeil at hcount
      simp only [MAX_SECTORS_PER_CHUNK, SECTOR_BYTES] at *
      omega
    obtain ⟨hpos, hmax, hfits⟩ := hcounts
    have hplace := ht.place_lt hpos hmax
    obtain ⟨hfresh, hsector⟩ := SectorBitmap.allocate_fresh hpos (b := r.bitmap) (by omega)
    have hlt : slot < CHUNK_SLOTS := by omega
    rw [hsector] at h
    obtain rfl := Except.ok.inj h
    refine ⟨packed, ⟨r.bitmap.place count, count⟩, hpacked, hlt, hfresh.low, hplace, hpos, hmax, hfits,
      fun t i howns hhas => ?_, rfl, ht.replace hlt hpos hmax now _ rfl, ?_, ?_⟩
    · exact hfresh.unused i hhas.1 hhas.2 ((ht.marks i).mpr (.inr ⟨t, howns⟩))
    · exact (freePrevious_length _ _ _).trans hfresh.length
    · show _ = _
      rw [RegionHeader.rawLocation_setLocation hlt, if_pos rfl]
      rfl

section
variable {packed : Bytes} {l : ChunkLocation} (hp : Planned z r slot data codec now plan packed l)
include hp

theorem Planned.location (t : Nat) :
    plan.header.location t = if t = slot then some l else r.header.location t := by
  rw [hp.header, RegionHeader.location_setLocation hp.slot_lt, Option.elim_some,
    ChunkLocation.decode_encode (hp.sector_lt.trans (by decide)) hp.count_le hp.count_pos]

theorem Planned.timestamp (t : Nat) :
    plan.header.timestamp t = if t = slot then now else r.header.timestamp t := by
  rw [hp.header, RegionHeader.timestamp_setLocation hp.slot_lt]

/-- The new run shares no byte with the run of any slot. -/
theorem Planned.bytes_apart {t : Nat} {l' : ChunkLocation} (hl' : r.header.location t = some l') :
    ∀ i ∈ l'.bytes, i ∉ l.bytes := by
  intro i hi hin
  exact hp.fresh t _ ⟨l', hl', ChunkLocation.mem_bytes.mp hi⟩ (ChunkLocation.mem_bytes.mp hin)

theorem Planned.payload_length : (body codec packed l.sectorCount).length = l.sectorCount * SECTOR_BYTES := by
  have := hp.fits
  unfold body
  simp only [List.length_append, Codec.toBe_length, List.length_cons, List.length_replicate]
  omega

theorem Planned.payload_covers : (payloadWrite l codec packed).covers = l.bytes := by
  unfold FileWrite.covers payloadWrite ChunkLocation.bytes
  rw [hp.payload_length]

end

theorem headerWrites_keeps (r : RegionFile) : ByteFile.Keeps headerBytes r.file r.prepared := by
  refine ByteFile.writes_keeps _ (fun w hw i hi => ?_) r.file
  unfold headerWrites at hw
  split at hw
  · obtain rfl := List.mem_singleton.mp hw
    have h : i < 0 + r.header.bytes.length := hi.2
    rw [RegionHeader.bytes_length, Nat.zero_add] at h
    exact h
  · exact nomatch hw

section
variable {packed : Bytes} {l : ChunkLocation} (hp : Planned z r slot data codec now plan packed l)
include hp

theorem Planned.file_eq : r.file.writes plan.writes =
    ((r.prepared.write (payloadWrite l codec packed)).write (timestampWrite slot now)).write
      (locationWrite slot l.encode) := by
  rw [hp.writes, ByteFile.writes_append]
  rfl

/-- A write touches the header and its new run. -/
theorem Planned.keeps : ByteFile.Keeps (headerBytes ∪ l.bytes) r.file (r.file.writes plan.writes) := by
  have hpayload := r.prepared.write_keeps (payloadWrite l codec packed)
  rw [hp.payload_covers] at hpayload
  have hts := timestampWrite_keeps hp.slot_lt now (r.prepared.write (payloadWrite l codec packed))
  have hloc := locationWrite_keeps hp.slot_lt l.encode
    ((r.prepared.write (payloadWrite l codec packed)).write (timestampWrite slot now))
  rw [hp.file_eq]
  refine (r.headerWrites_keeps.mono Set.subset_union_left).trans ?_
  refine (hpayload.mono Set.subset_union_right).trans ?_
  exact (hts.mono Set.subset_union_left).trans (hloc.mono Set.subset_union_left)

/-- The new chunk is in its run. -/
theorem Planned.holds : l.Holds (r.file.writes plan.writes) codec packed := by
  have hshort : packed.length + 1 < 2 ^ 32 := by
    have h1 := hp.fits
    have h2 := Nat.mul_le_mul_right SECTOR_BYTES hp.count_le
    simp only [SECTOR_BYTES] at *
    omega
  have hpayload := ChunkLocation.Holds.of_write r.prepared codec hp.low hp.fits hshort
  have hts := timestampWrite_keeps hp.slot_lt now (r.prepared.write (payloadWrite l codec packed))
  have hloc := locationWrite_keeps hp.slot_lt l.encode
    ((r.prepared.write (payloadWrite l codec packed)).write (timestampWrite slot now))
  have hheader := ChunkLocation.bytes_header hp.low
  rw [hp.file_eq]
  exact (hpayload.keeps hts hheader).keeps hloc hheader

end

end RegionFile

/-! ## Calls -/

/-- A call that changes a region file. -/
inductive Change where
  | write (slot : Nat) (data : Bytes) (compression : Compression) (now : BitVec 32)
  | remove (pos : ChunkPos)

namespace Change

def slot : Change → Nat
  | write slot _ _ _ => slot
  | remove pos => pos.slot

def apply (z : Codecs) (r : RegionFile) : Change → RegionFile
  | write slot data compression now => (r.writeChunkAt z slot data compression now).1
  | remove pos => (r.removeChunk pos).1

end Change

/-- What a call can do: nothing, a planned write, or the removal of a chunk. -/
theorem apply_cases (z : Codecs) {r : RegionFile} (ht : Tidy r.header r.bitmap) (c : Change) :
    c.apply z r = r ∨
    (∃ data codec now plan packed l, RegionFile.Planned z r c.slot data codec now plan packed l ∧
      c.apply z r = r.applyPlan plan) ∨
    ∃ l, r.header.location c.slot = some l ∧ c.apply z r = { r with
      file := r.file.writes [RegionFile.locationWrite c.slot 0, RegionFile.timestampWrite c.slot 0]
      header := r.header.setLocation c.slot none 0
      bitmap := r.bitmap.free l.sector l.sectorCount } := by
  cases c with
  | write slot data codec now =>
    simp only [Change.apply, RegionFile.writeChunkAt]
    cases hplan : r.planWrite z slot data codec now with
    | error e => exact .inl rfl
    | ok plan =>
      obtain ⟨packed, l, hp⟩ := RegionFile.plan_spec ht hplan
      exact .inr (.inl ⟨data, codec, now, plan, packed, l, hp, rfl⟩)
  | remove pos =>
    simp only [Change.apply, RegionFile.removeChunk]
    cases hl : r.header.location pos.slot with
    | none => exact .inl rfl
    | some l =>
      by_cases hro : r.readonly = true
      · exact .inl (by simp only [hro, if_true])
      · exact .inr (.inr ⟨l, hl, by simp only [if_neg hro]; rfl⟩)

/-- Header and bitmap agree, and the file holds what a read of any slot looks at. -/
structure Sound (r : RegionFile) : Prop where
  tidy : Tidy r.header r.bitmap
  firm : ∀ slot l, r.header.location slot = some l → l.Firm r.file

theorem removal_keeps {slot : Nat} (hs : slot < CHUNK_SLOTS) (f : ByteFile) : ByteFile.Keeps headerBytes f
    (f.writes [RegionFile.locationWrite slot 0, RegionFile.timestampWrite slot 0]) := by
  refine ByteFile.writes_keeps _ (fun w hw => ?_) f
  rcases List.mem_pair.mp hw with rfl | rfl
  · exact locationWrite_covers hs 0
  · exact timestampWrite_covers hs 0

/-- A call leaves the location, the timestamp and the bytes of every other slot alone. -/
theorem apply_frame (z : Codecs) {r : RegionFile} (ht : Tidy r.header r.bitmap) (c : Change) {t : Nat}
    (hne : t ≠ c.slot) :
    (c.apply z r).path = r.path ∧
    (c.apply z r).header.location t = r.header.location t ∧
    (c.apply z r).header.timestamp t = r.header.timestamp t ∧
    ∃ S, ByteFile.Keeps S r.file (c.apply z r).file ∧
      ∀ l, r.header.location t = some l → ∀ i ∈ l.bytes, i ∉ S := by
  rcases apply_cases z ht c with h | ⟨data, codec, now, plan, packed, l, hp, h⟩ | ⟨l, hl, h⟩
  · rw [h]
    exact ⟨rfl, rfl, rfl, ∅, .refl _ _, fun _ _ _ _ => Set.notMem_empty _⟩
  · rw [h]
    refine ⟨rfl, ?_, ?_, headerBytes ∪ l.bytes, hp.keeps, fun l' hl' i hi hin => ?_⟩
    · exact (hp.location t).trans (if_neg hne)
    · exact (hp.timestamp t).trans (if_neg hne)
    · rcases hin with hheader | hrun
      · exact ChunkLocation.bytes_header (ht.low t l' hl') i hi hheader
      · exact hp.bytes_apart hl' i hi hrun
  · have hs := RegionHeader.slot_lt hl
    rw [h]
    refine ⟨rfl, ?_, ?_, headerBytes, removal_keeps hs r.file, fun l' hl' => ?_⟩
    · exact (RegionHeader.location_setLocation hs t).trans (if_neg hne)
    · exact (RegionHeader.timestamp_setLocation hs t).trans (if_neg hne)
    · exact ChunkLocation.bytes_header (ht.low t l' hl')

theorem Sound.apply (z : Codecs) {r : RegionFile} (h : Sound r) (c : Change) : Sound (c.apply z r) := by
  have hothers : ∀ t l, t ≠ c.slot → (c.apply z r).header.location t = some l → l.Firm (c.apply z r).file := by
    intro t l hne hl
    obtain ⟨-, hloc, -, S, hkeeps, hS⟩ := apply_frame z h.tidy c hne
    rw [hloc] at hl
    exact (h.firm t l hl).keeps hkeeps (hS l hl)
  rcases apply_cases z h.tidy c with heq | ⟨data, codec, now, plan, packed, l, hp, heq⟩ | ⟨l, hl, heq⟩
  · rw [heq]
    exact h
  · refine ⟨by rw [heq]; exact hp.tidy, fun t l' hl' => ?_⟩
    by_cases hts : t = c.slot
    · rw [heq] at hl' ⊢
      have hloc := hp.location t
      rw [if_pos hts] at hloc
      obtain rfl := Option.some.inj (hloc.symm.trans hl')
      exact hp.holds.firm
    · exact hothers t l' hts hl'
  · refine ⟨by rw [heq]; exact h.tidy.remove hl 0, fun t l' hl' => ?_⟩
    by_cases hts : t = c.slot
    · rw [heq] at hl'
      have hloc : (r.header.setLocation c.slot none 0).location t = if t = c.slot then none else _ :=
        RegionHeader.location_setLocation (RegionHeader.slot_lt hl) t
      rw [if_pos hts] at hloc
      exact nomatch hloc.symm.trans hl'
    · exact hothers t l' hts hl'

/-- A call on one slot does not change what another reads. -/
theorem Sound.read_other (z : Codecs) {r : RegionFile} (h : Sound r) (c : Change) {t : Nat}
    (hne : t ≠ c.slot) (limit : Nat) :
    RegionFile.readChunkAt z (c.apply z r) t limit = RegionFile.readChunkAt z r t limit := by
  obtain ⟨hpath, hloc, hts, S, hkeeps, hS⟩ := apply_frame z h.tidy c hne
  unfold RegionFile.readChunkAt
  rw [hloc, hpath, hts]
  cases hl : r.header.location t with
  | none => rfl
  | some l =>
    dsimp only
    rw [(h.firm t l hl).read_eq hkeeps (hS l hl) (h.tidy.low t l hl)]

/-! ## Slots do not interfere -/

/-- The run of an occupied slot lies within the sectors of the file, and the file holds all of it
that a read looks at. -/
def Whole (file : ByteFile) (l : ChunkLocation) : Prop :=
  l.sectorCount = 0 ∨ (l.sector + l.sectorCount ≤ sectorCount file ∧ l.Firm file)

instance (file : ByteFile) (l : ChunkLocation) : Decidable (Whole file l) := inferInstanceAs (Decidable (_ ∨ _))

theorem Whole.lt {file : ByteFile} {l : ChunkLocation} (h : Whole file l) {i : Nat} (hhas : l.Has i) :
    i < max (sectorCount file) FIRST_CHUNK_SECTOR := by
  obtain ⟨hlo, hhi⟩ := hhas
  rcases h with hzero | ⟨hend, -⟩
  · omega
  · omega

/-- No call changes what a slot other than its own reads. -/
def Independent (z : Codecs) (r : RegionFile) (c : Change) : Prop :=
  ∀ t limit, t ≠ c.slot →
    RegionFile.readChunkAt z (c.apply z r) t limit = RegionFile.readChunkAt z r t limit

theorem others_unchanged (z : Codecs) {file : ByteFile} {path : String} {readonly : Bool} {r : RegionFile}
    (hopen : RegionFile.openWith file path readonly = .ok r)
    (hlow : ∀ slot l, r.header.location slot = some l → FIRST_CHUNK_SECTOR ≤ l.sector)
    (hapart : ∀ slot slot' i, r.header.Owns slot i → r.header.Owns slot' i → slot = slot')
    (hwhole : ∀ slot l, r.header.location slot = some l → Whole file l) (changes : List Change) :
    Along (fun r c => c.apply z r) (Independent z) r changes := by
  have hsound : Sound r := by
    obtain rfl := RegionFile.open_eq hopen
    refine ⟨?_, fun slot l hl => (hwhole slot l hl).elim .inl And.right⟩
    dsimp only at *
    exact Tidy.of_header hlow hapart fun slot i ⟨l, hl, hhas⟩ => (hwhole slot l hl).lt hhas
  exact along_of_inv (fun r c h => h.apply z c) (fun r c h t limit hne => h.read_other z c hne limit)
    changes hsound

/-- A header whose only chunk is said to be in sector 2. -/
def oneHeader : RegionHeader := RegionHeader.empty.setLocation 0 (some ⟨2, 1⟩) 7

/-- A file that ends before its only chunk. -/
def cutFile : ByteFile := ByteFile.empty.write ⟨0, oneHeader.bytes⟩

/-- The same file with the chunk. -/
def wholeFile : ByteFile := cutFile.write (RegionFile.payloadWrite ⟨2, 1⟩ .none [5])

def plainCodecs : Codecs := ⟨.plain, .plain⟩

theorem oneHeader_location (slot : Nat) : oneHeader.location slot = if slot = 0 then some ⟨2, 1⟩ else none := by
  unfold oneHeader
  rw [RegionHeader.location_setLocation (by decide)]
  split
  · exact ChunkLocation.decode_encode (by decide) (by decide) (by decide)
  · show ChunkLocation.decode (RegionHeader.empty.rawLocation slot) = none
    unfold RegionHeader.rawLocation
    split <;> rfl

theorem oneHeader_owns {slot i : Nat} (h : oneHeader.Owns slot i) : slot = 0 := by
  obtain ⟨l, hl, -⟩ := h
  rw [oneHeader_location] at hl
  by_contra hne
  rw [if_neg hne] at hl
  exact nomatch hl

theorem cutFile_len : cutFile.len = 8192 := by
  unfold cutFile
  rw [ByteFile.write_len, RegionHeader.bytes_length]
  decide

theorem wholeFile_holds : ChunkLocation.Holds wholeFile ⟨2, 1⟩ .none [5] :=
  .of_write cutFile .none (by decide) (by decide) (by decide)

theorem wholeFile_len : wholeFile.len = 12288 := by
  have hbody : (RegionFile.body .none [5] 1).length = 4096 := by
    unfold RegionFile.body
    simp only [List.length_append, List.length_replicate]
    decide
  unfold wholeFile RegionFile.payloadWrite
  rw [ByteFile.write_len, cutFile_len, hbody]
  decide

theorem wholeFile_header : RegionHeader.ofFile wholeFile = oneHeader := by
  have hkeeps := cutFile.write_keeps (RegionFile.payloadWrite ⟨2, 1⟩ .none [5])
  have hcover : ∀ i ∈ (RegionFile.payloadWrite ⟨2, 1⟩ .none [5]).covers, i ∉ headerBytes := by
    intro i hi hheader
    have h1 : 8192 ≤ i := hi.1
    have h2 : i < 8192 := hheader
    omega
  unfold wholeFile
  rw [RegionHeader.ofFile_keeps hkeeps hcover cutFile_len.ge]
  exact RegionHeader.ofFile_bytes _ _

theorem others_unchanged_whole : Along (fun r c => c.apply plainCodecs r) (Independent plainCodecs)
    ⟨"r.0.0.mca", wholeFile, .ofFile wholeFile, .fromHeader (.ofFile wholeFile) (sectorCount wholeFile), false⟩
    [.write 1 [9] .none 4, .remove ⟨1, 0⟩, .write 2 [] .zlib 5] := by
  have hlen : wholeFile.len = 0 ∨ HEADER_BYTES ≤ wholeFile.len := by
    rw [wholeFile_len]
    decide
  refine others_unchanged plainCodecs (RegionFile.open_ok hlen _ _) ?_ ?_ ?_ _
  · intro slot l hl
    dsimp only at hl
    rw [wholeFile_header, oneHeader_location] at hl
    split at hl
    · obtain rfl := Option.some.inj hl
      decide
    · exact nomatch hl
  · intro slot slot' i h h'
    dsimp only at h h'
    rw [wholeFile_header] at h h'
    rw [oneHeader_owns h, oneHeader_owns h']
  · intro slot l hl
    dsimp only at hl
    rw [wholeFile_header, oneHeader_location] at hl
    split at hl
    · obtain rfl := Option.some.inj hl
      refine .inr ⟨?_, wholeFile_holds.firm⟩
      unfold sectorCount
      rw [wholeFile_len]
      decide
    · exact nomatch hl

theorem SectorBitmap.allocate_header {b : SectorBitmap} (h : b.used.length = FIRST_CHUNK_SECTOR) (count : Nat) :
    (b.allocate count).1 = FIRST_CHUNK_SECTOR := by
  unfold SectorBitmap.allocate SectorBitmap.search
  rw [List.drop_of_length_le h.le, h]
  rfl

theorem cutFile_header : RegionHeader.ofFile cutFile = oneHeader := RegionHeader.ofFile_bytes _ _

theorem cutFile_plan {b : SectorBitmap} (hb : b.used.length = FIRST_CHUNK_SECTOR) :
    RegionFile.planWrite plainCodecs ⟨"r.0.0.mca", cutFile, oneHeader, b, false⟩ 1 [] .none 9 = .ok
      { writes := [RegionFile.payloadWrite ⟨2, 1⟩ .none [], RegionFile.timestampWrite 1 9,
          RegionFile.locationWrite 1 ((oneHeader.setLocation 1 (some ⟨2, 1⟩) 9).rawLocation 1)]
        header := oneHeader.setLocation 1 (some ⟨2, 1⟩) 9
        bitmap := RegionFile.freePrevious (b.allocate 1).2 (oneHeader.location 1) ⟨2, 1⟩ } := by
  have hsector := SectorBitmap.allocate_header hb 1
  have hlen : ¬cutFile.len = 0 := by
    rw [cutFile_len]
    decide
  unfold RegionFile.planWrite
  dsimp only
  rw [if_neg (by decide), if_neg (by decide), if_neg hlen]
  dsimp only [bind, Except.bind, Compression.compress]
  rw [if_neg (by decide), show divCeil (([] : Bytes).length + 1 + 4) SECTOR_BYTES = 1 from rfl, hsector]
  rfl

/-- The chunk of the cut file cannot be read. -/
theorem cutFile_read (b : SectorBitmap) : ∃ e,
    RegionFile.readChunkAt plainCodecs ⟨"r.0.0.mca", cutFile, oneHeader, b, false⟩ 0 0 = .error e := by
  have hend : cutFile.len ≤ ChunkLocation.byteOffset ⟨2, 1⟩ := by
    rw [cutFile_len]
    decide
  unfold RegionFile.readChunkAt
  dsimp only
  rw [oneHeader_location, if_pos rfl]
  unfold RegionFile.readLocated
  dsimp only
  rw [if_neg (by decide), if_neg (by decide), if_pos hend]
  exact ⟨_, rfl⟩

/-- After a write of slot 1, slot 0 reads the chunk of slot 1. -/
theorem cutFile_written {b : SectorBitmap} (hb : b.used.length = FIRST_CHUNK_SECTOR) :
    RegionFile.readChunkAt plainCodecs ((Change.write 1 [] .none 9).apply plainCodecs
      ⟨"r.0.0.mca", cutFile, oneHeader, b, false⟩) 0 0 = .ok (some ⟨.none, [], oneHeader.timestamp 0⟩) := by
  have hlow : FIRST_CHUNK_SECTOR ≤ (⟨2, 1⟩ : ChunkLocation).sector := by decide
  have hheader := ChunkLocation.bytes_header hlow
  have hpayload := ChunkLocation.Holds.of_write cutFile .none (l := ⟨2, 1⟩) hlow
    (show ([] : Bytes).length + 5 ≤ _ by decide) (by decide)
  have hslot : 1 < CHUNK_SLOTS := by decide
  have hholds := (hpayload.keeps (timestampWrite_keeps hslot 9 _) hheader).keeps
    (locationWrite_keeps hslot ((oneHeader.setLocation 1 (some ⟨2, 1⟩) 9).rawLocation 1) _) hheader
  simp only [Change.apply, RegionFile.writeChunkAt, cutFile_plan hb, RegionFile.applyPlan,
    RegionFile.readChunkAt]
  rw [RegionHeader.location_setLocation (by decide), if_neg (by decide), oneHeader_location, if_pos rfl,
    RegionHeader.timestamp_setLocation (by decide), if_neg (by decide)]
  simp only [ByteFile.writes_cons, ByteFile.writes_nil, RegionFile.payloadWrite]
  rw [hholds.read_eq]
  rfl

/-- The first write into a file that ends before its only chunk lands in that chunk's run. -/
theorem truncated_interferes : ¬∀ (z : Codecs) (file : ByteFile) (path : String) (readonly : Bool)
    (r : RegionFile), RegionFile.openWith file path readonly = .ok r →
    (∀ slot l, r.header.location slot = some l → FIRST_CHUNK_SECTOR ≤ l.sector) →
    (∀ slot slot' i, r.header.Owns slot i → r.header.Owns slot' i → slot = slot') →
    ∀ changes, Along (fun r c => c.apply z r) (Independent z) r changes := by
  intro h
  have hlen : cutFile.len = 0 ∨ HEADER_BYTES ≤ cutFile.len := by
    rw [cutFile_len]
    decide
  have hopen := RegionFile.open_ok hlen "r.0.0.mca" false
  have hb : (SectorBitmap.fromHeader oneHeader (sectorCount cutFile)).used.length = FIRST_CHUNK_SECTOR := by
    rw [SectorBitmap.fromHeader_length, sectorCount, cutFile_len]
    decide
  rw [cutFile_header] at hopen
  generalize SectorBitmap.fromHeader oneHeader (sectorCount cutFile) = b at hopen hb
  have hlow : ∀ slot l, oneHeader.location slot = some l → FIRST_CHUNK_SECTOR ≤ l.sector := by
    intro slot l hl
    rw [oneHeader_location] at hl
    split at hl
    · obtain rfl := Option.some.inj hl
      decide
    · exact nomatch hl
  have hapart : ∀ slot slot' i, oneHeader.Owns slot i → oneHeader.Owns slot' i → slot = slot' :=
    fun slot slot' i h h' => (oneHeader_owns h).trans (oneHeader_owns h').symm
  obtain ⟨hindependent, -⟩ := h plainCodecs cutFile "r.0.0.mca" false _ hopen hlow hapart [.write 1 [] .none 9]
  obtain ⟨e, hbefore⟩ := cutFile_read b
  have hsame := hindependent 0 0 (by decide)
  rw [cutFile_written hb, hbefore] at hsame
  exact nomatch hsame

end Apoptosis.L2.Storage
