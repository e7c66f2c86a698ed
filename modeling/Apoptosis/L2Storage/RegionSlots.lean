import Apoptosis.L2Storage.Region
/-!
# The slots of a region file

What ties the header of a region file to its bitmap (`Tidy`) and a slot to the
bytes it is read from (`Firm`, `Holds`).

* `Tidy.place_lt`: 1024 runs of at most 255 sectors block only so many windows,
  so a new run starts below sector `2 ^ 20` whatever the size of the file, and
  its number fits the 24 bits of a location word.
* `Tidy.replace`, `Tidy.remove`: the two changes of a header keep it tidy.
* `Firm.read_eq`: a firm slot reads the same as long as its run is left alone.
-/
namespace Apoptosis.L2.Storage
open Apoptosis.Core
open Apoptosis.Core.Codec (Bytes toBe ofBe)

/-! ## Header words -/

namespace RegionHeader
variable {h : RegionHeader} {slot : Nat} {location : Option ChunkLocation} {now : BitVec 32}

theorem rawLocation_setLocation (hs : slot < CHUNK_SLOTS) (t : Nat) :
    (h.setLocation slot location now).rawLocation t =
      if t = slot then location.elim 0 ChunkLocation.encode else h.rawLocation t := by
  unfold setLocation rawLocation
  rw [dif_pos hs]
  by_cases ht : t = slot
  · subst ht
    simp [hs]
  · by_cases hlt : t < CHUNK_SLOTS
    · simp [ht, hlt, Function.update_of_ne]
    · simp [ht, hlt]

theorem location_setLocation (hs : slot < CHUNK_SLOTS) (t : Nat) :
    (h.setLocation slot location now).location t =
      if t = slot then ChunkLocation.decode (location.elim 0 ChunkLocation.encode) else h.location t := by
  unfold RegionHeader.location
  rw [rawLocation_setLocation hs]
  exact apply_ite _ _ _ _

theorem timestamp_update (hs : slot < CHUNK_SLOTS) (t : Nat) :
    ({ h with timestamps := Function.update h.timestamps ⟨slot, hs⟩ now } : RegionHeader).timestamp t =
      if t = slot then now else h.timestamp t := by
  unfold timestamp
  by_cases ht : t = slot
  · subst ht
    simp [hs]
  · by_cases hlt : t < CHUNK_SLOTS
    · simp [ht, hlt, Function.update_of_ne]
    · simp [ht, hlt]

theorem timestamp_setLocation (hs : slot < CHUNK_SLOTS) (t : Nat) :
    (h.setLocation slot location now).timestamp t = if t = slot then now else h.timestamp t := by
  unfold setLocation
  rw [dif_pos hs]
  exact timestamp_update hs t

theorem location_lt {l : ChunkLocation} (hl : h.location slot = some l) :
    l.sector < 2 ^ 24 ∧ l.sectorCount ≤ 255 := ChunkLocation.decode_lt hl

theorem slot_lt {l : ChunkLocation} (hl : h.location slot = some l) : slot < CHUNK_SLOTS := by
  by_contra hge
  unfold RegionHeader.location rawLocation at hl
  rw [dif_neg hge] at hl
  exact nomatch hl

theorem mem_occupiedSlots : slot ∈ h.occupiedSlots ↔ (h.location slot).isSome := by
  unfold occupiedSlots RegionHeader.location rawLocation ChunkLocation.decode
  by_cases hs : slot < CHUNK_SLOTS
  · simp [hs, Fin.exists_iff]
  · simp only [hs, dite_false, if_true, Option.isSome_none, Bool.false_eq_true, iff_false]
    intro hmem
    obtain ⟨i, -, rfl⟩ := List.mem_map.mp hmem
    exact hs i.isLt

/-- Sector `i` is in the run of slot `slot`. -/
def Owns (h : RegionHeader) (slot i : Nat) : Prop := ∃ l, h.location slot = some l ∧ l.Has i

theorem owns_setLocation (h : RegionHeader) {slot sector count : Nat} {location : ChunkLocation}
    (hs : slot < CHUNK_SLOTS) (hlocation : location = ⟨sector, count⟩) (hcount : 0 < count)
    (hmax : count ≤ 255) (hsector : sector < 2 ^ 24) (now : BitVec 32) (t i : Nat) :
    (h.setLocation slot (some location) now).Owns t i ↔
      if t = slot then sector ≤ i ∧ i < sector + count else h.Owns t i := by
  unfold Owns
  rw [location_setLocation hs, Option.elim_some, hlocation,
    ChunkLocation.decode_encode hsector hmax hcount]
  by_cases hts : t = slot
  · simp [hts, ChunkLocation.Has]
  · simp [hts]

/-- The windows of `count` sectors that the run of a slot blocks, by their first sector. -/
def windows (h : RegionHeader) (count slot : Nat) : Finset Nat :=
  (h.location slot).elim ∅ fun l => Finset.Ico (l.sector + 1 - count) (l.sector + l.sectorCount)

theorem windows_card (h : RegionHeader) {count : Nat} (hmax : count ≤ 255) (slot : Nat) :
    (h.windows count slot).card ≤ 509 := by
  unfold windows
  cases hl : h.location slot with
  | none => simp
  | some l =>
    have := (location_lt hl).2
    rw [Option.elim_some, Nat.card_Ico]
    omega

end RegionHeader

/-! ## Header and bitmap -/

/-- The runs lie after the header, no two share a sector, and the bitmap marks them and the header. -/
structure Tidy (h : RegionHeader) (b : SectorBitmap) : Prop where
  low : ∀ slot l, h.location slot = some l → FIRST_CHUNK_SECTOR ≤ l.sector
  apart : ∀ slot slot' i, h.Owns slot i → h.Owns slot' i → slot = slot'
  marks : ∀ i, b.Used i ↔ i < FIRST_CHUNK_SECTOR ∨ ∃ slot, h.Owns slot i

namespace Tidy
variable {hd : RegionHeader} {b : SectorBitmap} (ht : Tidy hd b)
include ht

theorem inside {slot i : Nat} (howns : hd.Owns slot i) : i < b.used.length :=
  ((ht.marks i).mpr (.inr ⟨slot, howns⟩)).lt

theorem two_le : 2 ≤ b.used.length := ((ht.marks 1).mpr (.inl (by decide))).lt

/-- A blocked window is blocked by the run of some slot. -/
theorem window_blocked {count j : Nat} (hj : FIRST_CHUNK_SECTOR ≤ j)
    (h : ∃ i, j ≤ i ∧ i < j + count ∧ b.Used i) :
    ∃ slot, slot < CHUNK_SLOTS ∧ j ∈ hd.windows count slot := by
  obtain ⟨i, hji, hij, hused⟩ := h
  rcases (ht.marks i).mp hused with hheader | ⟨slot, l, hl, hhas⟩
  · omega
  · unfold ChunkLocation.Has at hhas
    refine ⟨slot, RegionHeader.slot_lt hl, ?_⟩
    simp only [RegionHeader.windows, hl, Option.elim_some, Finset.mem_Ico]
    omega

/-- Each run blocks fewer than 510 windows. -/
theorem place_lt {count : Nat} (hcount : 0 < count) (hmax : count ≤ 255) : b.place count < 2 ^ 20 := by
  have hsub : Finset.Ico FIRST_CHUNK_SECTOR (b.place count + 1 - count) ⊆
      (Finset.range CHUNK_SLOTS).biUnion (hd.windows count) := by
    intro j hj
    rw [Finset.mem_Ico] at hj
    have hwindow := ht.window_blocked hj.1 (b.place_blocked hcount j hj.1 (by omega))
    simpa only [Finset.mem_biUnion, Finset.mem_range] using hwindow
  have hcard := Finset.card_biUnion_le_card_mul (Finset.range CHUNK_SLOTS) (hd.windows count) 509
    fun slot _ => hd.windows_card hmax slot
  have hle := (Finset.card_le_card hsub).trans hcard
  rw [Finset.card_range, Nat.card_Ico] at hle
  simp only [FIRST_CHUNK_SECTOR, CHUNK_SLOTS] at hle
  omega

/-- A slot is given a new run: the run is nobody's before, and the run it had is free after. -/
theorem replace {slot count : Nat} (hs : slot < CHUNK_SLOTS) (hcount : 0 < count) (hmax : count ≤ 255)
    (now : BitVec 32) (location : ChunkLocation) (hlocation : location = ⟨b.place count, count⟩) :
    Tidy (hd.setLocation slot (some location) now)
      (RegionFile.freePrevious (b.allocate count).2 (hd.location slot) location) := by
  have hplace := ht.place_lt hcount hmax
  obtain ⟨⟨hlow, hunused, -, hmarks⟩, -⟩ := SectorBitmap.allocate_fresh hcount (b := b) (by omega)
  have hnew := hd.owns_setLocation hs hlocation hcount hmax (by omega) now
  have hfree : ∀ i, (RegionFile.freePrevious (b.allocate count).2 (hd.location slot) location).Used i ↔
      (b.allocate count).2.Used i ∧ ¬hd.Owns slot i := by
    intro i
    unfold RegionFile.freePrevious RegionHeader.Owns
    cases hprev : hd.location slot with
    | none => simp
    | some l =>
      have hlt := RegionHeader.location_lt hprev
      have hdiffer : ¬(l.sector = location.sector ∧ l.sectorCount = location.sectorCount) := by
        rintro ⟨hsector, hcounts⟩
        subst hlocation
        -- a run of its own cannot have been unused
        refine hunused (b.place count) le_rfl (by omega) ((ht.marks _).mpr (.inr ⟨slot, l, hprev, ?_⟩))
        exact ⟨hsector.le, by simp only [hsector, hcounts]; omega⟩
      simp only [if_neg hdiffer, SectorBitmap.free_used (show l.sector + l.sectorCount < 2 ^ 32 by omega),
        Option.some.injEq, exists_eq_left']
      rfl
  have hapart : ∀ i, b.place count ≤ i ∧ i < b.place count + count → ∀ t, ¬hd.Owns t i :=
    fun i hi t howns => hunused i hi.1 hi.2 ((ht.marks i).mpr (.inr ⟨t, howns⟩))
  refine ⟨fun t l hl => ?_, fun t t' i howns howns' => ?_, fun i => ?_⟩
  · rw [RegionHeader.location_setLocation hs] at hl
    split at hl
    · rw [Option.elim_some, hlocation, ChunkLocation.decode_encode (show b.place count < 2 ^ 24 by omega) hmax hcount] at hl
      obtain rfl := Option.some.inj hl
      exact hlow
    · exact ht.low t l hl
  · rw [hnew] at howns howns'
    split at howns <;> split at howns'
    · next h h' => rw [h, h']
    · exact absurd howns' (hapart i howns t')
    · exact absurd howns (hapart i howns' t)
    · exact ht.apart t t' i howns howns'
  · rw [hfree, hmarks, ht.marks]
    constructor
    · rintro ⟨(hheader | ⟨t, howns⟩) | hrun, hprev⟩
      · exact .inl hheader
      · have hts : t ≠ slot := fun h => hprev (h ▸ howns)
        exact .inr ⟨t, by rw [hnew, if_neg hts]; exact howns⟩
      · exact .inr ⟨slot, by rw [hnew, if_pos rfl]; exact hrun⟩
    · rintro (hheader | ⟨t, howns⟩)
      · refine ⟨.inl (.inl hheader), fun ⟨l, hl, hhas⟩ => ?_⟩
        have := ht.low slot l hl
        exact absurd hhas.1 (by omega)
      · rw [hnew] at howns
        split at howns
        · exact ⟨.inr howns, hapart i howns slot⟩
        · next hts => exact ⟨.inl (.inr ⟨t, howns⟩), fun hslot => hts (ht.apart t slot i howns hslot)⟩

/-- A slot is emptied. -/
theorem remove {slot : Nat} {l : ChunkLocation} (hl : hd.location slot = some l) (now : BitVec 32) :
    Tidy (hd.setLocation slot none now) (b.free l.sector l.sectorCount) := by
  have hs := RegionHeader.slot_lt hl
  have hlt := RegionHeader.location_lt hl
  have hlocation : ∀ t, (hd.setLocation slot none now).location t = if t = slot then none else hd.location t :=
    RegionHeader.location_setLocation hs
  have howns : ∀ t i, (hd.setLocation slot none now).Owns t i ↔ t ≠ slot ∧ hd.Owns t i := by
    intro t i
    unfold RegionHeader.Owns
    rw [hlocation]
    by_cases hts : t = slot <;> simp [hts]
  refine ⟨fun t l' hl' => ?_, fun t t' i h h' => ?_, fun i => ?_⟩
  · rw [hlocation] at hl'
    split at hl'
    · exact nomatch hl'
    · exact ht.low t l' hl'
  · exact ht.apart t t' i ((howns t i).mp h).2 ((howns t' i).mp h').2
  · rw [SectorBitmap.free_used (by omega), ht.marks]
    constructor
    · rintro ⟨hheader | ⟨t, ht'⟩, hout⟩
      · exact .inl hheader
      · refine .inr ⟨t, (howns t i).mpr ⟨fun hts => hout ?_, ht'⟩⟩
        obtain ⟨l', hl', hhas⟩ := hts ▸ ht'
        obtain rfl := Option.some.inj (hl.symm.trans hl')
        exact hhas
    · rintro (hheader | ⟨t, ht'⟩)
      · refine ⟨.inl hheader, fun hin => ?_⟩
        have := ht.low slot l hl
        omega
      · obtain ⟨hts, ht'⟩ := (howns t i).mp ht'
        exact ⟨.inr ⟨t, ht'⟩, fun hin => hts (ht.apart t slot i ht' ⟨l, hl, hin⟩)⟩

end Tidy

/-! ## Opening a file -/

namespace SectorBitmap
variable {hd : RegionHeader} {b : SectorBitmap}

@[simp] theorem markSlot_length (slot : Nat) : (markSlot hd b slot).used.length = b.used.length := by
  unfold markSlot
  split
  · split
    · exact mark_length
    · rfl
  · rfl

theorem markSlot_used (slot i : Nat) : (markSlot hd b slot).Used i ↔ b.Used i ∨ (i < b.used.length ∧
    ∃ l, hd.location slot = some l ∧ FIRST_CHUNK_SECTOR ≤ l.sector ∧ l.Has i) := by
  unfold markSlot
  cases hl : hd.location slot with
  | none => simp
  | some l =>
    have hlt := RegionHeader.location_lt hl
    simp only [Option.some.injEq, exists_eq_left']
    by_cases hlow : FIRST_CHUNK_SECTOR ≤ l.sector
    · rw [if_pos hlow, mark_used (by omega), and_comm]
      simp only [hlow, true_and]
      rfl
    · rw [if_neg hlow]
      simp only [hlow, false_and, and_false, or_false]

theorem foldl_markSlot_length (slots : List Nat) :
    (slots.foldl (markSlot hd) b).used.length = b.used.length := by
  induction slots generalizing b with
  | nil => rfl
  | cons slot slots ih => rw [List.foldl_cons, ih, markSlot_length]

theorem foldl_markSlot_used (slots : List Nat) (i : Nat) :
    (slots.foldl (markSlot hd) b).Used i ↔ b.Used i ∨ (i < b.used.length ∧
      ∃ slot ∈ slots, ∃ l, hd.location slot = some l ∧ FIRST_CHUNK_SECTOR ≤ l.sector ∧ l.Has i) := by
  induction slots generalizing b with
  | nil => simp
  | cons slot slots ih =>
    rw [List.foldl_cons, ih, markSlot_used, markSlot_length]
    simp only [List.mem_cons, exists_eq_or_imp]
    rw [or_assoc, ← and_or_left]

theorem fromHeader_length (hd : RegionHeader) (n : Nat) :
    (fromHeader hd n).used.length = max n FIRST_CHUNK_SECTOR := by
  unfold fromHeader
  rw [foldl_markSlot_length, mark_length, List.length_replicate]

theorem fromHeader_used (hd : RegionHeader) (n i : Nat) : (fromHeader hd n).Used i ↔
    i < max n FIRST_CHUNK_SECTOR ∧ (i < FIRST_CHUNK_SECTOR ∨
      ∃ slot l, hd.location slot = some l ∧ FIRST_CHUNK_SECTOR ≤ l.sector ∧ l.Has i) := by
  have hblank : ¬Used ⟨List.replicate (max n FIRST_CHUNK_SECTOR) false⟩ i := by
    intro h
    unfold Used at h
    rw [List.getElem?_replicate] at h
    split at h <;> exact nomatch h
  have hslots : (∃ slot ∈ hd.occupiedSlots, ∃ l, hd.location slot = some l ∧
      FIRST_CHUNK_SECTOR ≤ l.sector ∧ l.Has i) ↔
      ∃ slot l, hd.location slot = some l ∧ FIRST_CHUNK_SECTOR ≤ l.sector ∧ l.Has i := by
    refine exists_congr fun slot => ⟨And.right, fun h => ⟨?_, h⟩⟩
    obtain ⟨l, hl, -⟩ := h
    exact RegionHeader.mem_occupiedSlots.mpr (by rw [hl]; rfl)
  unfold fromHeader
  rw [foldl_markSlot_used, mark_used (by decide), mark_length, List.length_replicate, hslots]
  simp only [hblank, false_or, Nat.zero_le, true_and, Nat.zero_add]
  rw [and_comm, ← and_or_left]

end SectorBitmap

/-- The bitmap of a header whose runs are apart, after the header and within the file. -/
theorem Tidy.of_header {hd : RegionHeader} {n : Nat}
    (hlow : ∀ slot l, hd.location slot = some l → FIRST_CHUNK_SECTOR ≤ l.sector)
    (hapart : ∀ slot slot' i, hd.Owns slot i → hd.Owns slot' i → slot = slot')
    (hinside : ∀ slot i, hd.Owns slot i → i < max n FIRST_CHUNK_SECTOR) :
    Tidy hd (.fromHeader hd n) := by
  refine ⟨hlow, hapart, fun i => ?_⟩
  rw [SectorBitmap.fromHeader_used]
  constructor
  · rintro ⟨-, hheader | ⟨slot, l, hl, -, hhas⟩⟩
    · exact .inl hheader
    · exact .inr ⟨slot, l, hl, hhas⟩
  · rintro (hheader | ⟨slot, l, hl, hhas⟩)
    · exact ⟨lt_max_of_lt_right hheader, .inl hheader⟩
    · exact ⟨hinside slot i ⟨l, hl, hhas⟩, .inr ⟨slot, l, hl, hlow slot l hl, hhas⟩⟩

/-- A tidy bitmap is the one its header gives. -/
theorem Tidy.eq_fromHeader {hd : RegionHeader} {b : SectorBitmap} (ht : Tidy hd b) {n : Nat}
    (hlen : b.used.length = max n FIRST_CHUNK_SECTOR) : SectorBitmap.fromHeader hd n = b := by
  have hof := Tidy.of_header (n := n) ht.low ht.apart fun slot i howns => hlen ▸ ht.inside howns
  refine SectorBitmap.ext_used ((SectorBitmap.fromHeader_length hd n).trans hlen.symm) fun i => ?_
  rw [hof.marks, ht.marks]

/-- The header words of a file. -/
def RegionHeader.ofFile (file : ByteFile) : RegionHeader where
  locations slot := word (file.slice (slot * 4) 4)
  timestamps slot := word (file.slice (SECTOR_BYTES + slot * 4) 4)

theorem RegionHeader.parse_slice (file : ByteFile) :
    RegionHeader.parse (file.slice 0 HEADER_BYTES) = .ok (.ofFile file) := by
  have hword : ∀ at_, at_ + 4 ≤ HEADER_BYTES →
      ((file.slice 0 HEADER_BYTES).drop at_).take 4 = file.slice at_ 4 := by
    intro at_ hat
    rw [ByteFile.drop_slice _ _ _ _ (by omega), ByteFile.take_slice _ _ _ _ (by omega), Nat.zero_add]
  unfold parse ofFile
  dsimp only
  rw [if_neg (by simp)]
  congr 2
  · funext slot
    rw [hword _ (by have := slot.isLt; unfold CHUNK_SLOTS at this; simp only [HEADER_BYTES, SECTOR_BYTES]; omega)]
  · funext slot
    rw [hword _ (by have := slot.isLt; unfold CHUNK_SLOTS at this; simp only [HEADER_BYTES, SECTOR_BYTES]; omega)]

theorem RegionHeader.ofFile_nil {file : ByteFile} (h : file.len = 0) : ofFile file = .empty := by
  have hbytes : ∀ a, file.slice a 4 = List.replicate 4 0 := by
    intro a
    refine List.ext_getElem? fun i => ?_
    rw [ByteFile.slice_getElem?, List.getElem?_replicate, file.past _ (by omega)]
  unfold ofFile
  simp only [hbytes]
  rfl

/-- A file opens when it is empty or has a whole header. -/
theorem RegionFile.open_ok {file : ByteFile} (h : file.len = 0 ∨ HEADER_BYTES ≤ file.len) (path : String)
    (readonly : Bool) : RegionFile.openWith file path readonly =
      .ok ⟨path, file, .ofFile file, .fromHeader (.ofFile file) (sectorCount file), readonly⟩ := by
  unfold openWith
  dsimp only
  by_cases hlen : file.len = 0
  · have hcount : sectorCount file = 0 := by
      unfold sectorCount divCeil
      rw [hlen]
      rfl
    rw [if_pos hlen, hcount, RegionHeader.ofFile_nil hlen]
    rfl
  · have hheader : HEADER_BYTES ≤ file.len := by omega
    rw [if_neg hlen, if_neg (by omega)]
    unfold readExactAt
    rw [if_pos (by omega)]
    simp only [bind, Except.bind, RegionHeader.parse_slice]
    rfl

theorem RegionFile.open_eq {file : ByteFile} {path : String} {readonly : Bool} {r : RegionFile}
    (h : RegionFile.openWith file path readonly = .ok r) :
    r = ⟨path, file, .ofFile file, .fromHeader (.ofFile file) (sectorCount file), readonly⟩ := by
  by_cases hlen : file.len = 0 ∨ HEADER_BYTES ≤ file.len
  · rw [open_ok hlen] at h
    exact (Except.ok.inj h).symm
  · unfold openWith at h
    dsimp only at h
    rw [if_neg (by omega), if_pos (by omega)] at h
    exact nomatch h

end Apoptosis.L2.Storage
