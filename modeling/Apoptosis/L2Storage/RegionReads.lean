import Apoptosis.L2Storage.RegionSlots
/-!
# Reading a slot of a region file

What a read depends on. `Firm` says of the run of a slot that the file holds
all that a read of it looks at; `Holds` says which chunk is there.

* `Firm.read_eq`: a firm slot reads the same, for the same reason or with the
  same error, as long as its run is left alone.
* `Holds.read_eq`: the chunk that is there is what a read returns.
* `Holds.of_write`: a stored body is there.
-/
namespace Apoptosis.L2.Storage
open Apoptosis.Core
open Apoptosis.Core.Codec (Bytes toBe ofBe)

namespace ChunkLocation

/-- The bytes of the run. -/
def bytes (l : ChunkLocation) : Set Nat :=
  {i | l.byteOffset ≤ i ∧ i < l.byteOffset + l.sectorCount * SECTOR_BYTES}

/-- The bytes that a read of the run can use. -/
def usable (file : ByteFile) (l : ChunkLocation) : Nat :=
  min (l.sectorCount * SECTOR_BYTES) (file.len - l.byteOffset)

def head (file : ByteFile) (l : ChunkLocation) : Bytes := file.slice l.byteOffset 5

/-- The length field. -/
def lengthField (file : ByteFile) (l : ChunkLocation) : Nat := ofBe ((l.head file).take 4)

def codecByte (file : ByteFile) (l : ChunkLocation) : UInt8 := (l.head file).getD 4 0

/-- No codec reads a payload with this byte. -/
def Undecodable (codecByte : UInt8) : Prop :=
  codecByte &&& EXTERNAL_STREAM_FLAG ≠ 0 ∨ Compression.fromId codecByte = none

instance (codecByte : UInt8) : Decidable (Undecodable codecByte) := inferInstanceAs (Decidable (_ ∨ _))

/-- The file holds what a read of the run looks at, within the run. A length field counts the
codec byte, so the payload ends `lengthField + 4` bytes after the start. -/
def Firm (file : ByteFile) (l : ChunkLocation) : Prop :=
  l.sectorCount = 0 ∨ (l.byteOffset + 5 ≤ file.len ∧
    (l.lengthField file = 0 ∨ l.lengthField file + 4 ≤ l.usable file ∨
      (l.lengthField file + 3 ≤ l.usable file ∧ Undecodable (l.codecByte file))))

instance (file : ByteFile) (l : ChunkLocation) : Decidable (l.Firm file) :=
  inferInstanceAs (Decidable (_ ∨ _))

/-- The run holds `packed`, framed as a body of codec `codec`. -/
structure Holds (file : ByteFile) (l : ChunkLocation) (codec : Compression) (packed : Bytes) : Prop where
  low : FIRST_CHUNK_SECTOR ≤ l.sector
  inside : l.byteOffset + l.sectorCount * SECTOR_BYTES ≤ file.len
  fits : packed.length + 5 ≤ l.sectorCount * SECTOR_BYTES
  short : packed.length + 1 < 2 ^ 32
  head_eq : l.head file = toBe 4 (packed.length + 1) ++ [codec.id]
  payload_eq : file.slice (l.byteOffset + 5) packed.length = packed

variable {z : Codecs} {path : String} {f g : ByteFile} {l : ChunkLocation} {slot limit : Nat}

theorem usable_mono (h : f.len ≤ g.len) : l.usable f ≤ l.usable g := by
  unfold usable
  omega

/-! ## What a read returns -/

section
variable (hlow : FIRST_CHUNK_SECTOR ≤ l.sector) (hpos : l.sectorCount ≠ 0)
  (hlen : l.byteOffset + 5 ≤ f.len)
include hlow hpos hlen

/-- Past the checks of the run, a read is a function of the head and of the usable bytes. -/
theorem readLocated_head : RegionFile.readLocated z path f l slot limit =
    if l.lengthField f < 1 then .error (RegionFile.emptyFrame path slot (l.lengthField f))
    else if l.usable f - 4 < l.lengthField f - 1 then
      .error (RegionFile.overlong path slot (l.lengthField f - 1) (l.usable f - 4) l.sectorCount
        (f.len - l.byteOffset))
    else RegionFile.readPayload z path f l slot limit (l.lengthField f - 1) (l.codecByte f) := by
  have husable : 5 ≤ min (l.sectorCount * SECTOR_BYTES) (f.len - l.byteOffset) := by
    have : SECTOR_BYTES ≤ l.sectorCount * SECTOR_BYTES := Nat.le_mul_of_pos_left _ (by omega)
    simp only [SECTOR_BYTES] at *
    omega
  unfold RegionFile.readLocated
  dsimp only
  rw [if_neg (by omega), if_neg hpos, if_neg (by omega), if_neg (by omega)]
  unfold readExactAt
  rw [if_pos hlen]
  rfl

theorem readLocated_fits (hfield : 1 ≤ l.lengthField f) (hfits : l.lengthField f + 3 ≤ l.usable f) :
    RegionFile.readLocated z path f l slot limit =
      RegionFile.readPayload z path f l slot limit (l.lengthField f - 1) (l.codecByte f) := by
  rw [readLocated_head hlow hpos hlen, if_neg (by omega), if_neg (by omega)]

end

theorem readPayload_undecodable {payloadLen : Nat} {codecByte : UInt8} (h : Undecodable codecByte) :
    RegionFile.readPayload z path f l slot limit payloadLen codecByte =
      RegionFile.readPayload z path g l slot limit payloadLen codecByte := by
  unfold RegionFile.readPayload
  dsimp only
  by_cases hext : codecByte &&& EXTERNAL_STREAM_FLAG ≠ 0
  · rw [if_pos hext, if_pos hext]
  · rw [if_neg hext, if_neg hext, h.resolve_left hext]

theorem readPayload_congr {payloadLen : Nat} {codecByte : UInt8}
    (hf : l.byteOffset + 5 + payloadLen ≤ f.len) (hg : l.byteOffset + 5 + payloadLen ≤ g.len)
    (h : g.slice (l.byteOffset + 5) payloadLen = f.slice (l.byteOffset + 5) payloadLen) :
    RegionFile.readPayload z path g l slot limit payloadLen codecByte =
      RegionFile.readPayload z path f l slot limit payloadLen codecByte := by
  unfold RegionFile.readPayload readExactAt
  rw [if_pos hf, if_pos hg, h]

/-! ## Reads of a run that is left alone -/

section
variable {S : Set Nat} (hkeeps : ByteFile.Keeps S f g) (hS : ∀ i ∈ l.bytes, i ∉ S)
include hkeeps hS

theorem slice_keeps {a n : Nat} (hlo : l.byteOffset ≤ a) (hlen : a + n ≤ f.len)
    (hhi : a + n ≤ l.byteOffset + l.sectorCount * SECTOR_BYTES) : g.slice a n = f.slice a n :=
  hkeeps.slice hlen fun i h h' => hS i ⟨by omega, by omega⟩

theorem head_keeps (hlen : l.byteOffset + 5 ≤ f.len) (hpos : l.sectorCount ≠ 0) : l.head g = l.head f := by
  have : SECTOR_BYTES ≤ l.sectorCount * SECTOR_BYTES := Nat.le_mul_of_pos_left _ (by omega)
  refine slice_keeps hkeeps hS le_rfl hlen ?_
  simp only [SECTOR_BYTES] at *
  omega

theorem Firm.keeps (h : l.Firm f) : l.Firm g := by
  rcases h with hzero | ⟨hlen, h⟩
  · exact .inl hzero
  · by_cases hpos : l.sectorCount = 0
    · exact .inl hpos
    · have hhead := head_keeps hkeeps hS hlen hpos
      have husable := usable_mono (l := l) hkeeps.len_le
      refine .inr ⟨hlen.trans hkeeps.len_le, ?_⟩
      unfold lengthField codecByte at *
      rw [hhead]
      rcases h with h | h | ⟨h, hcodec⟩
      · exact .inl h
      · exact .inr (.inl (h.trans husable))
      · exact .inr (.inr ⟨h.trans husable, hcodec⟩)

/-- A firm slot reads the same as long as its run is left alone. -/
theorem Firm.read_eq (h : l.Firm f) (hlow : FIRST_CHUNK_SECTOR ≤ l.sector) :
    RegionFile.readLocated z path g l slot limit = RegionFile.readLocated z path f l slot limit := by
  by_cases hpos : l.sectorCount = 0
  · unfold RegionFile.readLocated
    dsimp only
    rw [if_neg (by omega), if_pos hpos, if_neg (by omega), if_pos hpos]
  · obtain ⟨hlen, h⟩ := h.resolve_left hpos
    have hlen' := hlen.trans hkeeps.len_le
    have hhead := head_keeps hkeeps hS hlen hpos
    have husable := usable_mono (l := l) hkeeps.len_le
    have hfield : l.lengthField g = l.lengthField f := by unfold lengthField; rw [hhead]
    have hcodec : l.codecByte g = l.codecByte f := by unfold codecByte; rw [hhead]
    by_cases hzero : l.lengthField f = 0
    · rw [readLocated_head hlow hpos hlen, readLocated_head hlow hpos hlen', hfield,
        if_pos (by omega), if_pos (by omega)]
    · rcases h.resolve_left hzero with hfits | ⟨hfits, hundecodable⟩
      · have hle := hkeeps.len_le
        have hin := hfits
        unfold usable at hin
        rw [readLocated_fits hlow hpos hlen (by omega) (by omega),
          readLocated_fits hlow hpos hlen' (by omega) (by omega), hfield, hcodec]
        exact readPayload_congr (by omega) (by omega)
          (slice_keeps hkeeps hS (by omega) (by omega) (by omega))
      · rw [readLocated_fits hlow hpos hlen (by omega) (by omega),
          readLocated_fits hlow hpos hlen' (by omega) (by omega), hfield, hcodec]
        exact readPayload_undecodable hundecodable

theorem Holds.keeps {codec : Compression} {packed : Bytes} (h : Holds f l codec packed) :
    Holds g l codec packed := by
  have hfits := h.fits
  have hinside := h.inside
  have hpos : l.sectorCount ≠ 0 := by
    intro hzero
    rw [hzero] at hfits
    omega
  refine ⟨h.low, h.inside.trans hkeeps.len_le, h.fits, h.short, ?_, ?_⟩
  · rw [head_keeps hkeeps hS (by omega) hpos, h.head_eq]
  · rw [slice_keeps hkeeps hS (by omega) (by omega) (by omega), h.payload_eq]

end

/-! ## Stored chunks -/

section
variable {codec : Compression} {packed : Bytes} (h : Holds f l codec packed)
include h

theorem Holds.lengthField_eq : l.lengthField f = packed.length + 1 := by
  unfold lengthField
  rw [h.head_eq, List.take_left' (Codec.toBe_length 4 _), Codec.ofBe_toBe 4 _ h.short]

theorem Holds.codecByte_eq : l.codecByte f = codec.id := by
  unfold codecByte
  rw [h.head_eq, List.getD_eq_getElem?_getD, List.getElem?_append_right (by simp), Codec.toBe_length]
  rfl

theorem Holds.firm : l.Firm f := by
  have hfits := h.fits
  have hinside := h.inside
  refine .inr ⟨by omega, .inr (.inl ?_)⟩
  rw [h.lengthField_eq]
  unfold usable
  omega

/-- The chunk that is there is what a read returns. -/
theorem Holds.read_eq : RegionFile.readLocated z path f l slot limit =
    (codec.decompress z packed limit).map fun data => (codec, data) := by
  have hfits := h.fits
  have hinside := h.inside
  have hpos : l.sectorCount ≠ 0 := by
    intro hzero
    rw [hzero] at hfits
    omega
  have husable : l.lengthField f + 4 ≤ l.usable f := by
    rw [h.lengthField_eq]
    unfold usable
    omega
  rw [readLocated_fits h.low hpos (by omega) (by rw [h.lengthField_eq]; omega) (by omega),
    h.codecByte_eq, h.lengthField_eq, Nat.add_sub_cancel]
  unfold RegionFile.readPayload readExactAt EXTERNAL_STREAM_FLAG
  dsimp only
  rw [if_neg (by simp [Compression.id_not_external]), Compression.fromId_id, if_pos (by omega), h.payload_eq]
  dsimp only [bind, Except.bind]
  cases codec.decompress z packed limit <;> rfl

end

/-- A stored body is there. -/
theorem Holds.of_write (f : ByteFile) (codec : Compression) {packed : Bytes} (hlow : FIRST_CHUNK_SECTOR ≤ l.sector)
    (hfits : packed.length + 5 ≤ l.sectorCount * SECTOR_BYTES) (hshort : packed.length + 1 < 2 ^ 32) :
    Holds (f.write ⟨l.byteOffset, RegionFile.body codec packed l.sectorCount⟩) l codec packed := by
  have hhead : (toBe 4 (packed.length + 1) ++ [codec.id]).length = 5 := by
    rw [List.length_append, Codec.toBe_length, List.length_singleton]
  have hbody : RegionFile.body codec packed l.sectorCount = (toBe 4 (packed.length + 1) ++ [codec.id]) ++
      (packed ++ List.replicate (l.sectorCount * SECTOR_BYTES - (packed.length + 5)) 0) := by
    have hframed : (toBe 4 (packed.length + 1) ++ codec.id :: packed).length = packed.length + 5 := by
      rw [List.length_append, Codec.toBe_length, List.length_cons]
      omega
    unfold RegionFile.body
    dsimp only
    rw [hframed]
    simp only [List.append_assoc, List.cons_append, List.nil_append]
  have hlength : (RegionFile.body codec packed l.sectorCount).length = l.sectorCount * SECTOR_BYTES := by
    rw [hbody, List.length_append, hhead, List.length_append, List.length_replicate]
    omega
  refine ⟨hlow, ?_, hfits, hshort, ?_, ?_⟩
  · exact (Nat.add_le_add_left hlength.ge _).trans (le_max_right _ _)
  · unfold head
    rw [ByteFile.slice_write _ _ _ _ le_rfl (by simp only [hlength]; omega), Nat.sub_self, List.drop_zero,
      hbody, List.take_left' hhead]
  · rw [ByteFile.slice_write _ _ _ _ (Nat.le_add_right _ _) (by simp only [hlength]; omega),
      Nat.add_sub_cancel_left, hbody, List.drop_left' hhead, List.take_left' rfl]

end ChunkLocation
end Apoptosis.L2.Storage
