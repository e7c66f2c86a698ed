import Apoptosis.L2Storage.RegionReads
/-!
# The header of a region file on disk

The header words a file holds (`RegionHeader.ofFile`) and what the writes of a
region file do to them: payloads leave them alone, the two words of a slot set
its location and its timestamp, and a header written whole is read back.
-/
namespace Apoptosis.L2.Storage
open Apoptosis.Core
open Apoptosis.Core.Codec (Bytes toBe ofBe)

/-! ## Bytes of runs and words -/

theorem ChunkLocation.mem_bytes {l : ChunkLocation} {i : Nat} : i ∈ l.bytes ↔ l.Has (i / SECTOR_BYTES) := by
  have h1 : l.byteOffset ≤ i ↔ l.sector ≤ i / SECTOR_BYTES := (Nat.le_div_iff_mul_le (by decide)).symm
  have h2 : i < l.byteOffset + l.sectorCount * SECTOR_BYTES ↔ i / SECTOR_BYTES < l.sector + l.sectorCount := by
    rw [Nat.div_lt_iff_lt_mul (by decide), Nat.add_mul]
    rfl
  exact and_congr h1 h2

/-- The bytes of the header. -/
def headerBytes : Set Nat := {i | i < HEADER_BYTES}

theorem ChunkLocation.bytes_header {l : ChunkLocation} (hlow : FIRST_CHUNK_SECTOR ≤ l.sector) :
    ∀ i ∈ l.bytes, i ∉ headerBytes := by
  intro i hi hheader
  have h1 := hi.1
  have h2 : i < HEADER_BYTES := hheader
  unfold ChunkLocation.byteOffset at h1
  simp only [FIRST_CHUNK_SECTOR, SECTOR_BYTES, HEADER_BYTES] at *
  omega

section
variable {slot : Nat} (hs : slot < CHUNK_SLOTS) (v : BitVec 32)
include hs

theorem timestampWrite_covers : (RegionFile.timestampWrite slot v).covers ⊆ headerBytes := by
  intro i hi
  have h : i < SECTOR_BYTES + slot * 4 + (toBe 4 v.toNat).length := hi.2
  rw [Codec.toBe_length] at h
  show i < HEADER_BYTES
  simp only [CHUNK_SLOTS, HEADER_BYTES, SECTOR_BYTES] at *
  omega

theorem locationWrite_covers : (RegionFile.locationWrite slot v).covers ⊆ headerBytes := by
  intro i hi
  have h : i < slot * 4 + (toBe 4 v.toNat).length := hi.2
  rw [Codec.toBe_length] at h
  show i < HEADER_BYTES
  simp only [CHUNK_SLOTS, HEADER_BYTES, SECTOR_BYTES] at *
  omega

theorem timestampWrite_keeps (f : ByteFile) :
    ByteFile.Keeps headerBytes f (f.write (RegionFile.timestampWrite slot v)) :=
  (f.write_keeps _).mono (timestampWrite_covers hs v)

theorem locationWrite_keeps (f : ByteFile) :
    ByteFile.Keeps headerBytes f (f.write (RegionFile.locationWrite slot v)) :=
  (f.write_keeps _).mono (locationWrite_covers hs v)

end

/-- Aligned words are read apart from each other. -/
theorem slice_write_word (f : ByteFile) (at_ p : Nat) (v : BitVec 32) (h : at_ % 4 = 0) (h' : p % 4 = 0) :
    (f.write ⟨at_, toBe 4 v.toNat⟩).slice p 4 = if p = at_ then toBe 4 v.toNat else f.slice p 4 := by
  by_cases heq : p = at_
  · subst heq
    have hself := f.slice_write_self ⟨p, toBe 4 v.toNat⟩
    rw [Codec.toBe_length] at hself
    rw [if_pos rfl]
    exact hself
  · rw [if_neg heq]
    refine ByteFile.slice_congr fun i hlo hhi => if_neg ?_
    simp only [Codec.toBe_length]
    omega

namespace RegionHeader

theorem ofFile_congr {f g : ByteFile} (h : ∀ i, i < HEADER_BYTES → g.byte i = f.byte i) :
    ofFile g = ofFile f := by
  have hslice : ∀ p, p + 4 ≤ HEADER_BYTES → g.slice p 4 = f.slice p 4 :=
    fun p hp => ByteFile.slice_congr fun i _ hhi => h i (by omega)
  unfold ofFile
  ext t : 2
  · have hlt := t.isLt
    dsimp only
    rw [hslice]
    simp only [CHUNK_SLOTS, HEADER_BYTES, SECTOR_BYTES] at *
    omega
  · have hlt := t.isLt
    dsimp only
    rw [hslice]
    simp only [CHUNK_SLOTS, HEADER_BYTES, SECTOR_BYTES] at *
    omega

theorem ofFile_keeps {S : Set Nat} {f g : ByteFile} (h : ByteFile.Keeps S f g)
    (hS : ∀ i ∈ S, i ∉ headerBytes) (hlen : HEADER_BYTES ≤ f.len) : ofFile g = ofFile f :=
  ofFile_congr fun i hi => h.same i (Nat.lt_of_lt_of_le hi hlen) fun hin => hS i hin hi

variable {f : ByteFile} {slot : Nat} (hs : slot < CHUNK_SLOTS)
include hs

theorem ofFile_timestampWrite (now : BitVec 32) : ofFile (f.write (RegionFile.timestampWrite slot now)) =
    { ofFile f with timestamps := Function.update (ofFile f).timestamps ⟨slot, hs⟩ now } := by
  unfold ofFile RegionFile.timestampWrite
  ext t : 2
  · have hlt := t.isLt
    dsimp only
    rw [slice_write_word _ _ _ _ (by simp only [SECTOR_BYTES]; omega) (by omega), if_neg]
    simp only [CHUNK_SLOTS, SECTOR_BYTES] at *
    omega
  · dsimp only
    rw [slice_write_word _ _ _ _ (by simp only [SECTOR_BYTES]; omega) (by simp only [SECTOR_BYTES]; omega)]
    by_cases ht : t = ⟨slot, hs⟩
    · subst ht
      rw [if_pos rfl, Function.update_self, word_toBe]
    · have hne : t.val ≠ slot := fun h => ht (Fin.ext h)
      rw [if_neg (by omega), Function.update_of_ne ht]

theorem ofFile_locationWrite (raw : BitVec 32) : ofFile (f.write (RegionFile.locationWrite slot raw)) =
    { ofFile f with locations := Function.update (ofFile f).locations ⟨slot, hs⟩ raw } := by
  unfold ofFile RegionFile.locationWrite
  ext t : 2
  · dsimp only
    rw [slice_write_word _ _ _ _ (by omega) (by omega)]
    by_cases ht : t = ⟨slot, hs⟩
    · subst ht
      rw [if_pos rfl, Function.update_self, word_toBe]
    · have hne : t.val ≠ slot := fun h => ht (Fin.ext h)
      rw [if_neg (by omega), Function.update_of_ne ht]
  · dsimp only
    rw [slice_write_word _ _ _ _ (by omega) (by simp only [SECTOR_BYTES]; omega), if_neg]
    simp only [CHUNK_SLOTS, SECTOR_BYTES] at *
    omega

/-- Both words of a slot, in the order a write makes them. -/
theorem ofFile_words (now : BitVec 32) (location : Option ChunkLocation) :
    ofFile ((f.write (RegionFile.timestampWrite slot now)).write
      (RegionFile.locationWrite slot (location.elim 0 ChunkLocation.encode))) =
    (ofFile f).setLocation slot location now := by
  unfold setLocation
  rw [ofFile_locationWrite hs, ofFile_timestampWrite hs, dif_pos hs]

/-- Both words of a slot, in the order a removal makes them. -/
theorem ofFile_words' (now : BitVec 32) (location : Option ChunkLocation) :
    ofFile ((f.write (RegionFile.locationWrite slot (location.elim 0 ChunkLocation.encode))).write
      (RegionFile.timestampWrite slot now)) =
    (ofFile f).setLocation slot location now := by
  unfold setLocation
  rw [ofFile_timestampWrite hs, ofFile_locationWrite hs, dif_pos hs]

end RegionHeader

/-- The `i`-th of pieces of equal length. -/
theorem flatMap_piece {α : Type} {f : α → Bytes} {k : Nat} (hk : ∀ a, (f a).length = k) (as : List α)
    (rest : Bytes) (i : Nat) (hi : i < as.length) :
    ((as.flatMap f ++ rest).drop (i * k)).take k = f as[i] := by
  induction as generalizing i with
  | nil => exact absurd hi (Nat.not_lt_zero i)
  | cons a as ih =>
    rw [List.flatMap_cons, List.append_assoc]
    cases i with
    | zero => rw [Nat.zero_mul, List.drop_zero, List.take_left' (hk a)]; rfl
    | succ i =>
      rw [Nat.succ_mul, Nat.add_comm, ← List.drop_drop, List.drop_left' (hk a),
        ih i (Nat.lt_of_succ_lt_succ hi), List.getElem_cons_succ]

theorem flatMap_pieces_length {α : Type} {f : α → Bytes} {k : Nat} (hk : ∀ a, (f a).length = k)
    (as : List α) : (as.flatMap f).length = as.length * k := by
  induction as with
  | nil => exact (Nat.zero_mul k).symm
  | cons a as ih => rw [List.flatMap_cons, List.length_append, hk, ih, List.length_cons, Nat.succ_mul, Nat.add_comm]

namespace RegionHeader

theorem bytes_length (h : RegionHeader) : h.bytes.length = HEADER_BYTES := by
  unfold bytes
  rw [List.length_append, flatMap_pieces_length fun _ => Codec.toBe_length 4 _,
    flatMap_pieces_length fun _ => Codec.toBe_length 4 _, List.length_finRange]
  rfl

/-- A header that is written is read back. -/
theorem ofFile_bytes (f : ByteFile) (h : RegionHeader) : ofFile (f.write ⟨0, h.bytes⟩) = h := by
  have hslice : ∀ p, p + 4 ≤ HEADER_BYTES → (f.write ⟨0, h.bytes⟩).slice p 4 = (h.bytes.drop p).take 4 :=
    fun p hp => ByteFile.slice_write f ⟨0, h.bytes⟩ p 4 (Nat.zero_le p) (by simp only [bytes_length]; omega)
  unfold ofFile
  ext t : 2
  · have hlt := t.isLt
    dsimp only
    rw [hslice]
    · unfold bytes
      rw [flatMap_piece (fun _ => Codec.toBe_length 4 _) _ _ _ (by simp), List.getElem_finRange]
      exact word_toBe _
    · simp only [CHUNK_SLOTS, HEADER_BYTES, SECTOR_BYTES] at *
      omega
  · have hlt := t.isLt
    have hfirst : ((List.finRange CHUNK_SLOTS).flatMap fun slot => toBe 4 (h.locations slot).toNat).length =
        SECTOR_BYTES := by
      rw [flatMap_pieces_length fun _ => Codec.toBe_length 4 _, List.length_finRange]
      rfl
    dsimp only
    rw [hslice]
    · unfold bytes
      rw [← List.drop_drop, List.drop_left' hfirst, ← List.append_nil (List.flatMap _ _),
        flatMap_piece (fun _ => Codec.toBe_length 4 _) _ _ _ (by simp), List.getElem_finRange]
      exact word_toBe _
    · simp only [CHUNK_SLOTS, HEADER_BYTES, SECTOR_BYTES] at *
      omega

end RegionHeader

end Apoptosis.L2.Storage
