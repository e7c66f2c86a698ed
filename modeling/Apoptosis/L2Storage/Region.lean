import Apoptosis.Core.ByteFile
import Apoptosis.Core.StreamCodec
import Apoptosis.L2Storage.Keys
import Apoptosis.L2Storage.Sectors
import Apoptosis.ServerError
/-!
# Region files (`persistence/src/{compression,region}.rs`)

An Anvil region file: a header of 1024 location words and 1024 timestamps, and
chunk payloads in runs of 4096-byte sectors. zlib and gzip are parameters
(`Codecs`); a write is planned first (`planWrite`), with the file writes it
makes in the source's order, so that a crash can stop it between any two.
-/
namespace Apoptosis.L2.Storage
open Apoptosis.Core
open Apoptosis.Core.Codec (Bytes toBe ofBe)

/-! ## Compression -/

/-- mirrors crates/persistence/src/compression.rs:39-50 (`Compression`) -/
inductive Compression where
  | gzip | zlib | none | lz4 | custom
  deriving DecidableEq, Repr

/-- The stream compressors of the `flate2` crate, at the level the source uses. -/
structure Codecs where
  zlib : StreamCodec
  gzip : StreamCodec

/-- Both read back what they compressed. -/
structure Codecs.Inverse (z : Codecs) : Prop where
  zlib : z.zlib.Inverse
  gzip : z.gzip.Inverse

namespace Compression

/-- mirrors crates/persistence/src/compression.rs:55-63 (`Compression::id`) -/
def id : Compression → UInt8
  | gzip => 1
  | zlib => 2
  | none => 3
  | lz4 => 4
  | custom => 127

/-- mirrors crates/persistence/src/compression.rs:67-76 (`Compression::from_id`) -/
def fromId (id : UInt8) : Option Compression :=
  if id = 1 then some gzip
  else if id = 2 then some zlib
  else if id = 3 then some none
  else if id = 4 then some lz4
  else if id = 127 then some custom
  else Option.none

@[simp] theorem fromId_id (c : Compression) : fromId c.id = some c := by cases c <;> rfl

/-- mirrors crates/persistence/src/compression.rs:80-88 (`Compression::option_name`) -/
def optionName : Compression → String
  | gzip => "gzip"
  | zlib => "deflate"
  | none => "none"
  | lz4 => "lz4"
  | custom => "custom"

/-- mirrors crates/persistence/src/compression.rs:170-175 (`too_large`) -/
def tooLarge (codec : Compression) (size limit : Nat) : ServerError :=
  let name := codec.optionName
  .corruptData s!"{name} chunk payload decodes to {size} bytes, over the {limit} byte limit"

/-- mirrors crates/persistence/src/compression.rs:150-162 (`read_limited`) -/
def readLimited (z : StreamCodec) (payload : Bytes) (codec : Compression) (limit : Nat) :
    ServerResult Bytes :=
  let name := codec.optionName
  match z.inflate payload (limit + 1) with
  | .error e => .error (.corruptData s!"{name} chunk payload: {e}")
  | .ok out => if limit < out.length then .error (tooLarge codec out.length limit) else .ok out

/-- mirrors crates/persistence/src/compression.rs:164-168 (`finish`) -/
def finish (result : Except String Bytes) (codec : Compression) : ServerResult Bytes :=
  let name := codec.optionName
  match result with
  | .error e => .error (.operational s!"{name} compression failed: {e}")
  | .ok out => .ok out

def unreadable (codec : Compression) : ServerError :=
  let name := codec.optionName
  let id := codec.id.toNat
  .operational s!"region compression \"{name}\" (id {id}) is not implemented; re-save the world with region-file-compression=deflate"

def unwritable (codec : Compression) : ServerError :=
  let name := codec.optionName
  let id := codec.id.toNat
  .operational s!"region compression \"{name}\" (id {id}) cannot be written by this build"

/-- mirrors crates/persistence/src/compression.rs:103-120 (`Compression::decompress`) -/
def decompress (z : Codecs) (codec : Compression) (payload : Bytes) (limit : Nat) :
    ServerResult Bytes :=
  match codec with
  | none => if limit < payload.length then .error (tooLarge none payload.length limit) else .ok payload
  | zlib => readLimited z.zlib payload zlib limit
  | gzip => readLimited z.gzip payload gzip limit
  | lz4 => .error (unreadable lz4)
  | custom => .error (unreadable custom)

/-- mirrors crates/persistence/src/compression.rs:127-144 (`Compression::compress`) -/
def compress (z : Codecs) (codec : Compression) (raw : Bytes) : ServerResult Bytes :=
  match codec with
  | none => .ok raw
  | zlib => finish (z.zlib.compress raw) zlib
  | gzip => finish (z.gzip.compress raw) gzip
  | lz4 => .error (unwritable lz4)
  | custom => .error (unwritable custom)

theorem readLimited_inverse {z : StreamCodec} (hz : z.Inverse) {data packed : Bytes}
    {codec : Compression} (h : finish (z.compress data) codec = .ok packed) {limit : Nat}
    (hlimit : data.length ≤ limit) : readLimited z packed codec limit = .ok data := by
  have hpacked : z.compress data = .ok packed := by
    unfold finish at h
    split at h
    · exact nomatch h
    · next out heq =>
      rw [heq, Except.ok.inj h]
  have hread := hz data packed hpacked (limit + 1)
  rw [List.take_of_length_le (by omega)] at hread
  unfold readLimited
  simp only [hread]
  rw [if_neg (by omega)]

/-- Within the limit, what was compressed is read back. -/
theorem decompress_compress {z : Codecs} (hz : z.Inverse) {codec : Compression} {data packed : Bytes}
    (h : codec.compress z data = .ok packed) {limit : Nat} (hlimit : data.length ≤ limit) :
    codec.decompress z packed limit = .ok data := by
  cases codec with
  | none =>
    cases h
    exact if_neg (by omega)
  | zlib => exact readLimited_inverse hz.zlib h hlimit
  | gzip => exact readLimited_inverse hz.gzip h hlimit
  | lz4 => exact nomatch h
  | custom => exact nomatch h

/-- A payload with the external flag has no codec of this build. -/
theorem id_not_external (c : Compression) : c.id &&& 128 = 0 := by cases c <;> decide

end Compression

/-! ## The header -/

def SECTOR_BYTES : Nat := 4096
def HEADER_BYTES : Nat := SECTOR_BYTES * 2
def CHUNK_SLOTS : Nat := 1024
def MAX_SECTORS_PER_CHUNK : Nat := 0xFF
def EXTERNAL_STREAM_FLAG : UInt8 := 128

/-- mirrors crates/persistence/src/region.rs:68-73 (`ChunkLocation`) -/
structure ChunkLocation where
  sector : Nat
  sectorCount : Nat
  deriving DecidableEq, Repr

namespace ChunkLocation

/-- mirrors crates/persistence/src/region.rs:78-86 (`ChunkLocation::decode`) -/
def decode (raw : BitVec 32) : Option ChunkLocation :=
  if raw = 0 then none else some ⟨(raw >>> 8).toNat, (raw &&& 0xFF).toNat⟩

/-- mirrors crates/persistence/src/region.rs:90-92 (`ChunkLocation::encode`) -/
def encode (l : ChunkLocation) : BitVec 32 :=
  BitVec.ofNat 32 l.sector <<< 8 ||| (BitVec.ofNat 32 l.sectorCount &&& 0xFF)

/-- mirrors crates/persistence/src/region.rs:96-98 (`ChunkLocation::byte_offset`) -/
def byteOffset (l : ChunkLocation) : Nat := l.sector * SECTOR_BYTES

/-- Sector `i` is in the run of the location. -/
def Has (l : ChunkLocation) (i : Nat) : Prop := l.sector ≤ i ∧ i < l.sector + l.sectorCount

instance (l : ChunkLocation) (i : Nat) : Decidable (l.Has i) := inferInstanceAs (Decidable (_ ∧ _))

/-- The sector has 24 bits and the count 8. -/
theorem decode_lt {raw : BitVec 32} {l : ChunkLocation} (h : decode raw = some l) :
    l.sector < 2 ^ 24 ∧ l.sectorCount ≤ 255 := by
  unfold decode at h
  split at h
  · exact nomatch h
  · obtain rfl := Option.some.inj h
    constructor
    · show (raw >>> 8).toNat < 2 ^ 24
      have hlt := raw.isLt
      rw [BitVec.toNat_ushiftRight, Nat.shiftRight_eq_div_pow]
      omega
    · show (raw &&& 0xFF).toNat ≤ 255
      rw [BitVec.toNat_and]
      exact Nat.and_le_right

theorem encode_toNat {l : ChunkLocation} (hsector : l.sector < 2 ^ 24) (hcount : l.sectorCount ≤ 255) :
    l.encode.toNat = l.sector * 256 + l.sectorCount := by
  have hlow : l.sectorCount % 2 ^ 32 &&& 255 = l.sectorCount := by
    rw [show 255 = 2 ^ 8 - 1 from rfl, Nat.and_two_pow_sub_one_eq_mod]
    omega
  have hhigh : (l.sector % 2 ^ 32) <<< 8 % 2 ^ 32 = l.sector <<< 8 := by
    rw [Nat.mod_eq_of_lt (by omega), Nat.shiftLeft_eq]
    omega
  have hff : (0xFF : BitVec 32).toNat = 255 := rfl
  unfold encode
  rw [BitVec.toNat_or, BitVec.toNat_shiftLeft, BitVec.toNat_and, BitVec.toNat_ofNat,
    BitVec.toNat_ofNat, hff, hlow, hhigh, ← Nat.shiftLeft_add_eq_or_of_lt (by omega), Nat.shiftLeft_eq]

/-- A packed location is read back. -/
theorem decode_encode {l : ChunkLocation} (hsector : l.sector < 2 ^ 24) (hcount : l.sectorCount ≤ 255)
    (hpos : 0 < l.sectorCount) : decode l.encode = some l := by
  have hraw := encode_toNat hsector hcount
  have hne : l.encode ≠ 0 := by
    intro h
    rw [h, show (0 : BitVec 32).toNat = 0 from rfl] at hraw
    omega
  have hff : (0xFF : BitVec 32).toNat = 255 := rfl
  unfold decode
  rw [if_neg hne, BitVec.toNat_ushiftRight, BitVec.toNat_and, hraw, hff, Nat.shiftRight_eq_div_pow,
    show 255 = 2 ^ 8 - 1 from rfl, Nat.and_two_pow_sub_one_eq_mod]
  congr
  · omega
  · omega

end ChunkLocation

/-- mirrors crates/persistence/src/region.rs:103-106 (`RegionHeader`) -/
@[ext] structure RegionHeader where
  locations : Fin CHUNK_SLOTS → BitVec 32
  timestamps : Fin CHUNK_SLOTS → BitVec 32

/-- Four bytes as a big-endian word. -/
def word (bytes : Bytes) : BitVec 32 := BitVec.ofNat 32 (ofBe bytes)

@[simp] theorem word_toBe (v : BitVec 32) : word (toBe 4 v.toNat) = v := by
  unfold word
  rw [Codec.ofBe_toBe 4 _ v.isLt, BitVec.ofNat_toNat, BitVec.setWidth_eq]

namespace RegionHeader

/-- mirrors crates/persistence/src/region.rs:111-116 (`RegionHeader::empty`) -/
def empty : RegionHeader := ⟨fun _ => 0, fun _ => 0⟩

/-- mirrors crates/persistence/src/region.rs:123-140 (`RegionHeader::parse`) -/
def parse (bytes : Bytes) : ServerResult RegionHeader :=
  let len := bytes.length
  if len < HEADER_BYTES then
    .error (.corruptData s!"region header truncated: {len} bytes, expected at least {HEADER_BYTES}")
  else .ok
    { locations := fun slot => word ((bytes.drop (slot * 4)).take 4)
      timestamps := fun slot => word ((bytes.drop (SECTOR_BYTES + slot * 4)).take 4) }

/-- mirrors crates/persistence/src/region.rs:153-155 (`RegionHeader::raw_location`) -/
def rawLocation (h : RegionHeader) (slot : Nat) : BitVec 32 :=
  if hs : slot < CHUNK_SLOTS then h.locations ⟨slot, hs⟩ else 0

/-- mirrors crates/persistence/src/region.rs:144-149 (`RegionHeader::location`) -/
def location (h : RegionHeader) (slot : Nat) : Option ChunkLocation :=
  ChunkLocation.decode (h.rawLocation slot)

/-- mirrors crates/persistence/src/region.rs:159-161 (`RegionHeader::timestamp`) -/
def timestamp (h : RegionHeader) (slot : Nat) : BitVec 32 :=
  if hs : slot < CHUNK_SLOTS then h.timestamps ⟨slot, hs⟩ else 0

/-- mirrors crates/persistence/src/region.rs:164-170 (`RegionHeader::occupied_slots`) -/
def occupiedSlots (h : RegionHeader) : List Nat :=
  ((List.finRange CHUNK_SLOTS).filter fun slot => h.locations slot ≠ 0).map Fin.val

/-- mirrors crates/persistence/src/region.rs:178-184 (`RegionHeader::set_location`) -/
def setLocation (h : RegionHeader) (slot : Nat) (location : Option ChunkLocation) (now : BitVec 32) :
    RegionHeader :=
  if hs : slot < CHUNK_SLOTS then
    { locations := Function.update h.locations ⟨slot, hs⟩ (location.elim 0 ChunkLocation.encode)
      timestamps := Function.update h.timestamps ⟨slot, hs⟩ now }
  else h

/-- mirrors crates/persistence/src/region.rs:621-630 (`RegionFile::write_header`), the bytes -/
def bytes (h : RegionHeader) : Bytes :=
  (List.finRange CHUNK_SLOTS).flatMap (fun slot => toBe 4 (h.locations slot).toNat) ++
    (List.finRange CHUNK_SLOTS).flatMap (fun slot => toBe 4 (h.timestamps slot).toNat)

end RegionHeader

namespace SectorBitmap

/-- The loop body of `from_header`. -/
def markSlot (header : RegionHeader) (bitmap : SectorBitmap) (slot : Nat) : SectorBitmap :=
  match header.location slot with
  | some location =>
    if FIRST_CHUNK_SECTOR ≤ location.sector then bitmap.mark location.sector location.sectorCount
    else bitmap
  | none => bitmap

/-- mirrors crates/persistence/src/region.rs:194-208 (`SectorBitmap::from_header`) -/
def fromHeader (header : RegionHeader) (sectorsInFile : Nat) : SectorBitmap :=
  let bitmap : SectorBitmap := ⟨List.replicate (max sectorsInFile FIRST_CHUNK_SECTOR) false⟩
  header.occupiedSlots.foldl (markSlot header) (bitmap.mark 0 FIRST_CHUNK_SECTOR)

end SectorBitmap

/-! ## The file -/

/-- mirrors crates/persistence/src/region.rs:257-264 (`StoredChunk`) -/
structure StoredChunk where
  compression : Compression
  data : Bytes
  timestamp : BitVec 32
  deriving DecidableEq, Repr

/-- mirrors crates/persistence/src/region.rs:268-280 (`RegionFile`) -/
structure RegionFile where
  path : String
  file : ByteFile
  header : RegionHeader
  bitmap : SectorBitmap
  readonly : Bool

def divCeil (a b : Nat) : Nat := (a + b - 1) / b

/-- mirrors crates/persistence/src/region.rs:375-380 (`RegionFile::sector_count`) -/
def sectorCount (file : ByteFile) : Nat := divCeil file.len SECTOR_BYTES % 2 ^ 32

/-- mirrors crates/persistence/src/region.rs:632-642 (`RegionFile::read_exact_at`) -/
def readExactAt (path : String) (file : ByteFile) (offset n : Nat) : ServerResult Bytes :=
  if offset + n ≤ file.len then .ok (file.slice offset n)
  else .error (.corruptData s!"short read at offset {offset} in {path}: failed to fill whole buffer")

/-- `{:#04x}` of a byte -/
def hexByte (b : UInt8) : String :=
  let high := Nat.digitChar (b.toNat / 16)
  let low := Nat.digitChar (b.toNat % 16)
  s!"0x{high}{low}"

namespace RegionFile

/-- mirrors crates/persistence/src/region.rs:307-346 (`RegionFile::open_with`), of a file that the
system could open -/
def openWith (file : ByteFile) (path : String) (readonly : Bool) : ServerResult RegionFile :=
  let len := file.len
  if len = 0 then
    .ok ⟨path, file, .empty, .fromHeader .empty FIRST_CHUNK_SECTOR, readonly⟩
  else if len < HEADER_BYTES then
    .error (.corruptData s!"region file {path} is {len} bytes, shorter than the {HEADER_BYTES}-byte header")
  else do
    let headerBytes ← readExactAt path file 0 HEADER_BYTES
    let header ← RegionHeader.parse headerBytes
    return ⟨path, file, header, .fromHeader header (sectorCount file), readonly⟩

/-- What `read_chunk_at` does once it has the codec byte and knows that the payload fits. -/
def readPayload (z : Codecs) (path : String) (file : ByteFile) (location : ChunkLocation)
    (slot limit payloadLen : Nat) (codecByte : UInt8) : ServerResult (Compression × Bytes) :=
  let hex := hexByte codecByte
  if codecByte &&& EXTERNAL_STREAM_FLAG ≠ 0 then
    .error (.operational s!"{path} slot {slot}: chunk is stored in an external .mcc file (codec byte {hex}), which this build does not read")
  else match Compression.fromId codecByte with
    | none => .error (.corruptData s!"{path} slot {slot}: unknown compression id {codecByte}")
    | some compression => do
      let payload ← readExactAt path file (location.byteOffset + 5) payloadLen
      let data ← compression.decompress z payload limit
      return (compression, data)

def emptyFrame (path : String) (slot length : Nat) : ServerError :=
  .corruptData s!"{path} slot {slot}: length field is {length}"

def overlong (path : String) (slot payloadLen capacity sectors present : Nat) : ServerError :=
  .corruptData s!"{path} slot {slot}: length field claims {payloadLen} payload bytes but only {capacity} are available ({sectors} sectors allocated, {present} bytes present)"

/-- `read_chunk_at` of an occupied slot. -/
def readLocated (z : Codecs) (path : String) (file : ByteFile) (location : ChunkLocation)
    (slot limit : Nat) : ServerResult (Compression × Bytes) :=
  let sector := location.sector
  let sectors := location.sectorCount
  let len := file.len
  let start := location.byteOffset
  if sector < FIRST_CHUNK_SECTOR then
    .error (.corruptData s!"{path} slot {slot}: sector {sector} overlaps the region header")
  else if sectors = 0 then
    .error (.corruptData s!"{path} slot {slot}: location declares zero sectors")
  else if len ≤ start then
    .error (.corruptData s!"{path} slot {slot}: sector {sector} starts past the end of the {len}-byte file")
  else
    let present := len - start
    let usable := min (sectors * SECTOR_BYTES) present
    if usable < 5 then
      .error (.corruptData s!"{path} slot {slot}: only {usable} bytes present at sector {sector}, need at least 5")
    else do
      let head ← readExactAt path file start 5
      let length := ofBe (head.take 4)
      let codecByte := head.getD 4 0
      let payloadLen := length - 1
      let capacity := usable - 4
      if length < 1 then .error (emptyFrame path slot length)
      else if capacity < payloadLen then .error (overlong path slot payloadLen capacity sectors present)
      else readPayload z path file location slot limit payloadLen codecByte

/-- mirrors crates/persistence/src/region.rs:416-495 (`RegionFile::read_chunk_at`) -/
def readChunkAt (z : Codecs) (r : RegionFile) (slot limit : Nat) : ServerResult (Option StoredChunk) :=
  match r.header.location slot with
  | none => .ok none
  | some location => do
    let (compression, data) ← readLocated z r.path r.file location slot limit
    return some ⟨compression, data, r.header.timestamp slot⟩

/-- What a write makes of the file, and of the header and the bitmap in memory. -/
structure Plan where
  writes : List FileWrite
  header : RegionHeader
  bitmap : SectorBitmap

/-- The payload of a chunk as it is stored, padded to whole sectors. -/
def body (codec : Compression) (payload : Bytes) (sectorCount : Nat) : Bytes :=
  let framed := toBe 4 (payload.length + 1) ++ codec.id :: payload
  framed ++ List.replicate (sectorCount * SECTOR_BYTES - framed.length) 0

/-- The run a write replaces is freed, unless the new run is the same. -/
def freePrevious (bitmap : SectorBitmap) (previous : Option ChunkLocation) (location : ChunkLocation) :
    SectorBitmap :=
  match previous with
  | none => bitmap
  | some previous =>
    if previous.sector = location.sector ∧ previous.sectorCount = location.sectorCount then bitmap
    else bitmap.free previous.sector previous.sectorCount

def timestampWrite (slot : Nat) (now : BitVec 32) : FileWrite :=
  ⟨SECTOR_BYTES + slot * 4, toBe 4 now.toNat⟩

def locationWrite (slot : Nat) (raw : BitVec 32) : FileWrite := ⟨slot * 4, toBe 4 raw.toNat⟩

/-- mirrors crates/persistence/src/region.rs:520-581 (`RegionFile::write_chunk_at`): the writes it
makes, in their order -/
def planWrite (z : Codecs) (r : RegionFile) (slot : Nat) (data : Bytes) (compression : Compression)
    (now : BitVec 32) : ServerResult Plan :=
  let path := r.path
  if r.readonly then .error (.operational s!"region file {path} is open read-only")
  else if CHUNK_SLOTS ≤ slot then
    .error (.corruptData s!"chunk slot {slot} is outside the {CHUNK_SLOTS}-slot region file")
  else do
    let payload ← compression.compress z data
    let bodyLen := payload.length + 1
    if MAX_SECTORS_PER_CHUNK * SECTOR_BYTES < bodyLen + 4 then
      .error (.invariant s!"chunk of {bodyLen} bytes cannot be stored: the location field allows at most {MAX_SECTORS_PER_CHUNK} sectors")
    else
      let sectorCount := divCeil (bodyLen + 4) SECTOR_BYTES
      let headerWrite := if r.file.len = 0 then [⟨0, r.header.bytes⟩] else []
      let previous := r.header.location slot
      let (sector, bitmap) := r.bitmap.allocate sectorCount
      let location : ChunkLocation := ⟨sector, sectorCount⟩
      let header := r.header.setLocation slot (some location) now
      return {
        writes := headerWrite ++ [⟨location.byteOffset, body compression payload sectorCount⟩,
          timestampWrite slot now, locationWrite slot (header.rawLocation slot)]
        header
        bitmap := freePrevious bitmap previous location }

def applyPlan (r : RegionFile) (plan : Plan) : RegionFile :=
  { r with file := r.file.writes plan.writes, header := plan.header, bitmap := plan.bitmap }

/-- mirrors crates/persistence/src/region.rs:520-581 (`RegionFile::write_chunk_at`) -/
def writeChunkAt (z : Codecs) (r : RegionFile) (slot : Nat) (data : Bytes) (compression : Compression)
    (now : BitVec 32) : RegionFile × ServerResult Unit :=
  match r.planWrite z slot data compression now with
  | .error e => (r, .error e)
  | .ok plan => (r.applyPlan plan, .ok ())

/-- mirrors crates/persistence/src/region.rs:588-604 (`RegionFile::remove_chunk`) -/
def removeChunk (r : RegionFile) (pos : ChunkPos) : RegionFile × ServerResult Bool :=
  let path := r.path
  let slot := pos.slot
  match r.header.location slot with
  | none => (r, .ok false)
  | some location =>
    if r.readonly then (r, .error (.operational s!"region file {path} is open read-only"))
    else ({ r with
      file := r.file.writes [locationWrite slot 0, timestampWrite slot 0]
      header := r.header.setLocation slot none 0
      bitmap := r.bitmap.free location.sector location.sectorCount }, .ok true)

end RegionFile
end Apoptosis.L2.Storage
