import Apoptosis.Core.StreamCodec
import Apoptosis.L1Encoding.Wire
/-!
# The frame codec (`protocol/src/framing.rs`)

Length-prefixed packets on a byte stream, with optional compression. `zlib` is
a parameter; a stream read from its compressed form, up to any limit, is the
stream (`StreamCodec.Inverse`).

`encode` bounds the packet but not the frame it makes of it: with the marker
byte, or a compressed form longer than the packet, the frame can pass the
limit that `try_next` puts on frames.

* `tryNext_view`: a codec is its unread bytes, whatever compaction did before.
* `drain_spec`: the whole frames of the unread bytes come out, and no more.
* `delivers_iff`: a stream cut anywhere comes out as it went in, if and only if
  every frame is within the limit.
-/
namespace Apoptosis.L1.Frame
open Apoptosis.Core (StreamCodec)
open Apoptosis.Core.Codec Apoptosis.Core.Framing Apoptosis.L1.Wire

/-- mirrors crates/protocol/src/lib.rs:48 -/
def MAX_PACKET_SIZE : Nat := 2097152

/-- mirrors crates/protocol/src/framing.rs:29 -/
def BUFFER_CAP : Nat := 2 * (MAX_PACKET_SIZE + MAX_VARINT_BYTES) + 16

/-- mirrors crates/protocol/src/packet.rs:7-12 (`RawPacket`) -/
@[ext] structure RawPacket where
  id : BitVec 32
  payload : Bytes
  deriving DecidableEq

/-- mirrors crates/protocol/src/varint.rs:17-25 (`varint_len`), on the value read as unsigned -/
def varintLen (value : BitVec 32) : Nat := go 4 value.toNat
where
  go : Nat → Nat → Nat
  | 0, _ => 1
  | turns + 1, value => if value ≥ 0x80 then go turns (value >>> 7) + 1 else 1

/-- mirrors crates/protocol/src/framing.rs:33-38 (`FrameCodec`) -/
structure FrameCodec where
  buffer : Bytes
  start : Nat
  compressionThreshold : Option Int

namespace FrameCodec

/-- mirrors crates/protocol/src/framing.rs:49-55 (`FrameCodec::new`) -/
def new : FrameCodec := ⟨[], 0, none⟩

/-- mirrors crates/protocol/src/framing.rs:57-59 (`FrameCodec::set_compression`) -/
def setCompression (c : FrameCodec) (threshold : Int) : FrameCodec :=
  { c with compressionThreshold := some (max threshold 0) }

/-- mirrors crates/protocol/src/framing.rs:69-71 (`FrameCodec::buffered`) -/
def buffered (c : FrameCodec) : Nat := c.buffer.length - c.start

/-- mirrors crates/protocol/src/framing.rs:79-87 (`FrameCodec::feed`) -/
def feed (c : FrameCodec) (data : Bytes) : ServerResult Unit × FrameCodec :=
  let c := { c with buffer := c.buffer ++ data }
  if c.buffered > BUFFER_CAP then (.error (.protocol "frame buffer exceeded limit"), c)
  else (.ok (), c)

end FrameCodec

/-- mirrors crates/protocol/src/framing.rs:221-263 (`decompress_frame`) -/
def decompressFrame (zlib : StreamCodec) (frame : Bytes) (threshold : Int) : ServerResult Bytes := do
  let (declared, cursor) ← readVarint frame
  if declared.toInt < 0 then
    let n := declared.toInt
    .error (.protocol s!"negative uncompressed length {n}")
  else
    let declared := declared.toNat
    if declared = 0 then
      if cursor.length > MAX_PACKET_SIZE then
        .error (.protocol "uncompressed payload exceeds maximum")
      else .ok cursor
    else if declared > MAX_PACKET_SIZE then
      .error (.protocol s!"uncompressed length {declared} exceeds maximum {MAX_PACKET_SIZE}")
    else if declared < threshold.toNat then
      .error (.protocol
        s!"uncompressed length {declared} is below compression threshold {threshold}")
    else
      match zlib.inflate cursor (declared + 1) with
      | .error e => .error (.protocol s!"zlib decompression failed: {e}")
      | .ok output =>
        if output.length ≠ declared then
          let len := output.length
          .error (.protocol s!"decompressed length {len} does not match declared {declared}")
        else .ok output

/-- The payload of a frame, compressed where a threshold is set. -/
def openFrame (zlib : StreamCodec) (threshold : Option Int) (frame : Bytes) : ServerResult Bytes :=
  match threshold with
  | none => .ok frame
  | some threshold => decompressFrame zlib frame threshold

/-- The first half of `try_next`: the payload of the frame in front and the bytes the frame takes,
`none` while it is incomplete. -/
def nextFrame (zlib : StreamCodec) (threshold : Option Int) (data : Bytes) :
    ServerResult (Option (Bytes × Nat)) :=
  match readVarint data with
  | .error _ =>
    if data.length ≥ MAX_VARINT_BYTES then .error (.protocol "invalid frame length prefix")
    else .ok none
  | .ok (frameLen, rest) =>
    let prefixLen := data.length - rest.length
    if frameLen.toInt < 0 then
      let n := frameLen.toInt
      .error (.protocol s!"negative frame length {n}")
    else
      let frameLen := frameLen.toNat
      if frameLen = 0 then .error (.protocol "zero-length frame")
      else if frameLen > MAX_PACKET_SIZE then
        .error (.protocol s!"frame length {frameLen} exceeds maximum {MAX_PACKET_SIZE}")
      else
        let total := prefixLen + frameLen
        if data.length < total then .ok none
        else do
          let payload ← openFrame zlib threshold ((data.take total).drop prefixLen)
          return some (payload, total)

/-- A packet is an id and the bytes after it. -/
def splitPacket (payload : Bytes) : ServerResult (Option RawPacket) :=
  if payload.length > MAX_PACKET_SIZE then
    .error (.protocol "packet payload exceeds maximum")
  else do
    let (id, body) ← readVarint payload
    return some ⟨id, payload.drop (payload.length - body.length)⟩

namespace FrameCodec

/-- `self.start += total`, and the read bytes dropped when they are many and most. -/
def consume (c : FrameCodec) (total : Nat) : FrameCodec :=
  let start := c.start + total
  if start > 8192 ∧ start * 2 > c.buffer.length then
    { c with buffer := c.buffer.drop start, start := 0 }
  else { c with start := start }

/-- mirrors crates/protocol/src/framing.rs:96-154 (`FrameCodec::try_next`) -/
def tryNext (zlib : StreamCodec) (c : FrameCodec) : ServerResult (Option RawPacket) × FrameCodec :=
  if c.buffered = 0 then (.ok none, c)
  else
    match nextFrame zlib c.compressionThreshold (c.buffer.drop c.start) with
    | .error e => (.error e, c)
    | .ok none => (.ok none, c)
    | .ok (some (payload, total)) => (splitPacket payload, c.consume total)

end FrameCodec

def oversized : ServerError := .protocol "outbound packet exceeds maximum size"

/-- `i32::try_from(len)` -/
def lenI32 (len : Nat) : ServerResult (BitVec 32) :=
  if len < 2 ^ 31 then .ok (BitVec.ofNat 32 len) else .error oversized

/-- mirrors crates/protocol/src/framing.rs:209-217 (`compress`) -/
def compress (zlib : StreamCodec) (data : Bytes) : ServerResult Bytes :=
  match zlib.compress data with
  | .ok packed => .ok packed
  | .error e => .error (.operational s!"zlib compression failed: {e}")

/-- The packet as it is sent or compressed: its id and its payload. -/
def RawPacket.body (p : RawPacket) : Bytes := writeVarint p.id ++ p.payload

/-- mirrors crates/protocol/src/framing.rs:162-203 (`FrameCodec::encode`) -/
def encode (zlib : StreamCodec) (p : RawPacket) (threshold : Option Int) : ServerResult Bytes :=
  let body := p.body
  if body.length > MAX_PACKET_SIZE then .error oversized
  else
    match threshold with
    | none => do
      let len ← lenI32 body.length
      return writeVarint len ++ body
    | some threshold =>
      if body.length < threshold.toNat then do
        let len ← lenI32 (body.length + 1)
        return writeVarint len ++ writeVarint 0 ++ body
      else do
        let declared ← lenI32 body.length
        let packed ← compress zlib body
        let len ← lenI32 (varintLen declared + packed.length)
        return writeVarint len ++ writeVarint declared ++ packed

/-! ## A stream of packets -/

/-- The encodings of the packets, one after the other. -/
def encodeAll (zlib : StreamCodec) (threshold : Option Int) : List RawPacket → ServerResult Bytes
  | [] => .ok []
  | p :: ps => do
    let bytes ← encode zlib p threshold
    let rest ← encodeAll zlib threshold ps
    return bytes ++ rest

/-- `try_next` until it returns `None`; `none` when the turns run out before. -/
def drain (zlib : StreamCodec) : Nat → FrameCodec → Option (ServerResult (List RawPacket × FrameCodec))
  | 0, _ => none
  | turns + 1, c =>
    match c.tryNext zlib with
    | (.error e, _) => some (.error e)
    | (.ok none, c) => some (.ok ([], c))
    | (.ok (some p), c) =>
      match drain zlib turns c with
      | some (.ok (ps, c)) => some (.ok (p :: ps, c))
      | failed => failed

/-- A receiver: every piece is fed and drained. -/
def receive (zlib : StreamCodec) : FrameCodec → List Bytes →
    Option (ServerResult (List RawPacket × FrameCodec))
  | c, [] => some (.ok ([], c))
  | c, piece :: pieces =>
    match c.feed piece with
    | (.error e, _) => some (.error e)
    | (.ok _, c) =>
      match drain zlib (c.buffered + 1) c with
      | some (.ok (ps, c)) =>
        match receive zlib c pieces with
        | some (.ok (ps', c)) => some (.ok (ps ++ ps', c))
        | failed => failed
      | failed => failed

/-- The codec of a connection with this threshold. -/
def codecFor : Option Int → FrameCodec
  | none => .new
  | some threshold => FrameCodec.new.setCompression threshold

/-! ## Compaction -/

namespace FrameCodec

/-- The bytes not yet read. -/
def pending (c : FrameCodec) : Bytes := c.buffer.drop c.start

theorem buffered_eq (c : FrameCodec) : c.buffered = c.pending.length := by
  rw [buffered, pending, List.length_drop]

theorem consume_pending (c : FrameCodec) (total : Nat) :
    (c.consume total).pending = c.pending.drop total ∧
      (c.consume total).compressionThreshold = c.compressionThreshold := by
  unfold consume pending
  dsimp only
  split
  · exact ⟨by rw [List.drop_zero, List.drop_drop], rfl⟩
  · exact ⟨by rw [List.drop_drop], rfl⟩

theorem consume_bounded {c : FrameCodec} {total : Nat} (h : c.start ≤ c.buffer.length)
    (htotal : total ≤ c.pending.length) : (c.consume total).start ≤ (c.consume total).buffer.length := by
  rw [pending, List.length_drop] at htotal
  unfold consume
  dsimp only
  split
  · exact Nat.zero_le _
  · dsimp only
    omega

/-- Two codecs with the same unread bytes go on alike. -/
theorem tryNext_view (zlib : StreamCodec) {c c' : FrameCodec} (hpending : c.pending = c'.pending)
    (hthreshold : c.compressionThreshold = c'.compressionThreshold) :
    (c.tryNext zlib).1 = (c'.tryNext zlib).1 ∧
      (c.tryNext zlib).2.pending = (c'.tryNext zlib).2.pending := by
  have hdata : c.buffer.drop c.start = c'.buffer.drop c'.start := hpending
  unfold tryNext
  rw [buffered_eq, buffered_eq, hpending, hthreshold, hdata]
  split
  · exact ⟨rfl, hpending⟩
  split
  · exact ⟨rfl, hpending⟩
  · exact ⟨rfl, hpending⟩
  · next total _ =>
    exact ⟨rfl, by rw [(c.consume_pending _).1, (c'.consume_pending _).1, hpending]⟩

end FrameCodec

/-! ## One frame -/

theorem varintLen_eq (value : BitVec 32) : varintLen value = (writeVarint value).length := by
  have hgo (turns : Nat) : ∀ value, varintLen.go turns value = (varintBytes turns value).length := by
    induction turns with
    | zero => intro value; rfl
    | succ turns ih =>
      intro value
      rw [varintLen.go, varintBytes]
      by_cases hlast : value < 0x80
      · rw [if_neg (by omega), if_pos hlast]
        rfl
      · rw [if_pos (by omega), if_neg hlast, ih, List.length_cons]
  exact hgo 4 value.toNat

theorem writeVarint_length_le (value : BitVec 32) : (writeVarint value).length ≤ 5 := by
  have hlt := value.isLt
  exact varintBytes_length_le 4 value.toNat 4 (by norm_num; omega)

theorem readVarint_frame (value : BitVec 32) (rest : Bytes) :
    readVarint (writeVarint value ++ rest) = .ok (value, rest) := reads_readVarint value rest

/-- A value cut short is not read. -/
theorem readVarint_cut {value : BitVec 32} {data more : Bytes}
    (h : data ++ more = writeVarint value) (hmore : more ≠ []) : ∃ e, readVarint data = .error e := by
  rcases hread : readVarint data with e | ⟨value', rest⟩
  · exact ⟨e, rfl⟩
  · exfalso
    obtain ⟨front, rfl, hfront⟩ := delimited_readVarint data value' rest hread
    have hwhole := reads_readVarint value []
    rw [List.append_nil, ← h, List.append_assoc, hfront (rest ++ more)] at hwhole
    cases rest with
    | nil => exact hmore (Prod.mk.inj (Except.ok.inj hwhole)).2
    | cons byte rest => cases (Prod.mk.inj (Except.ok.inj hwhole)).2

theorem body_length_pos (p : RawPacket) : 0 < p.body.length := by
  have hpos := writeVarint_length_pos p.id
  rw [RawPacket.body, List.length_append]
  omega

theorem splitPacket_body (p : RawPacket) (h : p.body.length ≤ MAX_PACKET_SIZE) :
    splitPacket p.body = .ok (some p) := by
  unfold splitPacket
  rw [if_neg (by omega), RawPacket.body, readVarint_frame]
  have hlen : (writeVarint p.id ++ p.payload).length - p.payload.length =
      (writeVarint p.id).length := by
    rw [List.length_append]
    omega
  simp only [bind, Except.bind, hlen, List.drop_left]
  rfl

/-- The frame `encode` makes of a packet is within the limit of `try_next`. -/
def Fits (zlib : StreamCodec) (threshold : Option Int) (p : RawPacket) : Prop :=
  match threshold with
  | none => True
  | some threshold =>
    if p.body.length < threshold.toNat then p.body.length < MAX_PACKET_SIZE
    else ∀ packed, zlib.compress p.body = .ok packed →
      varintLen (BitVec.ofNat 32 p.body.length) + packed.length ≤ MAX_PACKET_SIZE

theorem lenI32_ok {len : Nat} {value : BitVec 32} (h : lenI32 len = .ok value) :
    value = BitVec.ofNat 32 len ∧ len < 2 ^ 31 ∧ value.toNat = len ∧ 0 ≤ value.toInt := by
  unfold lenI32 at h
  split at h
  · next hlt =>
    cases h
    have hnat : (BitVec.ofNat 32 len).toNat = len := by
      rw [BitVec.toNat_ofNat]
      omega
    refine ⟨rfl, hlt, hnat, ?_⟩
    rw [BitVec.toInt_eq_toNat_cond, hnat, if_pos (by omega)]
    omega
  · cases h

/-- What `encode` writes: the length of a frame that opens to the packet. -/
theorem encode_ok {zlib : StreamCodec} (hzlib : zlib.Inverse) {p : RawPacket} {threshold : Option Int}
    {bytes : Bytes} (h : encode zlib p threshold = .ok bytes) :
    p.body.length ≤ MAX_PACKET_SIZE ∧ ∃ len frame, bytes = writeVarint len ++ frame ∧
      len.toNat = frame.length ∧ 0 ≤ len.toInt ∧ 0 < frame.length ∧
      (Fits zlib threshold p ↔ frame.length ≤ MAX_PACKET_SIZE) ∧
      openFrame zlib (threshold.map (max · 0)) frame = .ok p.body := by
  have hpos := body_length_pos p
  unfold encode at h
  dsimp only at h
  split at h
  · cases h
  next hsize =>
  refine ⟨by omega, ?_⟩
  cases threshold with
  | none =>
    obtain ⟨len, hlen, heq⟩ := bind_ok h
    obtain ⟨-, -, hnat, hint⟩ := lenI32_ok hlen
    cases heq
    exact ⟨len, p.body, rfl, hnat, hint, hpos, by simp [Fits]; omega, rfl⟩
  | some threshold =>
    dsimp only at h
    by_cases hbelow : p.body.length < threshold.toNat
    · rw [if_pos hbelow] at h
      obtain ⟨len, hlen, heq⟩ := bind_ok h
      obtain ⟨-, -, hnat, hint⟩ := lenI32_ok hlen
      cases heq
      have hmarker : (writeVarint 0 ++ p.body).length = p.body.length + 1 := by
        rw [List.length_append]
        have : (writeVarint 0).length = 1 := by decide
        omega
      refine ⟨len, writeVarint 0 ++ p.body, by rw [List.append_assoc], by rw [hnat, hmarker], hint,
        by omega, ?_, ?_⟩
      · rw [Fits, if_pos hbelow, hmarker]
        omega
      · rw [Option.map_some, openFrame, decompressFrame, readVarint_frame]
        simp only [bind, Except.bind]
        rw [if_neg (by decide), if_pos (by decide), if_neg (by omega)]
    · rw [if_neg hbelow] at h
      obtain ⟨declared, hdeclared, h⟩ := bind_ok h
      obtain ⟨packed, hpacked, h⟩ := bind_ok h
      obtain ⟨len, hlen, heq⟩ := bind_ok h
      obtain ⟨rfl, -, hdnat, hdint⟩ := lenI32_ok hdeclared
      obtain ⟨-, -, hnat, hint⟩ := lenI32_ok hlen
      cases heq
      have hzip : zlib.compress p.body = .ok packed := by
        unfold compress at hpacked
        split at hpacked
        · next heq =>
          cases hpacked
          exact heq
        · cases hpacked
      rw [varintLen_eq] at hnat
      refine ⟨len, writeVarint (BitVec.ofNat 32 p.body.length) ++ packed, by rw [List.append_assoc],
        by rw [hnat, List.length_append], hint, ?_, ?_, ?_⟩
      · have := writeVarint_length_pos (BitVec.ofNat 32 p.body.length)
        rw [List.length_append]
        omega
      · rw [Fits, if_neg hbelow, varintLen_eq, List.length_append]
        constructor
        · intro hfits
          exact hfits packed hzip
        · intro hle packed' hzip'
          obtain rfl : packed = packed' := Except.ok.inj (hzip.symm.trans hzip')
          exact hle
      · rw [Option.map_some, openFrame, decompressFrame, readVarint_frame]
        simp only [bind, Except.bind, hdnat]
        rw [if_neg (by omega), if_neg (by omega), if_neg (by omega), if_neg (by omega),
          hzlib _ _ hzip, List.take_of_length_le (by omega)]
        simp

/-- A length prefix decides: too long, incomplete, or a frame to open. -/
theorem nextFrame_prefixed (zlib : StreamCodec) (threshold : Option Int) {len : BitVec 32}
    (hint : 0 ≤ len.toInt) (hnat : len.toNat ≠ 0) (tail : Bytes) :
    (MAX_PACKET_SIZE < len.toNat → ∃ e, nextFrame zlib threshold (writeVarint len ++ tail) = .error e) ∧
    (len.toNat ≤ MAX_PACKET_SIZE → tail.length < len.toNat →
      nextFrame zlib threshold (writeVarint len ++ tail) = .ok none) ∧
    (len.toNat ≤ MAX_PACKET_SIZE → len.toNat ≤ tail.length → ∀ payload,
      openFrame zlib threshold (tail.take len.toNat) = .ok payload →
      nextFrame zlib threshold (writeVarint len ++ tail) =
        .ok (some (payload, (writeVarint len).length + len.toNat))) := by
  have hfront : (writeVarint len ++ tail).length - tail.length = (writeVarint len).length := by
    rw [List.length_append]
    omega
  unfold nextFrame
  rw [readVarint_frame]
  dsimp only
  rw [if_neg (by omega), if_neg hnat, hfront]
  refine ⟨fun hlong => ?_, fun hfits hshort => ?_, fun hfits hwhole payload hopen => ?_⟩
  · rw [if_pos hlong]
    exact ⟨_, rfl⟩
  · rw [if_neg (by omega), if_pos (by rw [List.length_append]; omega)]
  · rw [if_neg (by omega), if_neg (by rw [List.length_append]; omega)]
    have hframe : ((writeVarint len ++ tail).take ((writeVarint len).length + len.toNat)).drop
        (writeVarint len).length = tail.take len.toNat := by
      rw [List.take_length_add_append, List.drop_left]
    rw [hframe, hopen]
    rfl

/-- A whole frame in front is opened, or refused for its length. -/
theorem nextFrame_whole {zlib : StreamCodec} (hzlib : zlib.Inverse) {p : RawPacket}
    {threshold : Option Int} {bytes : Bytes} (h : encode zlib p threshold = .ok bytes)
    (rest : Bytes) :
    (Fits zlib threshold p → nextFrame zlib (threshold.map (max · 0)) (bytes ++ rest) =
      .ok (some (p.body, bytes.length))) ∧
    (¬Fits zlib threshold p →
      ∃ e, nextFrame zlib (threshold.map (max · 0)) (bytes ++ rest) = .error e) := by
  obtain ⟨-, len, frame, rfl, hnat, hint, hpos, hfits, hopen⟩ := encode_ok hzlib h
  obtain ⟨hlong, -, hwhole⟩ := nextFrame_prefixed zlib (threshold.map (max · 0)) hint (by omega)
    (frame ++ rest)
  rw [List.append_assoc]
  refine ⟨fun hyes => ?_, fun hno => ?_⟩
  · have hle := hfits.mp hyes
    rw [hwhole (by omega) (by rw [List.length_append]; omega) p.body (by rw [hnat, List.take_left, hopen]),
      List.length_append, hnat]
  · rw [hfits] at hno
    exact hlong (by omega)

/-- A frame cut short is waited for, unless its length is refused. -/
theorem nextFrame_cut {zlib : StreamCodec} (hzlib : zlib.Inverse) {p : RawPacket}
    {threshold : Option Int} {data more : Bytes}
    (h : encode zlib p threshold = .ok (data ++ more)) (hmore : more ≠ []) :
    (nextFrame zlib (threshold.map (max · 0)) data = .ok none ∧
      data.length ≤ MAX_PACKET_SIZE + MAX_VARINT_BYTES) ∨
    (¬Fits zlib threshold p ∧
      ∃ e, nextFrame zlib (threshold.map (max · 0)) data = .error e) := by
  obtain ⟨-, len, frame, heq, hnat, hint, hpos, hfits, -⟩ := encode_ok hzlib h
  have hfive := writeVarint_length_le len
  have hmax : MAX_VARINT_BYTES = 5 := rfl
  rcases List.append_eq_append_iff.mp heq with ⟨missing, hfront, -⟩ | ⟨tail, rfl, rfl⟩
  · -- the cut is inside the length prefix, or at its end
    by_cases hnone : missing = []
    · rw [hnone, List.append_nil] at hfront
      obtain ⟨hlong, hshort, -⟩ := nextFrame_prefixed zlib (threshold.map (max · 0)) hint
        (by omega) []
      rw [List.append_nil, hfront] at hlong hshort
      rw [hfront] at hfive
      by_cases hle : len.toNat ≤ MAX_PACKET_SIZE
      · exact .inl ⟨hshort hle (by rw [List.length_nil]; omega), by omega⟩
      · exact .inr ⟨by rw [hfits]; omega, hlong (by omega)⟩
    · left
      obtain ⟨e, hread⟩ := readVarint_cut hfront.symm hnone
      have hlen := congrArg List.length hfront
      have hsome := List.length_pos_of_ne_nil hnone
      rw [List.length_append] at hlen
      refine ⟨?_, by omega⟩
      unfold nextFrame
      rw [hread]
      dsimp only
      rw [if_neg (by omega)]
  · obtain ⟨hlong, hshort, -⟩ := nextFrame_prefixed zlib (threshold.map (max · 0)) hint
      (by omega) tail
    have hsome := List.length_pos_of_ne_nil hmore
    rw [List.length_append] at hnat hfits
    by_cases hle : len.toNat ≤ MAX_PACKET_SIZE
    · refine .inl ⟨hshort hle (by omega), ?_⟩
      rw [List.length_append]
      omega
    · exact .inr ⟨by rw [hfits]; omega, hlong (by omega)⟩

/-! ## A run of pieces -/

theorem tryNext_eq (zlib : StreamCodec) (c : FrameCodec) : c.tryNext zlib =
    match nextFrame zlib c.compressionThreshold c.pending with
    | .error e => (.error e, c)
    | .ok none => (.ok none, c)
    | .ok (some (payload, total)) => (splitPacket payload, c.consume total) := by
  unfold FrameCodec.tryNext
  by_cases hnone : c.buffered = 0
  · have hpending : c.pending = [] := by
      rw [FrameCodec.buffered_eq] at hnone
      exact List.length_eq_zero_iff.mp hnone
    rw [if_pos hnone, hpending]
    rfl
  · rw [if_neg hnone]
    rfl

theorem encodeAll_cons {zlib : StreamCodec} {threshold : Option Int} {p : RawPacket}
    {ps : List RawPacket} {bytes : Bytes} (h : encodeAll zlib threshold (p :: ps) = .ok bytes) :
    ∃ front rest, encode zlib p threshold = .ok front ∧ encodeAll zlib threshold ps = .ok rest ∧
      bytes = front ++ rest := by
  obtain ⟨front, hfront, h⟩ := bind_ok h
  obtain ⟨rest, hrest, heq⟩ := bind_ok h
  cases heq
  exact ⟨front, rest, hfront, hrest, rfl⟩

/-- The codec has read up to the packets `left`, of which less than a frame is buffered. -/
structure At (zlib : StreamCodec) (threshold : Option Int) (c : FrameCodec) (left : List RawPacket)
    (later : Bytes) : Prop where
  tuned : c.compressionThreshold = threshold.map (max · 0)
  bounded : c.start ≤ c.buffer.length
  stream : encodeAll zlib threshold left = .ok (c.pending ++ later)
  small : c.pending.length ≤ MAX_PACKET_SIZE + MAX_VARINT_BYTES
  done : later = [] → left = []

/-- Draining takes the whole frames in front and stops within the next, or fails on a frame that
does not fit. -/
theorem drain_spec {zlib : StreamCodec} (hzlib : zlib.Inverse) {threshold : Option Int} {later : Bytes}
    (turns : Nat) (c : FrameCodec) (ps : List RawPacket)
    (hthreshold : c.compressionThreshold = threshold.map (max · 0))
    (hbounded : c.start ≤ c.buffer.length)
    (hstream : encodeAll zlib threshold ps = .ok (c.pending ++ later))
    (hturns : c.pending.length < turns) :
    (∃ taken left c', drain zlib turns c = some (.ok (taken, c')) ∧ ps = taken ++ left ∧
      (∀ p ∈ taken, Fits zlib threshold p) ∧ At zlib threshold c' left later) ∨
    ((∃ e, drain zlib turns c = some (.error e)) ∧ ∃ p ∈ ps, ¬Fits zlib threshold p) := by
  induction turns generalizing c ps with
  | zero => omega
  | succ turns ih =>
    unfold drain
    rw [tryNext_eq, hthreshold]
    cases ps with
    | nil =>
      obtain ⟨hpending, hlater⟩ := List.append_eq_nil_iff.mp (Except.ok.inj hstream).symm
      rw [hpending]
      exact .inl ⟨[], [], c, rfl, rfl, fun _ h => (nomatch h),
        ⟨hthreshold, hbounded, hstream, by rw [hpending]; exact Nat.zero_le _, fun _ => rfl⟩⟩
    | cons p ps =>
      obtain ⟨bytes, rest, hbytes, hrest, heq⟩ := encodeAll_cons hstream
      have hpos : 0 < bytes.length := by
        obtain ⟨-, len, frame, rfl, -, -, hframe, -⟩ := encode_ok hzlib hbytes
        rw [List.length_append]
        omega
      have hcut : (∃ tail, c.pending = bytes ++ tail ∧ rest = tail ++ later) ∨
          ∃ more, more ≠ [] ∧ bytes = c.pending ++ more ∧ later = more ++ rest := by
        rcases List.append_eq_append_iff.mp heq with ⟨more, hmore, hlater⟩ | ⟨tail, htail, hlater⟩
        · by_cases hnone : more = []
          · subst hnone
            rw [List.append_nil] at hmore
            exact .inl ⟨[], by rw [List.append_nil, hmore], hlater.symm⟩
          · exact .inr ⟨more, hnone, hmore, hlater⟩
        · exact .inl ⟨tail, htail, hlater⟩
      rcases hcut with ⟨tail, htail, rfl⟩ | ⟨more, hmore, rfl, hlater⟩
      · obtain ⟨hopen, hrefuse⟩ := nextFrame_whole hzlib hbytes tail
        rw [htail]
        by_cases hfits : Fits zlib threshold p
        · obtain ⟨hconsume, hkept⟩ := c.consume_pending bytes.length
          rw [htail, List.drop_left] at hconsume
          rw [hopen hfits]
          dsimp only
          rw [splitPacket_body p (encode_ok hzlib hbytes).1]
          dsimp only
          rw [htail, List.length_append] at hturns
          have hwithin : bytes.length ≤ c.pending.length := by
            rw [htail, List.length_append]
            omega
          rcases ih (c.consume bytes.length) ps (hkept.trans hthreshold)
            (FrameCodec.consume_bounded hbounded hwithin) (by rw [hconsume]; exact hrest) (by rw [hconsume]; omega) with
            ⟨taken, left, c', hdrain, rfl, htaken, hat⟩ | ⟨⟨e, hdrain⟩, q, hq, hbig⟩
          · rw [hdrain]
            refine .inl ⟨p :: taken, left, c', rfl, rfl, fun q hq => ?_, hat⟩
            rcases List.mem_cons.mp hq with rfl | hq
            · exact hfits
            · exact htaken q hq
          · rw [hdrain]
            exact .inr ⟨⟨e, rfl⟩, q, List.mem_cons_of_mem _ hq, hbig⟩
        · obtain ⟨e, herr⟩ := hrefuse hfits
          rw [herr]
          exact .inr ⟨⟨e, rfl⟩, p, List.mem_cons_self .., hfits⟩
      · rcases nextFrame_cut hzlib hbytes hmore with ⟨hwait, hsmall⟩ | ⟨hbig, e, herr⟩
        · rw [hwait]
          refine .inl ⟨[], p :: ps, c, rfl, rfl, fun _ h => (nomatch h),
            ⟨hthreshold, hbounded, hstream, hsmall, fun hnone => ?_⟩⟩
          rw [hnone] at hlater
          exact absurd (List.append_eq_nil_iff.mp hlater.symm).1 hmore
        · rw [herr]
          exact .inr ⟨⟨e, rfl⟩, p, List.mem_cons_self .., hbig⟩

/-- Fed in any pieces, the packets left come out, or a frame that does not fit stops the run. -/
theorem receive_spec {zlib : StreamCodec} (hzlib : zlib.Inverse) {threshold : Option Int}
    (pieces : List Bytes) (hpieces : ∀ piece ∈ pieces, piece.length ≤ MAX_PACKET_SIZE)
    {c : FrameCodec} {ps : List RawPacket} (h : At zlib threshold c ps pieces.flatten) :
    (∃ c', receive zlib c pieces = some (.ok (ps, c')) ∧ c'.pending = [] ∧
      ∀ p ∈ ps, Fits zlib threshold p) ∨
    ((∃ e, receive zlib c pieces = some (.error e)) ∧ ∃ p ∈ ps, ¬Fits zlib threshold p) := by
  induction pieces generalizing c ps with
  | nil =>
    obtain rfl := h.done rfl
    have hpending := (List.append_eq_nil_iff.mp (Except.ok.inj h.stream).symm).1
    exact .inl ⟨c, rfl, hpending, fun _ h => (nomatch h)⟩
  | cons piece pieces ih =>
    have hpiece := hpieces piece (List.mem_cons_self ..)
    have hsmall := h.small
    have hfed : ({ c with buffer := c.buffer ++ piece } : FrameCodec).pending =
        c.pending ++ piece := List.drop_append_of_le_length h.bounded
    have hcap : BUFFER_CAP = 2 * (MAX_PACKET_SIZE + MAX_VARINT_BYTES) + 16 := rfl
    unfold receive FrameCodec.feed
    dsimp only
    rw [if_neg (by rw [FrameCodec.buffered_eq, hfed, List.length_append]; omega)]
    dsimp only
    have hstream := h.stream
    rw [List.flatten_cons, ← List.append_assoc, ← hfed] at hstream
    rcases drain_spec hzlib _ { c with buffer := c.buffer ++ piece } ps h.tuned
      (by rw [List.length_append]; exact h.bounded.trans (Nat.le_add_right ..)) hstream
      (Nat.lt_succ_of_le (FrameCodec.buffered_eq _).ge) with
      ⟨taken, left, c', hdrain, rfl, htaken, hat⟩ | ⟨⟨e, hdrain⟩, hbig⟩
    · rw [hdrain]
      dsimp only
      rcases ih (fun q hq => hpieces q (List.mem_cons_of_mem _ hq)) hat with
        ⟨c'', hreceive, hpending, hleft⟩ | ⟨⟨e, hreceive⟩, q, hq, hbig⟩
      · rw [hreceive]
        refine .inl ⟨c'', rfl, hpending, fun q hq => ?_⟩
        rcases List.mem_append.mp hq with hq | hq
        · exact htaken q hq
        · exact hleft q hq
      · rw [hreceive]
        exact .inr ⟨⟨e, rfl⟩, q, List.mem_append_right _ hq, hbig⟩
    · rw [hdrain]
      exact .inr ⟨⟨e, rfl⟩, hbig⟩

/-- The packets come out as they went in, and nothing is left. -/
def Delivers (zlib : StreamCodec) (threshold : Option Int) (packets : List RawPacket)
    (pieces : List Bytes) : Prop :=
  ∃ c, receive zlib (codecFor threshold) pieces = some (.ok (packets, c)) ∧ c.buffered = 0

theorem codecFor_at {zlib : StreamCodec} (hzlib : zlib.Inverse) {threshold : Option Int}
    {packets : List RawPacket} {bytes : Bytes}
    (h : encodeAll zlib threshold packets = .ok bytes) :
    At zlib threshold (codecFor threshold) packets bytes := by
  have hempty : (codecFor threshold).buffer = [] ∧ (codecFor threshold).start = 0 := by
    cases threshold <;> exact ⟨rfl, rfl⟩
  have hpending : (codecFor threshold).pending = [] := by
    rw [FrameCodec.pending, hempty.1, List.drop_nil]
  refine ⟨by cases threshold <;> rfl, ?_, ?_, ?_, fun hnone => ?_⟩
  · rw [hempty.2]
    exact Nat.zero_le _
  · rw [hpending]
    exact h
  · rw [hpending]
    exact Nat.zero_le _
  · cases packets with
    | nil => rfl
    | cons p ps =>
      obtain ⟨front, rest, hfront, -, heq⟩ := encodeAll_cons h
      obtain ⟨-, len, frame, rfl, -, -, hpos, -⟩ := encode_ok hzlib hfront
      rw [hnone] at heq
      have hlen := congrArg List.length heq
      simp only [List.length_append, List.length_nil] at hlen
      omega

/-- For a stream of accepted packets, cut into pieces anywhere: the packets come out, in order,
with nothing left, if and only if each fits a frame; and compaction changes nothing of that. -/
theorem delivers_iff {zlib : StreamCodec} (hzlib : zlib.Inverse) {threshold : Option Int}
    {packets : List RawPacket} {bytes : Bytes}
    (haccepted : encodeAll zlib threshold packets = .ok bytes) {pieces : List Bytes}
    (hsplit : pieces.flatten = bytes) (hpieces : ∀ piece ∈ pieces, piece.length ≤ MAX_PACKET_SIZE) :
    (Delivers zlib threshold packets pieces ↔ ∀ p ∈ packets, Fits zlib threshold p) ∧
      ∀ c c' : FrameCodec, c.pending = c'.pending →
        c.compressionThreshold = c'.compressionThreshold →
        (c.tryNext zlib).1 = (c'.tryNext zlib).1 ∧
          (c.tryNext zlib).2.pending = (c'.tryNext zlib).2.pending := by
  refine ⟨?_, fun c c' => FrameCodec.tryNext_view zlib⟩
  subst hsplit
  rcases receive_spec hzlib pieces hpieces (codecFor_at hzlib haccepted) with
    ⟨c, hreceive, hpending, hfits⟩ | ⟨⟨e, hreceive⟩, p, hp, hbig⟩
  · refine iff_of_true ⟨c, hreceive, ?_⟩ hfits
    rw [FrameCodec.buffered_eq, hpending]
    rfl
  · refine iff_of_false ?_ fun hall => hbig (hall p hp)
    rintro ⟨c, hok, -⟩
    rw [hreceive] at hok
    cases hok

theorem delivers_iff_cut :
    (Delivers .plain (some 256) [⟨3, [9, 9]⟩, ⟨42, []⟩] [[4, 0, 3], [9, 9, 2], [0, 42]] ↔
      ∀ p ∈ [⟨3, [9, 9]⟩, ⟨42, []⟩], Fits .plain (some 256) p) ∧
      ∀ c c' : FrameCodec, c.pending = c'.pending →
        c.compressionThreshold = c'.compressionThreshold →
        (c.tryNext .plain).1 = (c'.tryNext .plain).1 ∧
          (c.tryNext .plain).2.pending = (c'.tryNext .plain).2.pending :=
  delivers_iff StreamCodec.plain_inverse
    (show encodeAll .plain (some 256) [⟨3, [9, 9]⟩, ⟨42, []⟩] = .ok [4, 0, 3, 9, 9, 2, 0, 42] from rfl)
    rfl (by decide)

/-! ## A packet of the greatest size below the threshold -/

theorem lenI32_full :
    lenI32 (MAX_PACKET_SIZE + 1) = .ok (BitVec.ofNat 32 (MAX_PACKET_SIZE + 1)) := by
  have hlt : MAX_PACKET_SIZE + 1 < 2 ^ 31 := by
    unfold MAX_PACKET_SIZE
    omega
  unfold lenI32
  rw [if_pos hlt]

/-- It is accepted, and its marker makes the frame one byte too long. -/
theorem encode_full (zlib : StreamCodec) {p : RawPacket} (h : p.body.length = MAX_PACKET_SIZE) :
    ∃ bytes, encodeAll zlib (some (MAX_PACKET_SIZE + 1)) [p] = .ok bytes ∧
      bytes.length ≤ MAX_PACKET_SIZE + 10 ∧ ¬Fits zlib (some (MAX_PACKET_SIZE + 1)) p := by
  have hencode : encode zlib p (some (MAX_PACKET_SIZE + 1)) =
      .ok (writeVarint (BitVec.ofNat 32 (MAX_PACKET_SIZE + 1)) ++ writeVarint 0 ++ p.body) := by
    unfold encode
    dsimp only
    rw [h, if_neg (Nat.lt_irrefl _), if_pos (by omega), lenI32_full]
    simp only [bind, Except.bind, pure, Except.pure]
  have hfront := writeVarint_length_le (BitVec.ofNat 32 (MAX_PACKET_SIZE + 1))
  have hmarker := writeVarint_length_le 0
  generalize writeVarint (BitVec.ofNat 32 (MAX_PACKET_SIZE + 1)) = front at hencode hfront
  generalize writeVarint 0 = marker at hencode hmarker
  refine ⟨front ++ marker ++ p.body, ?_, ?_, fun hfits => ?_⟩
  · simp only [encodeAll, hencode, bind, Except.bind, pure, Except.pure, List.append_nil]
  · rw [List.length_append, List.length_append, h]
    omega
  · rw [Fits, if_pos (by omega), h] at hfits
    exact Nat.lt_irrefl _ hfits

/-- The id and as many bytes as make `MAX_PACKET_SIZE`. -/
def fullPacket : RawPacket := ⟨0, List.replicate (MAX_PACKET_SIZE - 1) 0⟩

theorem fullPacket_length : fullPacket.body.length = MAX_PACKET_SIZE := by
  have hid : (writeVarint 0).length = 1 := by decide
  have hpos : 1 ≤ MAX_PACKET_SIZE := by
    unfold MAX_PACKET_SIZE
    omega
  unfold fullPacket RawPacket.body
  dsimp only
  rw [List.length_append, List.length_replicate, hid]
  omega

theorem fullPacket_refused : ¬∀ (zlib : StreamCodec) (threshold : Option Int) (packets : List RawPacket)
    (bytes : Bytes) (pieces : List Bytes), zlib.Inverse → (∀ t ∈ threshold, 0 ≤ t) →
      encodeAll zlib threshold packets = .ok bytes → pieces.flatten = bytes →
      (∀ piece ∈ pieces, piece.length ≤ MAX_PACKET_SIZE) →
      Delivers zlib threshold packets pieces := by
  intro h
  have hfull := fullPacket_length
  generalize fullPacket = p at hfull
  obtain ⟨bytes, haccepted, hsize, hbig⟩ := encode_full .plain hfull
  have hsplit : [bytes.take MAX_PACKET_SIZE, bytes.drop MAX_PACKET_SIZE].flatten = bytes := by
    rw [List.flatten_cons, List.flatten_cons, List.flatten_nil, List.append_nil,
      List.take_append_drop]
  have hpieces : ∀ piece ∈ [bytes.take MAX_PACKET_SIZE, bytes.drop MAX_PACKET_SIZE],
      piece.length ≤ MAX_PACKET_SIZE := by
    have hmax : 10 ≤ MAX_PACKET_SIZE := by decide
    intro piece hpiece
    simp only [List.mem_cons, List.not_mem_nil, or_false] at hpiece
    rcases hpiece with rfl | rfl
    · exact List.length_take_le ..
    · rw [List.length_drop]
      omega
  have hnonneg : ∀ t ∈ some ((MAX_PACKET_SIZE : Int) + 1), 0 ≤ t := by
    intro t ht
    cases ht
    omega
  obtain ⟨c, hok, -⟩ := h .plain _ _ bytes _ StreamCodec.plain_inverse hnonneg haccepted hsplit hpieces
  have hat := codecFor_at StreamCodec.plain_inverse haccepted
  rw [← hsplit] at hat
  rcases receive_spec StreamCodec.plain_inverse _ hpieces hat with ⟨-, -, -, hfits⟩ | ⟨⟨e, herr⟩, -⟩
  · exact hbig (hfits p (List.mem_singleton_self _))
  · rw [herr] at hok
    cases hok

end Apoptosis.L1.Frame
