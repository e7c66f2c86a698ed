import Apoptosis.Core.Framing
import Apoptosis.ServerError
/-!
# Packet primitives (`protocol/src/varint.rs`, `protocol/src/wire.rs`)

A packet reader is its unread bytes, and every read returns the rest. Two
`VarInt` readers exist, one here and one in the component codec; they are the
same loop with different error texts (`varintLoop`). A fifth byte's high bits
are shifted out of the 32-bit value by both, so a `VarInt` has several byte
forms and the writer emits the shortest.

Results:
* `delimited_varintLoop`: a `VarInt` ends itself.
* `reads_writeVarint`: the reader reads the writer's bytes, for every `i32`.
* `reads_readBe`: so are the bytes of a fixed-width number.
-/
namespace Apoptosis.L1.Wire
open Apoptosis.Core.Codec Apoptosis.Core.Framing

/-- mirrors crates/protocol/src/varint.rs:11 (`MAX_VARINT_BYTES`) -/
def MAX_VARINT_BYTES : Nat := 5

/-! ## VarInt -/

/-- The loop of both `VarInt` readers. `left` is how many more bytes may follow this one,
`eof` the error of an exhausted input and `long` that of a byte too many. -/
def varintLoop (eof long : ServerError) : Nat → Nat → Nat → Get ServerError (BitVec 32)
  | _, _, _, [] => .error eof
  | left, shift, acc, byte :: rest =>
    let acc := acc ||| ((byte.toNat &&& 0x7F) <<< shift)
    if byte.toNat &&& 0x80 = 0 then .ok (BitVec.ofNat 32 acc, rest)
    else match left with
      | 0 => .error long
      | left + 1 => varintLoop eof long left (shift + 7) acc rest

/-- mirrors crates/protocol/src/varint.rs:74-97 (`read_varint`) -/
def readVarint : Get ServerError (BitVec 32) :=
  varintLoop (.protocol "truncated VarInt")
    (.protocol s!"VarInt longer than {MAX_VARINT_BYTES} bytes") (MAX_VARINT_BYTES - 1) 0 0

/-- The write loop on the value read as unsigned; a 32-bit value takes at most four
turns before the last. -/
def varintBytes : Nat → Nat → Bytes
  | 0, value => [UInt8.ofNat value]
  | turns + 1, value =>
    if value < 0x80 then [UInt8.ofNat value]
    else UInt8.ofNat ((value &&& 0x7F) ||| 0x80) :: varintBytes turns (value >>> 7)

/-- mirrors crates/protocol/src/varint.rs:40-52 (`write_varint`), the bytes it appends -/
def writeVarint (value : BitVec 32) : Bytes := varintBytes 4 value.toNat

theorem and_7F (x : Nat) : x &&& 0x7F = x % 128 := Nat.and_two_pow_sub_one_eq_mod x 7

theorem or_80 (x : Nat) (hx : x < 128) : x ||| 0x80 = x + 128 := by
  rw [Nat.or_comm, show (0x80 : Nat) = 2 ^ 7 * 1 from rfl, ← Nat.two_pow_add_eq_or_of_lt hx]
  omega

theorem and_80_eq_zero (x : Nat) (hx : x < 256) : x &&& 0x80 = 0 ↔ x < 128 := by
  have := (by decide +kernel : ∀ i : Fin 256, i.val &&& 0x80 = 0 ↔ i.val < 128)
  exact this ⟨x, hx⟩

/-- OR-ing seven payload bits in above the accumulated ones is an addition. -/
theorem acc_or (acc x shift : Nat) (h : acc < 2 ^ shift) :
    acc ||| (x <<< shift) = acc + x * 2 ^ shift := by
  rw [Nat.shiftLeft_eq, Nat.or_comm, Nat.mul_comm x, ← Nat.two_pow_add_eq_or_of_lt h]
  omega

theorem delimited_varintLoop (eof long : ServerError) (left shift acc : Nat) :
    Delimited (varintLoop eof long left shift acc) := by
  intro b
  induction b generalizing left shift acc with
  | nil => intro a r h; rw [varintLoop] at h; cases h
  | cons byte rest ih =>
    intro a r h
    rw [varintLoop.eq_def] at h
    simp only at h
    split at h
    · next hlast =>
      cases h
      refine ⟨[byte], rfl, fun r' => ?_⟩
      rw [List.singleton_append, varintLoop.eq_def]
      simp only [hlast, ↓reduceIte]
    · next hmore =>
      cases left with
      | zero => cases h
      | succ left =>
        obtain ⟨c, rfl, hc⟩ := ih left (shift + 7) _ a r h
        refine ⟨byte :: c, rfl, fun r' => ?_⟩
        rw [List.cons_append, varintLoop.eq_def]
        simp only [hmore, ↓reduceIte]
        exact hc r'

theorem delimited_readVarint : Delimited readVarint := delimited_varintLoop _ _ _ _ _

theorem reads_varintBytes (eof long : ServerError) : ∀ (left shift acc value : Nat),
    acc < 2 ^ shift → value < 128 ^ (left + 1) →
    Reads (varintLoop eof long left shift acc) (varintBytes left value)
      (BitVec.ofNat 32 (acc + value * 2 ^ shift)) := by
  intro left
  induction left with
  | zero =>
    intro shift acc value hacc hv r
    have hb : (UInt8.ofNat value).toNat = value := by rw [UInt8.toNat_ofNat']; omega
    rw [varintBytes, List.singleton_append, varintLoop.eq_def]
    simp only [hb]
    rw [if_pos ((and_80_eq_zero _ (by omega)).mpr (by omega)), and_7F, acc_or _ _ _ hacc,
      Nat.mod_eq_of_lt (by omega)]
  | succ left ih =>
    intro shift acc value hacc hv r
    rw [varintBytes]
    by_cases hlast : value < 0x80
    · have hb : (UInt8.ofNat value).toNat = value := by rw [UInt8.toNat_ofNat']; omega
      rw [if_pos hlast, List.singleton_append, varintLoop.eq_def]
      simp only [hb]
      rw [if_pos ((and_80_eq_zero _ (by omega)).mpr hlast), and_7F, acc_or _ _ _ hacc,
        Nat.mod_eq_of_lt (by omega)]
    · have hb : (UInt8.ofNat ((value &&& 0x7F) ||| 0x80)).toNat = value % 128 + 128 := by
        rw [and_7F, or_80 _ (by omega), UInt8.toNat_ofNat']; omega
      have hdiv : value / 128 < 128 ^ (left + 1) := by
        rw [Nat.div_lt_iff_lt_mul (by decide), ← pow_succ]; exact hv
      have hacc' : acc + value % 128 * 2 ^ shift < 2 ^ (shift + 7) := by
        have : value % 128 * 2 ^ shift ≤ 127 * 2 ^ shift := Nat.mul_le_mul_right _ (by omega)
        rw [pow_add]; omega
      have hsum : acc + value % 128 * 2 ^ shift + value / 128 * 2 ^ (shift + 7) =
          acc + value * 2 ^ shift := by
        have := Nat.div_add_mod value 128
        rw [pow_add, ← mul_assoc, mul_right_comm, add_assoc, ← add_mul]
        congr 2; omega
      have := ih (shift + 7) (acc + value % 128 * 2 ^ shift) (value / 128) hacc' hdiv r
      rw [if_neg hlast, List.cons_append, varintLoop.eq_def]
      simp only [hb]
      rw [if_neg (by rw [and_80_eq_zero _ (by omega)]; omega), and_7F,
        show (value % 128 + 128) % 128 = value % 128 by omega, acc_or _ _ _ hacc,
        show value >>> 7 = value / 128 from Nat.shiftRight_eq_div_pow value 7, this, hsum]

/-- Both `VarInt` readers read the writer's bytes back, for every `i32`. -/
theorem reads_writeVarint (eof long : ServerError) (value : BitVec 32) :
    Reads (varintLoop eof long 4 0 0) (writeVarint value) value := by
  have := reads_varintBytes eof long 4 0 0 value.toNat (by decide) (by
    have := value.isLt; norm_num; omega)
  simpa [writeVarint] using this

theorem reads_readVarint (value : BitVec 32) : Reads readVarint (writeVarint value) value :=
  reads_writeVarint _ _ value

theorem writeVarint_length_pos (value : BitVec 32) : 0 < (writeVarint value).length := by
  unfold writeVarint varintBytes
  split <;> simp

theorem varintBytes_length_le : ∀ (turns value k : Nat), value < 128 ^ (k + 1) →
    (varintBytes turns value).length ≤ k + 1 := by
  intro turns
  induction turns with
  | zero => intro value k _; simp [varintBytes]
  | succ turns ih =>
    intro value k h
    rw [varintBytes]
    split
    · simp
    · next hge =>
      cases k with
      | zero => rw [Nat.zero_add, pow_one] at h; omega
      | succ k =>
        have hdiv : value >>> 7 < 128 ^ (k + 1) := by
          rw [Nat.shiftRight_eq_div_pow, Nat.div_lt_iff_lt_mul (by decide), ← pow_succ]
          exact h
        have := ih (value >>> 7) k hdiv
        rw [List.length_cons]; omega

/-- `n + 1` bytes carry at most `7 (n + 1)` bits. -/
theorem varintLoop_value (eof long : ServerError) : ∀ (b : Bytes) (left shift acc : Nat)
    (v : BitVec 32) (r : Bytes), acc < 2 ^ shift →
    varintLoop eof long left shift acc b = .ok (v, r) →
    ∃ n, b.length = r.length + (n + 1) ∧ v.toNat < 2 ^ shift * 128 ^ (n + 1) := by
  intro b
  induction b with
  | nil => intro left shift acc v r _ h; rw [varintLoop] at h; cases h
  | cons byte rest ih =>
    intro left shift acc v r hacc h
    have hnew : acc ||| ((byte.toNat &&& 0x7F) <<< shift) < 2 ^ shift * 128 := by
      have : (byte.toNat % 128) * 2 ^ shift ≤ 127 * 2 ^ shift := Nat.mul_le_mul_right _ (by omega)
      rw [and_7F, acc_or _ _ _ hacc]; omega
    rw [varintLoop.eq_def] at h
    simp only at h
    split at h
    · cases h
      refine ⟨0, rfl, Nat.lt_of_le_of_lt ?_ (by simpa using hnew)⟩
      rw [BitVec.toNat_ofNat]
      exact Nat.mod_le _ _
    · cases left with
      | zero => cases h
      | succ left =>
        have hpow : 2 ^ (shift + 7) = 2 ^ shift * 128 := by rw [pow_add]; norm_num
        obtain ⟨n, hlen, hv⟩ := ih left (shift + 7) _ v r (by rw [hpow]; exact hnew) h
        refine ⟨n + 1, by rw [List.length_cons]; omega, ?_⟩
        rw [pow_succ' 128 (n + 1), ← mul_assoc, ← hpow]
        exact hv

/-- The writer's form of a `VarInt` is the shortest: it is no longer than any form read. -/
theorem writeVarint_shortest {b r : Bytes} {v : BitVec 32} (h : readVarint b = .ok (v, r)) :
    (writeVarint v).length + r.length ≤ b.length := by
  obtain ⟨n, hlen, hv⟩ := varintLoop_value _ _ b _ 0 0 v r (by decide) h
  have := varintBytes_length_le 4 v.toNat n (by simpa using hv)
  unfold writeVarint
  omega

/-! ## Fixed-width reads -/

/-- mirrors crates/protocol/src/wire.rs:60-68 (`PacketReader::ensure`), its error -/
def packetTruncated (n : Nat) (data : Bytes) : ServerError :=
  .protocol s!"packet truncated: need {n} bytes, have {data.length}"

/-- mirrors crates/protocol/src/wire.rs:195-200 (`PacketReader::read_bytes`) -/
def readBytes (n : Nat) : Get ServerError Bytes := takeBytes (packetTruncated n) n

/-- mirrors crates/protocol/src/wire.rs:105-119 (`PacketReader::read_i16`) -/
def readI16 : Get ServerError (BitVec 16) := fun data => do
  let (raw, data) ← readBytes 2 data
  return (BitVec.ofNat 16 (ofBe raw), data)

/-- mirrors crates/protocol/src/wire.rs:330-332 (`PacketWriter::write_i16`) -/
def writeI16 (value : BitVec 16) : Bytes := toBe 2 value.toNat

theorem reads_readI16 (value : BitVec 16) : Reads readI16 (writeI16 value) value := by
  intro r
  have hv : value.toNat < 256 ^ 2 := value.isLt
  have := reads_takeBytes (packetTruncated 2) (writeI16 value) r
  rw [writeI16, toBe_length] at this
  unfold readI16 readBytes
  rw [writeI16, this]
  simp only [bind, Except.bind, ofBe_toBe 2 _ hv, BitVec.ofNat_toNat, BitVec.setWidth_eq]
  rfl

/-- mirrors crates/protocol/src/wire.rs:75-80 (`PacketReader::read_u8`) -/
def readU8 : Get ServerError UInt8
  | [] => .error (packetTruncated 1 [])
  | byte :: data => .ok (byte, data)

/-- The other reads of a fixed width. -/
def readBe (k w : Nat) : Get ServerError (BitVec w) := fun data => do
  let (raw, data) ← readBytes k data
  return (BitVec.ofNat w (ofBe raw), data)

/-- mirrors crates/protocol/src/wire.rs:126-131 (`PacketReader::read_i32`) -/
def readI32 : Get ServerError (BitVec 32) := readBe 4 32

/-- mirrors crates/protocol/src/wire.rs:138-152 (`PacketReader::read_i64`) -/
def readI64 : Get ServerError (BitVec 64) := readBe 8 64

/-- mirrors crates/protocol/src/wire.rs:335-337 (`PacketWriter::write_i32`) -/
def writeI32 (value : BitVec 32) : Bytes := toBe 4 value.toNat

/-- mirrors crates/protocol/src/wire.rs:340-342 (`PacketWriter::write_i64`) -/
def writeI64 (value : BitVec 64) : Bytes := toBe 8 value.toNat

/-! ## Numbers -/

theorem reads_readBe {k w : Nat} (hw : 2 ^ w = 256 ^ k) (value : BitVec w) :
    Reads (readBe k w) (toBe k value.toNat) value := by
  intro r
  have hv : value.toNat < 256 ^ k := hw ▸ value.isLt
  have hread := reads_takeBytes (packetTruncated k) (toBe k value.toNat) r
  rw [toBe_length] at hread
  unfold readBe readBytes
  rw [hread]
  simp only [bind, Except.bind, ofBe_toBe k _ hv, BitVec.ofNat_toNat, BitVec.setWidth_eq]
  rfl

end Apoptosis.L1.Wire
