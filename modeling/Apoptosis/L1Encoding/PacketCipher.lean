import Apoptosis.Core.StreamCipher
/-!
# The cipher of a connection (`protocol/src/cipher.rs`)

AES in CFB8: the first byte of the enciphered register is the pad of the next
byte, and the register takes in the byte that went over the line. The block
cipher is a parameter.

* `read_written`: packets enciphered one by one come back from whatever chunks
  the line cuts them into.
* `decrypt_resync`: sixteen bytes of the line after a fault, both ends agree
  again.
-/
namespace Apoptosis.L1
open Apoptosis.Core.Codec Apoptosis.Core.StreamCipher

abbrev Block := Vector UInt8 16

/-- mirrors crates/protocol/src/cipher.rs:34-38 (`PacketCipher`) -/
structure PacketCipher where
  secret : Block
  encShift : Block
  decShift : Block
  deriving DecidableEq

namespace PacketCipher

/-- mirrors crates/protocol/src/cipher.rs:42-49 (`PacketCipher::new`) -/
def new (secret : Block) : PacketCipher := ⟨secret, secret, secret⟩

/-- `rotate_left(1)`, and the byte into the last place. -/
def shiftIn (shift : Block) (byte : UInt8) : Block :=
  (Vector.ofFn fun i : Fin 16 => shift[(i.val + 1) % 16]).set 15 byte

variable (aes : Block → Block → Block)

/-- mirrors crates/protocol/src/cipher.rs:50-60 (`PacketCipher::encrypt_bytes`) -/
def encryptBytes : PacketCipher → Bytes → Bytes × PacketCipher
  | c, [] => ([], c)
  | c, byte :: bytes =>
    let keystream := aes c.secret c.encShift
    let cipherByte := keystream[0] ^^^ byte
    let (rest, c) := encryptBytes { c with encShift := shiftIn c.encShift cipherByte } bytes
    (cipherByte :: rest, c)

/-- mirrors crates/protocol/src/cipher.rs:63-77 (`PacketCipher::decrypt_bytes`) -/
def decryptBytes : PacketCipher → Bytes → Bytes × PacketCipher
  | c, [] => ([], c)
  | c, byte :: bytes =>
    let keystream := aes c.secret c.decShift
    let plainByte := keystream[0] ^^^ byte
    let (rest, c) := decryptBytes { c with decShift := shiftIn c.decShift byte } bytes
    (plainByte :: rest, c)

/-! ## As a stream -/

/-- The pad a register gives. -/
def pad (secret shift : Block) : UInt8 := (aes secret shift)[0]

theorem encryptBytes_eq (c : PacketCipher) (bytes : Bytes) :
    encryptBytes aes c bytes = (cover (pad aes c.secret) shiftIn c.encShift bytes,
      { c with encShift := fed shiftIn c.encShift (cover (pad aes c.secret) shiftIn c.encShift bytes) }) := by
  induction bytes generalizing c with
  | nil => rfl
  | cons byte bytes ih =>
    rw [encryptBytes, ih]
    rfl

theorem decryptBytes_eq (c : PacketCipher) (bytes : Bytes) :
    decryptBytes aes c bytes = (uncover (pad aes c.secret) shiftIn c.decShift bytes,
      { c with decShift := fed shiftIn c.decShift bytes }) := by
  induction bytes generalizing c with
  | nil => rfl
  | cons byte bytes ih =>
    rw [decryptBytes, ih]
    rfl

/-! ## A line -/

/-- The packets one after the other, as they go out. -/
def writeAll : PacketCipher → List Bytes → Bytes
  | _, [] => []
  | c, bytes :: more =>
    let (sent, c) := encryptBytes aes c bytes
    sent ++ writeAll c more

/-- The chunks one after the other, as they are read. -/
def readAll : PacketCipher → List Bytes → Bytes
  | _, [] => []
  | c, chunk :: more =>
    let (plain, c) := decryptBytes aes c chunk
    plain ++ readAll c more

theorem writeAll_eq (c : PacketCipher) (packets : List Bytes) :
    writeAll aes c packets = cover (pad aes c.secret) shiftIn c.encShift packets.flatten := by
  induction packets generalizing c with
  | nil => rfl
  | cons bytes more ih =>
    rw [writeAll, encryptBytes_eq]
    dsimp only
    rw [ih, List.flatten_cons, cover_append]

theorem readAll_eq (c : PacketCipher) (chunks : List Bytes) :
    readAll aes c chunks = uncover (pad aes c.secret) shiftIn c.decShift chunks.flatten := by
  induction chunks generalizing c with
  | nil => rfl
  | cons chunk more ih =>
    rw [readAll, decryptBytes_eq]
    dsimp only
    rw [ih, List.flatten_cons, uncover_append]

theorem read_written (secret : Block) (packets chunks : List Bytes)
    (h : chunks.flatten = writeAll aes (new secret) packets) :
    readAll aes (new secret) chunks = packets.flatten := by
  rw [readAll_eq, h, writeAll_eq]
  exact uncover_cover _ _ secret packets.flatten

/-! ## After a fault -/

theorem shiftIn_toList (shift : Block) (byte : UInt8) :
    (shiftIn shift byte).toList = shift.toList.tail ++ [byte] := by
  refine List.ext_getElem (by simp) fun i hi _ => ?_
  rw [Vector.length_toList] at hi
  rw [Vector.getElem_toList, List.getElem_append]
  unfold shiftIn
  rw [Vector.getElem_set]
  by_cases hlast : i = 15
  · subst hlast
    simp
  · have hlt : i + 1 < 16 := by omega
    have hshort : i < shift.toList.tail.length := by simp; omega
    rw [if_neg (Ne.symm hlast), dif_pos hshort, List.getElem_tail, Vector.getElem_toList, Vector.getElem_ofFn]
    simp only [Nat.mod_eq_of_lt hlt]

/-- The register is the end of what went over the line. -/
theorem fed_toList (shift : Block) (line : Bytes) :
    (fed shiftIn shift line).toList = (shift.toList ++ line).drop line.length := by
  induction line generalizing shift with
  | nil => simp [fed]
  | cons byte line ih =>
    have hcons : shift.toList = shift.toList.head (by simp) :: shift.toList.tail :=
      (List.cons_head_tail _).symm
    show (fed shiftIn (shiftIn shift byte) line).toList = _
    rw [ih, shiftIn_toList, hcons, List.cons_append, List.length_cons, List.drop_succ_cons, List.append_assoc]
    rfl

theorem fed_eq (shift shift' : Block) {line : Bytes} (h : 16 ≤ line.length) :
    fed shiftIn shift line = fed shiftIn shift' line := by
  refine Vector.toList_inj.mp ?_
  have hgone (shift : Block) : shift.toList.drop line.length = [] := List.drop_eq_nil_of_le (by simpa using h)
  rw [fed_toList, fed_toList, List.drop_append, List.drop_append, hgone, hgone, Vector.length_toList,
    Vector.length_toList]

theorem decrypt_resync (c : PacketCipher) (before bad bad' line more : Bytes) (h : line.length = 16) :
    ∃ plain spoilt spoilt' rest,
      (decryptBytes aes c (before ++ bad ++ line ++ more)).1 = plain ++ spoilt ++ rest ∧
      (decryptBytes aes c (before ++ bad' ++ line ++ more)).1 = plain ++ spoilt' ++ rest ∧
      plain.length = before.length ∧ spoilt.length = bad.length + 16 ∧ spoilt'.length = bad'.length + 16 := by
  have hread (wrong : Bytes) : (decryptBytes aes c (before ++ wrong ++ line ++ more)).1 =
      uncover (pad aes c.secret) shiftIn c.decShift before ++
      uncover (pad aes c.secret) shiftIn (fed shiftIn c.decShift before) (wrong ++ line) ++
      uncover (pad aes c.secret) shiftIn (fed shiftIn c.decShift line) more := by
    rw [decryptBytes_eq, List.append_assoc before, uncover_append, uncover_append]
    simp only [fed_append]
    rw [fed_eq _ c.decShift (Nat.le_of_eq h.symm)]
  refine ⟨_, _, _, _, hread bad, hread bad', ?_, ?_, ?_⟩
  · exact uncover_length _ _ _ _
  · rw [uncover_length, List.length_append, h]
  · rw [uncover_length, List.length_append, h]

/-- A byte lost at the start of a line. -/
theorem decrypt_resync_lost : ∃ plain spoilt spoilt' rest : Bytes,
    (decryptBytes (fun _ shift => shift) (new (.replicate 16 1)) ([] ++ [5] ++ List.replicate 16 7 ++ [9])).1 =
      plain ++ spoilt ++ rest ∧
    (decryptBytes (fun _ shift => shift) (new (.replicate 16 1)) ([] ++ [] ++ List.replicate 16 7 ++ [9])).1 =
      plain ++ spoilt' ++ rest ∧
    plain.length = 0 ∧ spoilt.length = 1 + 16 ∧ spoilt'.length = 0 + 16 :=
  decrypt_resync _ (new (.replicate 16 1)) [] [5] [] (List.replicate 16 7) [9] rfl

end PacketCipher

end Apoptosis.L1
