import Apoptosis.Core.Codec
import Apoptosis.ServerError
/-!
# Modified UTF-8 (`nbt/src/string.rs`)

NBT strings are Java modified UTF-8: a `u16` byte length, then the UTF-16
code units of the string, one, two or three bytes each. NUL takes two bytes
and a supplementary character is a surrogate pair of three bytes each.

Code units are natural numbers; every unit `encodeUtf16` produces is below
`0x10000` (`encodeUtf16_lt`).

Results:
* `fromUtf16_encodeUtf16`: the surrogate pairing is undone exactly.
* `decode_encodeBody`: `decode` inverts the body encoder on every string.
* `puts_writeModifiedUtf8`: the in-place writer with its back-filled length
  appends `encodeModifiedUtf8`, or fails and leaves the buffer as it was.
-/
namespace Apoptosis.L1.ModifiedUtf8
open Apoptosis.Core.Codec

/-! ## UTF-16 code units -/

/-- `char::encode_utf16` -/
def charUnits (c : Char) : List Nat :=
  if c.toNat < 0x10000 then [c.toNat]
  else [0xD800 + (c.toNat - 0x10000) / 0x400, 0xDC00 + (c.toNat - 0x10000) % 0x400]

/-- `str::encode_utf16` -/
def encodeUtf16 (value : String) : List Nat := value.toList.flatMap charUnits

/-- `String::from_utf16`, on the characters: `none` at an unpaired surrogate. -/
def fromUtf16 : List Nat → Option (List Char)
  | [] => some []
  | u :: rest =>
    if u < 0xD800 ∨ 0xE000 ≤ u then (Char.ofNat u :: ·) <$> fromUtf16 rest
    else if 0xDC00 ≤ u then none
    else match rest with
      | [] => none
      | u2 :: rest =>
        if 0xDC00 ≤ u2 ∧ u2 < 0xE000 then
          (Char.ofNat (0x10000 + (u - 0xD800) * 0x400 + (u2 - 0xDC00)) :: ·) <$> fromUtf16 rest
        else none

theorem char_toNat_valid (c : Char) :
    c.toNat < 0xD800 ∨ (0xDFFF < c.toNat ∧ c.toNat < 0x110000) := c.valid

theorem fromUtf16_charUnits (c : Char) (rest : List Nat) :
    fromUtf16 (charUnits c ++ rest) = (c :: ·) <$> fromUtf16 rest := by
  have hv := char_toNat_valid c
  unfold charUnits
  split
  · rw [List.singleton_append, fromUtf16.eq_def]
    simp only
    rw [if_pos (by omega), Char.ofNat_toNat]
  · rw [List.cons_append, List.singleton_append, fromUtf16.eq_def]
    simp only
    rw [if_neg (by omega), if_neg (by omega), if_pos (by omega)]
    have : 0x10000 + (0xD800 + (c.toNat - 0x10000) / 0x400 - 0xD800) * 0x400 +
        (0xDC00 + (c.toNat - 0x10000) % 0x400 - 0xDC00) = c.toNat := by omega
    rw [this, Char.ofNat_toNat]

theorem fromUtf16_flatMap (cs : List Char) : fromUtf16 (cs.flatMap charUnits) = some cs := by
  induction cs with
  | nil => rfl
  | cons c cs ih => rw [List.flatMap_cons, fromUtf16_charUnits, ih]; rfl

theorem fromUtf16_encodeUtf16 (value : String) :
    fromUtf16 (encodeUtf16 value) = some value.toList := fromUtf16_flatMap _

theorem charUnits_lt (c : Char) : ∀ u ∈ charUnits c, u < 0x10000 := by
  have hv := char_toNat_valid c
  unfold charUnits
  split <;> simp <;> omega

theorem encodeUtf16_lt (value : String) : ∀ u ∈ encodeUtf16 value, u < 0x10000 := by
  intro u hu
  obtain ⟨c, -, hc⟩ := List.mem_flatMap.mp hu
  exact charUnits_lt c u hc

/-! ## Bytes of one unit -/

/-- One arm of the `match unit` in `encode_body`. -/
def encodeUnit (unit : Nat) : Bytes :=
  if unit = 0x0000 then [0xC0, 0x80]
  else if unit ≤ 0x007F then [UInt8.ofNat unit]
  else if unit ≤ 0x07FF then
    [UInt8.ofNat (0xC0 ||| (unit >>> 6)), UInt8.ofNat (0x80 ||| (unit &&& 0x3F))]
  else
    [UInt8.ofNat (0xE0 ||| (unit >>> 12)), UInt8.ofNat (0x80 ||| ((unit >>> 6) &&& 0x3F)),
      UInt8.ofNat (0x80 ||| (unit &&& 0x3F))]

/-- mirrors crates/nbt/src/string.rs:41-57 (`encode_body`), the bytes it appends -/
def encodeBody (value : String) : Bytes := (encodeUtf16 value).flatMap encodeUnit

/-- mirrors crates/nbt/src/string.rs:120-122 -/
def truncated : ServerError := .protocol "modified UTF-8 string truncated"

/-- mirrors crates/nbt/src/string.rs:124-126 -/
def malformed : ServerError := .protocol "malformed modified UTF-8"

/-- The `while` loop of `decode`: the code units of a payload. -/
def decodeUnits : Bytes → ServerResult (List Nat)
  | [] => .ok []
  | b0 :: rest =>
    if 0x01 ≤ b0.toNat ∧ b0.toNat ≤ 0x7F then (b0.toNat :: ·) <$> decodeUnits rest
    else if 0xC0 ≤ b0.toNat ∧ b0.toNat ≤ 0xDF then
      match rest with
      | [] => .error truncated
      | b1 :: rest =>
        if b1.toNat &&& 0xC0 ≠ 0x80 then .error malformed
        else (((b0.toNat &&& 0x1F) <<< 6 ||| (b1.toNat &&& 0x3F)) :: ·) <$> decodeUnits rest
    else if 0xE0 ≤ b0.toNat ∧ b0.toNat ≤ 0xEF then
      match rest with
      | [] => .error truncated
      | [_] => .error truncated
      | b1 :: b2 :: rest =>
        if b1.toNat &&& 0xC0 ≠ 0x80 ∨ b2.toNat &&& 0xC0 ≠ 0x80 then .error malformed
        else (((b0.toNat &&& 0x0F) <<< 12 ||| (b1.toNat &&& 0x3F) <<< 6 |||
          (b2.toNat &&& 0x3F)) :: ·) <$> decodeUnits rest
    else .error malformed

/-- mirrors crates/nbt/src/string.rs:74-118 (`decode`) -/
def decode (payload : Bytes) : ServerResult String := do
  let units ← decodeUnits payload
  match fromUtf16 units with
  | some cs => return String.ofList cs
  | none => throw (.protocol "modified UTF-8 contains an unpaired surrogate")

/-! ## Bit fields of the two- and three-byte forms -/

theorem lead_or (k a x : Nat) (hx : x < 2 ^ k) : a * 2 ^ k ||| x = a * 2 ^ k + x := by
  rw [Nat.mul_comm, Nat.two_pow_add_eq_or_of_lt hx]

theorem and_3F (x : Nat) : x &&& 0x3F = x % 64 := Nat.and_two_pow_sub_one_eq_mod x 6

theorem and_1F (x : Nat) : x &&& 0x1F = x % 32 := Nat.and_two_pow_sub_one_eq_mod x 5

theorem and_0F (x : Nat) : x &&& 0x0F = x % 16 := Nat.and_two_pow_sub_one_eq_mod x 4

theorem and_C0 (x : Nat) (hx : x < 64) : (0x80 + x) &&& 0xC0 = 0x80 := by
  have := (by decide +kernel : ∀ i : Fin 64, (0x80 + i.val) &&& 0xC0 = 0x80)
  exact this ⟨x, hx⟩

/-- A continuation byte carries six bits. -/
theorem cont_byte (x : Nat) (hx : x < 64) : (UInt8.ofNat (0x80 ||| x)).toNat = 0x80 + x := by
  rw [show (0x80 : Nat) = 2 * 2 ^ 6 from rfl, lead_or 6 2 x hx, UInt8.toNat_ofNat']; omega

theorem lead2_byte (x : Nat) (hx : x < 32) : (UInt8.ofNat (0xC0 ||| x)).toNat = 0xC0 + x := by
  rw [show (0xC0 : Nat) = 6 * 2 ^ 5 from rfl, lead_or 5 6 x hx, UInt8.toNat_ofNat']; omega

theorem lead3_byte (x : Nat) (hx : x < 16) : (UInt8.ofNat (0xE0 ||| x)).toNat = 0xE0 + x := by
  rw [show (0xE0 : Nat) = 14 * 2 ^ 4 from rfl, lead_or 4 14 x hx, UInt8.toNat_ofNat']; omega

theorem decodeUnits_encodeUnit (unit : Nat) (h : unit < 0x10000) (rest : Bytes) :
    decodeUnits (encodeUnit unit ++ rest) = (unit :: ·) <$> decodeUnits rest := by
  unfold encodeUnit
  split
  · next h0 => subst h0; simp [decodeUnits]
  split
  · next h0 h1 =>
    have hu : (UInt8.ofNat unit).toNat = unit := by rw [UInt8.toNat_ofNat']; omega
    rw [List.singleton_append, decodeUnits.eq_def]
    simp only [hu]
    rw [if_pos (by omega)]
  split
  · next h0 h1 h2 =>
    have hs : unit >>> 6 = unit / 64 := Nat.shiftRight_eq_div_pow unit 6
    have hl := lead2_byte (unit / 64) (by omega)
    have hc := cont_byte (unit % 64) (by omega)
    have hor : (unit / 64) <<< 6 ||| unit % 64 = unit := by
      rw [Nat.shiftLeft_eq, lead_or 6 _ _ (by omega)]; omega
    rw [List.cons_append, List.singleton_append, hs, and_3F, decodeUnits.eq_def]
    simp only [hl, hc]
    rw [if_neg (by omega), if_pos (by omega), if_neg (by simpa using and_C0 _ (by omega)), and_1F,
      and_3F,
      show (0xC0 + unit / 64) % 32 = unit / 64 by omega,
      show (0x80 + unit % 64) % 64 = unit % 64 by omega, hor]
  · next h0 h1 h2 =>
    have hs : unit >>> 6 = unit / 64 := Nat.shiftRight_eq_div_pow unit 6
    have hs' : unit >>> 12 = unit / 4096 := Nat.shiftRight_eq_div_pow unit 12
    have hl := lead3_byte (unit / 4096) (by omega)
    have hc1 := cont_byte (unit / 64 % 64) (by omega)
    have hc2 := cont_byte (unit % 64) (by omega)
    have hor : (unit / 4096) <<< 12 ||| (unit / 64 % 64) <<< 6 ||| unit % 64 = unit := by
      rw [Nat.shiftLeft_eq, Nat.shiftLeft_eq, lead_or 12 _ _ (by omega),
        show unit / 4096 * 2 ^ 12 + unit / 64 % 64 * 2 ^ 6 = unit / 64 * 2 ^ 6 by omega,
        lead_or 6 _ _ (by omega)]
      omega
    rw [List.cons_append, List.cons_append, List.singleton_append, hs, hs', and_3F, and_3F,
      decodeUnits.eq_def]
    simp only [hl, hc1, hc2]
    rw [if_neg (by omega), if_neg (by omega), if_pos (by omega), if_neg (by simp [and_C0 _ (show unit / 64 % 64 < 64 by omega),
        and_C0 _ (show unit % 64 < 64 by omega)]), and_0F, and_3F, and_3F,
      show (0xE0 + unit / 4096) % 16 = unit / 4096 by omega,
      show (0x80 + unit / 64 % 64) % 64 = unit / 64 % 64 by omega,
      show (0x80 + unit % 64) % 64 = unit % 64 by omega, hor]

theorem decodeUnits_flatMap : ∀ (us : List Nat), (∀ u ∈ us, u < 0x10000) →
    decodeUnits (us.flatMap encodeUnit) = .ok us
  | [], _ => rfl
  | u :: us, h => by
    rw [List.flatMap_cons, decodeUnits_encodeUnit u (h u (by simp)),
      decodeUnits_flatMap us fun v hv => h v (by simp [hv])]
    rfl

/-- The reader's payload decoder inverts the writer's body encoder. -/
theorem decode_encodeBody (value : String) : decode (encodeBody value) = .ok value := by
  unfold decode encodeBody
  rw [decodeUnits_flatMap _ (encodeUtf16_lt value)]
  simp only [bind, Except.bind, fromUtf16_encodeUtf16, String.ofList_toList]
  rfl

/-! ## The length-prefixed writer -/

def MAX_ENCODED_LEN : Nat := 65535

def overLong (len : Nat) : ServerError :=
  .operational s!"NBT string encodes to {len} bytes, over the {MAX_ENCODED_LEN}-byte limit"

/-- mirrors crates/nbt/src/string.rs:25-39 (`write_modified_utf8`): reserve the
prefix, append the body, then back-fill the length or truncate -/
def writeModifiedUtf8 (value : String) : Put ServerError Unit := fun out =>
  let start := out.length
  let out := out ++ [0, 0]
  let out := out ++ encodeBody value
  let len := out.length - start - 2
  if len > MAX_ENCODED_LEN then (.error (overLong len), out.take start)
  else (.ok (), out.take start ++ toBe 2 len ++ out.drop (start + 2))

/-- What `writeModifiedUtf8` appends. -/
def encodeModifiedUtf8 (value : String) : ServerResult Bytes :=
  let body := encodeBody value
  if body.length > MAX_ENCODED_LEN then .error (overLong body.length)
  else .ok (toBe 2 body.length ++ body)

/-- A `u16` can count the encoded bytes of `value`. -/
def encodableStr (value : String) : Bool := (encodeBody value).length ≤ MAX_ENCODED_LEN

theorem encodeModifiedUtf8_of_encodable {value : String} (h : encodableStr value) :
    encodeModifiedUtf8 value = .ok (toBe 2 (encodeBody value).length ++ encodeBody value) := by
  have h' : ¬(encodeBody value).length > MAX_ENCODED_LEN := by
    simpa [encodableStr] using h
  simp [encodeModifiedUtf8, h']

theorem encodeModifiedUtf8_isOk_iff (value : String) :
    (∃ b, encodeModifiedUtf8 value = .ok b) ↔ encodableStr value := by
  constructor
  · rintro ⟨b, h⟩
    unfold encodeModifiedUtf8 at h
    simp only at h
    split at h
    · cases h
    · next hle => simpa [encodableStr] using hle
  · intro h
    exact ⟨_, encodeModifiedUtf8_of_encodable h⟩

theorem puts_writeModifiedUtf8 (value : String) :
    Puts (writeModifiedUtf8 value) (encodeModifiedUtf8 value) := by
  intro out
  refine ⟨[], ?_⟩
  have hlen : (out ++ [0, 0] ++ encodeBody value).length - out.length - 2 =
      (encodeBody value).length := by simp
  have htake : (out ++ [0, 0] ++ encodeBody value).take out.length = out := by simp
  have hdrop : (out ++ [0, 0] ++ encodeBody value).drop (out.length + 2) = encodeBody value := by
    rw [List.drop_append, List.drop_of_length_le (by simp)]; simp
  unfold writeModifiedUtf8 encodeModifiedUtf8
  simp only [hlen, htake, hdrop]
  split <;> simp

end Apoptosis.L1.ModifiedUtf8
