import Apoptosis.L1Encoding.Components
import Apoptosis.L1Encoding.NbtRoundTrip
import Apoptosis.L1Encoding.Wire
/-!
# The component wire codec (`entity/src/components.rs`, wire half)

A component value has no length on the wire: each modelled type ends itself
(`payloadPrefix`). A custom name is a network NBT root, whose reader also caps
the whole unread input at 2 MiB.

Results:
* `delimited_payloadPrefix`: every modelled type but the custom name ends
  itself whatever follows; `readNetwork_string` is the custom name's version,
  within the reader's size cap.
* `encode_decode_payload`: a payload the encoder can produce decodes, when it
  decodes at all, to a value that encodes to the same bytes.
-/
namespace Apoptosis.L1.Components
open Apoptosis.Core.Codec Apoptosis.Core.Framing Apoptosis.L1.Nbt Apoptosis.L1.Wire

/-! ## `WireRead` -/

/-- mirrors crates/entity/src/components.rs:794-804 (`WireRead::take`), its error -/
def payloadTruncated (n : Nat) (data : Bytes) : ServerError :=
  .protocol s!"component payload truncated: need {n} bytes, have {data.length}"

namespace WireRead

def take (n : Nat) : Get ServerError Bytes := takeBytes (payloadTruncated n) n

/-- mirrors crates/entity/src/components.rs:806-808 (`WireRead::u8`) -/
def u8 : Get ServerError UInt8
  | [] => .error (payloadTruncated 1 [])
  | byte :: data => .ok (byte, data)

/-- mirrors crates/entity/src/components.rs:810-812 (`WireRead::bool`) -/
def bool : Get ServerError Bool := fun data => do
  let (byte, data) ← u8 data
  return (byte != 0, data)

/-- mirrors crates/entity/src/components.rs:814-821 (`WireRead::i32_be`, `f32_be`) -/
def f32Be : Get ServerError (BitVec 32) := fun data => do
  let (raw, data) ← take 4 data
  return (BitVec.ofNat 32 (ofBe raw), data)

/-- mirrors crates/entity/src/components.rs:823-837 (`WireRead::varint`) -/
def varint : Get ServerError (BitVec 32) :=
  varintLoop (payloadTruncated 1 []) (.protocol "varint too long") 4 0 0

/-- `String::from_utf8` -/
def fromUtf8 (bytes : Bytes) : Option String := String.fromUTF8? ⟨bytes.toArray⟩

/-- `str::as_bytes` -/
def utf8Bytes (value : String) : Bytes := value.toByteArray.data.toList

def negativeString (len : BitVec 32) : ServerError :=
  .protocol s!"negative component string length {len.toInt}"

def longerThanLimit (len : BitVec 32) : ServerError :=
  .protocol s!"component string of {len.toNat} bytes exceeds limit"

def notUtf8 : ServerError := .protocol "component string is not UTF-8"

/-- The last step of `WireRead::string`. -/
def asText (bytes : Bytes) : Get ServerError String := fun data =>
  match fromUtf8 bytes with
  | some value => .ok (value, data)
  | none => .error notUtf8

/-- mirrors crates/entity/src/components.rs:839-858 (`WireRead::string`) -/
def string : Get ServerError String := fun data => do
  let (len, data) ← varint data
  if len.toInt < 0 then .error (negativeString len)
  else if len.toNat > 32767 * 4 then .error (longerThanLimit len)
  else do
    let (bytes, data) ← take len.toNat data
    asText bytes data

/-- mirrors crates/entity/src/components.rs:859-865 (`WireRead::f32_be_opt`) -/
def f32BeOpt : Get ServerError (Option (BitVec 32)) := fun data => do
  let (present, data) ← bool data
  if present then do
    let (value, data) ← f32Be data
    return (some value, data)
  else return (none, data)

end WireRead

/-! ## Encoding -/

def boolByte (value : Bool) : Bytes := [if value then 1 else 0]

def f32Bytes (value : BitVec 32) : Bytes := toBe 4 value.toNat

/-- mirrors crates/entity/src/components.rs:903-906 (`WireWrite::string`); a length over
`i32::MAX` is written as `i32::MAX` -/
def stringBytes (value : String) : Bytes :=
  let bytes := WireRead.utf8Bytes value
  writeVarint (BitVec.ofNat 32 (min bytes.length (2 ^ 31 - 1))) ++ bytes

/-- `i32::saturating_add(1)` -/
def saturatingSucc (id : BitVec 32) : BitVec 32 := if id = 0x7FFFFFFF then id else id + 1

/-- mirrors crates/entity/src/components.rs:919-928 (`encode_sound`) -/
def encodeSound : SoundRef → Bytes
  | .id id => writeVarint (saturatingSucc id)
  | .named name range =>
    writeVarint 0 ++ stringBytes name ++
      match range with
      | some value => boolByte true ++ f32Bytes value
      | none => boolByte false

def entryBytes (entry : EnchantEntry) : Bytes := writeVarint entry.1 ++ writeVarint entry.2

/-- mirrors crates/entity/src/components.rs:945-958 (`encode_enchantments`) -/
def encodeEnchantments (entries : List EnchantEntry) : ServerResult Bytes :=
  if entries.length > MAX_ENCHANTMENTS then
    .error (.invariant s!"{entries.length} enchantments exceeds the {MAX_ENCHANTMENTS} cap")
  else .ok (writeVarint (BitVec.ofNat 32 entries.length) ++ entries.flatMap entryBytes)

/-- mirrors crates/entity/src/components.rs:981-1022 (`encode_payload`) -/
def encodePayload : DataComponent → ServerResult Bytes
  | .damage v | .maxDamage v | .repairCost v => .ok (writeVarint v)
  | .enchantments entries | .storedEnchantments entries => encodeEnchantments entries
  | .customName name =>
    match writeUnnamed (.string name) [] with
    | (.ok (), bytes) => .ok bytes
    | (.error e, _) => .error e
  | .attackRange range => .ok (range.values.flatMap f32Bytes)
  | .food food =>
    .ok (writeVarint food.nutrition ++ f32Bytes food.saturation ++ boolByte food.canAlwaysEat)
  | .consumable c =>
    if !c.onConsumeEffects.isEmpty then
      .error (.invariant
        "consumable on_consume_effects cannot be re-encoded on the wire yet")
    else
      .ok (f32Bytes c.consumeSeconds ++ writeVarint c.animation.id ++ encodeSound c.sound ++
        boolByte c.consumeParticles ++ writeVarint 0)
  | .unknown _ _ wire _ => .ok wire

/-! ## Decoding -/

open WireRead

def negativeTag (tag : BitVec 32) : ServerError :=
  .protocol s!"negative sound IdOr tag {tag.toInt}"

/-- mirrors crates/entity/src/components.rs:930-944 (`decode_sound`) -/
def decodeSound : Get ServerError SoundRef := fun data => do
  let (tag, data) ← varint data
  if tag = 0 then do
    let (name, data) ← string data
    let (range, data) ← f32BeOpt data
    return (.named name range, data)
  else if tag.toInt > 0 then return (.id (tag - 1), data)
  else .error (negativeTag tag)

/-- One `(id, level)` pair. -/
def readEntry : Get ServerError EnchantEntry := fun data => do
  let (id, data) ← varint data
  let (level, data) ← varint data
  return ((id, level), data)

def enchantCount (len : BitVec 32) : ServerError :=
  .protocol s!"enchantment count {len.toInt} is outside 0..={MAX_ENCHANTMENTS}"

/-- mirrors crates/entity/src/components.rs:960-974 (`decode_enchantments`) -/
def decodeEnchantments : Get ServerError (List EnchantEntry) := fun data => do
  let (len, data) ← varint data
  if len.toInt < 0 ∨ len.toNat > MAX_ENCHANTMENTS then .error (enchantCount len)
  else many readEntry len.toNat data

/-- mirrors crates/nbt/src/read.rs:370-382 (`NbtTag::read_network`) -/
def readNetwork : Get ServerError NbtTag := fun bytes => do
  let r ← TagReader.new bytes Limits.NETWORK
  let (t, r) ← readUnnamed r
  return (t, r.rest)

def effectsCarried (effects : BitVec 32) : ServerError :=
  .protocol s!"consumable carries {effects.toInt} on_consume_effects, which this build does not frame on the wire"

def unmodelled (typeId : BitVec 32) : ServerError :=
  .protocol s!"unmodelled item data component type id {typeId.toInt}"

def readAttackRange : Get ServerError AttackRange := fun data => do
  let (a, data) ← f32Be data
  let (b, data) ← f32Be data
  let (c, data) ← f32Be data
  let (d, data) ← f32Be data
  let (e, data) ← f32Be data
  let (f, data) ← f32Be data
  return (⟨a, b, c, d, e, f⟩, data)

def readFood : Get ServerError Food := fun data => do
  let (nutrition, data) ← varint data
  let (saturation, data) ← f32Be data
  let (canAlwaysEat, data) ← bool data
  return (⟨nutrition, saturation, canAlwaysEat⟩, data)

def readConsumable : Get ServerError Consumable := fun data => do
  let (consumeSeconds, data) ← f32Be data
  let (animationId, data) ← varint data
  match ConsumeAnimation.fromId animationId with
  | none => .error (.protocol "consumable animation id out of range")
  | some animation => do
    let (sound, data) ← decodeSound data
    let (consumeParticles, data) ← bool data
    let (effects, data) ← varint data
    if effects ≠ 0 then .error (effectsCarried effects)
    else return (⟨consumeSeconds, animation, sound, consumeParticles, []⟩, data)

/-- The custom-name arm takes the whole slice and reads an NBT root off its front. -/
def readCustomName : Get ServerError String := fun data => do
  let (t, _) ← readNetwork data
  match t with
  | .string text => return (text, [])
  | other =>
    .error (.protocol
      s!"custom_name payload is {tag.name other.tagId}, expected a literal TAG_String")

/-- Read a value and wrap it in its component. -/
def wrap {α : Type} (mk : α → DataComponent) (read : Get ServerError α) :
    Get ServerError DataComponent := fun data => do
  let (a, data) ← read data
  return (mk a, data)

/-- mirrors crates/entity/src/components.rs:1051-1111 (`decode_payload_inner`) -/
def decodePayloadInner (typeId : BitVec 32) : Get ServerError DataComponent :=
  if typeId = TYPE_DAMAGE then wrap .damage varint
  else if typeId = TYPE_MAX_DAMAGE then wrap .maxDamage varint
  else if typeId = TYPE_REPAIR_COST then wrap .repairCost varint
  else if typeId = TYPE_ENCHANTMENTS then wrap .enchantments decodeEnchantments
  else if typeId = TYPE_STORED_ENCHANTMENTS then wrap .storedEnchantments decodeEnchantments
  else if typeId = TYPE_CUSTOM_NAME then wrap .customName readCustomName
  else if typeId = TYPE_ATTACK_RANGE then wrap .attackRange readAttackRange
  else if typeId = TYPE_FOOD then wrap .food readFood
  else if typeId = TYPE_CONSUMABLE then wrap .consumable readConsumable
  else fun _ => .error (unmodelled typeId)

/-- mirrors crates/entity/src/components.rs:1034-1044 (`decode_payload`) -/
def decodePayload (typeId : BitVec 32) (payload : Bytes) : ServerResult DataComponent := do
  let (component, rest) ← decodePayloadInner typeId payload
  if rest.length ≠ 0 then
    .error (.protocol s!"component type {typeId.toInt} payload has {rest.length} trailing bytes")
  else return component

/-! ## Where a payload ends -/

def skip {α : Type} (read : Get ServerError α) : Get ServerError Unit := fun data => do
  let (_, data) ← read data
  return ((), data)

/-- The count of `decode_enchantments` and then two `VarInt`s an entry. -/
def skipEnchantments : Get ServerError Unit := skip decodeEnchantments

/-- The consumable fields, the animation id unchecked. -/
def skipConsumable : Get ServerError Unit := fun data => do
  let (_, data) ← f32Be data
  let (_, data) ← varint data
  let (_, data) ← decodeSound data
  let (_, data) ← bool data
  let (effects, data) ← varint data
  if effects ≠ 0 then .error (effectsCarried effects)
  else return ((), data)

/-- The field reads of `payload_prefix_len`, by type. -/
def payloadPrefix (typeId : BitVec 32) : Get ServerError Unit :=
  if typeId = TYPE_DAMAGE ∨ typeId = TYPE_MAX_DAMAGE ∨ typeId = TYPE_REPAIR_COST then skip varint
  else if typeId = TYPE_ENCHANTMENTS ∨ typeId = TYPE_STORED_ENCHANTMENTS then skipEnchantments
  else if typeId = TYPE_CUSTOM_NAME then skip readNetwork
  else if typeId = TYPE_ATTACK_RANGE then skip readAttackRange
  else if typeId = TYPE_FOOD then skip readFood
  else if typeId = TYPE_CONSUMABLE then skipConsumable
  else fun _ => .error (unmodelled typeId)

/-- mirrors crates/entity/src/components.rs:1124-1178 (`payload_prefix_len`) -/
def payloadPrefixLen (typeId : BitVec 32) (payload : Bytes) : ServerResult Nat := do
  let ((), rest) ← payloadPrefix typeId payload
  return payload.length - rest.length

/-! ## Every field ends itself -/

theorem delimited_u8 : Delimited u8 := by
  intro b a r h
  cases b with
  | nil => cases h
  | cons byte data => cases h; exact ⟨[a], rfl, fun _ => rfl⟩

theorem delimited_bool : Delimited WireRead.bool :=
  delimited_u8.bind fun byte => delimited_pure (byte != 0)

theorem delimited_take (n : Nat) : Delimited (WireRead.take n) := delimited_takeBytes _ n

theorem delimited_f32Be : Delimited f32Be :=
  (delimited_take 4).bind fun raw => delimited_pure (BitVec.ofNat 32 (ofBe raw))

theorem delimited_varint : Delimited varint := delimited_varintLoop _ _ _ _ _

theorem delimited_f32BeOpt : Delimited f32BeOpt :=
  delimited_bool.bind fun present => Delimited.ite (P := present = true)
    (delimited_f32Be.bind fun value => delimited_pure (some value)) (delimited_pure none)

theorem delimited_fromUtf8 (bytes : Bytes) : Delimited (asText bytes) := by
  unfold asText
  cases fromUtf8 bytes with
  | some value => exact delimited_pure value
  | none => exact delimited_error fun _ => notUtf8

theorem delimited_string : Delimited WireRead.string :=
  delimited_varint.bind fun len => Delimited.ite (P := len.toInt < 0)
    (delimited_error fun _ => negativeString len)
    (Delimited.ite (P := len.toNat > 32767 * 4) (delimited_error fun _ => longerThanLimit len)
      ((delimited_take len.toNat).bind delimited_fromUtf8))

theorem delimited_decodeSound : Delimited decodeSound :=
  delimited_varint.bind fun tag => Delimited.ite (P := tag = 0)
    (delimited_string.bind fun name => delimited_f32BeOpt.bind fun range =>
      delimited_pure (SoundRef.named name range))
    (Delimited.ite (P := tag.toInt > 0) (delimited_pure (SoundRef.id (tag - 1)))
      (delimited_error fun _ => negativeTag tag))

theorem delimited_readEntry : Delimited readEntry :=
  delimited_varint.bind fun id => delimited_varint.bind fun level => delimited_pure (id, level)

theorem delimited_decodeEnchantments : Delimited decodeEnchantments :=
  delimited_varint.bind fun len =>
    Delimited.ite (P := len.toInt < 0 ∨ len.toNat > MAX_ENCHANTMENTS)
      (delimited_error fun _ => enchantCount len) (Delimited.many delimited_readEntry len.toNat)

theorem delimited_readAttackRange : Delimited readAttackRange :=
  delimited_f32Be.bind fun a => delimited_f32Be.bind fun b => delimited_f32Be.bind fun c =>
    delimited_f32Be.bind fun d => delimited_f32Be.bind fun e => delimited_f32Be.bind fun f =>
      delimited_pure (⟨a, b, c, d, e, f⟩ : AttackRange)

theorem delimited_readFood : Delimited readFood :=
  delimited_varint.bind fun nutrition => delimited_f32Be.bind fun saturation =>
    delimited_bool.bind fun canAlwaysEat =>
      delimited_pure (⟨nutrition, saturation, canAlwaysEat⟩ : Food)

theorem delimited_skip {α : Type} {read : Get ServerError α} (h : Delimited read) :
    Delimited (skip read) := h.bind fun _ => delimited_pure ()

theorem delimited_skipConsumable : Delimited skipConsumable :=
  delimited_f32Be.bind fun _ => delimited_varint.bind fun _ => delimited_decodeSound.bind fun _ =>
    delimited_bool.bind fun _ => delimited_varint.bind fun effects =>
      Delimited.ite (P := effects ≠ 0) (delimited_error fun _ => effectsCarried effects)
        (delimited_pure ())

/-- Every modelled type but the custom name ends its own payload, whatever follows. -/
theorem delimited_payloadPrefix (typeId : BitVec 32) (h : typeId ≠ TYPE_CUSTOM_NAME) :
    Delimited (payloadPrefix typeId) := by
  unfold payloadPrefix
  split
  · exact delimited_skip delimited_varint
  split
  · exact delimited_skip delimited_decodeEnchantments
  split
  · exact delimited_skip delimited_readAttackRange
  split
  · exact delimited_skip delimited_readFood
  split
  · exact delimited_skipConsumable
  · exact delimited_error fun _ => unmodelled typeId

/-! ## The custom name -/

theorem readNetwork_tooLong {b : Bytes} (h : Limits.NETWORK.maxBytes < b.length) (t : NbtTag)
    (r : Bytes) : readNetwork b ≠ .ok (t, r) := by
  intro hr
  obtain ⟨r₀, h₀, -⟩ := bind_ok hr
  rw [TagReader.new, if_pos h] at h₀
  cases h₀

/-- A string root is its tag, then one string off the cursor. -/
theorem readNetwork_cursor {b r : Bytes} {text : String} (h : readNetwork b = .ok (.string text, r)) :
    ∃ rest r₁, b = tag.STRING :: rest ∧ r₁.rest = r ∧
      TagReader.string ⟨rest, Limits.NETWORK, 1⟩ = .ok (text, r₁) := by
  obtain ⟨r₀, h₀, hread⟩ := bind_ok h
  obtain ⟨⟨t, r₁⟩, hun, hret⟩ := bind_ok hread
  cases hret
  have hsize : b.length ≤ Limits.NETWORK.maxBytes := by
    by_contra hlt
    exact readNetwork_tooLong (by omega) _ _ h
  rw [new_ok hsize] at h₀
  cases h₀
  obtain ⟨⟨id, r₂⟩, hid, hpay⟩ := bind_ok hun
  cases b with
  | nil => cases hid
  | cons byte rest =>
    cases hid
    rcases ite_eq_ok hpay with ⟨-, hend⟩ | ⟨-, hpay⟩
    · cases hend
    obtain rfl := readPayload_tagId hpay
    rw [NbtTag.tagId, readPayload_string] at hpay
    obtain ⟨r₂, hbud, hpay⟩ := bind_ok hpay
    cases hbud.symm.trans (budget_ok rest Limits.NETWORK 0 (by decide))
    obtain ⟨⟨value, r₃⟩, hstr, hret⟩ := bind_ok hpay
    cases hret
    exact ⟨rest, r₁, rfl, rfl, hstr⟩

/-- A string root ends itself, up to the reader's size cap on the whole input. -/
theorem readNetwork_string {b r : Bytes} {text : String}
    (h : readNetwork b = .ok (.string text, r)) :
    ∃ c, b = c ++ r ∧ c.head? = some tag.STRING ∧ ∀ r',
      (c ++ r').length ≤ Limits.NETWORK.maxBytes →
        readNetwork (c ++ r') = .ok (.string text, r') := by
  obtain ⟨rest, r₁, rfl, rfl, hstr⟩ := readNetwork_cursor h
  obtain ⟨c, hc, hall⟩ := string_delimited hstr
  obtain rfl : rest = c ++ r₁.rest := congrArg TagReader.rest hc
  refine ⟨tag.STRING :: c, rfl, rfl, fun r' hr' => ?_⟩
  have hnew := new_ok hr'
  have hun' : readUnnamed ⟨tag.STRING :: c ++ r', Limits.NETWORK, 0⟩ =
      .ok (.string text, ⟨r', Limits.NETWORK, 1⟩) := by
    rw [List.cons_append, readUnnamed]
    simp only [bind, Except.bind, TagReader.u8]
    rw [if_neg (by decide), readPayload_string, budget_ok _ _ _ (by decide)]
    simp only [bind, Except.bind, hall]
    rfl
  simp only [readNetwork, bind, Except.bind, hnew, hun']
  rfl

/-! ## Canonical payloads -/

theorem reads_varint (value : BitVec 32) : Reads varint (writeVarint value) value :=
  reads_writeVarint _ _ value

theorem reads_bool (value : Bool) : Reads WireRead.bool (boolByte value) value := by
  intro r
  cases value <;> rfl

theorem reads_f32Be (value : BitVec 32) : Reads f32Be (f32Bytes value) value := by
  intro r
  have hv : value.toNat < 256 ^ 4 := value.isLt
  have htake := reads_takeBytes (payloadTruncated 4) (f32Bytes value) r
  rw [f32Bytes, toBe_length] at htake
  unfold f32Be WireRead.take
  rw [f32Bytes, htake]
  simp only [bind, Except.bind, ofBe_toBe 4 _ hv, BitVec.ofNat_toNat, BitVec.setWidth_eq]
  rfl

theorem fromUtf8_utf8Bytes (text : String) : fromUtf8 (utf8Bytes text) = some text := by
  have hbytes : (⟨(utf8Bytes text).toArray⟩ : ByteArray) = text.toByteArray := by
    simp [utf8Bytes]
  rw [fromUtf8, hbytes, String.fromUTF8?, dif_pos text.isValidUTF8]
  rfl

/-- What comes back of a string is the string: a length the field cannot hold is refused. -/
theorem string_stringBytes {text text' : String} {r r' : Bytes}
    (h : WireRead.string (stringBytes text ++ r) = .ok (text', r')) : text' = text ∧ r' = r := by
  rw [stringBytes, List.append_assoc] at h
  obtain ⟨⟨len, b⟩, hlen, h⟩ := bind_ok h
  rw [reads_varint] at hlen
  cases hlen
  rcases ite_eq_ok h with ⟨-, h⟩ | ⟨-, h⟩
  · cases h
  rcases ite_eq_ok h with ⟨-, h⟩ | ⟨hle, h⟩
  · cases h
  have hlen : (BitVec.ofNat 32 (min (utf8Bytes text).length (2 ^ 31 - 1))).toNat =
      (utf8Bytes text).length := by
    rw [BitVec.toNat_ofNat] at hle ⊢
    omega
  rw [hlen] at h
  obtain ⟨⟨bytes, b⟩, htake, h⟩ := bind_ok h
  rw [WireRead.take, reads_takeBytes] at htake
  cases htake
  simp only [asText, fromUtf8_utf8Bytes] at h
  cases h
  exact ⟨rfl, rfl⟩

theorem reads_readEntry (e : EnchantEntry) : Reads readEntry (entryBytes e) e := by
  intro r
  simp only [readEntry, entryBytes, List.append_assoc, reads_varint _ _, bind, Except.bind]
  rfl

theorem decodeEnchantments_encode {entries : List EnchantEntry} {payload : Bytes}
    (h : encodeEnchantments entries = .ok payload) :
    Reads decodeEnchantments payload entries := by
  intro r
  rcases ite_eq_ok h with ⟨-, h⟩ | ⟨hle, h⟩
  · cases h
  cases h
  have hn : (BitVec.ofNat 32 entries.length).toNat = entries.length := by
    rw [BitVec.toNat_ofNat]; unfold MAX_ENCHANTMENTS at hle; omega
  have hi : (BitVec.ofNat 32 entries.length).toInt = entries.length := by
    rw [BitVec.toInt_eq_toNat_cond, hn, if_pos (by unfold MAX_ENCHANTMENTS at hle; omega)]
  unfold decodeEnchantments
  rw [List.append_assoc, reads_varint]
  simp only [bind, Except.bind, hn, hi]
  rw [if_neg (by unfold MAX_ENCHANTMENTS at *; omega)]
  exact reads_many (fun e _ => reads_readEntry e) r

theorem f32BeOpt_encode (range : Option (BitVec 32)) :
    Reads f32BeOpt (match range with
      | some value => boolByte true ++ f32Bytes value
      | none => boolByte false) range := by
  intro r
  cases range with
  | none => rfl
  | some value =>
    unfold f32BeOpt
    rw [List.append_assoc, reads_bool]
    simp only [bind, Except.bind, if_true, reads_f32Be _ _]
    rfl

/-- A sound comes back as one of the same bytes; only the id -1 is taken for a name. -/
theorem decodeSound_encodeSound {s s' : SoundRef} {r r' : Bytes} (hs : s ≠ .id (-1))
    (h : decodeSound (encodeSound s ++ r) = .ok (s', r')) :
    encodeSound s' = encodeSound s ∧ r' = r := by
  cases s with
  | named name range =>
    simp only [encodeSound, List.append_assoc] at h
    obtain ⟨⟨tag, b⟩, htag, h⟩ := bind_ok h
    rw [reads_varint] at htag
    cases htag
    rcases ite_eq_ok h with ⟨-, h⟩ | ⟨h0, -⟩
    · obtain ⟨⟨name', b⟩, hname, h⟩ := bind_ok h
      obtain ⟨rfl, rfl⟩ := string_stringBytes hname
      obtain ⟨⟨range', b⟩, hrange, h⟩ := bind_ok h
      cases (f32BeOpt_encode range r).symm.trans hrange
      cases h
      exact ⟨rfl, rfl⟩
    · exact absurd rfl h0
  | id id =>
    simp only [encodeSound] at h
    obtain ⟨⟨tag, b⟩, htag, h⟩ := bind_ok h
    rw [reads_varint] at htag
    cases htag
    rcases ite_eq_ok h with ⟨h0, -⟩ | ⟨-, h⟩
    · have hminus : id = -1 := by
        rw [saturatingSucc] at h0
        split at h0
        · next hmax => subst hmax; cases h0
        · bv_omega
      exact absurd (congrArg SoundRef.id hminus) hs
    · rcases ite_eq_ok h with ⟨hpos, h⟩ | ⟨-, h⟩
      · cases h
        refine ⟨?_, rfl⟩
        have hne : saturatingSucc id - 1 ≠ 0x7FFFFFFF := by
          intro heq
          have : saturatingSucc id = 0x80000000 := by bv_omega
          rw [this] at hpos
          exact absurd hpos (by decide)
        simp only [encodeSound]
        have hback : saturatingSucc id - 1 + 1 = saturatingSucc id := by bv_omega
        rw [saturatingSucc, if_neg hne, hback]
      · cases h

theorem readAttackRange_encode (range : AttackRange) :
    Reads readAttackRange (range.values.flatMap f32Bytes) range := by
  intro r
  obtain ⟨a, b, c, d, e, f⟩ := range
  simp only [AttackRange.values, List.flatMap_cons, List.flatMap_nil, List.append_nil,
    List.append_assoc, readAttackRange, reads_f32Be _ _, bind, Except.bind]
  rfl

theorem readFood_encode (food : Food) : Reads readFood
    (writeVarint food.nutrition ++ f32Bytes food.saturation ++ boolByte food.canAlwaysEat)
    food := by
  intro r
  simp only [List.append_assoc, readFood, reads_varint _ _, reads_f32Be _ _, reads_bool _ _, bind,
    Except.bind]
  rfl

/-- The id -1 is written as the tag of a name, and too few bytes follow for one. -/
theorem readConsumable_negativeId {seconds : BitVec 32} {animation : ConsumeAnimation}
    {particles : Bool} {c : Consumable} {r : Bytes} :
    readConsumable (f32Bytes seconds ++ writeVarint animation.id ++ encodeSound (.id (-1)) ++
      boolByte particles ++ writeVarint 0) ≠ .ok (c, r) := by
  intro h
  simp only [List.append_assoc] at h
  obtain ⟨⟨s, b⟩, hs, h⟩ := bind_ok h
  rw [reads_f32Be] at hs
  cases hs
  obtain ⟨⟨a, b⟩, ha, h⟩ := bind_ok h
  rw [reads_varint] at ha
  cases ha
  simp only [ConsumeAnimation.fromId_id] at h
  obtain ⟨⟨sound, b⟩, hsound, h⟩ := bind_ok h
  obtain ⟨⟨p, b'⟩, hp, -⟩ := bind_ok h
  cases particles with
  | false =>
    have hread : decodeSound [0, 0, 0] = .ok (.named "" none, []) := by rfl
    rw [show encodeSound (.id (-1)) ++ (boolByte false ++ writeVarint 0) = [0, 0, 0] from rfl,
      hread] at hsound
    cases hsound
    cases hp
  | true =>
    rw [show encodeSound (.id (-1)) ++ (boolByte true ++ writeVarint 0) = [0, 1, 0] from rfl]
      at hsound
    have hread : decodeSound [0, 1, 0] = .error (payloadTruncated 1 []) := by rfl
    rw [hread] at hsound
    cases hsound

/-- What comes back of a consumable is written as the same bytes. -/
theorem readConsumable_encode {c c' : Consumable} {payload r : Bytes}
    (h : encodePayload (.consumable c) = .ok payload)
    (h' : readConsumable payload = .ok (c', r)) :
    encodePayload (.consumable c') = .ok payload ∧ r = [] := by
  obtain ⟨seconds, animation, sound, particles, effects⟩ := c
  rcases ite_eq_ok h with ⟨-, h⟩ | ⟨-, h⟩
  · cases h
  by_cases hs : sound = .id (-1)
  · subst hs
    cases h
    exact absurd h' readConsumable_negativeId
  · cases h
    simp only [List.append_assoc] at h' ⊢
    obtain ⟨⟨s, b⟩, hseconds, h'⟩ := bind_ok h'
    rw [reads_f32Be] at hseconds
    cases hseconds
    obtain ⟨⟨a, b⟩, ha, h'⟩ := bind_ok h'
    rw [reads_varint] at ha
    cases ha
    simp only [ConsumeAnimation.fromId_id] at h'
    obtain ⟨⟨sound', b⟩, hsound, h'⟩ := bind_ok h'
    obtain ⟨hbytes, rfl⟩ := decodeSound_encodeSound hs hsound
    obtain ⟨⟨p, b⟩, hp, h'⟩ := bind_ok h'
    rw [reads_bool] at hp
    cases hp
    obtain ⟨⟨n, b⟩, hn, h'⟩ := bind_ok h'
    rw [← List.append_nil (writeVarint 0), reads_varint] at hn
    cases hn
    cases h'
    refine ⟨?_, rfl⟩
    simp only [encodePayload, hbytes, List.append_assoc]
    rfl

theorem encodePayload_customName (name : String) : encodePayload (.customName name) =
    joined (.ok [tag.STRING]) (Nbt.encodePayload (.string name)) := by
  simp only [encodePayload, writeUnnamed_spec]
  cases h : joined (.ok [tag.STRING]) (Nbt.encodePayload (.string name)) with
  | error e => simp only [NbtTag.tagId, h, landed]
  | ok b => simp only [NbtTag.tagId, h, landed, List.nil_append]

/-- A name that comes back is the name; one over 32767 bytes does not. -/
theorem readCustomName_encode {name name' : String} {payload r : Bytes}
    (h : encodePayload (.customName name) = .ok payload)
    (h' : readCustomName payload = .ok (name', r)) : name' = name ∧ r = [] := by
  rw [encodePayload_customName] at h
  obtain ⟨⟨t, b⟩, hread, h'⟩ := bind_ok h'
  obtain ⟨r₀, hnew, hroot⟩ := bind_ok hread
  obtain ⟨⟨t', r₁⟩, htag, hret⟩ := bind_ok hroot
  cases hret
  have hsize : payload.length ≤ Limits.NETWORK.maxBytes := by
    by_contra hlt
    rw [TagReader.new, if_pos (by omega)] at hnew
    cases hnew
  rw [new_ok hsize] at hnew
  cases hnew
  have hcount : tagCount (.string name) ≤ Limits.NETWORK.maxElements := by
    simp only [tagCount]; decide
  rw [readUnnamed_encode h Limits.NETWORK (Nat.zero_le _) hcount] at htag
  obtain ⟨-, heq⟩ := readBack_eq_ok_iff.mp htag
  cases heq
  cases h'
  exact ⟨rfl, rfl⟩

theorem wrap_ok {α : Type} {mk : α → DataComponent} {read : Get ServerError α} {data r : Bytes}
    {d : DataComponent} (h : wrap mk read data = .ok (d, r)) :
    ∃ a, read data = .ok (a, r) ∧ d = mk a := by
  obtain ⟨⟨a, b⟩, ha, h⟩ := bind_ok h
  cases h
  exact ⟨a, ha, rfl⟩

theorem decodePayload_typeId {t : BitVec 32} {payload : Bytes} {d : DataComponent}
    (h : decodePayload t payload = .ok d) : d.typeId = t := by
  obtain ⟨⟨c, r⟩, hinner, h⟩ := bind_ok h
  rcases ite_eq_ok h with ⟨-, h⟩ | ⟨-, h⟩
  · cases h
  cases h
  unfold decodePayloadInner at hinner
  -- one case for each modelled type
  iterate 9
    split at hinner
    · next ht =>
      obtain ⟨v, -, rfl⟩ := wrap_ok hinner
      exact ht.symm
  cases hinner

/-- A payload the encoder can write for a modelled type decodes, when it decodes, to a value
that is written as the same bytes. -/
theorem encode_decode_payload {d d' : DataComponent} {payload : Bytes}
    (hknown : ∀ k t w n, d ≠ .unknown k t w n) (h : encodePayload d = .ok payload)
    (h' : decodePayload d.typeId payload = .ok d') : encodePayload d' = .ok payload := by
  obtain ⟨⟨c, r⟩, hinner, h'⟩ := bind_ok h'
  rcases ite_eq_ok h' with ⟨-, h'⟩ | ⟨-, h'⟩
  · cases h'
  cases h'
  rcases d with v | v | es | es | name | v | range | food | c | ⟨k, t, w, n⟩
  case unknown => exact absurd rfl (hknown k t w n)
  case damage | maxDamage | repairCost =>
    obtain ⟨v', hv, rfl⟩ := wrap_ok hinner
    cases h
    rw [← List.append_nil (writeVarint v), reads_varint] at hv
    cases hv
    rfl
  case enchantments | storedEnchantments =>
    obtain ⟨es', hes, rfl⟩ := wrap_ok hinner
    have hread := decodeEnchantments_encode h []
    rw [List.append_nil, hes] at hread
    cases hread
    exact h
  case customName =>
    obtain ⟨name', hname, rfl⟩ := wrap_ok hinner
    obtain ⟨rfl, -⟩ := readCustomName_encode h hname
    exact h
  case attackRange =>
    obtain ⟨range', hrange, rfl⟩ := wrap_ok hinner
    cases h
    have hread := readAttackRange_encode range []
    rw [List.append_nil, hrange] at hread
    cases hread
    rfl
  case food =>
    obtain ⟨food', hfood, rfl⟩ := wrap_ok hinner
    cases h
    have hread := readFood_encode food []
    rw [List.append_nil, hfood] at hread
    cases hread
    rfl
  case consumable =>
    obtain ⟨c', hc, rfl⟩ := wrap_ok hinner
    exact (readConsumable_encode h hc).1

end Apoptosis.L1.Components
