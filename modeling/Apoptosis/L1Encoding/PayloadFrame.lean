import Apoptosis.L1Encoding.ComponentNbt
import Apoptosis.L1Encoding.ComponentWire
/-!
# Where a component payload ends (`entity/src/components.rs`)

`encode_payload`, `decode_payload` and `payload_prefix_len` walk one payload
shape each on their own. The three agree but for:

* a sound id outside `0..i32::MAX - 1` and a sound name over the 131068 bytes
  the reader takes, which the writer does not refuse (`Expressible`);
* a custom name over 32767 encoded bytes (`Expressible`);
* a custom name whose payload, or what stands behind it, is not all read: the
  decoder ignores trailing bytes (`Whole`), the prefix walk refuses an input
  over 2 MiB (`Roomy`).

Results:
* `decodePayload_encode_iff`: what the decoder makes of the writer's bytes.
* `payloadPrefixLen_decoded_iff`: the prefix walk on what the decoder accepts.
* `payload_framing_iff`: both together.
-/
namespace Apoptosis.L1.Components
open Apoptosis.Core.Codec Apoptosis.Core.Framing Apoptosis.L1.Nbt Apoptosis.L1.Wire WireRead

/-! ## What the wire form can express -/

def SoundRef.Expressible : SoundRef → Prop
  | .id soundId => 0 ≤ soundId.toInt ∧ soundId.toInt < 2 ^ 31 - 1
  | .named name _ => (utf8Bytes name).length ≤ 32767 * 4

def DataComponent.Expressible : DataComponent → Prop
  | .customName name => ShortStr name
  | .consumable c => c.sound.Expressible
  | _ => True

/-- One of the nine types with a codec of their own. -/
def DataComponent.Known (d : DataComponent) : Prop := ∀ key t wire nbt, d ≠ .unknown key t wire nbt

/-- A custom name is read by a reader that caps the whole input. -/
def Roomy (t : BitVec 32) (input : Bytes) : Prop :=
  t = TYPE_CUSTOM_NAME → input.length ≤ Limits.NETWORK.maxBytes

/-- A custom name is a tag byte, a 16-bit length and as many bytes, and nothing after them. -/
def Whole (t : BitVec 32) (payload : Bytes) : Prop :=
  t = TYPE_CUSTOM_NAME → payload.length = 3 + ofBe ((payload.drop 1).take 2)

/-! ## Strings and sounds -/

theorem string_afterLength (text : String) (r : Bytes) :
    WireRead.string (stringBytes text ++ r) = (do
      let len := BitVec.ofNat 32 (min (utf8Bytes text).length (2 ^ 31 - 1))
      if len.toInt < 0 then .error (negativeString len)
      else if len.toNat > 32767 * 4 then .error (longerThanLimit len)
      else do
        let (bytes, data) ← WireRead.take len.toNat (utf8Bytes text ++ r)
        asText bytes data) := by
  rw [WireRead.string, stringBytes, List.append_assoc, reads_varint]
  rfl

theorem string_stringBytes_iff (text : String) (r : Bytes) :
    WireRead.string (stringBytes text ++ r) = .ok (text, r) ↔
      (utf8Bytes text).length ≤ 32767 * 4 := by
  have hnat : (BitVec.ofNat 32 (min (utf8Bytes text).length (2 ^ 31 - 1))).toNat =
      min (utf8Bytes text).length (2 ^ 31 - 1) := by
    rw [BitVec.toNat_ofNat]; omega
  rw [string_afterLength]
  dsimp only
  constructor
  · intro h
    rcases ite_eq_ok h with ⟨-, h⟩ | ⟨-, h⟩
    · cases h
    rcases ite_eq_ok h with ⟨-, h⟩ | ⟨hle, -⟩
    · cases h
    · omega
  · intro hle
    have hint : ¬(BitVec.ofNat 32 (min (utf8Bytes text).length (2 ^ 31 - 1))).toInt < 0 := by
      rw [BitVec.toInt_eq_toNat_cond, hnat, if_pos (by omega)]
      omega
    rw [if_neg hint, if_neg (by omega), hnat, Nat.min_eq_left (by omega), WireRead.take,
      reads_takeBytes]
    simp only [bind, Except.bind, asText, fromUtf8_utf8Bytes]

theorem decodeSound_id (id : BitVec 32) (r : Bytes) :
    decodeSound (encodeSound (.id id) ++ r) =
      if saturatingSucc id = 0 then (do
        let (name, data) ← WireRead.string r
        let (range, data) ← f32BeOpt data
        return (.named name range, data))
      else if (saturatingSucc id).toInt > 0 then .ok (.id (saturatingSucc id - 1), r)
      else .error (negativeTag (saturatingSucc id)) := by
  rw [decodeSound, encodeSound, reads_varint]
  rfl

theorem decodeSound_named (name : String) (range : Option (BitVec 32)) (r : Bytes) :
    ∃ c, Reads f32BeOpt c range ∧
      decodeSound (encodeSound (.named name range) ++ r) = (do
        let (name', data) ← WireRead.string (stringBytes name ++ (c ++ r))
        let (range', data) ← f32BeOpt data
        return (.named name' range', data)) := by
  refine ⟨_, f32BeOpt_encode range, ?_⟩
  simp only [decodeSound, encodeSound, List.append_assoc, reads_varint _ _, bind, Except.bind,
    if_true]

theorem decodeSound_encodeSound_iff (s : SoundRef) (r : Bytes) :
    decodeSound (encodeSound s ++ r) = .ok (s, r) ↔ s.Expressible := by
  cases s with
  | id id =>
    rw [decodeSound_id]
    simp only [SoundRef.Expressible]
    constructor
    · intro h
      rcases ite_eq_ok h with ⟨-, h⟩ | ⟨-, h⟩
      · obtain ⟨⟨name, b⟩, -, h⟩ := bind_ok h
        obtain ⟨⟨range, b'⟩, -, h⟩ := bind_ok h
        cases h
      rcases ite_eq_ok h with ⟨hpos, h⟩ | ⟨-, h⟩
      · have hback : saturatingSucc id - 1 = id := by
          injection h with h
          injection h with h
          injection h
        unfold saturatingSucc at hback hpos
        split at hback
        · next hmax => subst hmax; cases hback
        · next hmax =>
          rw [if_neg hmax] at hpos
          rw [BitVec.toInt_eq_toNat_cond] at hpos ⊢
          bv_omega
      · cases h
    · rintro ⟨h0, hmax⟩
      have hsucc : saturatingSucc id = id + 1 := by
        rw [saturatingSucc, if_neg]
        rintro rfl
        exact absurd hmax (by decide)
      have hpos : (id + 1).toInt > 0 := by
        rw [BitVec.toInt_eq_toNat_cond] at h0 hmax ⊢
        bv_omega
      have hne : id + 1 ≠ 0 := by
        intro h
        rw [h] at hpos
        exact absurd hpos (by decide)
      rw [hsucc, if_neg hne, if_pos hpos]
      have hback : id + 1 - 1 = id := by bv_omega
      rw [hback]
  | named name range =>
    obtain ⟨c, hrange, hread⟩ := decodeSound_named name range r
    rw [hread]
    simp only [SoundRef.Expressible]
    constructor
    · intro h
      obtain ⟨⟨name', b⟩, hname, h⟩ := bind_ok h
      obtain ⟨rfl, rfl⟩ := string_stringBytes hname
      exact (string_stringBytes_iff _ _).mp hname
    · intro hle
      rw [(string_stringBytes_iff _ _).mpr hle]
      simp only [bind, Except.bind, hrange r]
      rfl

theorem readConsumable_encode_iff {c : Consumable} {payload : Bytes}
    (h : encodePayload (.consumable c) = .ok payload) :
    readConsumable payload = .ok (c, []) ↔ c.sound.Expressible := by
  obtain ⟨seconds, animation, sound, particles, effects⟩ := c
  rcases ite_eq_ok h with ⟨-, h⟩ | ⟨heffects, h⟩
  · cases h
  cases h
  obtain rfl : effects = [] := by simpa using heffects
  have hp : WireRead.bool (boolByte particles ++ writeVarint 0) = .ok (particles, writeVarint 0) :=
    reads_bool particles _
  have hn : varint (writeVarint 0) = .ok (0, []) := reads_varint 0 []
  rw [← decodeSound_encodeSound_iff sound (boolByte particles ++ writeVarint 0)]
  constructor
  · intro h
    -- the id -1 is the one whose bytes no longer tell where the sound ends
    by_cases hid : sound = .id (-1)
    · subst hid
      exact absurd h readConsumable_negativeId
    simp only [List.append_assoc] at h
    obtain ⟨⟨s, b⟩, hseconds, h⟩ := bind_ok h
    rw [reads_f32Be] at hseconds
    cases hseconds
    obtain ⟨⟨a, b⟩, ha, h⟩ := bind_ok h
    rw [reads_varint] at ha
    cases ha
    simp only [ConsumeAnimation.fromId_id] at h
    obtain ⟨⟨sound', b⟩, hsound, h⟩ := bind_ok h
    obtain ⟨-, rfl⟩ := decodeSound_encodeSound hid hsound
    simp only [hp, hn, bind, Except.bind] at h
    cases h
    exact hsound
  · intro hsound
    simp only [List.append_assoc, readConsumable, reads_f32Be _ _, reads_varint _ _, bind,
      Except.bind, ConsumeAnimation.fromId_id, hsound, hp, hn]
    rfl

/-! ## The custom name -/

/-- What a string leaves unread, by its own length field. -/
theorem string_rest {r r' : TagReader} {text : String} (h : TagReader.string r = .ok (text, r')) :
    r.rest.length = 2 + ofBe (r.rest.take 2) + r'.rest.length := by
  obtain ⟨raw, payload, rfl, hraw, -, hpayload, -⟩ := string_eq_ok h
  have hlt := ofBe_lt raw
  rw [hraw] at hlt
  rw [BitVec.toNat_ofNat] at hpayload
  have htake : (raw ++ (payload ++ r'.rest)).take 2 = raw := by rw [← hraw, List.take_left]
  simp only [htake, List.length_append]
  omega

theorem readNetwork_rest {b r : Bytes} {text : String}
    (h : readNetwork b = .ok (.string text, r)) :
    b.length = 3 + ofBe ((b.drop 1).take 2) + r.length := by
  obtain ⟨rest, r₁, rfl, rfl, hstr⟩ := readNetwork_cursor h
  have hlen := string_rest hstr
  simp only [List.length_cons, List.drop_one, List.tail_cons]
  dsimp only at hlen
  omega

theorem readCustomName_ok {p r : Bytes} {name : String} (h : readCustomName p = .ok (name, r)) :
    r = [] ∧ ∃ rest, readNetwork p = .ok (.string name, rest) := by
  obtain ⟨⟨t, rest⟩, hread, h⟩ := bind_ok h
  cases t with
  | string text => cases h; exact ⟨rfl, rest, hread⟩
  | _ => cases h

theorem customName_bytes {name : String} {payload : Bytes}
    (h : encodePayload (.customName name) = .ok payload) :
    (ModifiedUtf8.encodeBody name).length ≤ 65535 ∧ payload = tag.STRING ::
      (toBe 2 (ModifiedUtf8.encodeBody name).length ++ ModifiedUtf8.encodeBody name) := by
  rw [encodePayload_customName] at h
  obtain ⟨b₁, b₂, h₁, h₂, rfl⟩ := joined_eq_ok.mp h
  cases h₁
  have henc := (ModifiedUtf8.encodeModifiedUtf8_isOk_iff name).mp ⟨b₂, h₂⟩
  rw [Nbt.encodePayload, ModifiedUtf8.encodeModifiedUtf8_of_encodable henc] at h₂
  cases h₂
  exact ⟨of_decide_eq_true henc, rfl⟩

/-- The writer's limit on one string keeps a name far below the reader's limit on an input. -/
theorem customName_size {name : String} {payload : Bytes}
    (h : encodePayload (.customName name) = .ok payload) :
    payload.length ≤ Limits.NETWORK.maxBytes := by
  obtain ⟨hlen, rfl⟩ := customName_bytes h
  simp only [List.length_append, List.length_cons, toBe_length, Limits.NETWORK]
  omega

theorem readCustomName_written {name : String} {payload : Bytes}
    (h : encodePayload (.customName name) = .ok payload) :
    readCustomName payload = (do
      let (t, _) ← readBack (longString (.string name))
        (NbtTag.string name, (⟨[], Limits.NETWORK, tagCount (.string name)⟩ : TagReader))
      match t with
      | .string text => return (text, [])
      | other => .error (.protocol
          s!"custom_name payload is {tag.name other.tagId}, expected a literal TAG_String")) := by
  have hsize := customName_size h
  rw [encodePayload_customName] at h
  have hcount : tagCount (.string name) ≤ Limits.NETWORK.maxElements := by
    simp only [tagCount]; decide
  have hread := readUnnamed_encode h Limits.NETWORK (Nat.zero_le _) hcount
  simp only [readCustomName, readNetwork, new_ok hsize, hread, bind, Except.bind]
  cases longString (.string name) <;> rfl

theorem readCustomName_encode_iff {name : String} {payload : Bytes}
    (h : encodePayload (.customName name) = .ok payload) :
    readCustomName payload = .ok (name, []) ↔ ShortStr name := by
  rw [readCustomName_written h]
  unfold ShortStr
  change _ ↔ longString (.string name) = none
  cases longString (.string name) with
  | none => exact iff_of_true rfl rfl
  | some len => exact iff_of_false (fun h => by cases h) fun h => by cases h

theorem payloadPrefixLen_walk (b : Bytes) :
    payloadPrefixLen TYPE_CUSTOM_NAME b = (do
      let (_, left) ← readNetwork b
      return b.length - left.length) := by
  have hwalk : payloadPrefix TYPE_CUSTOM_NAME b = skip readNetwork b := rfl
  rw [payloadPrefixLen, hwalk]
  simp only [skip, bind, Except.bind]
  cases readNetwork b <;> rfl

/-- The prefix walk of a custom name the decoder takes: the whole input fits the reader and the
name ends where the payload does. -/
theorem payloadPrefixLen_customName_iff {p rest : Bytes} {name : String}
    (h : readNetwork p = .ok (.string name, rest)) (r : Bytes) :
    payloadPrefixLen TYPE_CUSTOM_NAME (p ++ r) = .ok p.length ↔
      Roomy TYPE_CUSTOM_NAME (p ++ r) ∧ Whole TYPE_CUSTOM_NAME p := by
  have hlen := readNetwork_rest h
  obtain ⟨c, hc, -, hall⟩ := readNetwork_string h
  rw [payloadPrefixLen_walk]
  by_cases hroom : (p ++ r).length ≤ Limits.NETWORK.maxBytes
  · have hread := hall (rest ++ r) (by rwa [← List.append_assoc, ← hc])
    rw [← List.append_assoc, ← hc] at hread
    have hsum := congrArg List.length hc
    rw [List.length_append] at hsum
    have hwhole : Whole TYPE_CUSTOM_NAME p ↔ rest.length = 0 := by
      unfold Whole
      constructor
      · intro hw; have := hw rfl; omega
      · intro h0 _; omega
    rw [hread, hwhole]
    change Except.ok _ = Except.ok _ ↔ _
    rw [Except.ok.injEq]
    simp only [List.length_append]
    constructor
    · intro heq; exact ⟨fun _ => by simpa using hroom, by omega⟩
    · rintro ⟨-, h0⟩; omega
  · constructor
    · intro heq
      obtain ⟨⟨t, left⟩, hread, -⟩ := bind_ok heq
      exact absurd hread (readNetwork_tooLong (by omega) t left)
    · rintro ⟨hr, -⟩
      exact absurd (hr rfl) hroom

/-! ## The decoder and the prefix walk -/

theorem skipConsumable_of_read {p rest : Bytes} {c : Consumable}
    (h : readConsumable p = .ok (c, rest)) : skipConsumable p = .ok ((), rest) := by
  obtain ⟨⟨seconds, p₁⟩, h₁, h⟩ := bind_ok h
  obtain ⟨⟨animationId, p₂⟩, h₂, h⟩ := bind_ok h
  dsimp only at h
  cases hanimation : ConsumeAnimation.fromId animationId with
  | none => rw [hanimation] at h; cases h
  | some animation =>
    rw [hanimation] at h
    obtain ⟨⟨sound, p₃⟩, h₃, h⟩ := bind_ok h
    obtain ⟨⟨particles, p₄⟩, h₄, h⟩ := bind_ok h
    obtain ⟨⟨effects, p₅⟩, h₅, h⟩ := bind_ok h
    rcases ite_eq_ok h with ⟨-, h⟩ | ⟨hnone, h⟩
    · cases h
    cases h
    simp only [skipConsumable, h₁, h₂, h₃, h₄, h₅, bind, Except.bind, if_neg hnone]
    rfl

/-- On what the decoder reads of any type but the custom name, the prefix walk ends there too. -/
theorem payloadPrefix_of_decoded {t : BitVec 32} {p rest : Bytes} {d : DataComponent}
    (ht : t ≠ TYPE_CUSTOM_NAME) (h : decodePayloadInner t p = .ok (d, rest)) :
    payloadPrefix t p = .ok ((), rest) := by
  have hskip : ∀ {α : Type} {mk : α → DataComponent} {read : Get ServerError α},
      wrap mk read p = .ok (d, rest) → skip read p = .ok ((), rest) := by
    intro α mk read hw
    obtain ⟨a, ha, -⟩ := wrap_ok hw
    simp only [skip, ha, bind, Except.bind]
    rfl
  unfold decodePayloadInner at h
  split at h
  · next h' => subst h'; exact hskip h
  split at h
  · next h' => subst h'; exact hskip h
  split at h
  · next h' => subst h'; exact hskip h
  split at h
  · next h' => subst h'; exact hskip h
  split at h
  · next h' => subst h'; exact hskip h
  split at h
  · next h' => subst h'; exact hskip h
  split at h
  · next h' => subst h'; exact hskip h
  split at h
  · next h' =>
    subst h'
    obtain ⟨c, hc, -⟩ := wrap_ok h
    exact skipConsumable_of_read hc
  · cases h

/-- On a payload the decoder takes, with anything behind it. -/
theorem payloadPrefixLen_decoded_iff {t : BitVec 32} {p : Bytes} {d : DataComponent}
    (h : decodePayload t p = .ok d) (r : Bytes) :
    payloadPrefixLen t (p ++ r) = .ok p.length ↔ Roomy t (p ++ r) ∧ Whole t p := by
  obtain ⟨⟨d', rest⟩, hinner, h⟩ := bind_ok h
  rcases ite_eq_ok h with ⟨-, h⟩ | ⟨hrest, h⟩
  · cases h
  obtain rfl : rest = [] := by simpa using hrest
  by_cases ht : t = TYPE_CUSTOM_NAME
  · subst ht
    obtain ⟨name, hname, -⟩ := @wrap_ok _ .customName readCustomName _ _ _ hinner
    obtain ⟨-, left, hread⟩ := readCustomName_ok hname
    exact payloadPrefixLen_customName_iff hread r
  · have hpayload := payloadPrefix_of_decoded ht hinner
    obtain ⟨c, hc, hall⟩ := delimited_payloadPrefix t ht p () [] hpayload
    rw [List.append_nil] at hc
    subst hc
    refine iff_of_true ?_ ⟨fun h => absurd h ht, fun h => absurd h ht⟩
    simp only [payloadPrefixLen, hall r, bind, Except.bind]
    change Except.ok _ = _
    rw [List.length_append, Nat.add_sub_cancel]

/-- What the decoder makes of the bytes the writer gave for a modelled component. -/
theorem decodePayload_encode_iff {d : DataComponent} {payload : Bytes} (hknown : d.Known)
    (h : encodePayload d = .ok payload) :
    decodePayload d.typeId payload = .ok d ↔ d.Expressible := by
  have hwrap : ∀ {α : Type} {mk : α → DataComponent} {read : Get ServerError α} {a : α},
      (∀ a', mk a' = mk a → a' = a) → decodePayloadInner (mk a).typeId = wrap mk read →
      (decodePayload (mk a).typeId payload = .ok (mk a) ↔ read payload = .ok (a, [])) := by
    intro α mk read a hinj hread
    rw [decodePayload, hread, wrap]
    cases read payload with
    | error e => exact iff_of_false nofun nofun
    | ok v =>
      obtain ⟨a', rest⟩ := v
      change (if rest.length ≠ 0 then _ else Except.ok (mk a')) = _ ↔ _
      rw [Except.ok.injEq, Prod.mk.injEq]
      constructor
      · intro h'
        rcases ite_eq_ok h' with ⟨-, h'⟩ | ⟨hrest, h'⟩
        · cases h'
        · exact ⟨hinj a' (Except.ok.inj h'), by simpa using hrest⟩
      · rintro ⟨rfl, rfl⟩
        rfl
  rcases d with v | v | es | es | name | v | range | food | c | ⟨k, t, w, n⟩
  case unknown => exact absurd rfl (hknown k t w n)
  case damage | maxDamage | repairCost =>
    rw [hwrap (fun a' h => by injection h) rfl]
    cases h
    have hread := reads_varint v []
    rw [List.append_nil] at hread
    exact iff_of_true hread trivial
  case enchantments | storedEnchantments =>
    rw [hwrap (fun a' h => by injection h) rfl]
    have hread := decodeEnchantments_encode h []
    rw [List.append_nil] at hread
    exact iff_of_true hread trivial
  case customName =>
    rw [hwrap (fun a' h => by injection h) rfl]
    exact readCustomName_encode_iff h
  case attackRange =>
    rw [hwrap (fun a' h => by injection h) rfl]
    cases h
    have hread := readAttackRange_encode range []
    rw [List.append_nil] at hread
    exact iff_of_true hread trivial
  case food =>
    rw [hwrap (fun a' h => by injection h) rfl]
    cases h
    have hread := readFood_encode food []
    rw [List.append_nil] at hread
    exact iff_of_true hread trivial
  case consumable =>
    rw [hwrap (fun a' h => by injection h) rfl]
    exact readConsumable_encode_iff h

/-- The writer's bytes for a custom name hold nothing but the name. -/
theorem whole_encode {d : DataComponent} {payload : Bytes} (hknown : d.Known)
    (h : encodePayload d = .ok payload) : Whole d.typeId payload := by
  intro htype
  rcases d with v | v | es | es | name | v | range | food | c | ⟨k, t, w, n⟩
  case unknown => exact absurd rfl (hknown k t w n)
  case customName =>
    obtain ⟨hlen, rfl⟩ := customName_bytes h
    rw [List.drop_one, List.tail_cons, List.take_left' (toBe_length 2 _), ofBe_toBe 2 _ (by omega)]
    simp only [List.length_append, List.length_cons, toBe_length]
    omega
  all_goals cases htype

/-- Writer, reader and prefix walk over every modelled component, and over whatever the reader
takes. -/
theorem payload_framing_iff (r : Bytes) :
    (∀ d : DataComponent, d.Known → ∀ b, encodePayload d = .ok b →
      (payloadPrefixLen d.typeId (b ++ r) = .ok b.length ∧ decodePayload d.typeId b = .ok d ↔
        d.Expressible ∧ Roomy d.typeId (b ++ r))) ∧
    ∀ t p d, decodePayload t p = .ok d →
      (payloadPrefixLen t (p ++ r) = .ok p.length ↔ Roomy t (p ++ r) ∧ Whole t p) := by
  refine ⟨fun d hknown b h => ?_, fun t p d h => payloadPrefixLen_decoded_iff h r⟩
  rw [decodePayload_encode_iff hknown h]
  constructor
  · rintro ⟨hpayload, hexp⟩
    have hdec := (decodePayload_encode_iff hknown h).mpr hexp
    exact ⟨hexp, ((payloadPrefixLen_decoded_iff hdec r).mp hpayload).1⟩
  · rintro ⟨hexp, hroom⟩
    have hdec := (decodePayload_encode_iff hknown h).mpr hexp
    have hwhole := whole_encode hknown h
    exact ⟨(payloadPrefixLen_decoded_iff hdec r).mpr ⟨hroom, hwhole⟩, hexp⟩

theorem payload_framing_damage :
    payloadPrefixLen TYPE_DAMAGE ([7] ++ [1, 2]) = .ok 1 ∧ decodePayload TYPE_DAMAGE [7] = .ok (.damage 7) :=
  ((payload_framing_iff [1, 2]).1 (.damage 7) nofun [7] rfl).mpr ⟨trivial, nofun⟩

/-- A disk value with the sound id -1. -/
def soundless : NbtTag := .compound [("minecraft:consumable", .compound [
  ("animation", .string "eat"), ("sound_id", .int (-1))])]

/-- Read from disk, the sound id -1 is written as the tag of a name; and the decoder drops the
byte behind a custom name that the prefix walk stops at. -/
theorem soundless_not_read_back :
    (∃ c b, fromNbt soundless = .ok [.consumable c] ∧ encodePayload (.consumable c) = .ok b ∧
      decodePayload TYPE_CONSUMABLE b ≠ .ok (.consumable c)) ∧
    decodePayload TYPE_CUSTOM_NAME [8, 0, 1, 97, 0] = .ok (.customName "a") ∧
    payloadPrefixLen TYPE_CUSTOM_NAME ([8, 0, 1, 97, 0] ++ []) ≠ .ok 5 := by
  refine ⟨⟨⟨0x3FCCCCCD, .eat, .id (-1), true, []⟩, _, by rfl, rfl, ?_⟩, by rfl, ?_⟩
  · intro h
    have hexp := (decodePayload_encode_iff (d := .consumable _) nofun rfl).mp h
    exact absurd hexp.1 (by decide)
  · intro h
    have hshort : payloadPrefixLen TYPE_CUSTOM_NAME ([8, 0, 1, 97, 0] ++ []) = .ok 4 := by rfl
    rw [hshort] at h
    cases h

end Apoptosis.L1.Components
