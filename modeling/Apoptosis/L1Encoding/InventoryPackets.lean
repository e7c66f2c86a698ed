import Apoptosis.L1Encoding.ComponentWire
/-!
# Packets that carry item stacks (`protocol/src/packets/play/inventory.rs`)

A stack on the wire keeps its component payloads as bytes. The decoder frames
a modelled payload by its own codec; an unmodelled type takes everything that
is left of the body, which is right only when nothing follows the stack.
`ContainerSetSlot` ends with its stack; in `ContainerSetContent` every slot is
followed by at least the carried stack. A custom name adds a second
condition: its NBT reader refuses more than 2 MiB of unread body.

Results:
* `decodeComponents_spec`: what the decoder makes of a received patch in
  front of any bytes.
* `container_packets_round_trip_iff`: `ContainerSetSlot` always round trips;
  `ContainerSetContent` exactly when no slot holds an unmodelled component and
  every custom name is within 2 MiB of the end of the body.
-/
namespace Apoptosis.L1.Inventory
open Apoptosis.Core.Codec Apoptosis.Core.Framing Apoptosis.L1.Nbt Apoptosis.L1.Wire
open Apoptosis.L1.Components

def MAX_ITEM_COMPONENTS : Nat := 1024
def MAX_ITEM_COUNT : Nat := 64
def MAX_CONTAINER_SLOTS : Nat := 256

/-- mirrors crates/protocol/src/packets/play/inventory.rs:297-306 (`ItemStack`) -/
structure ItemStack where
  itemId : BitVec 32
  count : BitVec 32
  components : List (BitVec 32 × Bytes)
  deriving DecidableEq, Repr

/-- mirrors crates/protocol/src/packets/play/inventory.rs:309-315 (`ItemStack::empty`) -/
def ItemStack.empty : ItemStack := ⟨0, 0, []⟩

/-! ## Encoding -/

/-- mirrors crates/protocol/src/packets/play/mod.rs:66-69 (`packed_len`) -/
def packedLen (len : Nat) : ServerResult (BitVec 32) :=
  if len < 2 ^ 31 then .ok (BitVec.ofNat 32 len)
  else .error (.invariant s!"length {len} does not fit a VarInt")

def encodeComponent (c : BitVec 32 × Bytes) : Bytes := writeVarint c.1 ++ c.2

def encodeComponents (cs : List (BitVec 32 × Bytes)) : Bytes := cs.flatMap encodeComponent

/-- mirrors crates/protocol/src/packets/play/inventory.rs:387-417 (`ItemStack::encode`), the
bytes it appends -/
def ItemStack.encode (s : ItemStack) : ServerResult Bytes :=
  if s.count.toInt < 0 then
    .error (.invariant s!"item stack count {s.count.toInt} is negative")
  else if s.count = 0 ∨ s.itemId = 0 then .ok (writeVarint 0)
  else do
    let added ← packedLen s.components.length
    return writeVarint s.count ++ writeVarint s.itemId ++ writeVarint added ++ writeVarint 0 ++
      encodeComponents s.components

/-! ## Decoding -/

/-- mirrors crates/protocol/src/packets/play/mod.rs:47-59 (`read_count`) -/
def readCount (what : String) (max : Nat) : Get ServerError Nat := fun data => do
  let (raw, data) ← readVarint data
  if raw.toInt < 0 ∨ raw.toNat > max then
    .error (.protocol s!"{what} count {raw.toInt} is outside 0..={max}")
  else return (raw.toNat, data)

/-- The known arm of the component loop: frame, split off, check. -/
def decodeKnown (typeId : BitVec 32) : Get ServerError Bytes := fun data => do
  let len ← payloadPrefixLen typeId data
  let (bytes, data) ← readBytes len data
  let _ ← decodePayload typeId bytes
  return (bytes, data)

/-- The component loop of `ItemStack::decode`, by the number of components left. -/
def decodeComponents : Nat → Get ServerError (List (BitVec 32 × Bytes))
  | 0, data => .ok ([], data)
  | left + 1, data => do
    let (typeId, data) ← readVarint data
    if DataComponent.isKnownType typeId then do
      let (payload, data) ← decodeKnown typeId data
      let (cs, data) ← decodeComponents left data
      return ((typeId, payload) :: cs, data)
    else if left = 0 then
      if data.isEmpty then .error (.protocol "unmodelled item component with no payload")
      else return ([(typeId, data)], [])
    else
      .error (.protocol s!"unmodelled item data component type id {typeId.toInt} in a multi-component patch (only the last added component may be opaque)")

/-- mirrors crates/protocol/src/packets/play/inventory.rs:437-501 (`ItemStack::decode`) -/
def ItemStack.decode : Get ServerError ItemStack := fun data => do
  let (count, data) ← readVarint data
  if count.toInt < 0 then
    .error (.protocol s!"item stack count {count.toInt} is negative")
  else if count = 0 then return (ItemStack.empty, data)
  else if count.toNat > MAX_ITEM_COUNT then
    .error (.protocol s!"item stack count {count.toInt} exceeds the {MAX_ITEM_COUNT} stack limit")
  else do
    let (itemId, data) ← readVarint data
    if itemId.toInt < 0 then
      .error (.protocol s!"item stack id {itemId.toInt} is negative")
    else if itemId = 0 then return (ItemStack.empty, data)
    else do
      let (added, data) ← readCount "item component" MAX_ITEM_COMPONENTS data
      let (removed, data) ← readCount "removed item component" MAX_ITEM_COMPONENTS data
      if removed > 0 then
        .error (.protocol s!"{removed} removed item components present but removed components are unmodelled")
      else do
        let (components, data) ← decodeComponents added data
        return (⟨itemId, count, components⟩, data)

/-! ## The two packets -/

/-- mirrors crates/protocol/src/packets/play/inventory.rs:525-534 (`ContainerSetSlot`) -/
structure ContainerSetSlot where
  windowId : BitVec 32
  stateId : BitVec 32
  slot : BitVec 16
  item : ItemStack
  deriving DecidableEq, Repr

def trailing (packet : String) (data : Bytes) : ServerError :=
  .protocol s!"{packet} has {data.length} trailing bytes"

/-- mirrors crates/protocol/src/packets/play/inventory.rs:559-566 -/
def ContainerSetSlot.encode (p : ContainerSetSlot) : ServerResult Bytes := do
  let item ← p.item.encode
  return writeVarint p.windowId ++ writeVarint p.stateId ++ writeI16 p.slot ++ item

/-- mirrors crates/protocol/src/packets/play/inventory.rs:540-557 -/
def ContainerSetSlot.decode (payload : Bytes) : ServerResult ContainerSetSlot := do
  let (windowId, data) ← readVarint payload
  let (stateId, data) ← readVarint data
  let (slot, data) ← readI16 data
  let (item, data) ← ItemStack.decode data
  if data.isEmpty then return ⟨windowId, stateId, slot, item⟩
  else .error (trailing "container_set_slot" data)

/-- mirrors crates/protocol/src/packets/play/inventory.rs:575-585 (`ContainerSetContent`) -/
structure ContainerSetContent where
  windowId : BitVec 32
  stateId : BitVec 32
  slots : List ItemStack
  carried : ItemStack
  deriving DecidableEq, Repr

/-- The slot loop of the encoder. -/
def encodeSlots : List ItemStack → ServerResult Bytes
  | [] => .ok []
  | slot :: slots => joined slot.encode (encodeSlots slots)

/-- mirrors crates/protocol/src/packets/play/inventory.rs:620-630 -/
def ContainerSetContent.encode (p : ContainerSetContent) : ServerResult Bytes := do
  let n ← packedLen p.slots.length
  let slots ← encodeSlots p.slots
  let carried ← p.carried.encode
  return writeVarint p.windowId ++ writeVarint p.stateId ++ writeVarint n ++ slots ++ carried

/-- mirrors crates/protocol/src/packets/play/inventory.rs:596-618 -/
def ContainerSetContent.decode (payload : Bytes) : ServerResult ContainerSetContent := do
  let (windowId, data) ← readVarint payload
  let (stateId, data) ← readVarint data
  let (count, data) ← readCount "container slot" MAX_CONTAINER_SLOTS data
  let (slots, data) ← many ItemStack.decode count data
  let (carried, data) ← ItemStack.decode data
  if data.isEmpty then return ⟨windowId, stateId, slots, carried⟩
  else .error (trailing "container_set_content" data)

/-! ## Received stacks -/

/-- A payload the decoder framed as `typeId`: its codec ends it in front of some input, and
decodes it. -/
def Framed (typeId : BitVec 32) (payload : Bytes) : Prop :=
  (∃ after, payloadPrefixLen typeId (payload ++ after) = .ok payload.length) ∧
    ∃ c, decodePayload typeId payload = .ok c

/-- Every modelled payload is framed; only the last component may be unmodelled. -/
def FramedList : List (BitVec 32 × Bytes) → Prop
  | [] => True
  | (typeId, payload) :: cs =>
    (if DataComponent.isKnownType typeId then Framed typeId payload else payload ≠ [] ∧ cs = []) ∧
      FramedList cs

/-- Some component is of a type this build does not model. -/
def HasUnmodelled (cs : List (BitVec 32 × Bytes)) : Prop :=
  ∃ c ∈ cs, DataComponent.isKnownType c.1 = false

/-- Every custom name starts at most 2 MiB before the end of a body that goes on for `after`
more bytes behind the patch. -/
def NamesFit : List (BitVec 32 × Bytes) → Nat → Prop
  | [], _ => True
  | (typeId, payload) :: cs, after =>
    (typeId = TYPE_CUSTOM_NAME →
      payload.length + (encodeComponents cs).length + after ≤ Limits.NETWORK.maxBytes) ∧
        NamesFit cs after

/-- A stack as `ItemStack::decode` returns it. -/
def Received (s : ItemStack) : Prop := ∃ b r, ItemStack.decode b = .ok (s, r)

theorem payloadPrefix_rest {typeId : BitVec 32} {b : Bytes} {n : Nat}
    (h : payloadPrefixLen typeId b = .ok n) :
    ∃ rest, payloadPrefix typeId b = .ok ((), rest) ∧ n = b.length - rest.length := by
  obtain ⟨⟨u, rest⟩, h₁, h₂⟩ := bind_ok h
  cases h₂
  exact ⟨rest, h₁, rfl⟩

theorem payloadPrefixLen_of_reads {typeId : BitVec 32} {payload r : Bytes}
    (h : payloadPrefix typeId (payload ++ r) = .ok ((), r)) :
    payloadPrefixLen typeId (payload ++ r) = .ok payload.length := by
  unfold payloadPrefixLen
  rw [h]
  simp only [bind, Except.bind, List.length_append, Nat.add_sub_cancel]
  rfl

theorem payloadPrefix_customName (b : Bytes) :
    payloadPrefix TYPE_CUSTOM_NAME b = skip readNetwork b := by
  unfold payloadPrefix
  rw [if_neg (by decide), if_neg (by decide), if_pos rfl]

theorem decodePayload_customName {payload : Bytes} {c : DataComponent}
    (h : decodePayload TYPE_CUSTOM_NAME payload = .ok c) :
    ∃ text r, readNetwork payload = .ok (.string text, r) := by
  obtain ⟨⟨c', r'⟩, h₁, -⟩ := bind_ok h
  have hinner : decodePayloadInner TYPE_CUSTOM_NAME = wrap .customName readCustomName := by
    unfold decodePayloadInner
    simp only [show ¬TYPE_CUSTOM_NAME = TYPE_DAMAGE by decide,
      show ¬TYPE_CUSTOM_NAME = TYPE_MAX_DAMAGE by decide,
      show ¬TYPE_CUSTOM_NAME = TYPE_REPAIR_COST by decide,
      show ¬TYPE_CUSTOM_NAME = TYPE_ENCHANTMENTS by decide,
      show ¬TYPE_CUSTOM_NAME = TYPE_STORED_ENCHANTMENTS by decide, if_false, if_true]
  rw [hinner] at h₁
  obtain ⟨⟨text, r⟩, h₂, -⟩ := bind_ok h₁
  obtain ⟨⟨t, r₂⟩, h₃, h₄⟩ := bind_ok h₂
  cases t with
  | string text => exact ⟨text, r₂, h₃⟩
  | _ => cases h₄

/-- A framed payload is framed in front of anything, a custom name up to the size cap. -/
theorem Framed.prefixLen {typeId : BitVec 32} {payload : Bytes} (h : Framed typeId payload)
    (r : Bytes)
    (hfit : typeId = TYPE_CUSTOM_NAME → (payload ++ r).length ≤ Limits.NETWORK.maxBytes) :
    payloadPrefixLen typeId (payload ++ r) = .ok payload.length := by
  obtain ⟨⟨after, hlen⟩, c, hdec⟩ := h
  obtain ⟨rest, hpre, hn⟩ := payloadPrefix_rest hlen
  apply payloadPrefixLen_of_reads
  by_cases hname : typeId = TYPE_CUSTOM_NAME
  · subst hname
    obtain ⟨text, r₁, hread⟩ := decodePayload_customName hdec
    obtain ⟨c, rfl, -, hall⟩ := readNetwork_string hread
    rw [payloadPrefix_customName] at hpre ⊢
    obtain ⟨⟨t, rest'⟩, hnet, hret⟩ := bind_ok hpre
    cases hret
    -- the whole of `payload` is the string root, so nothing of it is left over
    have hsize : (c ++ (r₁ ++ after)).length ≤ Limits.NETWORK.maxBytes := by
      by_contra hbig
      rw [← List.append_assoc] at hbig
      exact readNetwork_tooLong (not_le.mp hbig) _ _ hnet
    have hagain := hall (r₁ ++ after) hsize
    rw [← List.append_assoc, hnet] at hagain
    cases hagain
    have hnil : r₁ = [] := by
      simp only [List.length_append] at hn
      exact List.eq_nil_of_length_eq_zero (by omega)
    subst hnil
    have := hall r (by simpa using hfit rfl)
    simp only [skip, List.append_nil, bind, Except.bind, this]
    rfl
  · obtain ⟨c', hc', hall⟩ := delimited_payloadPrefix typeId hname _ _ _ hpre
    have hlens := congrArg List.length hc'
    simp only [List.length_append] at hlens hn
    obtain ⟨rfl, rfl⟩ := List.append_inj hc' (by omega)
    exact hall r

theorem decodeKnown_framed {typeId : BitVec 32} {payload : Bytes} (h : Framed typeId payload)
    (r : Bytes)
    (hfit : typeId = TYPE_CUSTOM_NAME → (payload ++ r).length ≤ Limits.NETWORK.maxBytes) :
    decodeKnown typeId (payload ++ r) = .ok (payload, r) := by
  obtain ⟨c, hdec⟩ := h.2
  unfold decodeKnown readBytes
  rw [h.prefixLen r hfit]
  have := reads_takeBytes (packetTruncated payload.length) payload r
  simp only [bind, Except.bind, this, hdec]
  rfl

theorem decodeKnown_tooLong {b : Bytes} (h : Limits.NETWORK.maxBytes < b.length)
    (x : Bytes × Bytes) : decodeKnown TYPE_CUSTOM_NAME b ≠ .ok x := by
  intro hx
  obtain ⟨n, hlen, -⟩ := bind_ok hx
  obtain ⟨rest, hpre, -⟩ := payloadPrefix_rest hlen
  rw [payloadPrefix_customName] at hpre
  obtain ⟨⟨t, rest'⟩, hnet, -⟩ := bind_ok hpre
  exact readNetwork_tooLong h _ _ hnet

theorem encodeComponents_cons (c : BitVec 32 × Bytes) (cs : List (BitVec 32 × Bytes)) :
    encodeComponents (c :: cs) = writeVarint c.1 ++ (c.2 ++ encodeComponents cs) := by
  simp [encodeComponents, encodeComponent]

theorem decodeComponents_known (typeId : BitVec 32) (hk : DataComponent.isKnownType typeId = true)
    (left : Nat) (b : Bytes) :
    decodeComponents (left + 1) (writeVarint typeId ++ b) =
      (decodeKnown typeId b >>= fun p => decodeComponents left p.2 >>= fun q =>
        .ok ((typeId, p.1) :: q.1, q.2)) := by
  rw [decodeComponents, reads_readVarint]
  simp only [bind, Except.bind]
  rw [if_pos hk]
  rfl

theorem decodeComponents_unmodelled (typeId : BitVec 32)
    (hk : DataComponent.isKnownType typeId = false) (b : Bytes) (hb : b ≠ []) :
    decodeComponents 1 (writeVarint typeId ++ b) = .ok ([(typeId, b)], []) := by
  rw [decodeComponents, reads_readVarint]
  simp only [bind, Except.bind, hk, Bool.false_eq_true, if_false, if_true]
  rw [if_neg (by simpa using hb)]
  rfl

/-- What the decoder makes of a received patch in front of `r`: the patch and `r` when the
names fit and no unmodelled payload can run on into `r`; an error when a name does not fit;
nothing left to read when the last payload is unmodelled. -/
theorem decodeComponents_spec : ∀ (cs : List (BitVec 32 × Bytes)), FramedList cs → ∀ r : Bytes,
    (NamesFit cs r.length → (HasUnmodelled cs → r = []) →
      decodeComponents cs.length (encodeComponents cs ++ r) = .ok (cs, r)) ∧
    (∀ x r', decodeComponents cs.length (encodeComponents cs ++ r) = .ok (x, r') →
      NamesFit cs r.length ∧ (HasUnmodelled cs → r' = []))
  | [], _, r => by
    refine ⟨fun _ _ => rfl, fun x r' _ => ⟨trivial, ?_⟩⟩
    rintro ⟨c, hc, -⟩
    cases hc
  | (typeId, payload) :: cs, ⟨hhead, htail⟩, r => by
    have ih := decodeComponents_spec cs htail r
    rw [encodeComponents_cons, List.append_assoc, List.append_assoc]
    by_cases hk : DataComponent.isKnownType typeId = true
    · rw [if_pos hk] at hhead
      have hun : HasUnmodelled ((typeId, payload) :: cs) → HasUnmodelled cs := by
        rintro ⟨c, hc, hck⟩
        rcases List.mem_cons.mp hc with rfl | hc
        · rw [hk] at hck; cases hck
        · exact ⟨c, hc, hck⟩
      rw [List.length_cons, decodeComponents_known typeId hk]
      refine ⟨fun hfit hr => ?_, fun x r' hx => ?_⟩
      · rw [decodeKnown_framed hhead _ fun hname => by
          have := hfit.1 hname
          simp only [List.length_append]; omega]
        simp only [bind, Except.bind]
        rw [ih.1 hfit.2 fun h => hr ?_]
        obtain ⟨c, hc, hck⟩ := h
        exact ⟨c, List.mem_cons_of_mem _ hc, hck⟩
      · obtain ⟨⟨bytes, b⟩, h₁, h₂⟩ := bind_ok hx
        have hname : typeId = TYPE_CUSTOM_NAME →
            (payload ++ (encodeComponents cs ++ r)).length ≤ Limits.NETWORK.maxBytes := by
          rintro rfl
          by_contra hbig
          exact decodeKnown_tooLong (not_le.mp hbig) _ h₁
        rw [decodeKnown_framed hhead _ hname] at h₁
        cases h₁
        obtain ⟨⟨x', r''⟩, h₃, h₄⟩ := bind_ok h₂
        cases h₄
        obtain ⟨hfit, hend⟩ := ih.2 x' _ h₃
        refine ⟨⟨fun h => ?_, hfit⟩, fun h => hend (hun h)⟩
        have := hname h
        simp only [List.length_append] at this
        omega
    · have hk' : DataComponent.isKnownType typeId = false := by simpa using hk
      rw [if_neg hk] at hhead
      obtain ⟨hpay, rfl⟩ := hhead
      have hname : typeId ≠ TYPE_CUSTOM_NAME := by rintro rfl; exact hk (by decide)
      have hne : payload ++ ([] ++ r) ≠ [] := by simp [hpay]
      have hdec := decodeComponents_unmodelled typeId hk' _ hne
      refine ⟨fun _ hr => ?_, fun x r' hx => ⟨⟨fun h => absurd h hname, trivial⟩, fun _ => ?_⟩⟩
      · obtain rfl := hr ⟨(typeId, payload), by simp, hk'⟩
        simpa [encodeComponents] using hdec
      · have : decodeComponents 1 (writeVarint typeId ++ (payload ++ ([] ++ r))) = .ok (x, r') := hx
        rw [hdec] at this
        cases this
        rfl

/-! ## What a received stack is -/

theorem bytes_split {n : Nat} {b a r : Bytes} (h : readBytes n b = .ok (a, r)) :
    b = a ++ r ∧ a.length = n := by
  refine ⟨?_, takeBytes_length h⟩
  unfold readBytes takeBytes at h
  split at h
  · cases h
  · cases h
    exact (List.take_append_drop n b).symm

theorem decodeKnown_spec {typeId : BitVec 32} {b payload r : Bytes}
    (h : decodeKnown typeId b = .ok (payload, r)) :
    b = payload ++ r ∧ Framed typeId payload ∧
      (typeId = TYPE_CUSTOM_NAME → b.length ≤ Limits.NETWORK.maxBytes) := by
  obtain ⟨n, hlen, h₁⟩ := bind_ok h
  obtain ⟨⟨bytes, rest⟩, hread, h₂⟩ := bind_ok h₁
  obtain ⟨c, hdec, hret⟩ := bind_ok h₂
  cases hret
  obtain ⟨rfl, rfl⟩ := bytes_split hread
  refine ⟨rfl, ⟨⟨r, hlen⟩, c, hdec⟩, ?_⟩
  rintro rfl
  by_contra hbig
  exact decodeKnown_tooLong (not_le.mp hbig) _ h

/-- The patch a decoder returns: framed, no longer re-encoded than it was read, and with
every custom name within the size cap of its own end. -/
theorem decodeComponents_received : ∀ (left : Nat) (b r : Bytes) (cs : List (BitVec 32 × Bytes)),
    decodeComponents left b = .ok (cs, r) →
    cs.length = left ∧ FramedList cs ∧ NamesFit cs r.length ∧
      (encodeComponents cs).length + r.length ≤ b.length
  | 0, b, r, cs, h => by
    cases h
    exact ⟨rfl, trivial, trivial, by simp [encodeComponents]⟩
  | left + 1, b, r, cs, h => by
    obtain ⟨⟨typeId, b₁⟩, hid, h₁⟩ := bind_ok h
    have hshort := writeVarint_shortest hid
    simp only at h₁
    split at h₁
    · next hk =>
      obtain ⟨⟨payload, b₂⟩, hpay, h₂⟩ := bind_ok h₁
      obtain ⟨⟨cs', r'⟩, hrec, hret⟩ := bind_ok h₂
      cases hret
      obtain ⟨rfl, hframed, hname⟩ := decodeKnown_spec hpay
      obtain ⟨hlen, hlist, hfit, hle⟩ := decodeComponents_received left b₂ _ cs' hrec
      simp only [List.length_append] at hname hshort
      refine ⟨by rw [List.length_cons, hlen], ⟨by rw [if_pos hk]; exact hframed, hlist⟩,
        ⟨fun h => ?_, hfit⟩, ?_⟩
      · have := hname h
        simp only at hle ⊢
        omega
      · rw [encodeComponents_cons]
        simp only [List.length_append]; omega
    · next hk =>
      split at h₁
      · next hleft =>
        subst hleft
        split at h₁
        · cases h₁
        · next hne =>
          cases h₁
          have hname : typeId ≠ TYPE_CUSTOM_NAME := by rintro rfl; exact hk (by decide)
          refine ⟨rfl, ⟨by rw [if_neg hk]; exact ⟨by simpa using hne, rfl⟩, trivial⟩,
            ⟨fun h => absurd h hname, trivial⟩, ?_⟩
          rw [encodeComponents_cons]
          simp only [encodeComponents, List.flatMap_nil, List.append_nil, List.length_append,
            List.length_nil]
          omega
      · cases h₁

/-- A stack the decoder can return that is not the empty one. -/
structure WellFormed (s : ItemStack) : Prop where
  countPos : 0 < s.count.toNat
  countLe : s.count.toNat ≤ MAX_ITEM_COUNT
  idPos : 0 < s.itemId.toInt
  added : s.components.length ≤ MAX_ITEM_COMPONENTS
  framed : FramedList s.components
  fits : NamesFit s.components 0

theorem NamesFit.mono {cs : List (BitVec 32 × Bytes)} {m n : Nat} (h : NamesFit cs n)
    (hmn : m ≤ n) : NamesFit cs m := by
  induction cs with
  | nil => trivial
  | cons c cs ih => exact ⟨fun hc => by have := h.1 hc; omega, ih h.2⟩

theorem Received.empty_or_wellFormed {s : ItemStack} (h : Received s) :
    s = ItemStack.empty ∨ WellFormed s := by
  obtain ⟨b, r, h⟩ := h
  obtain ⟨⟨count, b₁⟩, -, h₁⟩ := bind_ok h
  rcases ite_eq_ok h₁ with ⟨-, h₂⟩ | ⟨hneg, h₂⟩
  · cases h₂
  rcases ite_eq_ok h₂ with ⟨-, h₃⟩ | ⟨hzero, h₃⟩
  · cases h₃; exact .inl rfl
  rcases ite_eq_ok h₃ with ⟨-, h₄⟩ | ⟨hmax, h₄⟩
  · cases h₄
  obtain ⟨⟨itemId, b₂⟩, -, h₅⟩ := bind_ok h₄
  rcases ite_eq_ok h₅ with ⟨-, h₆⟩ | ⟨hidneg, h₆⟩
  · cases h₆
  rcases ite_eq_ok h₆ with ⟨-, h₇⟩ | ⟨hidzero, h₇⟩
  · cases h₇; exact .inl rfl
  obtain ⟨⟨added, b₃⟩, hadded, h₈⟩ := bind_ok h₇
  obtain ⟨⟨removed, b₄⟩, -, h₉⟩ := bind_ok h₈
  rcases ite_eq_ok h₉ with ⟨-, h₁₀⟩ | ⟨-, h₁₀⟩
  · cases h₁₀
  obtain ⟨⟨cs, b₅⟩, hcs, hret⟩ := bind_ok h₁₀
  cases hret
  obtain ⟨hlen, hframed, hfit, -⟩ := decodeComponents_received _ _ _ _ hcs
  have hle : added ≤ MAX_ITEM_COMPONENTS := by
    obtain ⟨⟨raw, b₆⟩, -, hraw⟩ := bind_ok hadded
    rcases ite_eq_ok hraw with ⟨-, hbad⟩ | ⟨hok, hraw⟩
    · cases hbad
    · cases hraw; omega
  refine .inr ⟨?_, not_lt.mp hmax, ?_, by simpa [hlen] using hle, hframed,
    hfit.mono (Nat.zero_le _)⟩
  · exact Nat.pos_of_ne_zero fun h0 => hzero (BitVec.eq_of_toNat_eq (by simpa using h0))
  · have : itemId.toInt ≠ 0 := fun h0 => hidzero (BitVec.eq_of_toInt_eq (by simpa using h0))
    simp only at hidneg ⊢
    omega

/-! ## One stack in front of more bytes -/

theorem toInt_of_small {v : BitVec 32} (h : v.toNat < 2 ^ 31) : v.toInt = v.toNat := by
  rw [BitVec.toInt_eq_toNat_cond, if_pos (by omega)]

theorem ofNat32_toNat {n : Nat} (h : n < 2 ^ 31) : (BitVec.ofNat 32 n).toNat = n := by
  rw [BitVec.toNat_ofNat]; omega

theorem readCount_write (what : String) {max n : Nat} (hn : n ≤ max) (hmax : max < 2 ^ 31)
    (r : Bytes) : readCount what max (writeVarint (BitVec.ofNat 32 n) ++ r) = .ok (n, r) := by
  have hnat := ofNat32_toNat (show n < 2 ^ 31 by omega)
  have hint := toInt_of_small (v := BitVec.ofNat 32 n) (by omega)
  unfold readCount
  rw [reads_readVarint]
  simp only [bind, Except.bind, hint, hnat]
  rw [if_neg (by omega)]
  rfl

/-- The bytes of a well-formed stack. -/
def stackBytes (s : ItemStack) : Bytes :=
  writeVarint s.count ++ (writeVarint s.itemId ++
    (writeVarint (BitVec.ofNat 32 s.components.length) ++
      (writeVarint 0 ++ encodeComponents s.components)))

theorem WellFormed.encode {s : ItemStack} (h : WellFormed s) : s.encode = .ok (stackBytes s) := by
  have hc := h.countPos
  have hcm := h.countLe
  have ha := h.added
  simp only [MAX_ITEM_COUNT, MAX_ITEM_COMPONENTS] at hcm ha
  have hint := toInt_of_small (v := s.count) (by omega)
  have hzero : ¬(s.count = 0 ∨ s.itemId = 0) := by
    rintro (h0 | h0)
    · rw [h0] at hc; exact absurd hc (by decide)
    · have := h.idPos; rw [h0] at this; exact absurd this (by decide)
  unfold ItemStack.encode packedLen
  rw [if_neg (by omega), if_neg hzero, if_pos (by omega)]
  simp only [bind, Except.bind, stackBytes, List.append_assoc]
  rfl

theorem WellFormed.decode {s : ItemStack} (h : WellFormed s) (r : Bytes) :
    ItemStack.decode (stackBytes s ++ r) =
      (decodeComponents s.components.length (encodeComponents s.components ++ r) >>= fun p =>
        .ok (⟨s.itemId, s.count, p.1⟩, p.2)) := by
  have hc := h.countPos
  have hcm := h.countLe
  have ha := h.added
  have hi := h.idPos
  simp only [MAX_ITEM_COUNT, MAX_ITEM_COMPONENTS] at hcm ha
  have hint := toInt_of_small (v := s.count) (by omega)
  have hzero : s.count ≠ 0 := by
    intro h0; rw [h0] at hc; exact absurd hc (by decide)
  have hid : s.itemId ≠ 0 := by
    intro h0; rw [h0] at hi; exact absurd hi (by decide)
  unfold ItemStack.decode stackBytes
  simp only [List.append_assoc]
  rw [reads_readVarint]
  simp only [bind, Except.bind]
  rw [if_neg (by omega), if_neg hzero, if_neg (by simp only [MAX_ITEM_COUNT]; omega),
    reads_readVarint]
  simp only
  rw [if_neg (by omega), if_neg hid, readCount_write _ h.added (by decide)]
  simp only
  rw [show writeVarint 0 = writeVarint (BitVec.ofNat 32 0) from rfl,
    readCount_write _ (Nat.zero_le _) (by decide)]
  simp only [gt_iff_lt, lt_self_iff_false, if_false]
  rfl

/-- The bytes of any received stack. -/
def imageOf (s : ItemStack) : Bytes := if s = ItemStack.empty then writeVarint 0 else stackBytes s

theorem Received.encode {s : ItemStack} (h : Received s) : s.encode = .ok (imageOf s) := by
  rcases h.empty_or_wellFormed with rfl | hw
  · rfl
  · have hne : s ≠ ItemStack.empty := by
      rintro rfl; exact absurd hw.countPos (by decide)
    rw [imageOf, if_neg hne]
    exact hw.encode

theorem decode_empty (r : Bytes) :
    ItemStack.decode (writeVarint 0 ++ r) = .ok (ItemStack.empty, r) := by
  unfold ItemStack.decode
  rw [reads_readVarint]
  rfl

/-- The decoder on a received stack's bytes in front of `r`. -/
theorem Received.decode_spec {s : ItemStack} (h : Received s) (r : Bytes) :
    (NamesFit s.components r.length → (HasUnmodelled s.components → r = []) →
      ItemStack.decode (imageOf s ++ r) = .ok (s, r)) ∧
    (∀ x r', ItemStack.decode (imageOf s ++ r) = .ok (x, r') →
      NamesFit s.components r.length ∧ (HasUnmodelled s.components → r' = [])) := by
  rcases h.empty_or_wellFormed with rfl | hw
  · rw [imageOf, if_pos rfl, decode_empty]
    refine ⟨fun _ _ => rfl, fun x r' _ => ⟨trivial, ?_⟩⟩
    rintro ⟨c, hc, -⟩
    cases hc
  · have hne : s ≠ ItemStack.empty := by
      rintro rfl; exact absurd hw.countPos (by decide)
    obtain ⟨hok, hback⟩ := decodeComponents_spec s.components hw.framed r
    rw [imageOf, if_neg hne, hw.decode]
    refine ⟨fun hfit hr => ?_, fun x r' hx => ?_⟩
    · rw [hok hfit hr]; rfl
    · obtain ⟨⟨cs, r''⟩, h₁, h₂⟩ := bind_ok hx
      cases h₂
      exact hback cs _ h₁

theorem decode_nil (x : ItemStack × Bytes) : ItemStack.decode [] ≠ .ok x := by
  intro h
  obtain ⟨⟨v, b⟩, h₁, -⟩ := bind_ok h
  cases h₁

/-! ## The slots of a window -/

def slotsImage (slots : List ItemStack) : Bytes := slots.flatMap imageOf

/-- Every custom name of every slot is within the size cap of the end of the body, which
goes on for `after` more bytes behind the slots. -/
def SlotsFit : List ItemStack → Nat → Prop
  | [], _ => True
  | s :: slots, after => NamesFit s.components ((slotsImage slots).length + after) ∧
      SlotsFit slots after

theorem encodeSlots_received : ∀ {slots : List ItemStack}, (∀ s ∈ slots, Received s) →
    encodeSlots slots = .ok (slotsImage slots)
  | [], _ => rfl
  | s :: slots, h => by
    rw [encodeSlots, (h s (by simp)).encode,
      encodeSlots_received fun t ht => h t (by simp [ht]), joined_ok]
    rfl

/-- The slot loop on received slots in front of `r`: the slots and `r` when no slot holds an
unmodelled component and the names fit; otherwise an error, or nothing left to read. -/
theorem decodeSlots_spec : ∀ (slots : List ItemStack), (∀ s ∈ slots, Received s) → ∀ r : Bytes,
    ((∀ s ∈ slots, ¬HasUnmodelled s.components) → SlotsFit slots r.length →
      many ItemStack.decode slots.length (slotsImage slots ++ r) = .ok (slots, r)) ∧
    (∀ x r', many ItemStack.decode slots.length (slotsImage slots ++ r) = .ok (x, r') →
      ((∀ s ∈ slots, ¬HasUnmodelled s.components) ∧ SlotsFit slots r.length) ∨ r' = [])
  | [], _, r => ⟨fun _ _ => rfl, fun _ _ _ => .inl ⟨by simp, trivial⟩⟩
  | s :: slots, h, r => by
    obtain ⟨ihok, ihback⟩ := decodeSlots_spec slots (fun t ht => h t (by simp [ht])) r
    obtain ⟨hok, hback⟩ := (h s (by simp)).decode_spec (slotsImage slots ++ r)
    have himage : slotsImage (s :: slots) ++ r = imageOf s ++ (slotsImage slots ++ r) := by
      simp [slotsImage]
    rw [himage, List.length_cons, many]
    simp only [List.length_append] at hok hback
    refine ⟨fun hun hfit => ?_, fun x r' hx => ?_⟩
    · rw [hok hfit.1 fun hu => absurd hu (hun s (by simp))]
      simp only [bind, Except.bind]
      rw [ihok (fun t ht => hun t (by simp [ht])) hfit.2]
      rfl
    · obtain ⟨⟨s', b⟩, h₁, h₂⟩ := bind_ok hx
      obtain ⟨⟨ss, b'⟩, h₃, h₄⟩ := bind_ok h₂
      cases h₄
      obtain ⟨hfit, hend⟩ := hback s' b h₁
      by_cases hu : HasUnmodelled s.components
      · -- the unmodelled payload took the rest: the next stack, if any, has no bytes
        obtain rfl := hend hu
        right
        cases slots with
        | nil => cases h₃; rfl
        | cons t slots =>
          obtain ⟨⟨t', b''⟩, h₅, -⟩ := bind_ok h₃
          exact absurd h₅ (decode_nil _)
      · rw [hok hfit fun h => absurd h hu] at h₁
        cases h₁
        rcases ihback ss _ h₃ with ⟨hun, hfits⟩ | hnil
        · left
          refine ⟨fun t ht => ?_, hfit, hfits⟩
          rcases List.mem_cons.mp ht with rfl | ht
          · exact hu
          · exact hun t ht
        · exact .inr hnil

/-! ## The two packets -/

def ContainerSetSlot.RoundTrips (p : ContainerSetSlot) : Prop :=
  ∀ b, p.encode = .ok b → ContainerSetSlot.decode b = .ok p

def ContainerSetContent.RoundTrips (p : ContainerSetContent) : Prop :=
  ∀ b, p.encode = .ok b → ContainerSetContent.decode b = .ok p

theorem NamesFit.zero {s : ItemStack} (h : Received s) : NamesFit s.components 0 := by
  rcases h.empty_or_wellFormed with rfl | hw
  · trivial
  · exact hw.fits

/-- A received stack at the end of a body is read back whole. -/
theorem Received.decode_last {s : ItemStack} (h : Received s) :
    ItemStack.decode (imageOf s) = .ok (s, []) := by
  have := (h.decode_spec []).1 (NamesFit.zero h) fun _ => rfl
  rwa [List.append_nil] at this

theorem setSlot_round_trips (p : ContainerSetSlot) (h : Received p.item) : p.RoundTrips := by
  intro b hb
  unfold ContainerSetSlot.encode at hb
  rw [h.encode] at hb
  cases hb
  unfold ContainerSetSlot.decode
  simp only [List.append_assoc]
  rw [reads_readVarint]
  simp only [bind, Except.bind]
  rw [reads_readVarint]
  simp only
  rw [reads_readI16]
  simp only
  rw [h.decode_last]
  rfl

/-- Decoding an encoded `ContainerSetContent` comes down to its slots and its carried stack. -/
theorem setContent_decode (p : ContainerSetContent) (hs : ∀ s ∈ p.slots, Received s)
    (hc : Received p.carried) (hn : p.slots.length ≤ MAX_CONTAINER_SLOTS) :
    ∃ b, p.encode = .ok b ∧ ContainerSetContent.decode b =
      (many ItemStack.decode p.slots.length (slotsImage p.slots ++ imageOf p.carried) >>= fun x =>
        ItemStack.decode x.2 >>= fun y =>
          if y.2.isEmpty then .ok ⟨p.windowId, p.stateId, x.1, y.1⟩
          else .error (trailing "container_set_content" y.2)) := by
  have hlt : p.slots.length < 2 ^ 31 := Nat.lt_of_le_of_lt hn (by decide)
  refine ⟨writeVarint p.windowId ++ writeVarint p.stateId ++
    writeVarint (BitVec.ofNat 32 p.slots.length) ++ slotsImage p.slots ++ imageOf p.carried, ?_, ?_⟩
  · unfold ContainerSetContent.encode packedLen
    rw [if_pos hlt, encodeSlots_received hs, hc.encode]
    rfl
  · unfold ContainerSetContent.decode
    simp only [List.append_assoc]
    rw [reads_readVarint]
    simp only [bind, Except.bind]
    rw [reads_readVarint]
    simp only
    rw [readCount_write _ hn (by decide)]
    rfl

theorem setContent_round_trips_iff (p : ContainerSetContent) (hs : ∀ s ∈ p.slots, Received s)
    (hc : Received p.carried) (hn : p.slots.length ≤ MAX_CONTAINER_SLOTS) :
    p.RoundTrips ↔ (∀ s ∈ p.slots, ¬HasUnmodelled s.components) ∧
      SlotsFit p.slots (imageOf p.carried).length := by
  obtain ⟨b, hb, hdec⟩ := setContent_decode p hs hc hn
  obtain ⟨hok, hback⟩ := decodeSlots_spec p.slots hs (imageOf p.carried)
  constructor
  · intro h
    rw [h b hb] at hdec
    obtain ⟨⟨x, r⟩, h₁, h₂⟩ := bind_ok hdec.symm
    rcases hback x r h₁ with hgood | rfl
    · exact hgood
    · obtain ⟨y, h₃, -⟩ := bind_ok h₂
      exact absurd h₃ (decode_nil y)
  · rintro ⟨hun, hfit⟩ b' hb'
    obtain rfl := Except.ok.inj (hb.symm.trans hb')
    rw [hdec, hok hun hfit]
    simp only [bind, Except.bind, hc.decode_last]
    rfl

/-- Packets of received stacks: one slot always round trips, a whole window exactly when no
slot (the carried stack apart) holds an unmodelled component and the custom names fit. -/
theorem container_packets_round_trip_iff (p : ContainerSetContent) (q : ContainerSetSlot)
    (hs : ∀ s ∈ p.slots, Received s) (hc : Received p.carried)
    (hn : p.slots.length ≤ MAX_CONTAINER_SLOTS) (hq : Received q.item) :
    (p.RoundTrips ↔ (∀ s ∈ p.slots, ¬HasUnmodelled s.components) ∧
      SlotsFit p.slots (imageOf p.carried).length) ∧ q.RoundTrips :=
  ⟨setContent_round_trips_iff p hs hc hn, setSlot_round_trips q hq⟩

/-- One apple-sized stack, as a client sends it. -/
def plainStack : ItemStack := ⟨1, 1, []⟩

theorem plainStack_received : Received plainStack := ⟨[1, 1, 0, 0], [], rfl⟩

theorem container_packets_round_trip_plain :
    (⟨0, 0, [plainStack], ItemStack.empty⟩ : ContainerSetContent).RoundTrips ∧
      (⟨0, 0, 5, plainStack⟩ : ContainerSetSlot).RoundTrips := by
  have hempty : Received ItemStack.empty := ⟨[0], [], rfl⟩
  have h := container_packets_round_trip_iff ⟨0, 0, [plainStack], ItemStack.empty⟩
    ⟨0, 0, 5, plainStack⟩ (by simpa using plainStack_received) hempty (by decide)
    plainStack_received
  refine ⟨h.1.mpr ⟨?_, ?_⟩, h.2⟩
  · simp [plainStack, HasUnmodelled]
  · exact ⟨trivial, trivial⟩

/-- A stack whose only component is of the unmodelled type 5. -/
def unmodelledStack : ItemStack := ⟨1, 1, [(5, [0])]⟩

/-- A window whose one slot holds an unmodelled component is not read back: the component
takes the carried stack's bytes. -/
theorem unmodelled_slot_not_read_back :
    Received unmodelledStack ∧ Received ItemStack.empty ∧
      ¬(⟨0, 0, [unmodelledStack], ItemStack.empty⟩ : ContainerSetContent).RoundTrips := by
  refine ⟨⟨[1, 1, 1, 0, 5, 0], [], rfl⟩, ⟨[0], [], rfl⟩, fun h => ?_⟩
  have := h [0, 0, 1, 1, 1, 1, 0, 5, 0, 0] rfl
  cases this

end Apoptosis.L1.Inventory
