import Apoptosis.L1Encoding.ModifiedUtf8
import Apoptosis.L1Encoding.NbtTag
/-!
# The NBT writer (`nbt/src/write.rs`)

`writePayload` appends to a buffer that survives an error; the two entry
points truncate it back when the payload is refused. `encodePayload` is the
same traversal with no buffer, and `Encodable` says on the tree alone when it
succeeds.

Results:
* `puts_writePayload`: the in-place writer appends exactly `encodePayload`.
* `encodePayload_isOk_iff`: a tree is refused exactly when some string is over
  65535 encoded bytes, some list mixes element types, or some collection is
  longer than an `i32`.
* `writeNamed_spec`, `writeUnnamed_spec`: all or nothing on the buffer.
-/
namespace Apoptosis.L1.Nbt
open Apoptosis.Core.Codec Apoptosis.L1.ModifiedUtf8

/-! ## The writer -/

/-- `items.first().map_or(tag::END, NbtTag::tag_id)` -/
def elementId : List NbtTag → UInt8
  | [] => tag.END
  | item :: _ => item.tagId

/-- `items.iter().position(|item| item.tag_id() != element_id)`, with the item -/
def mixedAt (id : UInt8) (items : List NbtTag) : Option (Nat × NbtTag) :=
  (items.zipIdx.find? fun p => p.1.tagId != id).map fun p => (p.2, p.1)

def mixedList (id : UInt8) (bad : Nat × NbtTag) : ServerError :=
  .invariant
    s!"NBT list mixes {tag.name id} at index 0 with {tag.name bad.2.tagId} at index {bad.1}"

def overI32 (len : Nat) (what : String) : ServerError :=
  .operational s!"NBT {what} of {len} entries exceeds the i32 length field"

/-- mirrors crates/nbt/src/write.rs:109-117 (`write_len`) -/
def writeLen (len : Nat) (what : String) : Put ServerError Unit :=
  if len < 2 ^ 31 then emit (toBe 4 len) else throw (overI32 len what)

def intBytes (values : List (BitVec 32)) : Bytes := values.flatMap fun v => toBe 4 v.toNat

def longBytes (values : List (BitVec 64)) : Bytes := values.flatMap fun v => toBe 8 v.toNat

mutual
/-- mirrors crates/nbt/src/write.rs:56-117 (`write_payload`) -/
def writePayload : NbtTag → Put ServerError Unit
  | .byte v => emit (toBe 1 v.toNat)
  | .short v => emit (toBe 2 v.toNat)
  | .int v => emit (toBe 4 v.toNat)
  | .long v => emit (toBe 8 v.toNat)
  | .float v => emit (toBe 4 v.toNat)
  | .double v => emit (toBe 8 v.toNat)
  | .byteArray bytes => do
    writeLen bytes.length "byte array"
    emit bytes
  | .string value => writeModifiedUtf8 value
  | .list items =>
    match mixedAt (elementId items) items with
    | some bad => throw (mixedList (elementId items) bad)
    | none => do
      emit [elementId items]
      writeLen items.length "list"
      writeItems items
  | .compound entries => do
    writeEntries entries
    emit [tag.END]
  | .intArray values => do
    writeLen values.length "int array"
    emit (intBytes values)
  | .longArray values => do
    writeLen values.length "long array"
    emit (longBytes values)

def writeItems : List NbtTag → Put ServerError Unit
  | [] => pure ()
  | item :: items => do
    writePayload item
    writeItems items

def writeEntries : List (String × NbtTag) → Put ServerError Unit
  | [] => pure ()
  | (name, value) :: entries => do
    emit [value.tagId]
    writeModifiedUtf8 name
    writePayload value
    writeEntries entries
end

/-- mirrors crates/nbt/src/write.rs:25-33 (`write_named`) -/
def writeNamed (name : String) (t : NbtTag) : Put ServerError Unit := restoring do
  emit [t.tagId]
  writeModifiedUtf8 name
  writePayload t

/-- mirrors crates/nbt/src/write.rs:41-49 (`write_unnamed`) -/
def writeUnnamed (t : NbtTag) : Put ServerError Unit := restoring do
  emit [t.tagId]
  writePayload t

/-! ## The same traversal without a buffer -/

def encodeLen (len : Nat) (what : String) : ServerResult Bytes :=
  if len < 2 ^ 31 then .ok (toBe 4 len) else .error (overI32 len what)

mutual
def encodePayload : NbtTag → ServerResult Bytes
  | .byte v => .ok (toBe 1 v.toNat)
  | .short v => .ok (toBe 2 v.toNat)
  | .int v => .ok (toBe 4 v.toNat)
  | .long v => .ok (toBe 8 v.toNat)
  | .float v => .ok (toBe 4 v.toNat)
  | .double v => .ok (toBe 8 v.toNat)
  | .byteArray bytes => joined (encodeLen bytes.length "byte array") (.ok bytes)
  | .string value => encodeModifiedUtf8 value
  | .list items =>
    match mixedAt (elementId items) items with
    | some bad => .error (mixedList (elementId items) bad)
    | none =>
      joined (.ok [elementId items]) (joined (encodeLen items.length "list") (encodeItems items))
  | .compound entries => joined (encodeEntries entries) (.ok [tag.END])
  | .intArray values => joined (encodeLen values.length "int array") (.ok (intBytes values))
  | .longArray values => joined (encodeLen values.length "long array") (.ok (longBytes values))

def encodeItems : List NbtTag → ServerResult Bytes
  | [] => .ok []
  | item :: items => joined (encodePayload item) (encodeItems items)

def encodeEntries : List (String × NbtTag) → ServerResult Bytes
  | [] => .ok []
  | (name, value) :: entries =>
    joined (.ok [value.tagId])
      (joined (encodeModifiedUtf8 name) (joined (encodePayload value) (encodeEntries entries)))
end

theorem puts_writeLen (len : Nat) (what : String) :
    Puts (writeLen len what) (encodeLen len what) := by
  unfold writeLen encodeLen
  split
  · exact puts_emit _
  · exact puts_throw _

mutual
theorem puts_writePayload : ∀ t, Puts (writePayload t) (encodePayload t)
  | .byte _ | .short _ | .int _ | .long _ | .float _ | .double _ => puts_emit _
  | .byteArray bytes => (puts_writeLen _ _).bind fun _ _ => puts_emit bytes
  | .string value => puts_writeModifiedUtf8 value
  | .list items => by
    rw [writePayload, encodePayload]
    split
    · exact puts_throw _
    · exact (puts_emit _).bind fun _ _ =>
        (puts_writeLen _ _).bind fun _ _ => puts_writeItems items
  | .compound entries => (puts_writeEntries entries).bind fun _ _ => puts_emit _
  | .intArray values => (puts_writeLen _ _).bind fun _ _ => puts_emit (intBytes values)
  | .longArray values => (puts_writeLen _ _).bind fun _ _ => puts_emit (longBytes values)

theorem puts_writeItems : ∀ items, Puts (writeItems items) (encodeItems items)
  | [] => puts_pure
  | item :: items => (puts_writePayload item).bind fun _ _ => puts_writeItems items

theorem puts_writeEntries : ∀ entries, Puts (writeEntries entries) (encodeEntries entries)
  | [] => puts_pure
  | (name, value) :: entries => (puts_emit _).bind fun _ _ =>
      (puts_writeModifiedUtf8 name).bind fun _ _ =>
        (puts_writePayload value).bind fun _ _ => puts_writeEntries entries
end

theorem writeNamed_spec (name : String) (t : NbtTag) (out : Bytes) :
    writeNamed name t out =
      landed out (joined (.ok [t.tagId]) (joined (encodeModifiedUtf8 name) (encodePayload t))) :=
  Puts.restoring ((puts_emit _).bind fun _ _ =>
    (puts_writeModifiedUtf8 name).bind fun _ _ => puts_writePayload t) out

theorem writeUnnamed_spec (t : NbtTag) (out : Bytes) :
    writeUnnamed t out = landed out (joined (.ok [t.tagId]) (encodePayload t)) :=
  Puts.restoring ((puts_emit _).bind fun _ _ => puts_writePayload t) out

/-! ## Which trees are refused -/

mutual
/-- The trees the format can express: strings up to 65535 encoded bytes, lists of one
element type, collections that an `i32` can count. -/
def encodable : NbtTag → Bool
  | .byte _ | .short _ | .int _ | .long _ | .float _ | .double _ => true
  | .byteArray bytes => bytes.length < 2 ^ 31
  | .string value => encodableStr value
  | .list items =>
    items.all (·.tagId == elementId items) && decide (items.length < 2 ^ 31) && encodableItems items
  | .compound entries => encodableEntries entries
  | .intArray values => values.length < 2 ^ 31
  | .longArray values => values.length < 2 ^ 31

def encodableItems : List NbtTag → Bool
  | [] => true
  | item :: items => encodable item && encodableItems items

def encodableEntries : List (String × NbtTag) → Bool
  | [] => true
  | (name, value) :: entries => encodableStr name && encodable value && encodableEntries entries
end

theorem encodeLen_isOk_iff (len : Nat) (what : String) :
    (∃ b, encodeLen len what = .ok b) ↔ len < 2 ^ 31 := by
  unfold encodeLen
  split <;> simp only [*, reduceCtorEq, exists_false, Except.ok.injEq, exists_eq']

theorem joined_isOk_iff {r r' : ServerResult Bytes} :
    (∃ b, joined r r' = .ok b) ↔ (∃ b, r = .ok b) ∧ ∃ b, r' = .ok b := by
  simp only [joined_eq_ok]
  constructor
  · rintro ⟨_, b₁, b₂, h₁, h₂, -⟩
    exact ⟨⟨b₁, h₁⟩, b₂, h₂⟩
  · rintro ⟨⟨b₁, h₁⟩, b₂, h₂⟩
    exact ⟨_, b₁, b₂, h₁, h₂, rfl⟩

theorem mixedAt_eq_none_iff (id : UInt8) (items : List NbtTag) :
    mixedAt id items = none ↔ items.all (·.tagId == id) := by
  unfold mixedAt
  rw [Option.map_eq_none_iff, List.find?_eq_none, List.all_eq_true]
  constructor
  · intro h item hi
    obtain ⟨i, hlt, rfl⟩ := List.mem_iff_getElem.mp hi
    have := h (items[i], i) (List.mk_mem_zipIdx_iff_getElem?.mpr (by simp [hlt]))
    simpa using this
  · rintro h ⟨item, i⟩ hp
    simpa using h item (List.fst_mem_of_mem_zipIdx hp)

mutual
/-- The writer refuses a tree exactly when the format cannot express it. -/
theorem encodePayload_isOk_iff : ∀ t, (∃ b, encodePayload t = .ok b) ↔ encodable t
  | .byte _ | .short _ | .int _ | .long _ | .float _ | .double _ => by
    simp [encodePayload, encodable]
  | .byteArray bytes => by
    rw [encodePayload, encodable, joined_isOk_iff, encodeLen_isOk_iff]; simp
  | .string value => encodeModifiedUtf8_isOk_iff value
  | .list items => by
    have ih := encodeItems_isOk_iff items
    rw [encodePayload, encodable, Bool.and_eq_true, Bool.and_eq_true, ← mixedAt_eq_none_iff]
    cases mixedAt (elementId items) items with
    | some bad => simp
    | none => simp only [joined_isOk_iff, encodeLen_isOk_iff, ih]; simp
  | .compound entries => by
    rw [encodePayload, encodable, joined_isOk_iff, encodeEntries_isOk_iff entries]; simp
  | .intArray values => by
    rw [encodePayload, encodable, joined_isOk_iff, encodeLen_isOk_iff]; simp
  | .longArray values => by
    rw [encodePayload, encodable, joined_isOk_iff, encodeLen_isOk_iff]; simp

theorem encodeItems_isOk_iff : ∀ items, (∃ b, encodeItems items = .ok b) ↔ encodableItems items
  | [] => by simp [encodeItems, encodableItems]
  | item :: items => by
    rw [encodeItems, encodableItems, joined_isOk_iff, encodePayload_isOk_iff item,
      encodeItems_isOk_iff items, Bool.and_eq_true]

theorem encodeEntries_isOk_iff :
    ∀ entries, (∃ b, encodeEntries entries = .ok b) ↔ encodableEntries entries
  | [] => by simp [encodeEntries, encodableEntries]
  | (name, value) :: entries => by
    rw [encodeEntries, encodableEntries, joined_isOk_iff, joined_isOk_iff, joined_isOk_iff,
      encodeModifiedUtf8_isOk_iff, encodePayload_isOk_iff value, encodeEntries_isOk_iff entries]
    simp [and_assoc]
end

end Apoptosis.L1.Nbt
