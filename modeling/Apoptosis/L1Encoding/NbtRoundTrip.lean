import Apoptosis.L1Encoding.NbtRead
import Apoptosis.L1Encoding.NbtWrite
/-!
# NBT: reader after writer

The writer counts a string in a `u16`; the reader's `Cursor::string` reads the
same two bytes as an `i16`. So a string of 32768..65535 encoded bytes, which
the writer accepts, is read back as a negative length.

`longString t` is the encoded length of the first such string of a tree, in
the order the bytes are read. `readPayload_encodePayload` says exactly what
the reader makes of the writer's bytes: the tree itself when there is no such
string, and the error for that length when there is one, provided the tree is
within the reader's budgets (`nesting` and `tagCount`).

Results:
* `readPayload_encodePayload`: the reader on the writer's bytes, for every
  tree, by mutual induction on trees, element lists and entry lists.
* `write_read_round_trips_iff`: a tree round trips through both entry points
  exactly when it is refused, or no string in it is over 32767 encoded bytes.
-/
namespace Apoptosis.L1.Nbt
open Apoptosis.Core.Codec Apoptosis.L1.ModifiedUtf8
open TagReader

/-! ## What a tree costs the reader -/

mutual
/-- Levels of list and compound nesting. -/
def nesting : NbtTag → Nat
  | .list items => nestingItems items + 1
  | .compound entries => nestingEntries entries + 1
  | _ => 0

def nestingItems : List NbtTag → Nat
  | [] => 0
  | item :: items => max (nesting item) (nestingItems items)

def nestingEntries : List (String × NbtTag) → Nat
  | [] => 0
  | (_, value) :: entries => max (nesting value) (nestingEntries entries)
end

mutual
/-- Tags the reader creates. -/
def tagCount : NbtTag → Nat
  | .list items => 1 + tagCountItems items
  | .compound entries => 1 + tagCountEntries entries
  | _ => 1

def tagCountItems : List NbtTag → Nat
  | [] => 0
  | item :: items => tagCount item + tagCountItems items

def tagCountEntries : List (String × NbtTag) → Nat
  | [] => 0
  | (_, value) :: entries => tagCount value + tagCountEntries entries
end

/-- The encoded length of `value` when an `i16` cannot hold it. -/
def overI16 (value : String) : Option Nat :=
  let len := (encodeBody value).length
  if len ≤ 32767 then none else some len

mutual
/-- The encoded length of the first string an `i16` cannot count. -/
def longString : NbtTag → Option Nat
  | .string value => overI16 value
  | .list items => longItems items
  | .compound entries => longEntries entries
  | _ => none

def longItems : List NbtTag → Option Nat
  | [] => none
  | item :: items => (longString item).or (longItems items)

def longEntries : List (String × NbtTag) → Option Nat
  | [] => none
  | (name, value) :: entries => (overI16 name).or ((longString value).or (longEntries entries))
end

/-- The outcome of reading something whose first long string is `long`. -/
def readBack {α : Type} (long : Option Nat) (a : α) : ServerResult α :=
  match long with
  | none => .ok a
  | some len => .error (negativeLen "string" ((len : Int) - 65536))

theorem readBack_bind {α β : Type} (o o' : Option Nat) (a : α) (c : β) (f : α → ServerResult β)
    (h : o = none → f a = readBack o' c) : (readBack o a >>= f) = readBack (o.or o') c := by
  cases o with
  | none => exact h rfl
  | some len => rfl

/-! ## The cursor on the writer's bytes -/

theorem be_toBe {k w : Nat} (h : 2 ^ w ≤ 256 ^ k) (v : BitVec w) (rest : Bytes) (lim : Limits)
    (e : Nat) : be k w ⟨toBe k v.toNat ++ rest, lim, e⟩ = .ok (v, ⟨rest, lim, e⟩) := by
  have hv : v.toNat < 256 ^ k := Nat.lt_of_lt_of_le v.isLt h
  unfold be
  rw [take_of_length (toBe_length k _)]
  simp only [bind, Except.bind, ofBe_toBe k _ hv, BitVec.ofNat_toNat, BitVec.setWidth_eq]
  rfl

theorem i16_toBe (len : Nat) (h : len < 65536) (rest : Bytes) (lim : Limits) (e : Nat) :
    i16 ⟨toBe 2 len ++ rest, lim, e⟩ = .ok (BitVec.ofNat 16 len, ⟨rest, lim, e⟩) := by
  have hlen : (BitVec.ofNat 16 len).toNat = len := by rw [BitVec.toNat_ofNat]; omega
  have := be_toBe (k := 2) (w := 16) (by decide) (BitVec.ofNat 16 len) rest lim e
  rwa [hlen] at this

theorem toInt_ofNat16 (len : Nat) (h : len < 65536) :
    (BitVec.ofNat 16 len).toInt = if len ≤ 32767 then (len : Int) else (len : Int) - 65536 := by
  rw [BitVec.toInt_eq_toNat_cond, BitVec.toNat_ofNat]
  split <;> split <;> omega

/-- The reader's string after the writer's: the value, or the negative length. -/
theorem string_encode {value : String} {b : Bytes} (h : encodeModifiedUtf8 value = .ok b)
    (rest : Bytes) (lim : Limits) (e : Nat) :
    string ⟨b ++ rest, lim, e⟩ = readBack (overI16 value) (value, ⟨rest, lim, e⟩) := by
  have henc := (encodeModifiedUtf8_isOk_iff value).mp ⟨b, h⟩
  have hb : b = toBe 2 (encodeBody value).length ++ encodeBody value := by
    rw [encodeModifiedUtf8_of_encodable henc] at h
    exact (Except.ok.inj h).symm
  have hlen : (encodeBody value).length < 65536 := by
    have : (encodeBody value).length ≤ 65535 := of_decide_eq_true henc
    omega
  have hint := toInt_ofNat16 _ hlen
  have hnat : (BitVec.ofNat 16 (encodeBody value).length).toNat = (encodeBody value).length := by
    rw [BitVec.toNat_ofNat]; omega
  subst hb
  unfold string overI16
  rw [List.append_assoc, i16_toBe _ hlen]
  simp only [bind, Except.bind, hint, hnat]
  by_cases hs : (encodeBody value).length ≤ 32767
  · rw [if_pos hs, if_neg (by omega), take_of_length rfl]
    simp only [decode_encodeBody, if_pos hs]
    rfl
  · rw [if_neg hs, if_pos (by omega)]
    simp only [if_neg hs, readBack]

theorem boundedLen_encodeLen {len : Nat} {what : String} {b : Bytes}
    (h : encodeLen len what = .ok b) (what' : String) (rest : Bytes) (hrest : len ≤ rest.length)
    (lim : Limits) (e : Nat) :
    boundedLen what' ⟨b ++ rest, lim, e⟩ = .ok (len, ⟨rest, lim, e⟩) := by
  have hlt := (encodeLen_isOk_iff len what).mp ⟨b, h⟩
  have hb : b = toBe 4 len := by
    rw [encodeLen, if_pos hlt] at h
    exact (Except.ok.inj h).symm
  have hnat : (BitVec.ofNat 32 len).toNat = len := by rw [BitVec.toNat_ofNat]; omega
  have hint : (BitVec.ofNat 32 len).toInt = len := by
    rw [BitVec.toInt_eq_toNat_cond, hnat, if_pos (by omega)]
  have hread := be_toBe (k := 4) (w := 32) (by decide) (BitVec.ofNat 32 len) rest lim e
  rw [hnat, ← hb] at hread
  unfold boundedLen i32
  rw [hread]
  simp only [bind, Except.bind, hint, hnat]
  rw [if_neg (by omega), if_neg (by omega)]
  rfl

theorem budget_ok (rest : Bytes) (lim : Limits) (e : Nat) (h : e + 1 ≤ lim.maxElements) :
    budget ⟨rest, lim, e⟩ = .ok ⟨rest, lim, e + 1⟩ := by
  have : ¬e + 1 > lim.maxElements := by omega
  simp only [budget, if_neg this]

/-! ## Lengths of the writer's bytes -/

theorem flatMap_toBe_length {w : Nat} (k : Nat) (values : List (BitVec w)) :
    (values.flatMap fun v => toBe k v.toNat).length = values.length * k := by
  induction values with
  | nil => simp
  | cons v values ih => simp [ih]; ring

theorem encodeLen_length {len : Nat} {what : String} {b : Bytes} (h : encodeLen len what = .ok b) :
    b.length = 4 := by
  have hlt := (encodeLen_isOk_iff len what).mp ⟨b, h⟩
  rw [encodeLen, if_pos hlt] at h
  rw [← Except.ok.inj h, toBe_length]

/-- Every payload takes a byte, so a list's count fits in what follows it. -/
theorem encodePayload_length_pos (t : NbtTag) {b : Bytes} (h : encodePayload t = .ok b) :
    0 < b.length := by
  cases t with
  | byte v | short v | int v | long v | float v | double v =>
    rw [← Except.ok.inj h, toBe_length]; decide
  | string value =>
    have henc := (encodeModifiedUtf8_isOk_iff value).mp ⟨b, h⟩
    rw [encodePayload, encodeModifiedUtf8_of_encodable henc] at h
    rw [← Except.ok.inj h]; simp
  | byteArray bytes | intArray values | longArray values =>
    obtain ⟨b₁, b₂, h₁, -, rfl⟩ := joined_eq_ok.mp h
    have := encodeLen_length h₁
    rw [List.length_append]; omega
  | list items =>
    rw [encodePayload] at h
    split at h
    · cases h
    · obtain ⟨b₁, b₂, h₁, -, rfl⟩ := joined_eq_ok.mp h
      rw [← Except.ok.inj h₁]; simp
  | compound entries =>
    obtain ⟨b₁, b₂, -, h₂, rfl⟩ := joined_eq_ok.mp h
    rw [← Except.ok.inj h₂]; simp

theorem encodeItems_length : ∀ (items : List NbtTag) {b : Bytes}, encodeItems items = .ok b →
    items.length ≤ b.length
  | [], _, _ => Nat.zero_le _
  | item :: items, b, h => by
    obtain ⟨b₁, b₂, h₁, h₂, rfl⟩ := joined_eq_ok.mp h
    have := encodePayload_length_pos item h₁
    have := encodeItems_length items h₂
    rw [List.length_append, List.length_cons]; omega

theorem encodeEntries_length : ∀ (entries : List (String × NbtTag)) {b : Bytes},
    encodeEntries entries = .ok b → entries.length ≤ b.length
  | [], _, _ => Nat.zero_le _
  | (name, value) :: entries, b, h => by
    obtain ⟨b₁, b', h₁, h', rfl⟩ := joined_eq_ok.mp h
    obtain ⟨b₂, b'', -, h'', rfl⟩ := joined_eq_ok.mp h'
    obtain ⟨b₃, b₄, -, h₄, rfl⟩ := joined_eq_ok.mp h''
    have := encodeEntries_length entries h₄
    rw [← Except.ok.inj h₁]
    simp only [List.length_append, List.length_cons, List.length_nil]; omega

/-! ## Arrays -/

theorem readMany_flatMap {w : Nat} (read : Read (BitVec w)) (k : Nat)
    (hread : ∀ v rest lim e, read ⟨toBe k v.toNat ++ rest, lim, e⟩ = .ok (v, ⟨rest, lim, e⟩))
    (rest : Bytes) (lim : Limits) (e : Nat) : ∀ values : List (BitVec w),
    readMany read values.length ⟨(values.flatMap fun v => toBe k v.toNat) ++ rest, lim, e⟩ =
      .ok (values, ⟨rest, lim, e⟩)
  | [] => rfl
  | v :: values => by
    have ih := readMany_flatMap read k hread rest lim e values
    rw [List.flatMap_cons, List.append_assoc, List.length_cons, readMany, hread]
    simp only [bind, Except.bind, ih]
    rfl

theorem readArray_encode {w : Nat} (read : Read (BitVec w)) (k : Nat) (hk : 0 < k)
    (hread : ∀ v rest lim e, read ⟨toBe k v.toNat ++ rest, lim, e⟩ = .ok (v, ⟨rest, lim, e⟩))
    (values : List (BitVec w)) (what : String) {b : Bytes}
    (h : encodeLen values.length what = .ok b) (rest : Bytes) (lim : Limits) (e : Nat) :
    readArray what k read ⟨b ++ ((values.flatMap fun v => toBe k v.toNat) ++ rest), lim, e⟩ =
      .ok (values, ⟨rest, lim, e⟩) := by
  have hlen : ((values.flatMap fun v => toBe k v.toNat) ++ rest).length =
      values.length * k + rest.length := by rw [List.length_append, flatMap_toBe_length]
  have hfit : values.length ≤ values.length * k := Nat.le_mul_of_pos_right _ hk
  have hdiv : values.length ≤ (values.length * k + rest.length) / k :=
    (Nat.le_div_iff_mul_le hk).mpr (Nat.le_add_right _ _)
  unfold readArray
  rw [boundedLen_encodeLen h what _ (by omega)]
  simp only [bind, Except.bind, hlen]
  rw [if_neg (by omega), readMany_flatMap read k hread]

/-! ## The arms of the reader -/

theorem readPayload_string (levels : Nat) (r : TagReader) :
    readPayload levels tag.STRING r = (do
      let r ← r.budget
      let (value, r) ← r.string
      return (.string value, r)) := by
  cases levels <;> rfl

theorem readPayload_list (levels : Nat) (r : TagReader) :
    readPayload (levels + 1) tag.LIST r = (do
      let r ← r.budget
      let (elementId, r) ← r.u8
      let (count, r) ← r.boundedLen "list"
      if elementId = tag.END ∧ count > 0 then
        .error (.protocol s!"NBT list declares {count} elements of TAG_End")
      else if elementId > tag.LONG_ARRAY then
        .error (.protocol s!"unknown NBT tag id {elementId} in list header")
      else
        let (items, r) ← readMany (readPayload levels elementId) count r
        return (.list items, r)) := rfl

theorem readPayload_compound (levels : Nat) (r : TagReader) :
    readPayload (levels + 1) tag.COMPOUND r = (do
      let r ← r.budget
      let (entries, r) ← readEntries (readPayload levels) r.rest.length r
      return (.compound entries, r)) := rfl

/-- The six number arms: a fixed width, then the constructor. -/
theorem readPayload_number {w : Nat} (levels : Nat) (t : NbtTag) (k : Nat) (mk : BitVec w → NbtTag)
    (v : BitVec w) (hw : 2 ^ w ≤ 256 ^ k)
    (harm : ∀ r : TagReader, readPayload levels t.tagId r = (do
      let r ← r.budget
      let (v, r) ← be k w r
      return (mk v, r)))
    (rest : Bytes) (lim : Limits) (e : Nat) (he : e + 1 ≤ lim.maxElements) :
    readPayload levels t.tagId ⟨toBe k v.toNat ++ rest, lim, e⟩ =
      .ok (mk v, ⟨rest, lim, e + 1⟩) := by
  rw [harm, budget_ok _ _ _ he]
  simp only [bind, Except.bind, be_toBe hw]
  rfl

theorem readPayload_byte (levels : Nat) (v : BitVec 8) (rest : Bytes) (lim : Limits) (e : Nat)
    (he : e + 1 ≤ lim.maxElements) :
    readPayload levels tag.BYTE ⟨toBe 1 v.toNat ++ rest, lim, e⟩ =
      .ok (.byte v, ⟨rest, lim, e + 1⟩) := by
  have harm : ∀ r : TagReader, readPayload levels tag.BYTE r = (do
      let r ← r.budget
      let (v, r) ← r.u8
      return (.byte v.toBitVec, r)) := fun r => by cases levels <;> rfl
  have hv : (UInt8.ofNat (v.toNat % 256)).toBitVec = v := by
    have := v.isLt
    rw [UInt8.toBitVec_ofNat', Nat.mod_eq_of_lt (by omega), BitVec.ofNat_toNat,
      BitVec.setWidth_eq]
  rw [harm, budget_ok _ _ _ he]
  simp only [bind, Except.bind, toBe, List.nil_append, List.singleton_append, u8, hv]
  rfl

theorem readMany_cons {α : Type} (read : Read α) (n : Nat) (r : TagReader) :
    readMany read (n + 1) r = (read r >>= fun p => readMany read n p.2 >>= fun q =>
      pure (p.1 :: q.1, q.2)) := rfl

theorem readEntries_cons (read : UInt8 → Read NbtTag) (turns : Nat) (id : UInt8) (rest : Bytes)
    (lim : Limits) (e : Nat) (hne : id ≠ tag.END) (hle : id ≤ tag.LONG_ARRAY) :
    readEntries read (turns + 1) ⟨id :: rest, lim, e⟩ =
      (string ⟨rest, lim, e⟩ >>= fun p => read id p.2 >>= fun q =>
        readEntries read turns q.2 >>= fun s => pure ((p.1, q.1) :: s.1, s.2)) := by
  rw [readEntries]
  simp only [bind, Except.bind, u8, if_neg hne, if_neg (UInt8.not_lt.mpr hle)]

/-! ## The reader on the writer's bytes -/

theorem encodePayload_list {items : List NbtTag} {b : Bytes}
    (h : encodePayload (.list items) = .ok b) :
    (∀ item ∈ items, item.tagId = elementId items) ∧ ∃ b₁ b₂,
      encodeLen items.length "list" = .ok b₁ ∧ encodeItems items = .ok b₂ ∧
        b = elementId items :: (b₁ ++ b₂) := by
  rw [encodePayload] at h
  split at h
  · cases h
  · next hmix =>
    obtain ⟨b₀, b', h₀, h', rfl⟩ := joined_eq_ok.mp h
    obtain ⟨b₁, b₂, h₁, h₂, rfl⟩ := joined_eq_ok.mp h'
    refine ⟨?_, b₁, b₂, h₁, h₂, by rw [← Except.ok.inj h₀]; rfl⟩
    have := (mixedAt_eq_none_iff _ _).mp hmix
    simpa using this

theorem elementId_le (items : List NbtTag) : elementId items ≤ tag.LONG_ARRAY := by
  cases items with
  | nil => decide
  | cons item items => exact item.tagId_le

theorem elementId_eq_end {items : List NbtTag} (h : elementId items = tag.END) : items = [] := by
  cases items with
  | nil => rfl
  | cons item items => exact absurd h item.tagId_ne_end

mutual
/-- The reader on the writer's bytes: the tree, or the error of its first long string. -/
theorem readPayload_encodePayload : ∀ (t : NbtTag) {b : Bytes}, encodePayload t = .ok b →
    ∀ (levels : Nat), nesting t ≤ levels → ∀ (rest : Bytes) (lim : Limits) (e : Nat),
      e + tagCount t ≤ lim.maxElements →
      readPayload levels t.tagId ⟨b ++ rest, lim, e⟩ =
        readBack (longString t) (t, ⟨rest, lim, e + tagCount t⟩)
  | .byte v, b, hb, levels, _, rest, lim, e, he => by
    rw [← Except.ok.inj hb]; exact readPayload_byte levels v rest lim e he
  | .short v, b, hb, levels, _, rest, lim, e, he => by
    rw [← Except.ok.inj hb]
    exact readPayload_number levels (.short v) 2 .short v (by decide)
      (fun r => by cases levels <;> rfl) rest lim e he
  | .int v, b, hb, levels, _, rest, lim, e, he => by
    rw [← Except.ok.inj hb]
    exact readPayload_number levels (.int v) 4 .int v (by decide)
      (fun r => by cases levels <;> rfl) rest lim e he
  | .long v, b, hb, levels, _, rest, lim, e, he => by
    rw [← Except.ok.inj hb]
    exact readPayload_number levels (.long v) 8 .long v (by decide)
      (fun r => by cases levels <;> rfl) rest lim e he
  | .float v, b, hb, levels, _, rest, lim, e, he => by
    rw [← Except.ok.inj hb]
    exact readPayload_number levels (.float v) 4 .float v (by decide)
      (fun r => by cases levels <;> rfl) rest lim e he
  | .double v, b, hb, levels, _, rest, lim, e, he => by
    rw [← Except.ok.inj hb]
    exact readPayload_number levels (.double v) 8 .double v (by decide)
      (fun r => by cases levels <;> rfl) rest lim e he
  | .byteArray bytes, b, hb, levels, _, rest, lim, e, he => by
    have harm : ∀ r : TagReader, readPayload levels tag.BYTE_ARRAY r = (do
        let r ← r.budget
        let (len, r) ← r.boundedLen "byte array"
        let (bytes, r) ← r.take len
        return (.byteArray bytes, r)) := fun r => by cases levels <;> rfl
    obtain ⟨b₁, b₂, h₁, h₂, rfl⟩ := joined_eq_ok.mp hb
    obtain rfl := Except.ok.inj h₂
    rw [NbtTag.tagId, harm, budget_ok _ _ _ he, List.append_assoc]
    simp only [bind, Except.bind]
    rw [boundedLen_encodeLen h₁ _ _ (by simp)]
    simp only [take_of_length rfl]
    rfl
  | .string value, b, hb, levels, _, rest, lim, e, he => by
    rw [NbtTag.tagId, readPayload_string, budget_ok _ _ _ he]
    simp only [bind, Except.bind]
    rw [string_encode hb, longString]
    cases overI16 value <;> rfl
  | .list items, b, hb, levels, hl, rest, lim, e, he => by
    obtain ⟨hids, b₁, b₂, h₁, h₂, rfl⟩ := encodePayload_list hb
    obtain ⟨levels, rfl⟩ : ∃ k, levels = k + 1 := ⟨levels - 1, by simp only [nesting] at hl; omega⟩
    have hlen := encodeItems_length items h₂
    simp only [tagCount] at he
    have hmany := readMany_encodeItems items h₂ levels (by simp only [nesting] at hl; omega) hids
      rest lim (e + 1) (by omega)
    have hend : ¬(elementId items = tag.END ∧ items.length > 0) := by
      rintro ⟨hid, hpos⟩
      rw [elementId_eq_end hid] at hpos
      exact absurd hpos (by decide)
    rw [NbtTag.tagId, readPayload_list, budget_ok _ _ _ (by omega), List.cons_append,
      List.append_assoc]
    simp only [bind, Except.bind, u8]
    rw [boundedLen_encodeLen h₁ _ _ (by rw [List.length_append]; omega)]
    simp only [if_neg hend, if_neg (UInt8.not_lt.mpr (elementId_le items)), hmany, longString,
      tagCount, ← Nat.add_assoc]
    cases longItems items <;> rfl
  | .compound entries, b, hb, levels, hl, rest, lim, e, he => by
    obtain ⟨b₁, b₂, h₁, h₂, rfl⟩ := joined_eq_ok.mp hb
    obtain rfl := Except.ok.inj h₂
    obtain ⟨levels, rfl⟩ : ∃ k, levels = k + 1 := ⟨levels - 1, by simp only [nesting] at hl; omega⟩
    have hlen := encodeEntries_length entries h₁
    simp only [tagCount] at he
    have hent := readEntries_encodeEntries entries h₁ levels (by simp only [nesting] at hl; omega)
      (b₁ ++ tag.END :: rest).length (by simp only [List.length_append, List.length_cons]; omega)
      rest lim (e + 1) (by omega)
    rw [NbtTag.tagId, readPayload_compound, budget_ok _ _ _ (by omega), List.append_assoc,
      List.singleton_append]
    simp only [bind, Except.bind, hent, longString, tagCount, ← Nat.add_assoc]
    cases longEntries entries <;> rfl
  | .intArray values, b, hb, levels, _, rest, lim, e, he => by
    have harm : ∀ r : TagReader, readPayload levels tag.INT_ARRAY r = (do
        let r ← r.budget
        let (values, r) ← readArray "int array" 4 i32 r
        return (.intArray values, r)) := fun r => by cases levels <;> rfl
    obtain ⟨b₁, b₂, h₁, h₂, rfl⟩ := joined_eq_ok.mp hb
    obtain rfl := Except.ok.inj h₂
    have hread := readArray_encode i32 4 (by decide) (be_toBe (by decide)) values "int array" h₁
      rest lim (e + 1)
    rw [NbtTag.tagId, harm, budget_ok _ _ _ he, List.append_assoc, intBytes]
    simp only [bind, Except.bind, hread]
    rfl
  | .longArray values, b, hb, levels, _, rest, lim, e, he => by
    have harm : ∀ r : TagReader, readPayload levels tag.LONG_ARRAY r = (do
        let r ← r.budget
        let (values, r) ← readArray "long array" 8 i64 r
        return (.longArray values, r)) := fun r => by cases levels <;> rfl
    obtain ⟨b₁, b₂, h₁, h₂, rfl⟩ := joined_eq_ok.mp hb
    obtain rfl := Except.ok.inj h₂
    have hread := readArray_encode i64 8 (by decide) (be_toBe (by decide)) values "long array" h₁
      rest lim (e + 1)
    rw [NbtTag.tagId, harm, budget_ok _ _ _ he, List.append_assoc, longBytes]
    simp only [bind, Except.bind, hread]
    rfl

theorem readMany_encodeItems : ∀ (items : List NbtTag) {b : Bytes}, encodeItems items = .ok b →
    ∀ (levels : Nat), nestingItems items ≤ levels → ∀ {id : UInt8},
      (∀ item ∈ items, item.tagId = id) → ∀ (rest : Bytes) (lim : Limits) (e : Nat),
      e + tagCountItems items ≤ lim.maxElements →
      readMany (readPayload levels id) items.length ⟨b ++ rest, lim, e⟩ =
        readBack (longItems items) (items, ⟨rest, lim, e + tagCountItems items⟩)
  | [], b, hb, levels, _, id, _, rest, lim, e, _ => by rw [← Except.ok.inj hb]; rfl
  | item :: items, b, hb, levels, hl, id, hids, rest, lim, e, he => by
    obtain ⟨b₁, b₂, h₁, h₂, rfl⟩ := joined_eq_ok.mp hb
    simp only [nestingItems] at hl
    simp only [tagCountItems] at he
    obtain rfl := hids item (by simp)
    rw [List.length_cons, readMany_cons, List.append_assoc,
      readPayload_encodePayload item h₁ levels (by omega) _ lim e (by omega), longItems]
    refine readBack_bind _ _ _ _ _ fun _ => ?_
    rw [readMany_encodeItems items h₂ levels (by omega) (fun i hi => hids i (by simp [hi])) rest lim
      (e + tagCount item) (by omega), tagCountItems, Nat.add_assoc]
    cases longItems items <;> rfl

theorem readEntries_encodeEntries : ∀ (entries : List (String × NbtTag)) {b : Bytes},
    encodeEntries entries = .ok b → ∀ (levels : Nat), nestingEntries entries ≤ levels →
      ∀ (turns : Nat), entries.length < turns → ∀ (rest : Bytes) (lim : Limits) (e : Nat),
      e + tagCountEntries entries ≤ lim.maxElements →
      readEntries (readPayload levels) turns ⟨b ++ tag.END :: rest, lim, e⟩ =
        readBack (longEntries entries) (entries, ⟨rest, lim, e + tagCountEntries entries⟩)
  | [], b, hb, levels, _, turns + 1, _, rest, lim, e, _ => by rw [← Except.ok.inj hb]; rfl
  | (name, value) :: entries, b, hb, levels, hl, turns + 1, hturns, rest, lim, e, he => by
    obtain ⟨b₁, b', h₁, h', rfl⟩ := joined_eq_ok.mp hb
    obtain ⟨b₂, b'', h₂, h'', rfl⟩ := joined_eq_ok.mp h'
    obtain ⟨b₃, b₄, h₃, h₄, rfl⟩ := joined_eq_ok.mp h''
    obtain rfl := Except.ok.inj h₁
    simp only [nestingEntries] at hl
    simp only [tagCountEntries] at he
    simp only [List.length_cons] at hturns
    simp only [List.cons_append, List.nil_append, List.append_assoc]
    rw [readEntries_cons _ _ _ _ _ _ value.tagId_ne_end value.tagId_le, string_encode h₂,
      longEntries]
    refine readBack_bind _ _ _ _ _ fun _ => ?_
    rw [readPayload_encodePayload value h₃ levels (by omega) _ lim e (by omega)]
    refine readBack_bind _ _ _ _ _ fun _ => ?_
    rw [readEntries_encodeEntries entries h₄ levels (by omega) turns (by omega) rest lim
      (e + tagCount value) (by omega), tagCountEntries, Nat.add_assoc]
    cases longEntries entries <;> rfl
end

/-! ## The two entry points -/

/-- `b` is within the reader's budgets for the tree `t`: input size, nesting, tag count. -/
structure WithinLimits (lim : Limits) (b : Bytes) (t : NbtTag) : Prop where
  size : b.length ≤ lim.maxBytes
  depth : nesting t ≤ lim.maxDepth + 1
  count : tagCount t ≤ lim.maxElements

/-- Refused with the buffer untouched, or appended bytes that `read` gives back whole. -/
def RoundTrips {α : Type} (write : Put ServerError Unit) (read : Read α) (t : NbtTag) (a : α) :
    Prop :=
  ∀ out, (∃ err, write out = (.error err, out)) ∨ ∃ b, write out = (.ok (), out ++ b) ∧
    ∀ lim, WithinLimits lim b t → ∃ r r', TagReader.new b lim = .ok r ∧ read r = .ok (a, r') ∧
      r'.rest = []

theorem new_ok {b : Bytes} {lim : Limits} (h : b.length ≤ lim.maxBytes) :
    TagReader.new b lim = .ok ⟨b, lim, 0⟩ := by
  rw [TagReader.new, if_neg (by omega)]

/-- Budgets that fit a given tree and a given input. -/
def ampleLimits (b : Bytes) (t : NbtTag) : Limits := ⟨nesting t, b.length, tagCount t⟩

theorem withinLimits_ample (b : Bytes) (t : NbtTag) : WithinLimits (ampleLimits b t) b t :=
  ⟨le_refl _, Nat.le_succ _, le_refl _⟩

theorem readBack_eq_ok_iff {α : Type} {o : Option Nat} {a a' : α} :
    readBack o a = .ok a' ↔ o = none ∧ a = a' := by
  cases o <;> simp [readBack]

/-- A writer and a reader that agree up to the first long string round trip a tree exactly
when it is refused or there is no long string. -/
theorem roundTrips_iff {α : Type} {write : Put ServerError Unit} {image : ServerResult Bytes}
    {read : Read α} {t : NbtTag} {a : α} {long : Option Nat}
    (hwrite : ∀ out, write out = landed out image)
    (hread : ∀ b, image = .ok b → ∀ lim, nesting t ≤ lim.maxDepth + 1 →
      tagCount t ≤ lim.maxElements →
      read ⟨b, lim, 0⟩ = readBack long (a, ⟨[], lim, tagCount t⟩)) :
    RoundTrips write read t a ↔ ((∃ b, image = .ok b) → long = none) := by
  constructor
  · rintro h ⟨b, rfl⟩
    obtain ⟨err, he⟩ | ⟨b', hb', hok⟩ := h []
    · rw [hwrite] at he; cases he
    · rw [hwrite] at hb'
      obtain rfl : b = b' := by simpa [landed] using (Prod.mk.inj hb').2
      have hfit := withinLimits_ample b t
      obtain ⟨r, r', hr, hr', -⟩ := hok _ hfit
      rw [new_ok hfit.size] at hr
      obtain rfl := Except.ok.inj hr
      rw [hread b rfl _ hfit.depth hfit.count] at hr'
      exact (readBack_eq_ok_iff.mp hr').1
  · intro h out
    rw [hwrite]
    cases image with
    | error err => exact .inl ⟨err, rfl⟩
    | ok b =>
      refine .inr ⟨b, rfl, fun lim hfit =>
        ⟨⟨b, lim, 0⟩, ⟨[], lim, tagCount t⟩, new_ok hfit.size, ?_, rfl⟩⟩
      rw [hread b rfl lim hfit.depth hfit.count, h ⟨b, rfl⟩]
      rfl

theorem readUnnamed_encode {t : NbtTag} {b : Bytes}
    (hb : joined (.ok [t.tagId]) (encodePayload t) = .ok b) (lim : Limits)
    (hd : nesting t ≤ lim.maxDepth + 1) (hc : tagCount t ≤ lim.maxElements) :
    readUnnamed ⟨b, lim, 0⟩ = readBack (longString t) (t, ⟨[], lim, tagCount t⟩) := by
  obtain ⟨b₁, b₂, h₁, h₂, rfl⟩ := joined_eq_ok.mp hb
  obtain rfl := Except.ok.inj h₁
  have hp := readPayload_encodePayload t h₂ (lim.maxDepth + 1) hd [] lim 0 (by omega)
  rw [List.append_nil, Nat.zero_add] at hp
  rw [readUnnamed, List.singleton_append]
  simp only [bind, Except.bind, u8]
  rw [if_neg t.tagId_ne_end, hp]

theorem readNamed_encode {name : String} {t : NbtTag} {b : Bytes}
    (hb : joined (.ok [t.tagId]) (joined (encodeModifiedUtf8 name) (encodePayload t)) = .ok b)
    (lim : Limits) (hd : nesting t ≤ lim.maxDepth + 1) (hc : tagCount t ≤ lim.maxElements) :
    readNamed ⟨b, lim, 0⟩ =
      readBack ((overI16 name).or (longString t)) ((name, t), ⟨[], lim, tagCount t⟩) := by
  obtain ⟨b₁, b', h₁, h', rfl⟩ := joined_eq_ok.mp hb
  obtain ⟨b₂, b₃, h₂, h₃, rfl⟩ := joined_eq_ok.mp h'
  obtain rfl := Except.ok.inj h₁
  have hp := readPayload_encodePayload t h₃ (lim.maxDepth + 1) hd [] lim 0 (by omega)
  rw [List.append_nil, Nat.zero_add] at hp
  have hrun : readNamed ⟨t.tagId :: (b₂ ++ b₃), lim, 0⟩ =
      (string ⟨b₂ ++ b₃, lim, 0⟩ >>= fun p =>
        readPayload (p.2.limits.maxDepth + 1) t.tagId p.2 >>= fun q =>
          pure ((p.1, q.1), q.2)) := by
    rw [readNamed]
    simp only [bind, Except.bind, u8, if_neg t.tagId_ne_end]
  rw [List.singleton_append, hrun, string_encode h₂]
  refine readBack_bind _ _ _ _ _ fun _ => ?_
  rw [hp]
  cases longString t <;> rfl

/-- Every string of the tree is within the `i16` the reader counts with: none encodes to
32768..65535 bytes (a longer one is refused by the writer). -/
def ShortStrings (t : NbtTag) : Prop := longString t = none

def ShortStr (value : String) : Prop := overI16 value = none

instance (t : NbtTag) : Decidable (ShortStrings t) := inferInstanceAs (Decidable (_ = _))
instance (value : String) : Decidable (ShortStr value) := inferInstanceAs (Decidable (_ = _))

/-- Both encodings round trip exactly the trees the writer refuses and the trees whose
strings are all at most 32767 bytes. -/
theorem write_read_round_trips_iff (name : String) (t : NbtTag) :
    (RoundTrips (writeNamed name t) readNamed t (name, t) ↔
      (encodableStr name ∧ encodable t → ShortStr name ∧ ShortStrings t)) ∧
    (RoundTrips (writeUnnamed t) readUnnamed t t ↔ (encodable t → ShortStrings t)) := by
  refine ⟨?_, ?_⟩
  · have h := roundTrips_iff (writeNamed_spec name t) fun b hb lim => readNamed_encode hb lim
    rw [h, joined_isOk_iff, joined_isOk_iff, encodeModifiedUtf8_isOk_iff,
      encodePayload_isOk_iff, Option.or_eq_none_iff]
    simp [ShortStr, ShortStrings]
  · have h := roundTrips_iff (writeUnnamed_spec t) fun b hb lim => readUnnamed_encode hb lim
    rw [h, joined_isOk_iff, encodePayload_isOk_iff]
    simp [ShortStrings]

/-! ## The failing length -/

theorem encodeBody_replicate (n : Nat) :
    encodeBody (String.ofList (List.replicate n 'a')) = List.replicate n 97 := by
  unfold encodeBody encodeUtf16
  rw [String.toList_ofList]
  induction n with
  | zero => rfl
  | succ n ih =>
    rw [List.replicate_succ, List.flatMap_cons, List.flatMap_append, ih, List.replicate_succ]
    rfl

/-- A string of 32768 letters: one byte over what an `i16` counts. -/
def longText : NbtTag := .string (String.ofList (List.replicate 32768 'a'))

theorem longString_longText : longString longText = some 32768 := by
  unfold longText longString overI16
  rw [encodeBody_replicate, List.length_replicate]
  simp

/-- The writer accepts the 32768-byte string and the reader refuses it, on both entry points. -/
theorem longText_not_read_back :
    ¬RoundTrips (writeNamed "" longText) readNamed longText ("", longText) ∧
    ¬RoundTrips (writeUnnamed longText) readUnnamed longText longText := by
  have henc : encodable longText := by
    unfold longText encodable encodableStr
    rw [encodeBody_replicate, List.length_replicate]
    decide
  have hname : encodableStr "" := by decide
  refine ⟨fun h => ?_, fun h => ?_⟩
  · have hiff := roundTrips_iff (writeNamed_spec "" longText) fun b hb lim => readNamed_encode hb lim
    rw [joined_isOk_iff, joined_isOk_iff, encodeModifiedUtf8_isOk_iff,
      encodePayload_isOk_iff] at hiff
    have := hiff.mp h ⟨⟨_, rfl⟩, hname, henc⟩
    rw [Option.or_eq_none_iff, longString_longText] at this
    exact absurd this.2 (by simp)
  · have hiff := roundTrips_iff (writeUnnamed_spec longText) fun b hb lim => readUnnamed_encode hb lim
    rw [joined_isOk_iff, encodePayload_isOk_iff] at hiff
    have := hiff.mp h ⟨⟨_, rfl⟩, henc⟩
    rw [longString_longText] at this
    exact absurd this (by simp)

end Apoptosis.L1.Nbt
