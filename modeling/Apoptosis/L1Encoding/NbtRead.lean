import Apoptosis.L1Encoding.ModifiedUtf8
import Apoptosis.L1Encoding.NbtTag
/-!
# The NBT reader (`nbt/src/read.rs`)

A recursive-descent parser over the unread bytes with three budgets: input
size (checked once by `TagReader.new`), nesting depth and number of tags.

`readPayload` recurses on `levels`, the number of nesting levels still
allowed: the source's `depth` argument is `max_depth + 1 - levels`, and its
depth check fails exactly when `levels` is `0`, so the budget of the source is
the measure of the recursion and nothing else bounds it. The compound loop
takes the unread length as its count: a turn that ends reads at least one
byte, so when the count is used up no byte is left and the `u8` of the next
turn fails (`readEntries_stable`).
-/
namespace Apoptosis.L1.Nbt
open Apoptosis.Core.Codec Apoptosis.L1.ModifiedUtf8

/-- mirrors crates/nbt/src/read.rs:22-30 (`Limits`) -/
structure Limits where
  maxDepth : Nat
  maxBytes : Nat
  maxElements : Nat
  deriving DecidableEq, Repr

namespace Limits
/-- mirrors crates/nbt/src/read.rs:34-38 (`Limits::DISK`) -/
def DISK : Limits := ⟨512, 16 * 1024 * 1024, 4 * 1024 * 1024⟩

/-- mirrors crates/nbt/src/read.rs:41-45 (`Limits::NETWORK`) -/
def NETWORK : Limits := ⟨512, 2 * 1024 * 1024, 1024 * 1024⟩
end Limits

/-- mirrors crates/nbt/src/read.rs:161-165 (`TagReader`); `rest` is `bytes[pos..]` of its cursor -/
structure TagReader where
  rest : Bytes
  limits : Limits
  elements : Nat
  deriving DecidableEq, Repr

abbrev Read (α : Type) := TagReader → ServerResult (α × TagReader)

/-- mirrors crates/nbt/src/read.rs:400-402 (`truncated`) -/
def truncatedAt (what : String) : ServerError :=
  .protocol s!"NBT data truncated while reading {what}"

def negativeLen (what : String) (len : Int) : ServerError :=
  .protocol s!"negative NBT {what} length {len}"

namespace TagReader

/-- mirrors crates/nbt/src/read.rs:176-188 (`TagReader::new`) -/
def new (bytes : Bytes) (limits : Limits) : ServerResult TagReader :=
  if bytes.length > limits.maxBytes then
    .error (.corruptData
      s!"NBT payload of {bytes.length} bytes exceeds the {limits.maxBytes} byte limit")
  else .ok { rest := bytes, limits, elements := 0 }

/-! ## The cursor -/

/-- mirrors crates/nbt/src/read.rs:79-85 (`Cursor::u8`) -/
def u8 : Read UInt8 := fun r =>
  match r.rest with
  | [] => .error (truncatedAt "tag id")
  | byte :: rest => .ok (byte, { r with rest })

/-- mirrors crates/nbt/src/read.rs:104-111 (`Cursor::take`) -/
def take (n : Nat) : Read Bytes := fun r =>
  if r.rest.length < n then .error (truncatedAt "value")
  else .ok (r.rest.take n, { r with rest := r.rest.drop n })

/-- mirrors crates/nbt/src/read.rs:90-105 (`Cursor::i16`, `i32`, `i64`) -/
def be (k w : Nat) : Read (BitVec w) := fun r => do
  let (raw, r) ← take k r
  return (BitVec.ofNat w (ofBe raw), r)

def i16 : Read (BitVec 16) := be 2 16

def i32 : Read (BitVec 32) := be 4 32

def i64 : Read (BitVec 64) := be 8 64

/-- mirrors crates/nbt/src/read.rs:117-126 (`Cursor::string`): the length is read
as an `i16` -/
def string : Read String := fun r => do
  let (len, r) ← i16 r
  if len.toInt < 0 then .error (negativeLen "string" len.toInt)
  else do
    let (payload, r) ← take len.toNat r
    let value ← decode payload
    return (value, r)

/-- mirrors crates/nbt/src/read.rs:127-142 (`Cursor::bounded_len`) -/
def boundedLen (what : String) : Read Nat := fun r => do
  let (len, r) ← i32 r
  if len.toInt < 0 then .error (negativeLen what len.toInt)
  else if len.toNat > r.rest.length then
    .error (.protocol s!"NBT {what} length {len.toNat} exceeds {r.rest.length} remaining bytes")
  else return (len.toNat, r)

/-- mirrors crates/nbt/src/read.rs:237-246 (`TagReader::budget`) -/
def budget (r : TagReader) : ServerResult TagReader :=
  let r := { r with elements := r.elements + 1 }
  if r.elements > r.limits.maxElements then
    .error (.corruptData s!"NBT exceeds the {r.limits.maxElements} tag budget")
  else .ok r

end TagReader
open TagReader

/-! ## Payloads -/

/-- `for _ in 0..n { items.push(read()?) }` -/
def readMany {α : Type} (read : Read α) : Nat → Read (List α)
  | 0, r => .ok ([], r)
  | n + 1, r => do
    let (item, r) ← read r
    let (items, r) ← readMany read n r
    return (item :: items, r)

/-- The `loop` of the compound arm; the first argument bounds its turns. -/
def readEntries (read : UInt8 → Read NbtTag) : Nat → Read (List (String × NbtTag))
  | 0, _ => .error (truncatedAt "tag id")
  | turns + 1, r => do
    let (entryId, r) ← r.u8
    if entryId = tag.END then return ([], r)
    else if entryId > tag.LONG_ARRAY then
      .error (.protocol s!"unknown NBT tag id {entryId} in compound")
    else do
      let (name, r) ← r.string
      let (value, r) ← read entryId r
      let (entries, r) ← readEntries read turns r
      return ((name, value) :: entries, r)

def tooDeep (limits : Limits) : ServerError :=
  .corruptData s!"NBT nesting exceeds the {limits.maxDepth} level limit"

/-- mirrors crates/nbt/src/read.rs:379-388 and 390-399: the array arms of `read_payload` -/
def readArray {w : Nat} (what : String) (width : Nat) (read : Read (BitVec w)) :
    Read (List (BitVec w)) := fun r => do
  let (len, r) ← r.boundedLen what
  if len > r.rest.length / width then
    .error (.protocol s!"NBT {what} of {len} entries exceeds the remaining input")
  else readMany read len r

/-- mirrors crates/nbt/src/read.rs:258-338 (`TagReader::read_payload`) -/
def readPayload (levels : Nat) (id : UInt8) : Read NbtTag := fun r => do
  let r ← r.budget
  if id = tag.BYTE then
    let (v, r) ← r.u8
    return (.byte v.toBitVec, r)
  else if id = tag.SHORT then
    let (v, r) ← r.i16
    return (.short v, r)
  else if id = tag.INT then
    let (v, r) ← r.i32
    return (.int v, r)
  else if id = tag.LONG then
    let (v, r) ← r.i64
    return (.long v, r)
  else if id = tag.FLOAT then
    let (v, r) ← r.i32
    return (.float v, r)
  else if id = tag.DOUBLE then
    let (v, r) ← r.i64
    return (.double v, r)
  else if id = tag.BYTE_ARRAY then
    let (len, r) ← r.boundedLen "byte array"
    let (bytes, r) ← r.take len
    return (.byteArray bytes, r)
  else if id = tag.STRING then
    let (value, r) ← r.string
    return (.string value, r)
  else if id = tag.LIST then
    match levels with
    | 0 => .error (tooDeep r.limits)
    | levels + 1 =>
      let (elementId, r) ← r.u8
      let (count, r) ← r.boundedLen "list"
      if elementId = tag.END ∧ count > 0 then
        .error (.protocol s!"NBT list declares {count} elements of TAG_End")
      else if elementId > tag.LONG_ARRAY then
        .error (.protocol s!"unknown NBT tag id {elementId} in list header")
      else
        let (items, r) ← readMany (readPayload levels elementId) count r
        return (.list items, r)
  else if id = tag.COMPOUND then
    match levels with
    | 0 => .error (tooDeep r.limits)
    | levels + 1 =>
      let (entries, r) ← readEntries (readPayload levels) r.rest.length r
      return (.compound entries, r)
  else if id = tag.INT_ARRAY then
    let (values, r) ← readArray "int array" 4 i32 r
    return (.intArray values, r)
  else if id = tag.LONG_ARRAY then
    let (values, r) ← readArray "long array" 8 i64 r
    return (.longArray values, r)
  else if id = tag.END then .error (.protocol "unexpected TAG_End where a value was expected")
  else .error (.protocol s!"unknown NBT tag id {id}")

/-- mirrors crates/nbt/src/read.rs:206-216 (`TagReader::read_named`) -/
def readNamed : Read (String × NbtTag) := fun r => do
  let (id, r) ← r.u8
  if id = tag.END then .error (.corruptData "NBT has a null (TAG_End) root tag")
  else do
    let (name, r) ← r.string
    let (value, r) ← readPayload (r.limits.maxDepth + 1) id r
    return ((name, value), r)

/-- mirrors crates/nbt/src/read.rs:223-231 (`TagReader::read_unnamed`) -/
def readUnnamed : Read NbtTag := fun r => do
  let (id, r) ← r.u8
  if id = tag.END then .error (.protocol "network NBT has a null (TAG_End) root tag")
  else readPayload (r.limits.maxDepth + 1) id r

/-! ## The compound loop needs no more turns than there are bytes -/

/-- A successful read never leaves more unread bytes than it found. -/
def Consumes {α : Type} (read : Read α) : Prop :=
  ∀ r a r', read r = .ok (a, r') → r'.rest.length ≤ r.rest.length

theorem bind_eq_ok {α β : Type} {x : ServerResult α} {f : α → ServerResult β} {b : β}
    (h : (x >>= f) = .ok b) : ∃ a, x = .ok a ∧ f a = .ok b := by
  cases x with
  | error e => cases h
  | ok a => exact ⟨a, rfl, h⟩

theorem u8_length {r r' : TagReader} {b : UInt8} (h : u8 r = .ok (b, r')) :
    r.rest.length = r'.rest.length + 1 := by
  unfold u8 at h
  split at h
  · cases h
  · next hr => cases h; rw [hr]; rfl

theorem consumes_take (n : Nat) : Consumes (take n) := by
  intro r a r' h
  unfold take at h
  split at h
  · cases h
  · cases h; simp

theorem consumes_be (k w : Nat) : Consumes (be k w) := by
  intro r a r' h
  obtain ⟨⟨raw, r₁⟩, h₁, h₂⟩ := bind_eq_ok h
  cases h₂
  exact consumes_take k r raw _ h₁

theorem consumes_string : Consumes string := by
  intro r a r' h
  obtain ⟨⟨len, r₁⟩, h₁, h₂⟩ := bind_eq_ok h
  have hlen := consumes_be 2 16 r len r₁ h₁
  simp only at h₂
  split at h₂
  · cases h₂
  · obtain ⟨⟨payload, r₂⟩, h₃, h₄⟩ := bind_eq_ok h₂
    obtain ⟨value, -, h₅⟩ := bind_eq_ok h₄
    cases h₅
    exact (consumes_take _ r₁ payload _ h₃).trans hlen

theorem consumes_boundedLen (what : String) : Consumes (boundedLen what) := by
  intro r a r' h
  obtain ⟨⟨len, r₁⟩, h₁, h₂⟩ := bind_eq_ok h
  have hlen := consumes_be 4 32 r len r₁ h₁
  simp only at h₂
  split at h₂
  · cases h₂
  · split at h₂
    · cases h₂
    · cases h₂; exact hlen

theorem consumes_readMany {α : Type} {read : Read α} (hread : Consumes read) :
    ∀ n, Consumes (readMany read n)
  | 0, r, a, r', h => by cases h; exact le_refl _
  | n + 1, r, a, r', h => by
    obtain ⟨⟨item, r₁⟩, h₁, h₂⟩ := bind_eq_ok h
    obtain ⟨⟨items, r₂⟩, h₃, h₄⟩ := bind_eq_ok h₂
    cases h₄
    exact (consumes_readMany hread n _ _ _ h₃).trans (hread _ _ _ h₁)

theorem consumes_readEntries {read : UInt8 → Read NbtTag} (hread : ∀ id, Consumes (read id)) :
    ∀ turns, Consumes (readEntries read turns)
  | 0, r, a, r', h => nomatch h
  | turns + 1, r, a, r', h => by
    obtain ⟨⟨id, r₁⟩, h₁, h₂⟩ := bind_eq_ok h
    have hid := u8_length h₁
    simp only at h₂
    split at h₂
    · cases h₂; omega
    split at h₂
    · cases h₂
    obtain ⟨⟨name, r₂⟩, h₃, h₄⟩ := bind_eq_ok h₂
    obtain ⟨⟨value, r₃⟩, h₅, h₆⟩ := bind_eq_ok h₄
    obtain ⟨⟨entries, r₄⟩, h₇, h₈⟩ := bind_eq_ok h₆
    cases h₈
    have h2 := consumes_string _ _ _ h₃
    have h3 := hread _ _ _ _ h₅
    have h4 := consumes_readEntries hread turns _ _ _ h₇
    simp only at h2 h3 h4 ⊢
    omega

theorem consumes_bind {α β : Type} {read : Read α} {f : α → Read β} (hread : Consumes read)
    (hf : ∀ a, Consumes (f a)) : Consumes fun r => read r >>= fun p => f p.1 p.2 := by
  intro r b r' h
  obtain ⟨⟨a, r₁⟩, h₁, h₂⟩ := bind_eq_ok h
  exact (hf a r₁ b r' h₂).trans (hread r a r₁ h₁)

theorem consumes_u8 : Consumes u8 := by
  intro r b r' h
  have := u8_length h
  omega

theorem consumes_budget_bind {α : Type} {f : Read α} (hf : Consumes f) :
    Consumes fun r => r.budget >>= f := by
  intro r b r' h
  obtain ⟨r₁, h₁, h₂⟩ := bind_eq_ok h
  unfold budget at h₁
  simp only at h₁
  split at h₁
  · cases h₁
  · cases h₁; exact hf { r with elements := r.elements + 1 } b r' h₂

theorem consumes_readArray {w : Nat} (what : String) (width : Nat) {read : Read (BitVec w)}
    (hread : Consumes read) : Consumes (readArray what width read) := by
  intro r a r' h
  obtain ⟨⟨len, r₁⟩, h₁, h₂⟩ := bind_eq_ok h
  have hlen := consumes_boundedLen what r len r₁ h₁
  simp only at h₂
  split at h₂
  · cases h₂
  · exact (consumes_readMany hread len r₁ a r' h₂).trans hlen

/-- Reading a value and wrapping it in its constructor. -/
theorem consumes_wrap {α β : Type} {read : Read α} (hread : Consumes read) (mk : α → β) :
    Consumes fun r => read r >>= fun p => .ok (mk p.1, p.2) := by
  intro r b r' h
  obtain ⟨⟨a, r₁⟩, h₁, h₂⟩ := bind_eq_ok h
  cases h₂
  exact hread r a r₁ h₁

theorem consumes_ite {α : Type} {c : Prop} [Decidable c] {x y : Read α} (hx : Consumes x)
    (hy : Consumes y) : Consumes fun r => if c then x r else y r := by
  split
  · exact hx
  · exact hy

theorem consumes_error {α : Type} (err : TagReader → ServerError) :
    Consumes fun r => (.error (err r) : ServerResult (α × TagReader)) := by
  intro r b r' h; cases h

theorem consumes_list {levels : Nat} (ih : ∀ id, Consumes (readPayload levels id)) :
    Consumes fun r => r.u8 >>= fun p => p.2.boundedLen "list" >>= fun q =>
      if p.1 = tag.END ∧ q.1 > 0 then
        .error (.protocol s!"NBT list declares {q.1} elements of TAG_End")
      else if p.1 > tag.LONG_ARRAY then
        .error (.protocol s!"unknown NBT tag id {p.1} in list header")
      else readMany (readPayload levels p.1) q.1 q.2 >>= fun s => pure (NbtTag.list s.1, s.2) := by
  intro r b r' h
  obtain ⟨⟨id, r₁⟩, h₁, h₂⟩ := bind_eq_ok h
  obtain ⟨⟨count, r₂⟩, h₃, h₄⟩ := bind_eq_ok h₂
  have h1 := consumes_u8 _ _ _ h₁
  have h2 := consumes_boundedLen _ _ _ _ h₃
  simp only at h₄
  split at h₄
  · cases h₄
  split at h₄
  · cases h₄
  exact (consumes_wrap (consumes_readMany (ih id) count) _ _ _ _ h₄).trans (h2.trans h1)

theorem consumes_readPayload (levels : Nat) (id : UInt8) : Consumes (readPayload levels id) := by
  have hsub : ∀ k, levels = k + 1 → ∀ id, Consumes (readPayload k id) :=
    fun k _ => consumes_readPayload k
  have harray : ∀ (k w : Nat) (what : String), Consumes (readArray what k (be k w)) :=
    fun k w what => consumes_readArray what k (consumes_be k w)
  rw [show readPayload levels id = _ from funext (readPayload.eq_def levels id)]
  refine consumes_budget_bind ?_
  refine consumes_ite (consumes_wrap consumes_u8 fun v => NbtTag.byte v.toBitVec) ?_
  refine consumes_ite (consumes_wrap (consumes_be 2 16) NbtTag.short) ?_
  refine consumes_ite (consumes_wrap (consumes_be 4 32) NbtTag.int) ?_
  refine consumes_ite (consumes_wrap (consumes_be 8 64) NbtTag.long) ?_
  refine consumes_ite (consumes_wrap (consumes_be 4 32) NbtTag.float) ?_
  refine consumes_ite (consumes_wrap (consumes_be 8 64) NbtTag.double) ?_
  refine consumes_ite (consumes_bind (consumes_boundedLen _) fun len =>
    consumes_wrap (consumes_take len) NbtTag.byteArray) ?_
  refine consumes_ite (consumes_wrap consumes_string NbtTag.string) ?_
  refine consumes_ite ?_ (consumes_ite ?_ ?_)
  · cases levels with
    | zero => exact consumes_error fun r => tooDeep r.limits
    | succ k => exact consumes_list (hsub k rfl)
  · cases levels with
    | zero => exact consumes_error fun r => tooDeep r.limits
    | succ k =>
      exact fun r => consumes_wrap (consumes_readEntries (hsub k rfl) r.rest.length)
        NbtTag.compound r
  refine consumes_ite (consumes_wrap (harray 4 32 _) NbtTag.intArray) ?_
  refine consumes_ite (consumes_wrap (harray 8 64 _) NbtTag.longArray) ?_
  exact consumes_ite (consumes_error _) (consumes_error _)
termination_by levels

/-- More turns than unread bytes change nothing: the loop of the source, which counts no
turns, is `readEntries` at any such count. -/
theorem readEntries_stable (levels : Nat) : ∀ (turns turns' : Nat) (r : TagReader),
    r.rest.length ≤ turns → r.rest.length ≤ turns' →
      readEntries (readPayload levels) turns r = readEntries (readPayload levels) turns' r := by
  have hempty : ∀ (turns : Nat) (r : TagReader), r.rest.length = 0 →
      readEntries (readPayload levels) turns r = .error (truncatedAt "tag id") := by
    intro turns r hr
    cases turns with
    | zero => rfl
    | succ turns =>
      rw [readEntries, u8, List.eq_nil_of_length_eq_zero hr]; rfl
  intro turns
  induction turns with
  | zero =>
    intro turns' r h _
    rw [hempty 0 r (by omega), hempty turns' r (by omega)]
  | succ turns ih =>
    intro turns' r h h'
    cases turns' with
    | zero => rw [hempty _ r (by omega), hempty 0 r (by omega)]
    | succ turns' =>
      rw [readEntries, readEntries]
      cases hid : u8 r with
      | error e => rfl
      | ok p =>
        have hlen := u8_length (show u8 r = .ok (p.1, p.2) from hid)
        simp only [bind, Except.bind]
        split
        · rfl
        split
        · rfl
        cases hname : string p.2 with
        | error e => rfl
        | ok q =>
          have hq := consumes_string p.2 q.1 q.2 hname
          simp only
          cases hval : readPayload levels p.1 q.2 with
          | error e => rfl
          | ok s =>
            have hs := consumes_readPayload levels p.1 q.2 s.1 s.2 hval
            simp only
            rw [ih turns' s.2 (by omega) (by omega)]

/-! ## What a successful read was -/

/-- A value wrapped in one constructor has that constructor's id. -/
theorem tagId_of_wrap {α : Type} {x : ServerResult (α × TagReader)} {f : α → NbtTag} {id : UInt8}
    (hf : ∀ a, (f a).tagId = id) {t : NbtTag} {r' : TagReader}
    (h : (do
      let (a, r) ← x
      return (f a, r)) = .ok (t, r')) : t.tagId = id := by
  obtain ⟨⟨a, r⟩, -, h⟩ := bind_eq_ok h
  cases h
  exact hf a

theorem ite_eq_ok {α : Type} {c : Prop} [Decidable c] {x y : ServerResult α} {a : α}
    (h : (if c then x else y) = .ok a) : c ∧ x = .ok a ∨ ¬c ∧ y = .ok a := by
  split at h
  · exact .inl ⟨‹c›, h⟩
  · exact .inr ⟨‹¬c›, h⟩

/-- The reader returns a value of the type it was asked for. -/
theorem readPayload_tagId {levels : Nat} {id : UInt8} {r r' : TagReader} {t : NbtTag}
    (h : readPayload levels id r = .ok (t, r')) : t.tagId = id := by
  rw [readPayload.eq_def] at h
  obtain ⟨r₁, -, h⟩ := bind_eq_ok h
  rcases ite_eq_ok h with ⟨rfl, h⟩ | ⟨-, h⟩
  · exact tagId_of_wrap (f := fun v : UInt8 => .byte v.toBitVec) (fun _ => rfl) h
  rcases ite_eq_ok h with ⟨rfl, h⟩ | ⟨-, h⟩
  · exact tagId_of_wrap (f := .short) (fun _ => rfl) h
  rcases ite_eq_ok h with ⟨rfl, h⟩ | ⟨-, h⟩
  · exact tagId_of_wrap (f := .int) (fun _ => rfl) h
  rcases ite_eq_ok h with ⟨rfl, h⟩ | ⟨-, h⟩
  · exact tagId_of_wrap (f := .long) (fun _ => rfl) h
  rcases ite_eq_ok h with ⟨rfl, h⟩ | ⟨-, h⟩
  · exact tagId_of_wrap (f := .float) (fun _ => rfl) h
  rcases ite_eq_ok h with ⟨rfl, h⟩ | ⟨-, h⟩
  · exact tagId_of_wrap (f := .double) (fun _ => rfl) h
  rcases ite_eq_ok h with ⟨rfl, h⟩ | ⟨-, h⟩
  · obtain ⟨⟨len, r₂⟩, -, h⟩ := bind_eq_ok h
    exact tagId_of_wrap (f := .byteArray) (fun _ => rfl) h
  rcases ite_eq_ok h with ⟨rfl, h⟩ | ⟨-, h⟩
  · exact tagId_of_wrap (f := .string) (fun _ => rfl) h
  rcases ite_eq_ok h with ⟨rfl, h⟩ | ⟨-, h⟩
  · cases levels with
    | zero => cases h
    | succ k =>
      obtain ⟨⟨elementId, r₂⟩, -, h⟩ := bind_eq_ok h
      obtain ⟨⟨count, r₃⟩, -, h⟩ := bind_eq_ok h
      rcases ite_eq_ok h with ⟨-, h⟩ | ⟨-, h⟩
      · cases h
      rcases ite_eq_ok h with ⟨-, h⟩ | ⟨-, h⟩
      · cases h
      exact tagId_of_wrap (f := .list) (fun _ => rfl) h
  rcases ite_eq_ok h with ⟨rfl, h⟩ | ⟨-, h⟩
  · cases levels with
    | zero => cases h
    | succ k => exact tagId_of_wrap (f := .compound) (fun _ => rfl) h
  rcases ite_eq_ok h with ⟨rfl, h⟩ | ⟨-, h⟩
  · exact tagId_of_wrap (f := .intArray) (fun _ => rfl) h
  rcases ite_eq_ok h with ⟨rfl, h⟩ | ⟨-, h⟩
  · exact tagId_of_wrap (f := .longArray) (fun _ => rfl) h
  rcases ite_eq_ok h with ⟨-, h⟩ | ⟨-, h⟩ <;> cases h

theorem take_eq_ok {n : Nat} {r r' : TagReader} {b : Bytes} (h : take n r = .ok (b, r')) :
    b.length = n ∧ r = ⟨b ++ r'.rest, r'.limits, r'.elements⟩ := by
  unfold take at h
  split at h
  · cases h
  · cases h
    refine ⟨by rw [List.length_take]; omega, ?_⟩
    simp only [List.take_append_drop]

theorem take_of_length {n : Nat} {b : Bytes} (h : b.length = n) (rest : Bytes) (lim : Limits)
    (e : Nat) : take n ⟨b ++ rest, lim, e⟩ = .ok (b, ⟨rest, lim, e⟩) := by
  subst h
  have : ¬(b ++ rest).length < b.length := by simp
  simp only [take, if_neg this, List.take_left, List.drop_left]

/-- A string is two bytes of length and that many of text. -/
theorem string_eq_ok {r r' : TagReader} {a : String} (h : string r = .ok (a, r')) :
    ∃ raw payload, r = ⟨raw ++ (payload ++ r'.rest), r'.limits, r'.elements⟩ ∧ raw.length = 2 ∧
      ¬(BitVec.ofNat 16 (ofBe raw)).toInt < 0 ∧ payload.length = (BitVec.ofNat 16 (ofBe raw)).toNat ∧
      decode payload = .ok a := by
  obtain ⟨⟨len, r₁⟩, hlen, hbody⟩ := bind_eq_ok h
  obtain ⟨⟨raw, r₀⟩, h₀, h₁⟩ := bind_eq_ok hlen
  cases h₁
  obtain ⟨hraw, rfl⟩ := take_eq_ok h₀
  rcases ite_eq_ok hbody with ⟨-, hneg⟩ | ⟨hneg, hbody⟩
  · cases hneg
  obtain ⟨⟨payload, r₂⟩, h₂, hdec⟩ := bind_eq_ok hbody
  obtain ⟨value, h₃, hret⟩ := bind_eq_ok hdec
  cases hret
  obtain ⟨hpay, rfl⟩ := take_eq_ok h₂
  exact ⟨raw, payload, rfl, hraw, hneg, hpay, h₃⟩

/-- A string ends itself: the bytes read as `a` are read as `a` in front of anything. -/
theorem string_delimited {r r' : TagReader} {a : String} (h : string r = .ok (a, r')) :
    ∃ c, r = ⟨c ++ r'.rest, r'.limits, r'.elements⟩ ∧
      ∀ rest lim e, string ⟨c ++ rest, lim, e⟩ = .ok (a, ⟨rest, lim, e⟩) := by
  obtain ⟨raw, payload, rfl, hraw, hneg, hpay, h₃⟩ := string_eq_ok h
  refine ⟨raw ++ payload, by simp, fun rest lim e => ?_⟩
  simp only [string, i16, be, List.append_assoc, take_of_length hraw, bind, Except.bind, pure,
    Except.pure, if_neg hneg, take_of_length hpay, h₃]

end Apoptosis.L1.Nbt
