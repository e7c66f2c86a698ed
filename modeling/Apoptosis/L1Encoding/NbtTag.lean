import Apoptosis.Core.Ieee
/-!
# NBT values (`nbt/src/value.rs`)

The tag tree, its ids and the typed accessors the rest of the workspace reads
it with. Signed integers and floats are their bit patterns (`BitVec`); `toInt`
is the signed reading. Lean equality of trees therefore compares floats by
bits, while the derived `PartialEq` of the source compares them as numbers:
`eqWith` is that derived comparison over any comparison of the floats.

`get` follows the source: a compound is an ordered list of entries and the
last entry of a name wins.

* `eqWith_symm`, `eqWith_trans`: the derived comparison is symmetric and
  transitive whenever the float comparisons are.
* `eqWith_bits_iff`: over bit equality it is equality, which gives the
  `DecidableEq` instance.
-/
namespace Apoptosis.L1.Nbt

/-! ## Tag ids -/

namespace tag
def END : UInt8 := 0
def BYTE : UInt8 := 1
def SHORT : UInt8 := 2
def INT : UInt8 := 3
def LONG : UInt8 := 4
def FLOAT : UInt8 := 5
def DOUBLE : UInt8 := 6
def BYTE_ARRAY : UInt8 := 7
def STRING : UInt8 := 8
def LIST : UInt8 := 9
def COMPOUND : UInt8 := 10
def INT_ARRAY : UInt8 := 11
def LONG_ARRAY : UInt8 := 12

/-- mirrors crates/nbt/src/value.rs:41-58 (`tag::name`) -/
def name (id : UInt8) : String :=
  if id = END then "TAG_End"
  else if id = BYTE then "TAG_Byte"
  else if id = SHORT then "TAG_Short"
  else if id = INT then "TAG_Int"
  else if id = LONG then "TAG_Long"
  else if id = FLOAT then "TAG_Float"
  else if id = DOUBLE then "TAG_Double"
  else if id = BYTE_ARRAY then "TAG_Byte_Array"
  else if id = STRING then "TAG_String"
  else if id = LIST then "TAG_List"
  else if id = COMPOUND then "TAG_Compound"
  else if id = INT_ARRAY then "TAG_Int_Array"
  else if id = LONG_ARRAY then "TAG_Long_Array"
  else "TAG_Unknown"
end tag

/-- mirrors crates/nbt/src/value.rs:64-89 (`NbtTag`) -/
inductive NbtTag where
  | byte (value : BitVec 8)
  | short (value : BitVec 16)
  | int (value : BitVec 32)
  | long (value : BitVec 64)
  | float (bits : BitVec 32)
  | double (bits : BitVec 64)
  | byteArray (bytes : List UInt8)
  | string (value : String)
  | list (items : List NbtTag)
  | compound (entries : List (String × NbtTag))
  | intArray (values : List (BitVec 32))
  | longArray (values : List (BitVec 64))
  deriving Repr

/-- mirrors crates/nbt/src/value.rs:93-108 (`NbtTag::tag_id`) -/
def NbtTag.tagId : NbtTag → UInt8
  | .byte _ => tag.BYTE
  | .short _ => tag.SHORT
  | .int _ => tag.INT
  | .long _ => tag.LONG
  | .float _ => tag.FLOAT
  | .double _ => tag.DOUBLE
  | .byteArray _ => tag.BYTE_ARRAY
  | .string _ => tag.STRING
  | .list _ => tag.LIST
  | .compound _ => tag.COMPOUND
  | .intArray _ => tag.INT_ARRAY
  | .longArray _ => tag.LONG_ARRAY

theorem NbtTag.tagId_ne_end (t : NbtTag) : t.tagId ≠ tag.END := by
  cases t <;> simp only [NbtTag.tagId] <;> decide

theorem NbtTag.tagId_le (t : NbtTag) : t.tagId ≤ tag.LONG_ARRAY := by
  cases t <;> simp only [NbtTag.tagId] <;> decide

/-! ## Typed accessors -/

/-- `i32::try_from` (and `i8::try_from` etc.) of an `i64` -/
def tryFrom (w : Nat) (value : Int) : Option (BitVec w) :=
  if -2 ^ (w - 1) ≤ value ∧ value < 2 ^ (w - 1) then some (BitVec.ofInt w value) else none

theorem tryFrom_toInt {w : Nat} (value : BitVec w) :
    tryFrom w value.toInt = some value := by
  rw [tryFrom, if_pos ⟨BitVec.le_toInt value, BitVec.toInt_lt⟩, BitVec.ofInt_toInt]

namespace NbtTag

/-- mirrors crates/nbt/src/value.rs:112-114 (`NbtTag::type_name`) -/
def typeName (t : NbtTag) : String := tag.name t.tagId

/-- mirrors crates/nbt/src/value.rs:124-129 (`NbtTag::entries`) -/
def entries : NbtTag → Option (List (String × NbtTag))
  | .compound entries => some entries
  | _ => none

/-- mirrors crates/nbt/src/value.rs:133-139 (`NbtTag::get`): the last entry of the name -/
def get (t : NbtTag) (name : String) : Option NbtTag :=
  t.entries.bind fun entries => (entries.reverse.find? (·.1 == name)).map (·.2)

/-- mirrors crates/nbt/src/value.rs:192-200 (`NbtTag::as_i64`) -/
def asI64 : NbtTag → Option Int
  | .byte v => some v.toInt
  | .short v => some v.toInt
  | .int v => some v.toInt
  | .long v => some v.toInt
  | _ => none

/-- mirrors crates/nbt/src/value.rs:204-210 (`NbtTag::as_f64`) -/
def asF64 : NbtTag → Option (BitVec 64)
  | .float bits => some (Core.Ieee.widen bits)
  | .double bits => some bits
  | _ => none

/-- mirrors crates/nbt/src/value.rs:219-221 (`NbtTag::get_i64`) -/
def getI64 (t : NbtTag) (name : String) : Option Int := t.get name >>= asI64

/-- mirrors crates/nbt/src/value.rs:220-222 (`NbtTag::get_i32`) -/
def getI32 (t : NbtTag) (name : String) : Option (BitVec 32) := t.getI64 name >>= tryFrom 32

/-- mirrors crates/nbt/src/value.rs:226-228 (`NbtTag::get_i8`) -/
def getI8 (t : NbtTag) (name : String) : Option (BitVec 8) := t.getI64 name >>= tryFrom 8

/-- mirrors crates/nbt/src/value.rs:238-240 (`NbtTag::get_bool`) -/
def getBool (t : NbtTag) (name : String) : Option Bool := (· != 0) <$> t.getI8 name

/-- mirrors crates/nbt/src/value.rs:259-264 (`NbtTag::get_list`) -/
def getList (t : NbtTag) (name : String) : Option (List NbtTag) :=
  match t.get name with
  | some (.list items) => some items
  | _ => none

/-- mirrors crates/nbt/src/value.rs:143-145 (`NbtTag::contains`) -/
def contains (t : NbtTag) (name : String) : Bool := (t.get name).isSome

/-- mirrors crates/nbt/src/value.rs:250-255 (`NbtTag::get_str`) -/
def getStr (t : NbtTag) (name : String) : Option String :=
  match t.get name with
  | some (.string value) => some value
  | _ => none

/-- mirrors crates/nbt/src/value.rs:268-273 (`NbtTag::get_compound`) -/
def getCompound (t : NbtTag) (name : String) : Option NbtTag :=
  match t.get name with
  | some (.compound entries) => some (.compound entries)
  | _ => none

/-- mirrors crates/nbt/src/value.rs:277-282 (`NbtTag::get_byte_array`) -/
def getByteArray (t : NbtTag) (name : String) : Option (List UInt8) :=
  match t.get name with
  | some (.byteArray bytes) => some bytes
  | _ => none

/-- mirrors crates/nbt/src/value.rs:295-300 (`NbtTag::get_long_array`) -/
def getLongArray (t : NbtTag) (name : String) : Option (List (BitVec 64)) :=
  match t.get name with
  | some (.longArray values) => some values
  | _ => none

@[simp] theorem asI64_int (v : BitVec 32) : asI64 (.int v) = some v.toInt := rfl

@[simp] theorem asI64_byte (v : BitVec 8) : asI64 (.byte v) = some v.toInt := rfl

@[simp] theorem asF64_float (v : BitVec 32) : asF64 (.float v) = some (Core.Ieee.widen v) := rfl

theorem get_compound (entries : List (String × NbtTag)) (name : String) :
    (compound entries).get name = (entries.reverse.find? (·.1 == name)).map (·.2) := rfl

end NbtTag

/-! ## The derived comparison -/

section EqWith
variable (f32 : BitVec 32 → BitVec 32 → Bool) (f64 : BitVec 64 → BitVec 64 → Bool)

mutual
/-- The derived `PartialEq`, over the comparisons of the two float types. -/
def eqWith : NbtTag → NbtTag → Bool
  | .byte a, .byte b => a == b
  | .short a, .short b => a == b
  | .int a, .int b => a == b
  | .long a, .long b => a == b
  | .float a, .float b => f32 a b
  | .double a, .double b => f64 a b
  | .byteArray a, .byteArray b => a == b
  | .string a, .string b => a == b
  | .list a, .list b => eqItems a b
  | .compound a, .compound b => eqEntries a b
  | .intArray a, .intArray b => a == b
  | .longArray a, .longArray b => a == b
  | _, _ => false

def eqItems : List NbtTag → List NbtTag → Bool
  | [], [] => true
  | a :: as, b :: bs => eqWith a b && eqItems as bs
  | _, _ => false

def eqEntries : List (String × NbtTag) → List (String × NbtTag) → Bool
  | [], [] => true
  | (k, a) :: as, (l, b) :: bs => k == l && eqWith a b && eqEntries as bs
  | _, _ => false
end

variable {f32 f64}

mutual
theorem eqWith_symm (h32 : ∀ a b, f32 a b → f32 b a) (h64 : ∀ a b, f64 a b → f64 b a) :
    ∀ a b, eqWith f32 f64 a b → eqWith f32 f64 b a
  | .list as, b, h => by
    cases b <;> simp only [eqWith, Bool.false_eq_true] at h ⊢; exact eqItems_symm h32 h64 _ _ h
  | .compound as, b, h => by
    cases b <;> simp only [eqWith, Bool.false_eq_true] at h ⊢; exact eqEntries_symm h32 h64 _ _ h
  | .float a, b, h => by cases b <;> simp_all [eqWith]
  | .double a, b, h => by cases b <;> simp_all [eqWith]
  | .byte a, b, h => by cases b <;> simp_all [eqWith]
  | .short a, b, h => by cases b <;> simp_all [eqWith]
  | .int a, b, h => by cases b <;> simp_all [eqWith]
  | .long a, b, h => by cases b <;> simp_all [eqWith]
  | .byteArray a, b, h => by cases b <;> simp_all [eqWith]
  | .string a, b, h => by cases b <;> simp_all [eqWith]
  | .intArray a, b, h => by cases b <;> simp_all [eqWith]
  | .longArray a, b, h => by cases b <;> simp_all [eqWith]

theorem eqItems_symm (h32 : ∀ a b, f32 a b → f32 b a) (h64 : ∀ a b, f64 a b → f64 b a) :
    ∀ as bs, eqItems f32 f64 as bs → eqItems f32 f64 bs as
  | [], [], _ => rfl
  | a :: as, b :: bs, h => by
    simp only [eqItems, Bool.and_eq_true] at h ⊢
    exact ⟨eqWith_symm h32 h64 a b h.1, eqItems_symm h32 h64 as bs h.2⟩

theorem eqEntries_symm (h32 : ∀ a b, f32 a b → f32 b a) (h64 : ∀ a b, f64 a b → f64 b a) :
    ∀ as bs, eqEntries f32 f64 as bs → eqEntries f32 f64 bs as
  | [], [], _ => rfl
  | (k, a) :: as, (l, b) :: bs, h => by
    simp only [eqEntries, Bool.and_eq_true, beq_iff_eq] at h ⊢
    exact ⟨⟨h.1.1.symm, eqWith_symm h32 h64 a b h.1.2⟩, eqEntries_symm h32 h64 as bs h.2⟩
end

mutual
theorem eqWith_trans (h32 : ∀ a b c, f32 a b → f32 b c → f32 a c)
    (h64 : ∀ a b c, f64 a b → f64 b c → f64 a c) :
    ∀ a b c, eqWith f32 f64 a b → eqWith f32 f64 b c → eqWith f32 f64 a c
  | .list as, b, c, h, h' => by
    cases b <;> simp only [eqWith, Bool.false_eq_true] at h
    cases c <;> simp only [eqWith, Bool.false_eq_true] at h' ⊢
    exact eqItems_trans h32 h64 _ _ _ h h'
  | .compound as, b, c, h, h' => by
    cases b <;> simp only [eqWith, Bool.false_eq_true] at h
    cases c <;> simp only [eqWith, Bool.false_eq_true] at h' ⊢
    exact eqEntries_trans h32 h64 _ _ _ h h'
  | .float a, b, c, h, h' => by
    cases b <;> simp only [eqWith, Bool.false_eq_true] at h
    cases c <;> simp only [eqWith, Bool.false_eq_true] at h' ⊢
    exact h32 _ _ _ h h'
  | .double a, b, c, h, h' => by
    cases b <;> simp only [eqWith, Bool.false_eq_true] at h
    cases c <;> simp only [eqWith, Bool.false_eq_true] at h' ⊢
    exact h64 _ _ _ h h'
  | .byte a, b, c, h, h' => by
    cases b <;> simp only [eqWith, beq_iff_eq, Bool.false_eq_true] at h
    subst h; exact h'
  | .short a, b, c, h, h' => by
    cases b <;> simp only [eqWith, beq_iff_eq, Bool.false_eq_true] at h
    subst h; exact h'
  | .int a, b, c, h, h' => by
    cases b <;> simp only [eqWith, beq_iff_eq, Bool.false_eq_true] at h
    subst h; exact h'
  | .long a, b, c, h, h' => by
    cases b <;> simp only [eqWith, beq_iff_eq, Bool.false_eq_true] at h
    subst h; exact h'
  | .byteArray a, b, c, h, h' => by
    cases b <;> simp only [eqWith, beq_iff_eq, Bool.false_eq_true] at h
    subst h; exact h'
  | .string a, b, c, h, h' => by
    cases b <;> simp only [eqWith, beq_iff_eq, Bool.false_eq_true] at h
    subst h; exact h'
  | .intArray a, b, c, h, h' => by
    cases b <;> simp only [eqWith, beq_iff_eq, Bool.false_eq_true] at h
    subst h; exact h'
  | .longArray a, b, c, h, h' => by
    cases b <;> simp only [eqWith, beq_iff_eq, Bool.false_eq_true] at h
    subst h; exact h'

theorem eqItems_trans (h32 : ∀ a b c, f32 a b → f32 b c → f32 a c)
    (h64 : ∀ a b c, f64 a b → f64 b c → f64 a c) :
    ∀ as bs cs, eqItems f32 f64 as bs → eqItems f32 f64 bs cs → eqItems f32 f64 as cs
  | [], [], [], _, _ => rfl
  | a :: as, b :: bs, c :: cs, h, h' => by
    simp only [eqItems, Bool.and_eq_true] at h h' ⊢
    exact ⟨eqWith_trans h32 h64 a b c h.1 h'.1, eqItems_trans h32 h64 as bs cs h.2 h'.2⟩

theorem eqEntries_trans (h32 : ∀ a b c, f32 a b → f32 b c → f32 a c)
    (h64 : ∀ a b c, f64 a b → f64 b c → f64 a c) :
    ∀ as bs cs, eqEntries f32 f64 as bs → eqEntries f32 f64 bs cs → eqEntries f32 f64 as cs
  | [], [], [], _, _ => rfl
  | (k, a) :: as, (l, b) :: bs, (m, c) :: cs, h, h' => by
    simp only [eqEntries, Bool.and_eq_true, beq_iff_eq] at h h' ⊢
    exact ⟨⟨h.1.1.trans h'.1.1, eqWith_trans h32 h64 a b c h.1.2 h'.1.2⟩,
      eqEntries_trans h32 h64 as bs cs h.2 h'.2⟩
end

end EqWith

mutual
/-- Over bit equality of the floats the derived comparison is equality. -/
theorem eqWith_bits_iff : ∀ a b : NbtTag, eqWith (· == ·) (· == ·) a b = true ↔ a = b
  | .list as, b => by
    cases b <;> simp only [eqWith, Bool.false_eq_true, reduceCtorEq, NbtTag.list.injEq]
    exact eqItems_bits_iff _ _
  | .compound as, b => by
    cases b <;> simp only [eqWith, Bool.false_eq_true, reduceCtorEq, NbtTag.compound.injEq]
    exact eqEntries_bits_iff _ _
  | .float a, b => by cases b <;> simp [eqWith]
  | .double a, b => by cases b <;> simp [eqWith]
  | .byte a, b => by cases b <;> simp [eqWith]
  | .short a, b => by cases b <;> simp [eqWith]
  | .int a, b => by cases b <;> simp [eqWith]
  | .long a, b => by cases b <;> simp [eqWith]
  | .byteArray a, b => by cases b <;> simp [eqWith]
  | .string a, b => by cases b <;> simp [eqWith]
  | .intArray a, b => by cases b <;> simp [eqWith]
  | .longArray a, b => by cases b <;> simp [eqWith]

theorem eqItems_bits_iff : ∀ as bs, eqItems (· == ·) (· == ·) as bs = true ↔ as = bs
  | [], bs => by cases bs <;> simp [eqItems]
  | a :: as, [] => by simp [eqItems]
  | a :: as, b :: bs => by
    rw [eqItems, Bool.and_eq_true, eqWith_bits_iff a b, eqItems_bits_iff as bs, List.cons.injEq]

theorem eqEntries_bits_iff : ∀ as bs, eqEntries (· == ·) (· == ·) as bs = true ↔ as = bs
  | [], bs => by cases bs <;> simp [eqEntries]
  | a :: as, [] => by simp [eqEntries]
  | (k, a) :: as, (l, b) :: bs => by
    rw [eqEntries, Bool.and_eq_true, Bool.and_eq_true, eqWith_bits_iff a b,
      eqEntries_bits_iff as bs, List.cons.injEq, Prod.mk.injEq, beq_iff_eq]
end

instance : DecidableEq NbtTag := fun a b => decidable_of_iff _ (eqWith_bits_iff a b)

end Apoptosis.L1.Nbt
