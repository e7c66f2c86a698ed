import Apoptosis.ServerError
import Apoptosis.L1Encoding.Components
/-!
# Item stacks (`entity/src/stack.rs`)

A stack is an item id, a count and a component patch. The fields of the source
are private and every constructor goes through `ItemStack::new`, so the
guarantee of its docs is a field here: an empty stack is `EMPTY`, any other
holds 1 to 64 items. Ids and counts are never negative and are `Nat`.

Items are counted by identity `(item id, components)`. The source compares
components with its own `PartialEq`, which is no equivalence (a NaN inside an
NBT value); `SameKey` is the equivalence it generates on one stack more.

* `split_amount`, `merge_amount`: a split and a merge move items, whatever the
  identity they are counted by.
* `same_item_amount`: stacks the source merges are counted alike.
-/
namespace Apoptosis.L2
open Apoptosis.L1.Components

abbrev AIR_ITEM_ID : Nat := 0
abbrev DEFAULT_MAX_STACK_SIZE : Nat := 64
abbrev HARD_MAX_STACK_SIZE : Nat := DEFAULT_MAX_STACK_SIZE

/-- mirrors crates/entity/src/stack.rs:88-95 (`ItemStack`) -/
@[ext] structure ItemStack where
  itemId : Nat
  count : Nat
  components : ItemComponents
  valid : (itemId = 0 ∧ count = 0 ∧ components = []) ∨
    (0 < itemId ∧ 0 < count ∧ count ≤ HARD_MAX_STACK_SIZE)
  deriving DecidableEq

namespace ItemStack

/-- mirrors crates/entity/src/stack.rs:99-103 (`ItemStack::EMPTY`) -/
def EMPTY : ItemStack := ⟨0, 0, [], .inl ⟨rfl, rfl, rfl⟩⟩

instance : Inhabited ItemStack := ⟨EMPTY⟩

/-- A stack of `count ≤ 64` items of a kind: the empty one when there are none. -/
def ofParts (itemId count : Nat) (components : ItemComponents)
    (h : count ≤ HARD_MAX_STACK_SIZE) : ItemStack :=
  if hne : itemId = AIR_ITEM_ID ∨ count = 0 then EMPTY
  else ⟨itemId, count, components,
    .inr ⟨Nat.pos_of_ne_zero fun h0 => hne (.inl h0), Nat.pos_of_ne_zero fun h0 => hne (.inr h0), h⟩⟩

theorem one_legal : 1 ≤ HARD_MAX_STACK_SIZE := by decide

theorem two_legal : 2 ≤ HARD_MAX_STACK_SIZE := by decide

/-- mirrors crates/entity/src/stack.rs:117-137 (`ItemStack::new`), `i32` arguments -/
def new (itemId count : Int) : ServerResult ItemStack :=
  if itemId < 0 then .error (.invalidAction s!"negative item id {itemId}")
  else if h : count > HARD_MAX_STACK_SIZE then
    .error (.invalidAction
      s!"item count {count} for item id {itemId} exceeds any legal stack")
  else .ok (ofParts itemId.toNat count.toNat [] (by omega))

/-- mirrors crates/entity/src/stack.rs:178-180 (`ItemStack::is_empty`) -/
def isEmpty (s : ItemStack) : Bool := s.itemId == AIR_ITEM_ID || s.count == 0

/-- mirrors crates/entity/src/stack.rs:189-195 (`ItemStack::item_id`) -/
def itemId? (s : ItemStack) : Option Nat := if s.itemId = AIR_ITEM_ID then none else some s.itemId

/-- `*stack.components_mut() = components`, made by every caller on a non-empty stack only -/
def setComponents (s : ItemStack) (components : ItemComponents) : ItemStack :=
  if h : s.isEmpty then s
  else ⟨s.itemId, s.count, components, .inr (by
    rcases s.valid with ⟨h0, -, -⟩ | hv
    · simp [isEmpty, AIR_ITEM_ID, h0] at h
    · exact hv)⟩

/-- mirrors crates/entity/src/stack.rs:143-153 (`ItemStack::with_components`) -/
def withComponents (itemId count : Int) (components : ItemComponents) : ServerResult ItemStack := do
  let stack ← new itemId count
  return stack.setComponents components

/-- The derived `PartialEq` of `ItemStack`. -/
def partialEq (a b : ItemStack) : Bool :=
  a.itemId == b.itemId && a.count == b.count && a.components.partialEq b.components

/-- mirrors crates/entity/src/stack.rs:283-285 (`ItemStack::same_item`) -/
def sameItem (s other : ItemStack) : Bool :=
  !s.isEmpty && s.itemId == other.itemId && s.components.partialEq other.components

theorem count_le (s : ItemStack) : s.count ≤ 64 := by
  rcases s.valid with ⟨-, h, -⟩ | ⟨-, -, h⟩
  · omega
  · exact h

theorem isEmpty_iff (s : ItemStack) : s.isEmpty ↔ s = EMPTY := by
  constructor
  · intro h
    rcases s.valid with ⟨h1, h2, h3⟩ | ⟨h1, h2, -⟩
    · exact ItemStack.ext h1 h2 h3
    · simp [isEmpty, AIR_ITEM_ID] at h
      omega
  · rintro rfl; rfl

theorem isEmpty_iff_count (s : ItemStack) : s.isEmpty ↔ s.count = 0 := by
  rw [isEmpty_iff]
  constructor
  · rintro rfl; rfl
  · intro h
    rcases s.valid with ⟨h1, h2, h3⟩ | ⟨-, h2, -⟩
    · exact ItemStack.ext h1 h2 h3
    · omega

@[simp] theorem isEmpty_EMPTY : EMPTY.isEmpty = true := rfl
@[simp] theorem count_EMPTY : EMPTY.count = 0 := rfl

/-! ## Moving items between stacks -/

/-- `self.count = n` where the source has `n ≤ 64` (`keep_count`), emptied at zero. -/
def keep (s : ItemStack) (n : Nat) : ItemStack :=
  ofParts s.itemId (min n HARD_MAX_STACK_SIZE) s.components (min_le_right _ _)

/-- mirrors crates/entity/src/stack.rs:311-328 (`ItemStack::split`): the part taken off and the
remainder -/
def split (s : ItemStack) (n : Nat) : ItemStack × ItemStack :=
  if n = 0 ∨ s.isEmpty then (EMPTY, s)
  else (s.keep (min n s.count), s.keep (s.count - min n s.count))

/-- mirrors crates/entity/src/stack.rs:357-367 (`ItemStack::shrink`), the stack it leaves -/
def shrink (s : ItemStack) (n : Nat) : ItemStack := (s.split n).2

/-- mirrors crates/entity/src/stack.rs:357-367 (`ItemStack::shrink`), the number it returns -/
def shrunk (s : ItemStack) (n : Nat) : Nat := if n = 0 ∨ s.isEmpty then 0 else min n s.count

/-- mirrors crates/entity/src/stack.rs:343-352 (`ItemStack::grow_capped`), the stack it leaves -/
def growCapped (s : ItemStack) (n limit : Nat) : ItemStack :=
  if n = 0 ∨ s.isEmpty then s
  else s.keep (s.count + min n (max 1 (min limit HARD_MAX_STACK_SIZE) - s.count))

/-- mirrors crates/entity/src/stack.rs:390-403 (`ItemStack::merge_capped`): what `self` and
`other` become; the remainder it returns is the count of the latter -/
def mergeCapped (s other : ItemStack) (limit : Nat) : ItemStack × ItemStack :=
  if other.isEmpty then (s, other)
  else if !s.isEmpty && !s.sameItem other then (s, other)
  else
    let limit := max 1 (min limit HARD_MAX_STACK_SIZE)
    let room := if s.isEmpty then limit else limit - s.count
    let taken := other.split room
    if s.isEmpty then taken
    else (s.keep (s.count + taken.1.count), taken.2)

end ItemStack

/-! ## The stack-size table -/

/-- mirrors crates/entity/src/stack.rs:704-707 (`StackSizeTable`): sorted by id; `resolve` fills
it from name tables whose limits are 1 and 16 -/
structure StackSizeTable where
  byId : List (Nat × Nat)
  sorted : (byId.map (·.1)).Pairwise (· < ·)
  limits : ∀ p ∈ byId, 1 ≤ p.2 ∧ p.2 ≤ DEFAULT_MAX_STACK_SIZE

/-- mirrors crates/entity/src/stack.rs:747-751 (`StackSizeTable::max_stack_size`) -/
def StackSizeTable.maxStackSize (t : StackSizeTable) (itemId : Nat) : Nat :=
  match t.byId.find? (·.1 == itemId) with
  | some (_, limit) => limit
  | none => DEFAULT_MAX_STACK_SIZE

/-- mirrors crates/entity/src/stack.rs:709-719 (`StackSizeTable::default`) -/
def StackSizeTable.default : StackSizeTable := ⟨[], List.Pairwise.nil, nofun⟩

theorem StackSizeTable.maxStackSize_bounds (t : StackSizeTable) (itemId : Nat) :
    1 ≤ t.maxStackSize itemId ∧ t.maxStackSize itemId ≤ 64 := by
  rw [maxStackSize]
  split
  · next limit h => exact t.limits _ (List.mem_of_find?_eq_some h)
  · exact ⟨by decide, by decide⟩

/-! ## Counting by identity -/

/-- What two stacks must share to be counted together. -/
abbrev Key := Nat × ItemComponents

def SameKey (a b : ItemComponents) : Prop := a = b ∨ a.partialEq b

instance (a b : ItemComponents) : Decidable (SameKey a b) := inferInstanceAs (Decidable (_ ∨ _))

theorem SameKey.refl (a : ItemComponents) : SameKey a a := .inl rfl

theorem SameKey.symm {a b : ItemComponents} (h : SameKey a b) : SameKey b a :=
  h.imp Eq.symm (ItemComponents.partialEq_symm a b)

theorem SameKey.trans {a b c : ItemComponents} (h : SameKey a b) (h' : SameKey b c) :
    SameKey a c := by
  rcases h with rfl | h
  · exact h'
  · rcases h' with rfl | h'
    · exact .inr h
    · exact .inr (ItemComponents.partialEq_trans a b c h h')

namespace ItemStack

def OfKey (k : Key) (s : ItemStack) : Prop := s.itemId = k.1 ∧ SameKey s.components k.2

instance (k : Key) (s : ItemStack) : Decidable (s.OfKey k) := inferInstanceAs (Decidable (_ ∧ _))

theorem ofKey_congr {s t : ItemStack} (hid : s.itemId = t.itemId)
    (hc : s.components = t.components) (k : Key) : s.OfKey k ↔ t.OfKey k := by
  rw [OfKey, OfKey, hid, hc]

/-- How many items of the identity `k` the stack holds. -/
def amount (k : Key) (s : ItemStack) : Nat := if s.OfKey k then s.count else 0

@[simp] theorem amount_EMPTY (k : Key) : EMPTY.amount k = 0 := by
  simp [amount]

theorem amount_of_isEmpty (k : Key) {s : ItemStack} (h : s.isEmpty) : s.amount k = 0 := by
  rw [(isEmpty_iff s).mp h, amount_EMPTY]

theorem amount_le_count (k : Key) (s : ItemStack) : s.amount k ≤ s.count := by
  rw [amount]
  split
  · exact le_refl _
  · exact Nat.zero_le _

theorem amount_self (s : ItemStack) : s.amount (s.itemId, s.components) = s.count :=
  if_pos ⟨rfl, SameKey.refl _⟩

theorem keep_count {s : ItemStack} {n : Nat} (h : n ≤ 64) (hs : ¬s.isEmpty) :
    (s.keep n).count = n := by
  unfold keep ofParts
  split
  · next hne =>
    rcases hne with h0 | h0
    · exact absurd (by simp [isEmpty, h0]) hs
    · rw [Nat.min_eq_left h] at h0
      exact h0.symm
  · exact Nat.min_eq_left h

theorem keep_kind (s : ItemStack) (n : Nat) : (s.keep n).isEmpty ∨
    ((s.keep n).itemId = s.itemId ∧ (s.keep n).components = s.components) := by
  unfold keep ofParts
  split
  · exact .inl rfl
  · exact .inr ⟨rfl, rfl⟩

theorem amount_keep (k : Key) {s : ItemStack} {n : Nat} (h : n ≤ 64) (hs : ¬s.isEmpty) :
    (s.keep n).amount k = if s.OfKey k then n else 0 := by
  have hcount := keep_count h hs
  rcases keep_kind s n with he | ⟨hid, hc⟩
  · rw [amount_of_isEmpty k he]
    rw [isEmpty_iff_count, hcount] at he
    simp [he]
  · rw [amount, hcount]
    exact if_congr (ofKey_congr hid hc k) rfl rfl

theorem keep_self {s : ItemStack} (hs : ¬s.isEmpty) : s.keep s.count = s := by
  have hne : ¬(s.itemId = AIR_ITEM_ID ∨ s.count = 0) := by
    simpa [isEmpty] using hs
  unfold keep ofParts
  simp only [Nat.min_eq_left s.count_le, dif_neg hne]

/-- Building a stack anew with a legal count gives the stack of that count. -/
theorem withComponents_keep {s : ItemStack} {n : Nat} (hs : ¬s.isEmpty) (h1 : 1 ≤ n)
    (h64 : n ≤ 64) : withComponents s.itemId n s.components = .ok (s.keep n) := by
  have hid : s.itemId ≠ AIR_ITEM_ID := fun h0 => hs (by simp [isEmpty, h0])
  have hn : n ≠ 0 := by omega
  have hparts : ofParts s.itemId n [] h64 =
      ⟨s.itemId, n, [], .inr ⟨Nat.pos_of_ne_zero hid, h1, h64⟩⟩ := by
    rw [ofParts, dif_neg (not_or.mpr ⟨hid, hn⟩)]
  have hnew : new s.itemId n = .ok (ofParts s.itemId n [] h64) := by
    have hle : ¬(n : Int) > HARD_MAX_STACK_SIZE := by
      rw [HARD_MAX_STACK_SIZE, DEFAULT_MAX_STACK_SIZE]
      omega
    unfold new
    rw [if_neg (by omega), dif_neg hle]
    rfl
  have hne : ofParts s.itemId n [] h64 ≠ EMPTY := by
    rw [hparts]
    intro h
    exact hid (congrArg ItemStack.itemId h)
  have hkeep : s.keep n = ⟨s.itemId, n, s.components, .inr ⟨Nat.pos_of_ne_zero hid, h1, h64⟩⟩ := by
    have hmin : min n HARD_MAX_STACK_SIZE = n := Nat.min_eq_left h64
    unfold keep ofParts
    simp only [hmin, dif_neg (not_or.mpr ⟨hid, hn⟩)]
  have hset : (ofParts s.itemId n [] h64).setComponents s.components = s.keep n := by
    rw [setComponents, dif_neg (mt (isEmpty_iff _).mp hne), hkeep]
    simp only [hparts]
  simp only [withComponents, hnew, bind, Except.bind, pure, Except.pure, hset]

theorem split_count (s : ItemStack) (n : Nat) :
    (s.split n).1.count = min n s.count ∧ (s.split n).2.count = s.count - min n s.count := by
  rw [split]
  split
  · next h =>
    rcases h with rfl | h
    · simp
    · rw [isEmpty_iff_count] at h
      simp [h]
  · next h =>
    rw [not_or] at h
    have hle := s.count_le
    exact ⟨keep_count (by omega) h.2, keep_count (by omega) h.2⟩

/-- A split moves items. -/
theorem split_amount (k : Key) (s : ItemStack) (n : Nat) :
    (s.split n).1.amount k + (s.split n).2.amount k = s.amount k := by
  rw [split]
  split
  · simp
  · next h =>
    rw [not_or] at h
    have hle := s.count_le
    rw [amount_keep k (by omega) h.2, amount_keep k (by omega) h.2, amount]
    split <;> omega

/-- The two parts of a split are of the identity of the whole, when they are not empty. -/
theorem split_kind (s : ItemStack) (n : Nat) :
    ((s.split n).1.isEmpty ∨ ((s.split n).1.itemId = s.itemId ∧
      (s.split n).1.components = s.components)) ∧
    ((s.split n).2.isEmpty ∨ ((s.split n).2.itemId = s.itemId ∧
      (s.split n).2.components = s.components)) := by
  rw [split]
  split
  · exact ⟨.inl rfl, .inr ⟨rfl, rfl⟩⟩
  · exact ⟨keep_kind s _, keep_kind s _⟩

/-- What a split takes off, by identity. -/
theorem amount_split_fst (k : Key) (s : ItemStack) (n : Nat) :
    (s.split n).1.amount k = if s.OfKey k then min n s.count else 0 := by
  rcases (split_kind s n).1 with he | ⟨hid, hc⟩
  · rw [amount_of_isEmpty k he]
    rw [isEmpty_iff_count, (split_count s n).1] at he
    simp [he]
  · rw [amount, (split_count s n).1]
    exact if_congr (ofKey_congr hid hc k) rfl rfl

theorem sameItem_iff {s t : ItemStack} :
    s.sameItem t ↔ ¬s.isEmpty ∧ s.itemId = t.itemId ∧ s.components.partialEq t.components := by
  simp [sameItem, and_assoc]

/-- Stacks the source merges are counted alike. -/
theorem ofKey_of_sameItem {s t : ItemStack} (h : s.sameItem t) (k : Key) : s.OfKey k ↔ t.OfKey k := by
  obtain ⟨-, hid, hc⟩ := sameItem_iff.mp h
  have hkey : SameKey s.components t.components := .inr hc
  rw [OfKey, OfKey, hid]
  exact and_congr_right fun _ => ⟨hkey.symm.trans, hkey.trans⟩

/-- The clamp of `merge_capped`. -/
abbrev clampLimit (limit : Nat) : Nat := max 1 (min limit HARD_MAX_STACK_SIZE)

theorem clampLimit_le (limit : Nat) : clampLimit limit ≤ 64 := by
  simp only [clampLimit, HARD_MAX_STACK_SIZE, DEFAULT_MAX_STACK_SIZE]
  omega

theorem clampLimit_eq {limit : Nat} (h : 1 ≤ limit) (h' : limit ≤ 64) :
    clampLimit limit = limit := by
  simp only [clampLimit, HARD_MAX_STACK_SIZE, DEFAULT_MAX_STACK_SIZE]
  omega

theorem merge_blocked {s other : ItemStack} {limit : Nat}
    (h : other.isEmpty ∨ (¬s.isEmpty ∧ ¬s.sameItem other)) :
    s.mergeCapped other limit = (s, other) := by
  unfold mergeCapped
  rcases h with h | ⟨h1, h2⟩
  · rw [if_pos h]
  · by_cases hother : other.isEmpty
    · rw [if_pos hother]
    · rw [if_neg hother, if_pos (by simp [h1, h2])]

theorem merge_into_empty {s other : ItemStack} {limit : Nat} (hs : s.isEmpty) :
    s.mergeCapped other limit =
      if other.isEmpty then (s, other) else other.split (clampLimit limit) := by
  unfold mergeCapped
  simp only [hs, Bool.not_true, Bool.false_and, Bool.false_eq_true, if_false, if_true]

theorem merge_same {s other : ItemStack} {limit : Nat} (hsame : s.sameItem other)
    (hother : ¬other.isEmpty) : s.mergeCapped other limit =
      (s.keep (s.count + min (clampLimit limit - s.count) other.count),
        (other.split (clampLimit limit - s.count)).2) := by
  have hs : ¬s.isEmpty := (sameItem_iff.mp hsame).1
  unfold mergeCapped
  rw [if_neg hother, if_neg (by simp [hsame])]
  simp only [hs, Bool.false_eq_true, if_false, (split_count other _).1]

theorem merge_cases (s other : ItemStack) :
    (other.isEmpty ∨ (¬s.isEmpty ∧ ¬s.sameItem other)) ∨
      (¬other.isEmpty ∧ s.isEmpty) ∨ (¬other.isEmpty ∧ s.sameItem other) := by
  by_cases h1 : other.isEmpty
  · exact .inl (.inl h1)
  · by_cases h2 : s.isEmpty
    · exact .inr (.inl ⟨h1, h2⟩)
    · by_cases h3 : s.sameItem other
      · exact .inr (.inr ⟨h1, h3⟩)
      · exact .inl (.inr ⟨h2, h3⟩)

/-- A merge moves items. -/
theorem merge_amount (k : Key) (s other : ItemStack) (limit : Nat) :
    (s.mergeCapped other limit).1.amount k + (s.mergeCapped other limit).2.amount k =
      s.amount k + other.amount k := by
  rcases merge_cases s other with h | ⟨hother, hs⟩ | ⟨hother, hsame⟩
  · rw [merge_blocked h]
  · rw [merge_into_empty hs, if_neg hother, split_amount, amount_of_isEmpty k hs, Nat.zero_add]
  · have hs : ¬s.isEmpty := (sameItem_iff.mp hsame).1
    have hkind := ofKey_of_sameItem hsame k
    have hle := s.count_le
    have hmoved := split_amount k other (clampLimit limit - s.count)
    rw [amount_split_fst] at hmoved
    have hbound : s.count + min (clampLimit limit - s.count) other.count ≤ 64 := by
      have := clampLimit_le limit
      omega
    rw [merge_same hsame hother, amount_keep k hbound hs]
    unfold amount at *
    by_cases hk : s.OfKey k
    · simp only [hk, hkind.mp hk, if_true] at *
      omega
    · simp only [hk, mt hkind.mpr hk, if_false] at *
      omega

end ItemStack
end Apoptosis.L2
