import Apoptosis.Core.Tally
import Apoptosis.L2Items.Stack
/-!
# Containers (`container/src/container.rs`)

A fixed-size list of stacks with the set of slots changed since the last look.
The size bounds that `Container::new` checks are a field.

A write of a stack the source finds equal to the old one is skipped, so a slot
holds the written stack up to `Alike`.

* `put_getElem?`, `put_tally`: what one write does to the slots and to a count.
-/
namespace Apoptosis.L2
open Apoptosis.Core

def MAX_CONTAINER_SLOTS : Nat := 54

/-- mirrors crates/container/src/container.rs:23-34 (`ContainerKind`) -/
inductive ContainerKind where
  | player | generic | crafting | furnace
  deriving DecidableEq, Repr

/-- mirrors crates/container/src/container.rs:48-55 (`ContainerKind::name`) -/
def ContainerKind.name : ContainerKind → String
  | .player => "player" | .generic => "generic" | .crafting => "crafting" | .furnace => "furnace"

/-- mirrors crates/container/src/container.rs:79-100 (`SlotRole`) -/
inductive SlotRole where
  | storage | armor | offhand | craftingInput | craftingResult
  | furnaceInput | furnaceFuel | furnaceOutput
  deriving DecidableEq, Repr

/-- mirrors crates/container/src/container.rs:105-107 (`SlotRole::may_place`) -/
def SlotRole.mayPlace : SlotRole → Bool
  | .craftingResult | .furnaceOutput => false
  | _ => true

/-- mirrors crates/container/src/container.rs:113-115 (`SlotRole::may_pickup`) -/
def SlotRole.mayPickup (_ : SlotRole) : Bool := true

/-- mirrors crates/container/src/container.rs:126-128 (`SlotRole::may_hopper_extract`) -/
def SlotRole.mayHopperExtract : SlotRole → Bool
  | .furnaceInput | .furnaceFuel => false
  | _ => true

/-- mirrors crates/container/src/container.rs:153-158 (`Container`) -/
structure Container where
  kind : ContainerKind
  slots : List ItemStack
  changed : Finset Nat
  size : 0 < slots.length ∧ slots.length ≤ MAX_CONTAINER_SLOTS
  deriving DecidableEq

namespace Container

/-- mirrors crates/container/src/container.rs:167-179 (`Container::new`) -/
def new (kind : ContainerKind) (size : Nat) : ServerResult Container :=
  if h : size = 0 ∨ size > MAX_CONTAINER_SLOTS then
    .error (.invariant s!"container of {size} slots is outside 1..={MAX_CONTAINER_SLOTS}")
  else .ok ⟨kind, List.replicate size ItemStack.EMPTY, ∅, by
    rw [List.length_replicate]; omega⟩

/-- mirrors crates/container/src/container.rs:221-223 (`Container::get`) -/
def get (c : Container) (index : Nat) : ItemStack := c.slots[index]?.getD ItemStack.EMPTY

/-- The write of `Container::set`, skipped when the old stack equals the new one. -/
def put (c : Container) (index : Nat) (stack : ItemStack) : Container :=
  if (c.get index).partialEq stack ∨ c.slots.length ≤ index then c
  else { c with
    slots := c.slots.set index stack
    changed := insert index c.changed
    size := by rw [List.length_set]; exact c.size }

/-- mirrors crates/container/src/container.rs:233-245 (`Container::set`) -/
def set (c : Container) (index : Nat) (stack : ItemStack) : ServerResult Container :=
  if index < c.slots.length then .ok (c.put index stack)
  else .error (.invalidAction s!"slot {index} is out of range")

/-- mirrors crates/container/src/container.rs:260-262 (`Container::clear_changed`) -/
def clearChanged (c : Container) : Container := { c with changed := ∅ }

/-- mirrors crates/container/src/container.rs:269-273 (`Container::mark_changed`) -/
def markChanged (c : Container) (index : Nat) : Container :=
  if index < c.slots.length then { c with changed := insert index c.changed } else c

@[simp] theorem markChanged_get (c : Container) (index j : Nat) :
    (c.markChanged index).get j = c.get j := by
  unfold markChanged
  split <;> rfl

@[simp] theorem put_length (c : Container) (index : Nat) (stack : ItemStack) :
    (c.put index stack).slots.length = c.slots.length := by
  unfold put
  split
  · rfl
  · exact List.length_set

@[simp] theorem put_kind (c : Container) (index : Nat) (stack : ItemStack) :
    (c.put index stack).kind = c.kind := by
  unfold put
  split <;> rfl

end Container

/-! ## Stacks that are counted alike -/

/-- The same stack but for component values the source finds equal. -/
def ItemStack.Alike (a b : ItemStack) : Prop :=
  a.itemId = b.itemId ∧ a.count = b.count ∧ SameKey a.components b.components

namespace ItemStack

theorem Alike.refl (a : ItemStack) : Alike a a := ⟨rfl, rfl, SameKey.refl _⟩

theorem Alike.symm {a b : ItemStack} (h : Alike a b) : Alike b a :=
  ⟨h.1.symm, h.2.1.symm, h.2.2.symm⟩

theorem alike_of_partialEq {a b : ItemStack} (h : a.partialEq b) : Alike a b := by
  simp only [partialEq, Bool.and_eq_true, beq_iff_eq] at h
  exact ⟨h.1.1, h.1.2, .inr h.2⟩

theorem Alike.amount {a b : ItemStack} (h : Alike a b) (k : Key) : a.amount k = b.amount k := by
  have hkey : a.OfKey k ↔ b.OfKey k := by
    rw [OfKey, OfKey, h.1]
    exact and_congr_right fun _ => ⟨h.2.2.symm.trans, h.2.2.trans⟩
  rw [ItemStack.amount, ItemStack.amount, h.2.1]
  exact if_congr hkey rfl rfl

end ItemStack

namespace Container

/-- A write changes one slot, to a stack counted like the written one. -/
theorem put_get (c : Container) {index : Nat} (h : index < c.slots.length) (stack : ItemStack) :
    ((c.put index stack).get index).Alike stack := by
  unfold put
  split
  · next hskip =>
    rcases hskip with heq | hlen
    · exact ItemStack.alike_of_partialEq heq
    · omega
  · have hget : (c.slots.set index stack)[index]? = some stack := by
      simp [h]
    rw [get, hget]
    exact ItemStack.Alike.refl _

theorem put_get_ne (c : Container) {index j : Nat} (h : j ≠ index) (stack : ItemStack) :
    (c.put index stack).get j = c.get j := by
  unfold put
  split
  · rfl
  · rw [get, get, List.getElem?_set_ne (Ne.symm h)]

/-- A write moves a count by the written stack less the replaced one. -/
theorem put_tally (k : Key) (c : Container) {index : Nat} (h : index < c.slots.length)
    (stack : ItemStack) :
    tally (ItemStack.amount k) (c.put index stack).slots + (c.get index).amount k =
      tally (ItemStack.amount k) c.slots + stack.amount k := by
  have hold : c.slots[index]? = some (c.get index) := by
    rw [get, List.getElem?_eq_getElem h]; rfl
  unfold put
  split
  · next hskip =>
    rcases hskip with heq | hlen
    · rw [(ItemStack.alike_of_partialEq heq).amount k]
    · omega
  · exact tally_set (ItemStack.amount k) hold stack

end Container
end Apoptosis.L2
