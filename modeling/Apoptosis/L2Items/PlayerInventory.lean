import Apoptosis.Core.Tally
import Apoptosis.L2Items.Stack
/-!
# Player inventories (`entity/src/inventory.rs`)

* `addStack_amount`: what is added is in the slots or left over.
-/
namespace Apoptosis.L2
open Apoptosis.Core

def HOTBAR_SLOTS : Nat := 9
def MAIN_START : Nat := 9
def ARMOR_START : Nat := 36
def LAST_STORED_SLOT : Nat := 40

/-- mirrors crates/entity/src/inventory.rs:135-142 (`PlayerInventory`) -/
structure PlayerInventory where
  slots : List ItemStack
  stackSizes : StackSizeTable
  sized : slots.length = LAST_STORED_SLOT + 1

namespace PlayerInventory

/-- mirrors crates/entity/src/inventory.rs:431-435 (`limit_for`) -/
def limitFor (inventory : PlayerInventory) (stack : ItemStack) : Nat :=
  match stack.itemId? with
  | none => 1
  | some itemId => inventory.stackSizes.maxStackSize itemId

/-- One pass of `add_stack` over the slots: those it accepts are filled from the stack until it is empty. -/
def pour (accepts : ItemStack → ItemStack → Bool) (limit : Nat) :
    List Nat → List ItemStack × ItemStack → List ItemStack × ItemStack
  | [], held => held
  | index :: rest, (slots, stack) =>
    match slots[index]? with
    | none => pour accepts limit rest (slots, stack)
    | some slot =>
      if !accepts slot stack then pour accepts limit rest (slots, stack)
      else
        let merged := slot.mergeCapped stack limit
        if merged.2.isEmpty then (slots.set index merged.1, ItemStack.EMPTY)
        else pour accepts limit rest (slots.set index merged.1, merged.2)

theorem pour_length (accepts : ItemStack → ItemStack → Bool) (limit : Nat) (indices : List Nat)
    (held : List ItemStack × ItemStack) : (pour accepts limit indices held).1.length = held.1.length := by
  induction indices generalizing held with
  | nil => rfl
  | cons index rest ih =>
    obtain ⟨slots, stack⟩ := held
    unfold pour
    split
    · exact ih _
    split
    · exact ih _
    dsimp only
    split
    · exact List.length_set
    · exact (ih _).trans List.length_set

/-- The slots that `add_stack` fills. -/
def candidates : List Nat := List.range HOTBAR_SLOTS ++ List.range' MAIN_START (ARMOR_START - MAIN_START)

/-- The slots and the rest of the stack after both passes. -/
def filled (inventory : PlayerInventory) (stack : ItemStack) : List ItemStack × ItemStack :=
  if stack.isEmpty then (inventory.slots, ItemStack.EMPTY)
  else
    let limit := inventory.limitFor stack
    let topped := pour ItemStack.sameItem limit candidates (inventory.slots, stack)
    if topped.2.isEmpty then topped
    else pour (fun slot _ => slot.isEmpty) limit candidates topped

/-- mirrors crates/entity/src/inventory.rs:305-339 (`PlayerInventory::add_stack`), with what did not fit -/
def addStack (inventory : PlayerInventory) (stack : ItemStack) : PlayerInventory × ItemStack :=
  ({ inventory with
      slots := (inventory.filled stack).1
      sized := by
        rw [← inventory.sized, filled]
        split
        · rfl
        · dsimp only
          split
          · exact pour_length ..
          · exact (pour_length ..).trans (pour_length ..) }, (inventory.filled stack).2)

/-- How many items of an identity the inventory holds. -/
def amount (k : Key) (inventory : PlayerInventory) : Nat := tally (ItemStack.amount k) inventory.slots

theorem pour_amount (k : Key) (accepts : ItemStack → ItemStack → Bool) (limit : Nat) (indices : List Nat)
    (held : List ItemStack × ItemStack) :
    tally (ItemStack.amount k) (pour accepts limit indices held).1 + (pour accepts limit indices held).2.amount k =
      tally (ItemStack.amount k) held.1 + held.2.amount k := by
  induction indices generalizing held with
  | nil => rfl
  | cons index rest ih =>
    obtain ⟨slots, stack⟩ := held
    unfold pour
    split
    · exact ih _
    next slot hslot =>
    split
    · exact ih _
    have hmerge := ItemStack.merge_amount k slot stack limit
    have hset := tally_set (ItemStack.amount k) hslot (slot.mergeCapped stack limit).1
    dsimp only
    split
    · next hempty =>
      rw [ItemStack.amount_of_isEmpty k hempty] at hmerge
      dsimp only
      rw [ItemStack.amount_EMPTY]
      omega
    · rw [ih]
      dsimp only
      omega

/-- Adding a stack moves items. -/
theorem addStack_amount (k : Key) (inventory : PlayerInventory) (stack : ItemStack) :
    (inventory.addStack stack).1.amount k + (inventory.addStack stack).2.amount k =
      inventory.amount k + stack.amount k := by
  unfold addStack amount filled
  split
  · next hempty => rw [ItemStack.amount_EMPTY, ItemStack.amount_of_isEmpty k hempty]
  · dsimp only
    split
    · exact pour_amount ..
    · rw [pour_amount, pour_amount]

end PlayerInventory

end Apoptosis.L2
