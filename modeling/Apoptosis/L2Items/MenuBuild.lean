import Apoptosis.Core.Framing
import Apoptosis.L2Items.MenuSpec
/-!
# The menus of the server (`container/src/menu.rs`)

Six constructors, for the player's own window and for the blocks that open
one. None shows a container slot twice, so a menu one of them built keeps its
limits whatever it holds.

* `Built.noAlias`: no built menu shows a container slot twice.
-/
namespace Apoptosis.L2.Menu
open Apoptosis.Core

/-- The player's main rows, then the hotbar. -/
def playerRows (container : Nat) : List SlotMapping :=
  (List.range' 9 27).map (.storage container) ++ (List.range 9).map (.storage container)

/-- mirrors crates/container/src/menu.rs:348-393 (`Menu::player`) -/
def player (windowId : Nat) (playerSlots : Container) (stackSizes : StackSizeTable) : ServerResult Menu :=
  if playerSlots.slots.length ≠ 41 then
    .error (.invariant s!"a player inventory container needs 41 slots, got {playerSlots.slots.length}")
  else do
    let result ← Container.new .crafting 1
    let grid ← Container.new .crafting 4
    new windowId [playerSlots, result, grid]
      (.withRole 1 0 .craftingResult :: (List.range 4).map (.withRole 2 · .craftingInput) ++
        (List.range 4).map (fun slot => .withRole 0 (36 + slot) .armor) ++ playerRows 0 ++ [.withRole 0 40 .offhand])
      ⟨[⟨9, 45⟩], 0⟩ stackSizes

/-- The constructor the block menus share: the block's slots, then the player's. -/
def blockMenu (what wants : String) (sizes : List Nat) (kind : ContainerKind) (kindName : String)
    (shown : Nat → List SlotMapping) (windowId : Nat) (blockSlots playerSlots : Container)
    (stackSizes : StackSizeTable) : ServerResult Menu :=
  if blockSlots.slots.length ∉ sizes then
    .error (.invariant s!"a {what} container needs {wants} slots, got {blockSlots.slots.length}")
  else if blockSlots.kind ≠ kind then
    .error (.invariant s!"a {what} container must be {kindName}, got {blockSlots.kind.name}")
  else if playerSlots.slots.length ≠ 41 then
    .error (.invariant s!"a {what} menu needs 41 player slots, got {playerSlots.slots.length}")
  else
    new windowId [blockSlots, playerSlots] (shown blockSlots.slots.length ++ playerRows 1)
      (.containerAndPlayer blockSlots.slots.length) stackSizes

/-- Slots of the block that store anything. -/
def storageSlots (count : Nat) : List SlotMapping := (List.range count).map (.storage 0)

/-- mirrors crates/container/src/menu.rs:418-464 (`Menu::chest`) -/
def chest : Nat → Container → Container → StackSizeTable → ServerResult Menu :=
  blockMenu "chest" "27 or 54" [27, 54] .generic "Generic" storageSlots

/-- mirrors crates/container/src/menu.rs:472-514 (`Menu::furnace`) -/
def furnace : Nat → Container → Container → StackSizeTable → ServerResult Menu :=
  blockMenu "furnace" "3" [3] .furnace "Furnace"
    fun _ => [.withRole 0 0 .furnaceInput, .withRole 0 1 .furnaceFuel, .withRole 0 2 .furnaceOutput]

/-- mirrors crates/container/src/menu.rs:521-562 (`Menu::hopper`) -/
def hopper : Nat → Container → Container → StackSizeTable → ServerResult Menu :=
  blockMenu "hopper" "5" [5] .generic "Generic" storageSlots

/-- mirrors crates/container/src/menu.rs:570-611 (`Menu::dispenser`) -/
def dispenser : Nat → Container → Container → StackSizeTable → ServerResult Menu :=
  blockMenu "dispenser" "9" [9] .generic "Generic" storageSlots

/-- mirrors crates/container/src/menu.rs:628-687 (`Menu::crafting_table`) -/
def craftingTable (windowId : Nat) (gridSlots playerSlots : Container) (stackSizes : StackSizeTable) :
    ServerResult Menu :=
  if gridSlots.slots.length ≠ 9 then
    .error (.invariant s!"a crafting grid needs 9 slots, got {gridSlots.slots.length}")
  else if gridSlots.kind ≠ .crafting then
    .error (.invariant s!"a crafting grid must be Crafting, got {gridSlots.kind.name}")
  else if playerSlots.slots.length ≠ 41 then
    .error (.invariant s!"a crafting menu needs 41 player slots, got {playerSlots.slots.length}")
  else do
    let result ← Container.new .crafting 1
    new windowId [playerSlots, result, gridSlots]
      (.withRole 1 0 .craftingResult :: (List.range 9).map (.withRole 2 · .craftingInput) ++ playerRows 0)
      ⟨[⟨0, 10⟩, ⟨10, 37⟩, ⟨37, 46⟩], 0⟩ stackSizes

/-- A menu as one of the constructors returns it. -/
inductive Built : Menu → Prop
  | player {id slots sizes m} : player id slots sizes = .ok m → Built m
  | chest {id block slots sizes m} : chest id block slots sizes = .ok m → Built m
  | furnace {id block slots sizes m} : furnace id block slots sizes = .ok m → Built m
  | hopper {id block slots sizes m} : hopper id block slots sizes = .ok m → Built m
  | dispenser {id block slots sizes m} : dispenser id block slots sizes = .ok m → Built m
  | craftingTable {id block slots sizes m} : craftingTable id block slots sizes = .ok m → Built m

theorem new_slots {windowId : Nat} {containers : List Container} {slots : List SlotMapping} {layout : MenuLayout}
    {stackSizes : StackSizeTable} {m : Menu} (h : new windowId containers slots layout stackSizes = .ok m) :
    m.slots = slots := by
  unfold new at h
  split at h
  · cases h
  · split at h
    · cases h
    · cases h
      rfl

theorem noAlias_of_slots {m : Menu} {slots : List SlotMapping} (hslots : m.slots = slots)
    (h : (slots.map SlotMapping.place).Nodup) : m.NoAlias := by
  rw [NoAlias, hslots]
  exact h

theorem blockMenu_noAlias {what wants kindName : String} {sizes : List Nat} {kind : ContainerKind}
    {shown : Nat → List SlotMapping} {windowId : Nat} {blockSlots playerSlots : Container} {stackSizes : StackSizeTable}
    {m : Menu}
    (h : blockMenu what wants sizes kind kindName shown windowId blockSlots playerSlots stackSizes = .ok m)
    (hshown : ∀ size ∈ sizes, ((shown size ++ playerRows 1).map SlotMapping.place).Nodup) : m.NoAlias := by
  unfold blockMenu at h
  split at h
  · exact nomatch h
  next hsize =>
  split at h
  · exact nomatch h
  split at h
  · exact nomatch h
  · exact noAlias_of_slots (new_slots h) (hshown _ (not_not.mp hsize))

theorem Built.noAlias {m : Menu} (h : Built m) : m.NoAlias := by
  cases h with
  | player h =>
    unfold Menu.player at h
    split at h
    · exact nomatch h
    · obtain ⟨_, -, h⟩ := Framing.bind_ok h
      obtain ⟨_, -, h⟩ := Framing.bind_ok h
      exact noAlias_of_slots (new_slots h) (by decide +kernel)
  | chest h => exact blockMenu_noAlias h (by decide +kernel)
  | furnace h => exact blockMenu_noAlias h (by decide +kernel)
  | hopper h => exact blockMenu_noAlias h (by decide +kernel)
  | dispenser h => exact blockMenu_noAlias h (by decide +kernel)
  | craftingTable h =>
    unfold Menu.craftingTable at h
    split at h
    · exact nomatch h
    split at h
    · exact nomatch h
    split at h
    · exact nomatch h
    · obtain ⟨_, -, h⟩ := Framing.bind_ok h
      exact noAlias_of_slots (new_slots h) (by decide +kernel)

end Apoptosis.L2.Menu
