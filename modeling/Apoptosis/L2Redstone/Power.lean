import Apoptosis.L2Registry.Blocks
/-!
# Power and the components that emit it (`redstone/src/power.rs`, `components.rs`, `blocks.rs`)

A power level holds its bound. A component is what the block state says of it;
what it emits follows from that state, and for a comparator from its inputs.

* `max_val`: the stronger of two levels.
-/
namespace Apoptosis.L2.Redstone
open Apoptosis.Core Apoptosis.L2.Registry

/-! ## `power.rs` -/

/-- mirrors crates/redstone/src/power.rs:48 -/
def MAX_POWER : Nat := 15

/-- mirrors crates/redstone/src/power.rs:58 (`PowerLevel`) -/
abbrev PowerLevel := Fin (MAX_POWER + 1)

namespace PowerLevel

def ZERO : PowerLevel := ⟨0, by decide⟩

def MAX : PowerLevel := ⟨MAX_POWER, by decide⟩

/-- mirrors crates/redstone/src/power.rs:90-96 (`PowerLevel::from_raw`) -/
def fromRaw (value : Nat) : PowerLevel := if h : value ≤ MAX_POWER then ⟨value, by omega⟩ else MAX

/-- mirrors crates/redstone/src/power.rs:111-113 (`PowerLevel::is_powered`) -/
def isPowered (level : PowerLevel) : Bool := level.val ≠ 0

/-- mirrors crates/redstone/src/power.rs:121-123 (`PowerLevel::saturating_sub`) -/
def saturatingSub (level : PowerLevel) (amount : Nat) : PowerLevel :=
  ⟨level.val - amount, by have := level.isLt; omega⟩

@[simp] theorem ZERO_val : ZERO.val = 0 := rfl

@[simp] theorem MAX_val : MAX.val = 15 := rfl

theorem val_le (level : PowerLevel) : level.val ≤ 15 := Nat.lt_succ_iff.mp level.isLt

@[simp] theorem fromRaw_val (level : PowerLevel) : fromRaw level.val = level := by
  rw [fromRaw, dif_pos (show level.val ≤ MAX_POWER from val_le level)]

theorem max_val (a b : PowerLevel) : (max a b).val = max a.val b.val := by
  rcases le_total a b with h | h
  · rw [max_eq_right h, max_eq_right (show a.val ≤ b.val from h)]
  · rw [max_eq_left h, max_eq_left (show b.val ≤ a.val from h)]

end PowerLevel

/-- mirrors crates/redstone/src/power.rs:174-181 (`SignalKind`) -/
inductive SignalKind
  | weak
  | strong
  deriving DecidableEq, Repr

/-- mirrors crates/redstone/src/power.rs:243-248 (`PowerState`) -/
structure PowerState where
  weak : PowerLevel
  strong : PowerLevel
  deriving DecidableEq, Repr

namespace PowerState

def OFF : PowerState := ⟨.ZERO, .ZERO⟩

/-- mirrors crates/redstone/src/power.rs:265-270 (`PowerState::weak_only`) -/
def weakOnly (level : PowerLevel) : PowerState := ⟨level, .ZERO⟩

/-- mirrors crates/redstone/src/power.rs:274-279 (`PowerState::strong_at`) -/
def strongAt (level : PowerLevel) : PowerState := ⟨level, level⟩

/-- mirrors crates/redstone/src/power.rs:289-295 (`PowerState::effective`) -/
def effective (state : PowerState) : PowerLevel :=
  if state.weak.val ≥ state.strong.val then state.weak else state.strong

/-- mirrors crates/redstone/src/power.rs:299-312 (`PowerState::max`) -/
def max (state other : PowerState) : PowerState where
  weak := if state.weak.val ≥ other.weak.val then state.weak else other.weak
  strong := if state.strong.val ≥ other.strong.val then state.strong else other.strong

/-- mirrors crates/redstone/src/power.rs:316-318 (`PowerState::is_powered`) -/
def isPowered (state : PowerState) : Bool := state.weak.isPowered || state.strong.isPowered

@[simp] theorem effective_OFF : OFF.effective = .ZERO := rfl

@[simp] theorem effective_weakOnly (level : PowerLevel) : (weakOnly level).effective = level :=
  if_pos (Nat.zero_le _)

@[simp] theorem effective_strongAt (level : PowerLevel) : (strongAt level).effective = level :=
  if_pos le_rfl

end PowerState

/-- mirrors crates/redstone/src/power.rs:361-383 (`PowerSource`) -/
inductive PowerSource
  | redstoneBlock
  | torch
  | lever
  | button
  | pressurePlate
  | repeater
  | comparator
  | observer
  | lightningRod
  deriving DecidableEq, Repr

namespace PowerSource

/-- mirrors crates/redstone/src/power.rs:413-427 (`PowerSource::base_power`) -/
def basePower : PowerSource → PowerLevel
  | redstoneBlock | torch | lever | button | pressurePlate | repeater | comparator | observer
  | lightningRod => .MAX

/-- mirrors crates/redstone/src/power.rs:445-447 (`PowerSource::is_strong_source`) -/
def isStrongSource : PowerSource → Bool
  | redstoneBlock | observer => true
  | _ => false

/-- mirrors crates/redstone/src/power.rs:451-458 (`PowerSource::active_state`) -/
def activeState (source : PowerSource) : PowerState :=
  if source.isStrongSource then .strongAt source.basePower else .weakOnly source.basePower

end PowerSource

/-! ## `components.rs` -/

/-- mirrors crates/redstone/src/components.rs:265 (`Repeater::MIN_DELAY`) -/
def MIN_DELAY : Nat := 1

/-- mirrors crates/redstone/src/components.rs:272 (`Repeater::MAX_DELAY`) -/
def MAX_DELAY : Nat := 4

/-- mirrors crates/redstone/src/components.rs:64-72 (`clamp_repeater_delay`) -/
def clampRepeaterDelay (delay : Nat) : Nat :=
  if delay < MIN_DELAY then MIN_DELAY else if delay > MAX_DELAY then MAX_DELAY else delay

/-- mirrors crates/redstone/src/components.rs:89-92 (`Lever`) -/
structure Lever where
  on : Bool
  deriving DecidableEq, Repr

/-- mirrors crates/redstone/src/components.rs:142-145 (`Observer`) -/
structure Observer where
  powered : Bool
  deriving DecidableEq, Repr

/-- mirrors crates/redstone/src/components.rs:186-189 (`RedstoneTorch`) -/
structure RedstoneTorch where
  lit : Bool
  deriving DecidableEq, Repr

/-- mirrors crates/redstone/src/components.rs:216-222 (`RedstoneTorch::output`) -/
def RedstoneTorch.output (torch : RedstoneTorch) : PowerState :=
  if torch.lit then .weakOnly PowerSource.torch.basePower else .OFF

/-- mirrors crates/redstone/src/components.rs:251-258 (`Repeater`) -/
structure Repeater where
  delay : Nat
  powered : Bool
  locked : Bool
  deriving DecidableEq, Repr

/-- mirrors crates/redstone/src/components.rs:298-304 (`Repeater::output`) -/
def Repeater.output (repeater : Repeater) : PowerState :=
  if repeater.powered then .weakOnly PowerSource.repeater.basePower else .OFF

/-- mirrors crates/redstone/src/components.rs:328-333 (`ComparatorMode`) -/
inductive ComparatorMode
  | compare
  | subtract
  deriving DecidableEq, Repr

/-- mirrors crates/redstone/src/components.rs:361-366 (`Comparator`) -/
structure Comparator where
  mode : ComparatorMode
  powered : Bool
  deriving DecidableEq, Repr

namespace Comparator

/-- mirrors crates/redstone/src/components.rs:371-376 (`Comparator::new`) -/
def new (mode : ComparatorMode) : Comparator := ⟨mode, false⟩

/-- mirrors crates/redstone/src/components.rs:391-402 (`Comparator::level`) -/
def level (comparator : Comparator) (back side : PowerLevel) : PowerLevel :=
  match comparator.mode with
  | .compare => if back.val ≥ side.val then back else .ZERO
  | .subtract => back.saturatingSub side.val

/-- mirrors crates/redstone/src/components.rs:409-411 (`Comparator::output`) -/
def output (comparator : Comparator) (back side : PowerLevel) : PowerState :=
  .weakOnly (comparator.level back side)

end Comparator

/-- mirrors crates/redstone/src/components.rs:427-438 (`ComponentState`) -/
inductive ComponentState
  | lever (state : Lever)
  | torch (state : RedstoneTorch)
  | repeater (state : Repeater)
  | comparator (state : Comparator)
  | observer (state : Observer)
  deriving DecidableEq, Repr

/-- mirrors crates/redstone/src/components.rs:471-492 (`ComponentState::output_power`) -/
def ComponentState.outputPower (component : ComponentState) (input : PowerState) : PowerState :=
  match component with
  | .lever state => if state.on then .weakOnly PowerSource.lever.basePower else .OFF
  | .torch state => state.output
  | .repeater state => state.output
  | .comparator state => state.output input.effective .ZERO
  | .observer state => if state.powered then PowerSource.observer.activeState else .OFF

/-! ## `blocks.rs` -/

/-- mirrors crates/redstone/src/blocks.rs:27 -/
def REDSTONE_WIRE : Text := "minecraft:redstone_wire".toList

/-- mirrors crates/redstone/src/blocks.rs:30 -/
def LEVER : Text := "minecraft:lever".toList

/-- mirrors crates/redstone/src/blocks.rs:36 -/
def REDSTONE_TORCH : Text := "minecraft:redstone_torch".toList

/-- mirrors crates/redstone/src/blocks.rs:39 -/
def REDSTONE_WALL_TORCH : Text := "minecraft:redstone_wall_torch".toList

/-- mirrors crates/redstone/src/blocks.rs:42 -/
def REDSTONE_BLOCK : Text := "minecraft:redstone_block".toList

/-- mirrors crates/redstone/src/blocks.rs:45 -/
def REPEATER : Text := "minecraft:repeater".toList

/-- mirrors crates/redstone/src/blocks.rs:52 -/
def REDSTONE_LAMP : Text := "minecraft:redstone_lamp".toList

/-- mirrors crates/redstone/src/blocks.rs:55 -/
def COMPARATOR : Text := "minecraft:comparator".toList

/-- mirrors crates/redstone/src/blocks.rs:76-168 (`SOURCE_BLOCKS`) -/
def SOURCE_BLOCKS : List (Text × PowerSource) := [
  (REDSTONE_BLOCK, .redstoneBlock),
  (REDSTONE_TORCH, .torch),
  (REDSTONE_WALL_TORCH, .torch),
  (LEVER, .lever),
  ("minecraft:stone_button".toList, .button),
  ("minecraft:oak_button".toList, .button),
  ("minecraft:spruce_button".toList, .button),
  ("minecraft:birch_button".toList, .button),
  ("minecraft:jungle_button".toList, .button),
  ("minecraft:acacia_button".toList, .button),
  ("minecraft:cherry_button".toList, .button),
  ("minecraft:dark_oak_button".toList, .button),
  ("minecraft:pale_oak_button".toList, .button),
  ("minecraft:mangrove_button".toList, .button),
  ("minecraft:bamboo_button".toList, .button),
  ("minecraft:crimson_button".toList, .button),
  ("minecraft:warped_button".toList, .button),
  ("minecraft:polished_blackstone_button".toList, .button),
  ("minecraft:stone_pressure_plate".toList, .pressurePlate),
  ("minecraft:oak_pressure_plate".toList, .pressurePlate),
  ("minecraft:spruce_pressure_plate".toList, .pressurePlate),
  ("minecraft:birch_pressure_plate".toList, .pressurePlate),
  ("minecraft:jungle_pressure_plate".toList, .pressurePlate),
  ("minecraft:acacia_pressure_plate".toList, .pressurePlate),
  ("minecraft:cherry_pressure_plate".toList, .pressurePlate),
  ("minecraft:dark_oak_pressure_plate".toList, .pressurePlate),
  ("minecraft:pale_oak_pressure_plate".toList, .pressurePlate),
  ("minecraft:mangrove_pressure_plate".toList, .pressurePlate),
  ("minecraft:bamboo_pressure_plate".toList, .pressurePlate),
  ("minecraft:crimson_pressure_plate".toList, .pressurePlate),
  ("minecraft:warped_pressure_plate".toList, .pressurePlate),
  ("minecraft:polished_blackstone_pressure_plate".toList, .pressurePlate),
  (REPEATER, .repeater),
  (COMPARATOR, .comparator),
  ("minecraft:observer".toList, .observer),
  ("minecraft:lightning_rod".toList, .lightningRod),
  ("minecraft:exposed_lightning_rod".toList, .lightningRod),
  ("minecraft:weathered_lightning_rod".toList, .lightningRod),
  ("minecraft:oxidized_lightning_rod".toList, .lightningRod),
  ("minecraft:waxed_lightning_rod".toList, .lightningRod),
  ("minecraft:waxed_exposed_lightning_rod".toList, .lightningRod),
  ("minecraft:waxed_weathered_lightning_rod".toList, .lightningRod),
  ("minecraft:waxed_oxidized_lightning_rod".toList, .lightningRod)]

/-- mirrors crates/redstone/src/blocks.rs:172-177 (`source_for_name`) -/
def sourceForName (name : Text) : Option PowerSource :=
  (SOURCE_BLOCKS.find? (·.1 = name)).map (·.2)

/-- mirrors crates/redstone/src/blocks.rs:188-190 (`is_door`) -/
def isDoor (name : Text) : Bool := "_door".toList.isSuffixOf name

/-- mirrors crates/redstone/src/blocks.rs:196-198 (`is_trapdoor`) -/
def isTrapdoor (name : Text) : Bool := "_trapdoor".toList.isSuffixOf name

/-- mirrors crates/redstone/src/blocks.rs:204-206 (`is_fence_gate`) -/
def isFenceGate (name : Text) : Bool := "_fence_gate".toList.isSuffixOf name

/-- mirrors crates/redstone/src/blocks.rs:217-227 (`facing_offset`) -/
def facingOffset (facing : Text) : Int × Int × Int :=
  if facing = "down".toList then (0, -1, 0)
  else if facing = "up".toList then (0, 1, 0)
  else if facing = "north".toList then (0, 0, -1)
  else if facing = "south".toList then (0, 0, 1)
  else if facing = "west".toList then (-1, 0, 0)
  else if facing = "east".toList then (1, 0, 0)
  else (0, 0, -1)

end Apoptosis.L2.Redstone
