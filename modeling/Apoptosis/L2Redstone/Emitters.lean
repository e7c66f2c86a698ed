import Apoptosis.Core.I32
import Apoptosis.Core.Text
import Apoptosis.L2Redstone.Power
/-!
# What a block reads and emits (`redstone/src/propagation.rs`)

The block states are read through a `BlockView`; a position that is not loaded
has none. An `EmitterTable` tells from a state what role its block plays, what
it emits, and what state it takes next.

* `mem_of_comm`: neighbours are each other's neighbours.
-/
namespace Apoptosis.L2.Redstone
open Apoptosis.Core Apoptosis.L2.Registry

/-! ## Positions (`redstone/src/update.rs`) -/

/-- mirrors crates/redstone/src/update.rs:79-86 (`BlockPos`) -/
@[ext] structure BlockPos where
  x : I32
  y : I32
  z : I32

namespace BlockPos

/-- The derived order compares `x`, then `y`, then `z`. -/
def key (pos : BlockPos) : I32 ×ₗ I32 ×ₗ I32 := toLex (pos.x, toLex (pos.y, pos.z))

theorem key_injective : Function.Injective key := by
  intro p q h
  have hpair := toLex.injective h
  have hrest := toLex.injective (Prod.mk.inj hpair).2
  exact BlockPos.ext (Prod.mk.inj hpair).1 (Prod.mk.inj hrest).1 (Prod.mk.inj hrest).2

instance : LinearOrder BlockPos := LinearOrder.lift' key key_injective

/-- mirrors crates/redstone/src/update.rs:102-108 (`BlockPos::offset`) -/
def offset (pos : BlockPos) (step : Int × Int × Int) : BlockPos where
  x := .clamp (pos.x.val + step.1)
  y := .clamp (pos.y.val + step.2.1)
  z := .clamp (pos.z.val + step.2.2)

end BlockPos

/-- mirrors crates/redstone/src/update.rs:131-142 (`NeighbourSet::of`) -/
def NeighbourSet.of (pos : BlockPos) : List BlockPos :=
  [pos.offset (0, -1, 0), pos.offset (0, 1, 0), pos.offset (0, 0, -1), pos.offset (0, 0, 1),
    pos.offset (-1, 0, 0), pos.offset (1, 0, 0)]

/-! ## The world, and what a state says -/

/-- mirrors crates/redstone/src/propagation.rs:135-150 (`BlockView`) -/
class BlockView (V : Type) where
  getState : V → BlockPos → Option Int
  setState : V → BlockPos → Int → V × Bool

open BlockView

/-- mirrors crates/redstone/src/propagation.rs:153-190 (`BlockRole`) -/
inductive BlockRole
  | wire (stored : PowerLevel)
  | emitter (source : PowerSource)
  | passive
  | mechanism
  deriving DecidableEq, Repr

/-- mirrors crates/redstone/src/propagation.rs:102 -/
def WIRE_ATTENUATION_PER_BLOCK : Nat := 1

/-- mirrors crates/redstone/src/propagation.rs:193-198 (`EmitterOutput`) -/
structure EmitterOutput where
  state : PowerState
  kind : SignalKind
  deriving DecidableEq, Repr

namespace EmitterOutput

def OFF : EmitterOutput := ⟨.OFF, .weak⟩

/-- mirrors crates/redstone/src/propagation.rs:211-218 (`EmitterOutput::of`) -/
def of (state : PowerState) : EmitterOutput := ⟨state, if state.strong.val > 0 then .strong else .weak⟩

/-- mirrors crates/redstone/src/propagation.rs:222-224 (`EmitterOutput::effective`) -/
def effective (output : EmitterOutput) : PowerLevel := output.state.effective

/-- mirrors crates/redstone/src/propagation.rs:228-230 (`EmitterOutput::is_strong`) -/
def isStrong (output : EmitterOutput) : Bool := output.kind = .strong

@[simp] theorem effective_OFF : OFF.effective = .ZERO := rfl

@[simp] theorem effective_of (state : PowerState) : (of state).effective = state.effective := rfl

end EmitterOutput

/-- mirrors crates/redstone/src/propagation.rs:235-252 (`BlockInputs`) -/
structure BlockInputs where
  faces : List EmitterOutput
  dust : List Bool
  deriving DecidableEq, Repr

namespace BlockInputs

def NONE : BlockInputs := ⟨List.replicate 6 .OFF, List.replicate 6 false⟩

/-- mirrors crates/redstone/src/propagation.rs:266-274 (`BlockInputs::strongest`) -/
def strongest (inputs : BlockInputs) : EmitterOutput :=
  inputs.faces.foldl
    (fun best output => if output.effective.val > best.effective.val then output else best) .OFF

/-- mirrors crates/redstone/src/propagation.rs:282-288 (`BlockInputs::strongest_state`) -/
def strongestState (inputs : BlockInputs) : PowerState :=
  inputs.faces.foldl (fun best output => best.max (.weakOnly output.effective)) .OFF

end BlockInputs

/-- mirrors crates/redstone/src/propagation.rs:316-318 (`EmitterTable`) -/
structure EmitterTable where
  registry : BlockRegistry

/-- The value of the first property of a name. -/
def property (properties : Properties) (name : Text) : Option Text :=
  (properties.find? (·.1 = name)).map (·.2)

def propertyTrue (properties : Properties) (name : Text) : Bool :=
  properties.any fun p => p.1 = name && p.2 = "true".toList

/-- `bool::to_string`. -/
def boolText (b : Bool) : Text := if b then "true".toList else "false".toList

/-- mirrors crates/redstone/src/propagation.rs:1179-1188 (`opposite_face`) -/
def oppositeFace : Nat → Nat
  | 0 => 1
  | 1 => 0
  | 2 => 3
  | 3 => 2
  | 4 => 5
  | _ => 4

/-- mirrors crates/redstone/src/propagation.rs:1192-1202 (`facing_index`) -/
def facingIndex (facing : Text) : Nat :=
  if facing = "down".toList then 0
  else if facing = "up".toList then 1
  else if facing = "south".toList then 3
  else if facing = "west".toList then 4
  else if facing = "east".toList then 5
  else 2

/-- mirrors crates/redstone/src/propagation.rs:1015-1024 (`offset_of_face`) -/
def offsetOfFace : Nat → Int × Int × Int
  | 0 => (0, -1, 0)
  | 1 => (0, 1, 0)
  | 2 => (0, 0, -1)
  | 3 => (0, 0, 1)
  | 4 => (-1, 0, 0)
  | _ => (1, 0, 0)

/-- mirrors crates/redstone/src/propagation.rs:1206-1217 (`torch_attachment`) -/
def torchAttachment (name : Text) (properties : Properties) : Nat :=
  if name = REDSTONE_WALL_TORCH then
    oppositeFace (facingIndex ((property properties "facing".toList).getD "north".toList))
  else 0

/-- mirrors crates/redstone/src/propagation.rs:1222-1229 (`comparator_faces`) -/
def comparatorFaces (facing : Text) : Nat × Nat × Nat :=
  match facingIndex facing with
  | 4 => (5, 2, 3)
  | 5 => (4, 2, 3)
  | 3 => (2, 4, 5)
  | _ => (3, 4, 5)

/-- mirrors crates/world/src/collision.rs:237-285 (`NON_SOLID`) -/
def NON_SOLID : List Text := [
  "minecraft:air".toList, "minecraft:cave_air".toList, "minecraft:void_air".toList,
  "minecraft:water".toList, "minecraft:lava".toList, "minecraft:short_grass".toList,
  "minecraft:tall_grass".toList, "minecraft:fern".toList, "minecraft:large_fern".toList,
  "minecraft:dead_bush".toList, "minecraft:dandelion".toList, "minecraft:poppy".toList,
  "minecraft:torch".toList, "minecraft:wall_torch".toList, "minecraft:soul_torch".toList,
  "minecraft:redstone_torch".toList, "minecraft:redstone_wire".toList, "minecraft:rail".toList,
  "minecraft:powered_rail".toList, "minecraft:detector_rail".toList, "minecraft:activator_rail".toList,
  "minecraft:ladder".toList, "minecraft:vine".toList, "minecraft:oak_sapling".toList,
  "minecraft:spruce_sapling".toList, "minecraft:birch_sapling".toList, "minecraft:jungle_sapling".toList,
  "minecraft:acacia_sapling".toList, "minecraft:dark_oak_sapling".toList, "minecraft:sugar_cane".toList,
  "minecraft:wheat".toList, "minecraft:carrots".toList, "minecraft:potatoes".toList,
  "minecraft:beetroots".toList, "minecraft:snow".toList, "minecraft:lever".toList,
  "minecraft:stone_pressure_plate".toList, "minecraft:oak_pressure_plate".toList,
  "minecraft:tripwire".toList, "minecraft:tripwire_hook".toList, "minecraft:lily_pad".toList,
  "minecraft:kelp".toList, "minecraft:seagrass".toList, "minecraft:scaffolding".toList,
  "minecraft:cobweb".toList, "minecraft:soul_fire".toList, "minecraft:fire".toList]

/-- mirrors crates/world/src/collision.rs:322-344 (`is_solid`, `is_solid_or_unknown`) -/
def isSolidOrUnknown (registry : BlockRegistry) (id : Int) : Bool :=
  if registry.isEmpty id then false
  else match registry.blockName id with
    | none => true
    | some name => !NON_SOLID.contains name

namespace EmitterTable

/-- mirrors crates/redstone/src/propagation.rs:403-407 (`EmitterTable::wire_power`) -/
def wirePower (table : EmitterTable) (id : Int) : Option PowerLevel := do
  let properties ← table.registry.propertiesOf id
  let value ← property properties "power".toList
  (parseUnsigned 255 value).map PowerLevel.fromRaw

/-- mirrors crates/redstone/src/propagation.rs:366-393 (`EmitterTable::classify`) -/
def classify (table : EmitterTable) (id : Int) : BlockRole :=
  match table.registry.blockName id with
  | none => .passive
  | some name =>
    if name = REDSTONE_WIRE then
      match table.wirePower id with
      | some stored => .wire stored
      | none => .passive
    else if name = REDSTONE_LAMP then .mechanism
    else if isDoor name || isTrapdoor name || isFenceGate name then .mechanism
    else match sourceForName name with
      | some source => .emitter source
      | none => .passive

def wireProperties (power : PowerLevel) : Properties :=
  [("east".toList, "side".toList), ("north".toList, "side".toList),
    ("power".toList, Nat.toDigits 10 power.val), ("south".toList, "side".toList),
    ("west".toList, "side".toList)]

/-- mirrors crates/redstone/src/propagation.rs:420-429 (`EmitterTable::wire_state`) -/
def wireState (table : EmitterTable) (power : PowerLevel) : Option Int :=
  table.registry.stateId REDSTONE_WIRE (wireProperties power)

/-- mirrors crates/redstone/src/propagation.rs:457-516 (`EmitterTable::component_of`) -/
def componentOf (table : EmitterTable) (id : Int) : Option ComponentState :=
  match table.classify id with
  | .wire _ | .passive | .mechanism => none
  | .emitter source => do
    let properties ← table.registry.propertiesOf id
    let powered := propertyTrue properties
    match source with
    | .lever => some (.lever ⟨powered "powered".toList⟩)
    | .torch => some (.torch ⟨powered "lit".toList⟩)
    | .repeater =>
      let delay := ((property properties "delay".toList).bind (parseUnsigned (2 ^ 32 - 1))).getD MIN_DELAY
      some (.repeater
        ⟨clampRepeaterDelay delay, powered "powered".toList, powered "locked".toList⟩)
    | .comparator =>
      let mode := (property properties "mode".toList).elim .compare fun value =>
        if value = "subtract".toList then .subtract else .compare
      some (.comparator ⟨mode, powered "powered".toList⟩)
    | .observer => some (.observer ⟨powered "powered".toList⟩)
    | .redstoneBlock | .button | .pressurePlate | .lightningRod => none

/-- mirrors crates/redstone/src/propagation.rs:547-580 (`EmitterTable::emitted`) -/
def emitted (role : BlockRole) (inputs : BlockInputs) : EmitterOutput :=
  match role with
  | .wire _ =>
    let best := (inputs.faces.zip inputs.dust).foldl
      (fun best face =>
        let level := face.1.effective
        let level := if face.2 then level.saturatingSub WIRE_ATTENUATION_PER_BLOCK else level
        max best level) PowerLevel.ZERO
    .of (.weakOnly best)
  | .emitter .comparator =>
    .of ((Comparator.new .compare).output inputs.strongestState.effective .ZERO)
  | .emitter other => .of other.activeState
  | .mechanism | .passive => .OFF

/-- mirrors crates/redstone/src/propagation.rs:596-634 (`EmitterTable::emitted_for_id`) -/
def emittedForId (table : EmitterTable) (id : Int) (inputs : BlockInputs) : EmitterOutput :=
  let role := table.classify id
  match role with
  | .passive | .mechanism => .OFF
  | .wire _ => emitted role inputs
  | .emitter _ => match table.componentOf id with
    | some (.comparator comparator) =>
      let facing := ((table.registry.propertiesOf id).bind (property · "facing".toList)).getD "north".toList
      let (back, sideA, sideB) := comparatorFaces facing
      let level index := (inputs.faces[index]?).elim PowerLevel.ZERO fun output => output.state.effective
      .of (comparator.output (level back) (max (level sideA) (level sideB)))
    | some component => .of (component.outputPower inputs.strongestState)
    | none => emitted role .NONE

/-- mirrors crates/redstone/src/propagation.rs:762-767 (`is_conductive`) -/
def isConductive (table : EmitterTable) (id : Int) : Bool :=
  match table.classify id with
  | .wire _ | .emitter _ | .mechanism => false
  | .passive => isSolidOrUnknown table.registry id

/-- mirrors crates/redstone/src/propagation.rs:977-983 (`property_is`) -/
def propertyIs (table : EmitterTable) (id : Int) (name : Text) : Bool :=
  (table.registry.propertiesOf id).any (propertyTrue · name)

/-- mirrors crates/redstone/src/propagation.rs:992-1011 (`lever_mount`) -/
def leverMount (table : EmitterTable) (id : Int) (leverPos : BlockPos) : Option BlockPos := do
  let properties ← table.registry.propertiesOf id
  let face ← property properties "face".toList
  if face = "floor".toList then some (leverPos.offset (0, -1, 0))
  else if face = "ceiling".toList then some (leverPos.offset (0, 1, 0))
  else if face = "wall".toList then
    let facing := (property properties "facing".toList).getD "north".toList
    some (leverPos.offset (offsetOfFace (oppositeFace (facingIndex facing))))
  else none

/-- The `facing` of an observer's state, `north` where it cannot be read. -/
def observerFacing (table : EmitterTable) (id : Int) : Int × Int × Int :=
  facingOffset (((table.registry.propertiesOf id).bind (property · "facing".toList)).getD "north".toList)

/-- mirrors crates/redstone/src/propagation.rs:1132-1158 (`observer_emits_toward`) -/
def observerEmitsToward (table : EmitterTable) (id : Int) (faceIndex : Nat) : Bool :=
  if faceIndex < 6 then -offsetOfFace faceIndex = -table.observerFacing id else false

end EmitterTable

open EmitterTable

section View

variable {V : Type} [BlockView V]

/-- The passive arm of `gather_inputs_inner` with `solids_live = false`: every solid reads as dark. -/
def dark : BlockPos → Option (PowerLevel × Bool) := fun _ => none

/-- What the neighbour on one face emits towards the reader, and whether it reads as dust. -/
def cite (world : V) (table : EmitterTable) (forWire : Bool)
    (solid : BlockPos → Option (PowerLevel × Bool)) (index : Nat) (neighbour : BlockPos) :
    EmitterOutput × Bool :=
  match getState world neighbour with
  | none => (.OFF, false)
  | some id => match table.classify id with
    | .wire stored => (.of (.weakOnly stored), true)
    | .emitter source =>
      (if source = .observer && !table.observerEmitsToward id index then .OFF
        else table.emittedForId id .NONE, false)
    | .mechanism => (.OFF, false)
    | .passive =>
      if !table.isConductive id || (forWire && index = 1) then (.OFF, false)
      else match solid neighbour with
        | some (level, true) => (.of (.strongAt level), false)
        | some (level, false) => (.of (.weakOnly level), forWire)
        | none => (.OFF, false)

/-- mirrors crates/redstone/src/propagation.rs:1056-1122 (`gather_inputs_inner`), which reads the power
of a solid through `solid`. -/
def gatherInputsInner (world : V) (table : EmitterTable) (pos : BlockPos) (forWire : Bool)
    (solid : BlockPos → Option (PowerLevel × Bool)) : BlockInputs :=
  let cited := (NeighbourSet.of pos).zipIdx.map fun (neighbour, index) =>
    cite world table forWire solid index neighbour
  ⟨cited.map Prod.fst, cited.map Prod.snd⟩

/-- mirrors crates/redstone/src/propagation.rs:879-891 (`dust_headroom`) -/
def dustHeadroom (world : V) (table : EmitterTable) (dustPos : BlockPos) (faceIndex : Nat) : Bool :=
  if faceIndex = 1 then true
  else match getState world (dustPos.offset (0, 1, 0)) with
    | none => true
    | some above => !table.isConductive above

/-- mirrors crates/redstone/src/propagation.rs:898-973 (`solid_emitter_contribution`) -/
def solidEmitterContribution (world : V) (table : EmitterTable) (source : PowerSource) (id : Int)
    (emitterPos solidPos : BlockPos) (faceIndex : Nat) : Option (PowerLevel × Bool) :=
  match source with
  | .torch =>
    if faceIndex ≠ 0 || !table.propertyIs id "lit".toList then none else some (.MAX, true)
  | .lever =>
    if !table.propertyIs id "powered".toList then none
    else do
      let mount ← table.leverMount id emitterPos
      if mount = solidPos then some (.MAX, true) else none
  | .repeater | .comparator =>
    let output := table.emittedForId id (gatherInputsInner world table emitterPos false dark)
    if output.effective.isPowered then some (output.effective, output.isStrong) else none
  | .redstoneBlock | .button | .pressurePlate | .lightningRod => none
  | .observer =>
    if !table.propertyIs id "powered".toList then none
    else if emitterPos.offset (-table.observerFacing id) = solidPos then some (.MAX, true)
    else none

/-- What one neighbour gives a solid, `index` being its face. -/
def solidContribution (world : V) (table : EmitterTable) (pos : BlockPos) (index : Nat)
    (neighbour : BlockPos) : Option (PowerLevel × Bool) :=
  match getState world neighbour with
  | none => none
  | some id => match table.classify id with
    | .wire _ =>
      if index ≠ 0 && dustHeadroom world table neighbour index then
        -- The drive leaves out what the dust itself reads from solids.
        let drive := (emitted (.wire .ZERO) (gatherInputsInner world table neighbour true dark)).effective
        if drive.isPowered then some (drive, false) else none
      else none
    | .emitter source => solidEmitterContribution world table source id neighbour pos index
    | .mechanism | .passive => none

/-- mirrors crates/redstone/src/propagation.rs:809-871 (`solid_power`) -/
def solidPower (world : V) (table : EmitterTable) (pos : BlockPos) (exclude : Option BlockPos) :
    Option (PowerLevel × Bool) :=
  let best := (NeighbourSet.of pos).zipIdx.foldl (fun (best : PowerLevel × Bool) (neighbour, index) =>
    if some neighbour = exclude then best
    else match solidContribution world table pos index neighbour with
      | some (level, isStrong) =>
        if level.val > best.1.val || (level = best.1 && isStrong && !best.2) then (level, isStrong)
        else best
      | none => best) (.ZERO, false)
  if best.1.val > 0 then some best else none

/-- mirrors crates/redstone/src/propagation.rs:1047-1054 (`gather_inputs`) -/
def gatherInputs (world : V) (table : EmitterTable) (pos : BlockPos) (forWire : Bool) : BlockInputs :=
  gatherInputsInner world table pos forWire fun neighbour => solidPower world table neighbour (some pos)

/-- The first property of this name takes the value. -/
def setFirst (name value : Text) : Properties → Properties
  | [] => []
  | p :: rest => if p.1 = name then (p.1, value) :: rest else p :: setFirst name value rest

/-- mirrors crates/redstone/src/propagation.rs:648-749 (`EmitterTable::new_state`) -/
def newState (world : V) (table : EmitterTable) (pos : BlockPos) (role : BlockRole) (inputs : BlockInputs)
    (currentId : Int) : Option Int :=
  match role with
  | .wire _ => table.wireState (emitted role inputs).effective
  | .emitter .torch => do
    let properties ← table.registry.propertiesOf currentId
    let name ← table.registry.blockName currentId
    let face := torchAttachment name properties
    let attachmentPowered := (inputs.faces[face]?).any fun output => output.state.isPowered
    let lit := (property properties "lit".toList).all (· = "true".toList)
    if lit ≠ attachmentPowered then some currentId
    else table.registry.stateId name (setFirst "lit".toList (boolText !lit) properties)
  | .mechanism => do
    let name ← table.registry.blockName currentId
    if name = REDSTONE_LAMP then
      let lit := [pos.offset (0, 1, 0), pos.offset (0, -1, 0)].any fun at_ =>
        (getState world at_).any fun id =>
          table.isConductive id && (solidPower world table at_ none).isSome
      let properties ← table.registry.propertiesOf currentId
      let current := (property properties "lit".toList).any (· = "true".toList)
      if lit = current then some currentId
      else table.registry.stateId REDSTONE_LAMP [("lit".toList, boolText lit)]
    else
      let properties ← table.registry.propertiesOf currentId
      let stored := (property properties "powered".toList).any (· = "true".toList)
      let powered : Bool := inputs.strongest.effective.val > 0
      if stored = powered then some currentId
      else table.registry.stateId name (properties.map fun p =>
        if p.1 = "powered".toList || p.1 = "open".toList then (p.1, boolText powered) else p)
  | .emitter _ | .passive => some currentId

end View

/-! ## Neighbours -/

/-- A step to a neighbour is undone by the step back, or stands still at the edge of the range. -/
theorem offset_back (pos : BlockPos) {step : Int × Int × Int}
    (hstep : step.1.natAbs + step.2.1.natAbs + step.2.2.natAbs ≤ 1) :
    pos.offset step = pos ∨ (pos.offset step).offset (-step) = pos := by
  obtain ⟨dx, dy, dz⟩ := step
  have hx := pos.x.property
  have hy := pos.y.property
  have hz := pos.z.property
  dsimp only at hstep
  by_cases hin : (-2 ^ 31 ≤ pos.x.val + dx ∧ pos.x.val + dx < 2 ^ 31) ∧
      (-2 ^ 31 ≤ pos.y.val + dy ∧ pos.y.val + dy < 2 ^ 31) ∧
      (-2 ^ 31 ≤ pos.z.val + dz ∧ pos.z.val + dz < 2 ^ 31)
  · right
    apply BlockPos.ext <;> apply Subtype.ext <;>
      simp only [BlockPos.offset, I32.clamp, Prod.neg_mk] <;> omega
  · left
    apply BlockPos.ext <;> apply Subtype.ext <;> simp only [BlockPos.offset, I32.clamp] <;> omega

theorem mem_of_comm {p q : BlockPos} (h : q ∈ NeighbourSet.of p) : p ∈ NeighbourSet.of q := by
  by_cases hqp : q = p
  · subst hqp
    exact h
  have hback : ∀ step : Int × Int × Int, step.1.natAbs + step.2.1.natAbs + step.2.2.natAbs ≤ 1 →
      q = p.offset step → q.offset (-step) = p := by
    rintro step hstep rfl
    exact (offset_back p hstep).resolve_left hqp
  simp only [NeighbourSet.of, List.mem_cons, List.not_mem_nil, or_false] at h ⊢
  rcases h with h | h | h | h | h | h
  · exact .inr (.inl (hback _ (by decide) h).symm)
  · exact .inl (hback _ (by decide) h).symm
  · exact .inr (.inr (.inr (.inl (hback _ (by decide) h).symm)))
  · exact .inr (.inr (.inl (hback _ (by decide) h).symm))
  · exact .inr (.inr (.inr (.inr (.inr (hback _ (by decide) h).symm))))
  · exact .inr (.inr (.inr (.inr (.inl (hback _ (by decide) h).symm))))

end Apoptosis.L2.Redstone
