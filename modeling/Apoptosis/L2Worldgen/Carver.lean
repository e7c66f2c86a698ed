import Apoptosis.Core.Instances
import Apoptosis.L2World.Chunk
import Apoptosis.L2Worldgen.Sample
import Mathlib.Analysis.SpecialFunctions.Trigonometric.Basic
import Mathlib.Data.Int.Range
/-!
# Caves and canyons (`worldgen/src/carver.rs`)

A chunk is carved by walking every carver system of the source chunks around it and changing the
cells of each step's ellipsoid that lie in the chunk. Doubles are real numbers and turns are exact.

* `carveChunkWithin_eq`: the blocks left are those of visiting a list of cells in order.
-/
namespace Apoptosis.L2.Carver
open Apoptosis.Core Apoptosis.RandomDoubles Apoptosis.L2.Registry Apoptosis.L2.Storage Apoptosis.L2.Terrain
open Apoptosis.L2.Worldgen

/-- mirrors crates/worldgen/src/carver.rs:67 (`CARVER_SOURCE_RADIUS_CHUNKS`) -/
def CARVER_SOURCE_RADIUS_CHUNKS : Int := 8

/-- mirrors crates/worldgen/src/carver.rs:73 (`CAVE_MAX_STEPS`) -/
def CAVE_MAX_STEPS : Nat := 48

/-- mirrors crates/worldgen/src/carver.rs:76 (`CANYON_MAX_STEPS`) -/
def CANYON_MAX_STEPS : Nat := 96

section
attribute [local instance] Apoptosis.Core.atLeastTwo

/-- mirrors crates/worldgen/src/carver.rs:79 (`STEP_LENGTH`) -/
def STEP_LENGTH : ℝ := 2

end

/-- mirrors crates/worldgen/src/carver.rs:89-94 (`CarverKind`) -/
inductive CarverKind
  | cave
  | canyon
  deriving DecidableEq

/-- mirrors crates/worldgen/src/carver.rs:98-134 (`CarverConfig`), without the name of the tag that
`replaceable` was read from -/
structure CarverConfig where
  name : String
  kind : CarverKind
  probability : ℝ
  y : HeightDist
  yScale : FloatRange
  horizontalRadiusMultiplier : FloatRange
  verticalRadiusMultiplier : FloatRange
  floorLevel : FloatRange
  replaceable : List Int
  thickness : FloatRange
  verticalRotation : FloatRange
  lavaLevel : Int

/-- mirrors crates/worldgen/src/carver.rs:143-155 (`FluidFill`) -/
structure FluidFill where
  air : Int
  water : Int
  lava : Int
  seaLevel : Int
  lavaTop : Int

namespace FluidFill

/-- mirrors crates/worldgen/src/carver.rs:159-167 (`FluidFill::fill_for`) -/
def fillFor (fluids : FluidFill) (y : Int) : Int :=
  if y ≤ fluids.lavaTop then fluids.lava
  else if y ≤ fluids.seaLevel then fluids.water
  else fluids.air

/-- mirrors crates/worldgen/src/carver.rs:167-169 (`FluidFill::is_water`) -/
def isWater (fluids : FluidFill) (y fill : Int) : Bool :=
  fill = fluids.water ∧ fluids.water ≠ fluids.air ∧ fluids.lavaTop < y

/-- mirrors crates/worldgen/src/carver.rs:172-174 (`FluidFill::is_lava`) -/
def isLava (fluids : FluidFill) (y fill : Int) : Bool :=
  fill = fluids.lava ∧ fluids.lava ≠ fluids.air ∧ y ≤ fluids.lavaTop

end FluidFill

/-- mirrors crates/worldgen/src/carver.rs:324-339 (`CarverStats`) -/
structure CarverStats where
  sourcesConsidered : Nat := 0
  systems : Nat := 0
  blocksCarved : Nat := 0
  blocksWater : Nat := 0
  blocksLava : Nat := 0
  skippedNotReplaceable : Nat := 0
  cellsOutside : Nat := 0

namespace CarverStats

/-- mirrors crates/worldgen/src/carver.rs:343-351 (`CarverStats::record`) -/
def record (stats other : CarverStats) : CarverStats where
  sourcesConsidered := stats.sourcesConsidered + other.sourcesConsidered
  systems := stats.systems + other.systems
  blocksCarved := stats.blocksCarved + other.blocksCarved
  blocksWater := stats.blocksWater + other.blocksWater
  blocksLava := stats.blocksLava + other.blocksLava
  skippedNotReplaceable := stats.skippedNotReplaceable + other.skippedNotReplaceable
  cellsOutside := stats.cellsOutside + other.cellsOutside

/-- mirrors crates/worldgen/src/carver.rs:354-361 (`CarverStats::record_fill`) -/
def recordFill (stats : CarverStats) (y fill : Int) (fluids : FluidFill) : CarverStats :=
  let stats := { stats with blocksCarved := stats.blocksCarved + 1 }
  if fluids.isWater y fill then { stats with blocksWater := stats.blocksWater + 1 }
  else if fluids.isLava y fill then { stats with blocksLava := stats.blocksLava + 1 }
  else stats

end CarverStats

/-! ## The walk -/

structure Walker where
  x : ℝ
  y : ℝ
  z : ℝ
  yaw : ℝ
  pitch : ℝ

/-- What one step carves: an ellipsoid around the walker, cut off below a floor. -/
structure Ellipsoid where
  cx : ℝ
  cy : ℝ
  cz : ℝ
  rx : ℝ
  ry : ℝ
  floor : Option ℝ

section walk
variable {R : Type} [RandomDoubles R] (context : WorldgenContext) (carver : CarverConfig)

/-- How many steps a kind walks. -/
def CarverKind.steps : CarverKind → Nat
  | .cave => CAVE_MAX_STEPS
  | .canyon => CANYON_MAX_STEPS

section
attribute [local instance] Apoptosis.Core.atLeastTwo

/-- mirrors crates/worldgen/src/carver.rs:439-456 (`walk_and_carve`, up to the loop): where the walk
starts and its radius -/
noncomputable def start (source : ChunkPos) : StateM R (Walker × ℝ) := do
  let baseX : ℝ := (saturate (source.x * 16) : ℝ) + 8
  let baseZ : ℝ := (saturate (source.z * 16) : ℝ) + 8
  let x := baseX + (← nextBounded 16) - 8
  let z := baseZ + (← nextBounded 16) - 8
  let y ← carver.y.sample context
  let yaw := (← nextF64) * (2 * Real.pi)
  let baseRadius ← match carver.kind with
    | .cave => do pure (1.5 + (← nextF64) * 4.5)
    | .canyon => do pure (1.0 + (← nextF64) * 2.0)
  return (⟨x, y, z, yaw, 0⟩, baseRadius)

end

/-- mirrors crates/worldgen/src/carver.rs:459-494 (`walk_and_carve`, what one turn of the loop carves) -/
noncomputable def shape (baseRadius : ℝ) (step : Nat) (walker : Walker) : StateM R Ellipsoid := do
  let hMult ← carver.horizontalRadiusMultiplier.sample
  let vMult ← carver.verticalRadiusMultiplier.sample
  let yScale ← carver.yScale.sample
  let taper : ℝ := 1 - step / carver.kind.steps * 0.55
  match carver.kind with
  | .cave =>
    let hR := max (baseRadius * hMult * taper) 0.4
    let vR := max (hR * yScale * vMult) 0.3
    let floor := walker.y + (← carver.floorLevel.sample) * vR
    return ⟨walker.x, walker.y, walker.z, hR, vR, some floor⟩
  | .canyon =>
    let thickness := max (← carver.thickness.sample) 0.5
    let hR := max (baseRadius * hMult * taper) 0.35
    let vR := max (thickness * max |yScale| 0.5 * 0.5) 1
    return ⟨walker.x, walker.y, walker.z, hR, vR, none⟩

/-- mirrors crates/worldgen/src/carver.rs:496-510 (`walk_and_carve`, how the loop goes on) -/
noncomputable def advance (walker : Walker) : StateM R Walker := do
  let (yaw, pitch) ← match carver.kind with
    | .cave => do
      let yaw := walker.yaw + ((← nextF64) - 0.5) * 0.7
      let pitch := walker.pitch * 0.7 + ((← nextF64) - 0.5) * 0.35
      pure (yaw, pitch)
    | .canyon => do
      let yaw := walker.yaw + ((← nextF64) - 0.5) * 0.35
      let pitch := walker.pitch + (← carver.verticalRotation.sample)
      pure (yaw, max (-0.35) (min pitch 0.35))
  let horizontal := STEP_LENGTH * max |Real.cos pitch| 0.15
  return ⟨walker.x + Real.cos yaw * horizontal, walker.y + Real.sin pitch * STEP_LENGTH,
    walker.z + Real.sin yaw * horizontal, yaw, pitch⟩

end walk

/-! ## Carving -/

/-- A chunk under the carvers, with what has been done to it. -/
structure Carving where
  chunk : Chunk
  stats : CarverStats

structure Cell where
  x : Int
  y : Int
  z : Int
  deriving DecidableEq

namespace Ellipsoid

/-- The middle of a cell lies in the ellipsoid. -/
def Holds (e : Ellipsoid) (cell : Cell) : Prop :=
  let dx := ((cell.x : ℝ) + 0.5 - e.cx) / max e.rx 0.1
  let dy := ((cell.y : ℝ) + 0.5 - e.cy) / max e.ry 0.1
  let dz := ((cell.z : ℝ) + 0.5 - e.cz) / max e.rx 0.1
  dx * dx + dy * dy + dz * dz ≤ 1

/-- The cell lies under the floor. -/
def Under (e : Ellipsoid) (cell : Cell) : Prop := ∃ floor ∈ e.floor, (cell.y : ℝ) < floor

/-- The whole numbers of a stretch that lie in a window. -/
noncomputable def clip (c r : ℝ) (lo hi : Int) : Int × Int :=
  (max (saturate ⌊c - r⌋) lo, min (saturate ⌈c + r⌉) hi)

/-- mirrors crates/worldgen/src/carver.rs:532-547 (`carve_ellipsoid`, the bounds of the loops) -/
noncomputable def xRange (e : Ellipsoid) (pos : ChunkPos) : Int × Int :=
  let baseX := saturate (pos.x * 16)
  clip e.cx e.rx baseX (baseX + 16 - 1)

noncomputable def zRange (e : Ellipsoid) (pos : ChunkPos) : Int × Int :=
  let baseZ := saturate (pos.z * 16)
  clip e.cz e.rx baseZ (baseZ + 16 - 1)

noncomputable def yRange (e : Ellipsoid) (context : WorldgenContext) : Int × Int :=
  clip e.cy e.ry context.minY.val (context.effectiveMaxY - 1)

/-- The cells the loops visit, in order. -/
noncomputable def cells (e : Ellipsoid) (context : WorldgenContext) (pos : ChunkPos) : List Cell :=
  (Int.range (e.yRange context).1 ((e.yRange context).2 + 1)).flatMap fun y =>
    (Int.range (e.xRange pos).1 ((e.xRange pos).2 + 1)).flatMap fun x =>
      (Int.range (e.zRange pos).1 ((e.zRange pos).2 + 1)).map fun z => ⟨x, y, z⟩

theorem range_nil {lo hi : Int} (h : hi < lo) : Int.range lo (hi + 1) = [] := by
  rw [Int.range, List.map_eq_nil_iff, List.range_eq_nil]
  omega

/-- With nothing left along one axis, no cell is visited. -/
theorem cells_nil (e : Ellipsoid) (context : WorldgenContext) {pos : ChunkPos}
    (h : (e.xRange pos).2 < (e.xRange pos).1 ∨ (e.zRange pos).2 < (e.zRange pos).1) :
    e.cells context pos = [] := by
  unfold cells
  cases h with
  | inl h => simp only [range_nil h, List.flatMap_nil, List.flatMap_eq_nil_iff, implies_true]
  | inr h => simp only [range_nil h, List.map_nil, List.flatMap_eq_nil_iff, implies_true]

theorem mem_cells {e : Ellipsoid} {context : WorldgenContext} {pos : ChunkPos} {cell : Cell} :
    cell ∈ e.cells context pos ↔
      ((e.xRange pos).1 ≤ cell.x ∧ cell.x ≤ (e.xRange pos).2) ∧
      ((e.yRange context).1 ≤ cell.y ∧ cell.y ≤ (e.yRange context).2) ∧
      (e.zRange pos).1 ≤ cell.z ∧ cell.z ≤ (e.zRange pos).2 := by
  unfold cells
  simp only [List.mem_flatMap, List.mem_map, Int.mem_range_iff, Int.lt_add_one_iff]
  constructor
  · intro h
    obtain ⟨y, hy, x, hx, z, hz, rfl⟩ := h
    exact ⟨hx, hy, hz⟩
  · intro h
    obtain ⟨hx, hy, hz⟩ := h
    exact ⟨cell.y, hy, cell.x, hx, cell.z, hz, rfl⟩

end Ellipsoid

section carving
variable {R : Type} [RandomDoubles R] (context : WorldgenContext) (carver : CarverConfig)
  (registry : BlockRegistry) (fluids : FluidFill)

open Classical in
/-- mirrors crates/worldgen/src/carver.rs:549-579 (`carve_ellipsoid`, inside the loops) -/
noncomputable def carveCell (e : Ellipsoid) (carving : Carving) (cell : Cell) : Carving :=
  if e.Under cell then carving
  else if ¬ e.Holds cell then carving
  else
    let current := carving.chunk.getBlock cell.x cell.y cell.z
    let fill := fluids.fillFor cell.y
    if current = fill then carving
    else if current = fluids.water ∨ current = fluids.lava then carving
    else if current ∉ carver.replaceable then
      { carving with stats :=
          { carving.stats with skippedNotReplaceable := carving.stats.skippedNotReplaceable + 1 } }
    else match carving.chunk.setBlock cell.x cell.y cell.z fill registry with
      | .ok (some _, chunk) => ⟨chunk, carving.stats.recordFill cell.y fill fluids⟩
      | _ => carving

/-- mirrors crates/worldgen/src/carver.rs:515-581 (`carve_ellipsoid`) -/
noncomputable def carveEllipsoid (carving : Carving) (e : Ellipsoid) : Carving :=
  let pos := carving.chunk.pos
  if (e.xRange pos).2 < (e.xRange pos).1 ∨ (e.zRange pos).2 < (e.zRange pos).1 then
    { carving with stats := { carving.stats with cellsOutside := carving.stats.cellsOutside + 1 } }
  else (e.cells context pos).foldl (carveCell carver registry fluids e) carving

/-- mirrors crates/worldgen/src/carver.rs:458-511 (`walk_and_carve`, the loop), from `step` on -/
noncomputable def carveSteps (baseRadius : ℝ) : Nat → Nat → Walker → Carving → StateM R Carving
  | 0, _, _, carving => return carving
  | left + 1, step, walker, carving => do
    let e ← shape carver baseRadius step walker
    let carving := carveEllipsoid context carver registry fluids carving e
    let walker ← advance carver walker
    carveSteps baseRadius left (step + 1) walker carving

/-- mirrors crates/worldgen/src/carver.rs:429-512 (`walk_and_carve`) -/
noncomputable def walkAndCarve (source : ChunkPos) (carving : Carving) : StateM R Carving := do
  let (walker, baseRadius) ← start context carver source
  carveSteps context carver registry fluids baseRadius carver.kind.steps 0 walker carving

end carving

section chunk
variable {R : Type} [RandomDoubles R] (featureRandom : Int → String → ChunkPos → Nat → R)
  (context : WorldgenContext) (registry : BlockRegistry)

/-- The generator of one carver of one source chunk. -/
def carverRandom (carver : CarverConfig) (source : ChunkPos) : R :=
  featureRandom context.seed ("carver/" ++ carver.name) source 0

/-- mirrors crates/worldgen/src/carver.rs:374-392 (`carve_chunk`): the fill of one carver -/
def fluidFill (carver : CarverConfig) : FluidFill :=
  let air := registry.airId
  { air := air
    water := (registry.defaultState "minecraft:water".toList).getD air
    lava := (registry.defaultState "minecraft:lava".toList).getD air
    seaLevel := context.seaLevel.val
    lavaTop := saturate (context.minY.val + carver.lavaLevel) }

open Classical in
/-- mirrors crates/worldgen/src/carver.rs:395-422 (`carve_chunk`, inside the loops) -/
noncomputable def carveSource (carver : CarverConfig) (total : Carving) (source : ChunkPos) : Carving :=
  let stats := { total.stats with sourcesConsidered := total.stats.sourcesConsidered + 1 }
  let (roll, random) := nextF64 (carverRandom featureRandom context carver source)
  if carver.probability ≤ roll then ⟨total.chunk, stats⟩
  else
    let stats := { stats with systems := stats.systems + 1 }
    let done := (walkAndCarve context carver registry (fluidFill context registry carver) source
      ⟨total.chunk, { systems := 1 }⟩ random).1
    ⟨done.chunk, stats.record done.stats⟩

/-- The sources around a chunk, in order. -/
def sources (radius : Int) (pos : ChunkPos) : List ChunkPos :=
  (Int.range (-radius) (radius + 1)).flatMap fun dz => (Int.range (-radius) (radius + 1)).map fun dx =>
    ⟨saturate (pos.x + dx), saturate (pos.z + dz)⟩

/-- mirrors crates/worldgen/src/carver.rs:372-426 (`carve_chunk`), with the radius as an argument -/
noncomputable def carveChunkWithin (radius : Int) (carvers : List CarverConfig) (chunk : Chunk)
    (pos : ChunkPos) : Carving :=
  carvers.foldl (fun total carver =>
    (sources radius pos).foldl (carveSource featureRandom context registry carver) total) ⟨chunk, {}⟩

/-- mirrors crates/worldgen/src/carver.rs:372-426 (`carve_chunk`) -/
noncomputable def carveChunk (carvers : List CarverConfig) (chunk : Chunk) (pos : ChunkPos) : Carving :=
  carveChunkWithin featureRandom context registry CARVER_SOURCE_RADIUS_CHUNKS carvers chunk pos

end chunk

/-! ## What is visited -/

section visits
variable {R : Type} [RandomDoubles R] (featureRandom : Int → String → ChunkPos → Nat → R)
  (context : WorldgenContext) (carver : CarverConfig)

/-- The ellipsoids of a walk, from `step` on. -/
noncomputable def ellipsoids (baseRadius : ℝ) : Nat → Nat → Walker → R → List Ellipsoid
  | 0, _, _, _ => []
  | left + 1, step, walker, random =>
    let (e, random) := shape carver baseRadius step walker random
    let (walker, random) := advance carver walker random
    e :: ellipsoids baseRadius left (step + 1) walker random

/-- The ellipsoids of the walk from a source. -/
noncomputable def walk (source : ChunkPos) (random : R) : List Ellipsoid :=
  let ((walker, baseRadius), random) := start context carver source random
  ellipsoids carver baseRadius carver.kind.steps 0 walker random

open Classical in
/-- The ellipsoids of a source, if its roll succeeds. -/
noncomputable def system (source : ChunkPos) : List Ellipsoid :=
  let (roll, random) := nextF64 (carverRandom featureRandom context carver source)
  if carver.probability ≤ roll then [] else walk context carver source random

/-- A cell looked at for one ellipsoid of one carver. -/
structure Visit where
  carver : CarverConfig
  e : Ellipsoid
  cell : Cell

/-- The cells of a chunk that one ellipsoid has looked at. -/
noncomputable def ellipsoidVisits (pos : ChunkPos) (e : Ellipsoid) : List Visit :=
  (e.cells context pos).map fun cell => ⟨carver, e, cell⟩

noncomputable def sourceVisits (pos source : ChunkPos) : List Visit :=
  (system featureRandom context carver source).flatMap (ellipsoidVisits context carver pos)

/-- The cells `carve_chunk` considers, in order. -/
noncomputable def visits (radius : Int) (carvers : List CarverConfig) (pos : ChunkPos) : List Visit :=
  carvers.flatMap fun carver => (sources radius pos).flatMap (sourceVisits featureRandom context carver pos)

end visits

/-! ## The blocks left -/

section blocks
variable {R : Type} [RandomDoubles R] (featureRandom : Int → String → ChunkPos → Nat → R)
  (context : WorldgenContext) (registry : BlockRegistry)

/-- What a visit does to the blocks. -/
noncomputable def carveVisit (chunk : Chunk) (visit : Visit) : Chunk :=
  (carveCell visit.carver registry (fluidFill context registry visit.carver) visit.e ⟨chunk, {}⟩
    visit.cell).chunk

/-- The count kept does not bear on the blocks. -/
theorem carveCell_chunk (carver : CarverConfig) (e : Ellipsoid) (carving : Carving) (cell : Cell) :
    (carveCell carver registry (fluidFill context registry carver) e carving cell).chunk =
      carveVisit context registry carving.chunk ⟨carver, e, cell⟩ := by
  unfold carveVisit carveCell
  dsimp only
  split_ifs <;> try rfl
  cases carving.chunk.setBlock cell.x cell.y cell.z
      ((fluidFill context registry carver).fillFor cell.y) registry with
  | error error => rfl
  | ok outcome =>
    obtain ⟨change, chunk⟩ := outcome
    cases change <;> rfl

theorem carveVisit_pos (chunk : Chunk) (visit : Visit) :
    (carveVisit context registry chunk visit).pos = chunk.pos := by
  unfold carveVisit carveCell
  dsimp only
  split_ifs <;> try rfl
  cases h : chunk.setBlock visit.cell.x visit.cell.y visit.cell.z
      ((fluidFill context registry visit.carver).fillFor visit.cell.y) registry with
  | error error => rfl
  | ok outcome =>
    obtain ⟨change, chunk'⟩ := outcome
    cases change with
    | none => rfl
    | some ids => exact (Chunk.setBlock_spec h).1

theorem foldl_carveVisit_pos (found : List Visit) (chunk : Chunk) :
    (found.foldl (carveVisit context registry) chunk).pos = chunk.pos := by
  induction found generalizing chunk with
  | nil => rfl
  | cons visit found ih => rw [List.foldl_cons, ih, carveVisit_pos]

/-- A pass over the chunk at `pos` leaves the blocks that visiting these cells leaves. -/
def Carves (pos : ChunkPos) (found : List Visit) (pass : Carving → Carving) : Prop :=
  ∀ carving, carving.chunk.pos = pos →
    (pass carving).chunk = found.foldl (carveVisit context registry) carving.chunk

variable {context registry} {pos : ChunkPos}

theorem carves_foldl {α : Type} {step : Carving → α → Carving} {found : α → List Visit}
    (h : ∀ a, Carves context registry pos (found a) fun carving => step carving a) (passes : List α) :
    Carves context registry pos (passes.flatMap found) fun carving => passes.foldl step carving := by
  induction passes with
  | nil => exact fun _ _ => rfl
  | cons a passes ih =>
    intro carving hpos
    have hstep := h a carving hpos
    have hpos' : (step carving a).chunk.pos = pos := by
      rw [hstep, foldl_carveVisit_pos, hpos]
    rw [List.flatMap_cons, List.foldl_append, ← hstep]
    exact ih (step carving a) hpos'

theorem carves_cells (carver : CarverConfig) (e : Ellipsoid) (cells : List Cell) :
    Carves context registry pos (cells.map fun cell => ⟨carver, e, cell⟩) fun carving =>
      cells.foldl (carveCell carver registry (fluidFill context registry carver) e) carving := by
  rw [← List.flatMap_singleton' (cells.map _), List.flatMap_map]
  exact carves_foldl (fun cell carving _ => carveCell_chunk context registry carver e carving cell) cells

theorem carves_ellipsoid (carver : CarverConfig) (e : Ellipsoid) :
    Carves context registry pos (ellipsoidVisits context carver pos e) fun carving =>
      carveEllipsoid context carver registry (fluidFill context registry carver) carving e := by
  intro carving hpos
  unfold carveEllipsoid
  subst hpos
  dsimp only
  split_ifs with hout
  · rw [ellipsoidVisits, e.cells_nil context hout]
    rfl
  · exact carves_cells carver e _ carving rfl

theorem carveSteps_eq (carver : CarverConfig) (fluids : FluidFill) (baseRadius : ℝ) (left step : Nat)
    (walker : Walker) (carving : Carving) (random : R) :
    (carveSteps context carver registry fluids baseRadius left step walker carving random).1 =
      (ellipsoids carver baseRadius left step walker random).foldl
        (carveEllipsoid context carver registry fluids) carving := by
  induction left generalizing step walker carving random with
  | zero => rfl
  | succ left ih => exact ih _ _ _ _

theorem carves_source (carver : CarverConfig) (source : ChunkPos) :
    Carves context registry pos (sourceVisits featureRandom context carver pos source) fun carving =>
      carveSource featureRandom context registry carver carving source := by
  intro carving hpos
  unfold carveSource sourceVisits system
  generalize nextF64 (carverRandom featureRandom context carver source) = draw
  obtain ⟨roll, random⟩ := draw
  dsimp only
  split_ifs with hroll
  · rfl
  · unfold walk walkAndCarve
    exact (congrArg Carving.chunk (carveSteps_eq carver _ _ _ _ _ _ _)).trans
      (carves_foldl (carves_ellipsoid carver) _ ⟨carving.chunk, { systems := 1 }⟩ hpos)

/-- The blocks left are those of visiting, in order, the cells of the chunk that the systems around it
reach. -/
theorem carveChunkWithin_eq (radius : Int) (carvers : List CarverConfig) (chunk : Chunk) :
    (carveChunkWithin featureRandom context registry radius carvers chunk chunk.pos).chunk =
      (visits featureRandom context radius carvers chunk.pos).foldl (carveVisit context registry) chunk :=
  carves_foldl (fun carver => carves_foldl (carves_source featureRandom carver) _) carvers ⟨chunk, {}⟩ rfl

end blocks
end Apoptosis.L2.Carver
