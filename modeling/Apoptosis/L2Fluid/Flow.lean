import Apoptosis.L2Fluid.FluidQueue
import Apoptosis.L2Fluid.FluidState
import Apoptosis.RandomSource
/-!
# The flow rules (`simulation/src/fluid/flow.rs`)

One due fluid tick: the cell converts, re-levels itself from its neighbours,
and spreads down or to the sides. Every write notifies the six neighbours, one
level deep. Heights are ninths, as rationals: the source's `f32` quotients
order the nine amounts the same way, and its `0.444_444_45` is `4 / 9` rounded.
The caches of `SpreadContext` are left out, since a spread is computed on one
world that does not change.
-/
namespace Apoptosis.L2.Fluid
open Apoptosis.Core

/-- mirrors crates/simulation/src/fluid/flow.rs:82 -/
def STONE : String := "minecraft:stone"

/-- mirrors crates/simulation/src/fluid/flow.rs:84 -/
def COBBLESTONE : String := "minecraft:cobblestone"

/-- mirrors crates/simulation/src/fluid/flow.rs:86 -/
def OBSIDIAN : String := "minecraft:obsidian"

/-- mirrors crates/simulation/src/fluid/flow.rs:90 -/
def LAVA_REPLACEABLE_HEIGHT : ℚ := 4 / 9

/-- mirrors crates/simulation/src/fluid/flow.rs:98-99 -/
def POSSIBLE_FLOW_DIRECTIONS : List Dir := [.down, .north, .south, .west, .east]

/-- mirrors crates/simulation/src/fluid/flow.rs:109-116 -/
def UPDATE_ORDER : List Dir := [.west, .east, .down, .up, .north, .south]

/-- mirrors crates/simulation/src/fluid/flow.rs:129-140 (`FluidTickOutcome`) -/
structure FluidTickOutcome where
  levelChanged : Bool := false
  removed : Bool := false
  spreadWrites : Nat := 0
  converted : Bool := false
  didWork : Bool := false
  deriving DecidableEq, Repr

/-- mirrors crates/simulation/src/fluid/flow.rs:772-774 (`same_kind`) -/
def sameKind (fluid : FluidState) (kind : FluidKind) : Bool := fluid.kind = some kind

/-- mirrors crates/simulation/src/fluid/flow.rs:776-781 (`source_state`) -/
def sourceState : FluidKind → FluidState
  | .water => .water .fullSource
  | .lava => .lava .fullSource

/-- mirrors crates/simulation/src/fluid/flow.rs:783-788 (`falling_state`) -/
def fallingState : FluidKind → FluidState
  | .water => .water .fullFalling
  | .lava => .lava .fullFalling

/-- mirrors crates/simulation/src/fluid/flow.rs:790-795 (`flowing_state`) -/
def flowingState (kind : FluidKind) (amount : Nat) : FluidState :=
  match kind with
  | .water => .water (.flowing amount)
  | .lava => .lava (.flowing amount)

/-- mirrors crates/simulation/src/fluid/flow.rs:596-605 (`can_pass_through_wall`) -/
def canPassThroughWall (facts neighbor : BlockFacts) : Bool :=
  if facts.fullCube || neighbor.fullCube then false
  else facts.canHoldAnyFluid && neighbor.canHoldAnyFluid

/-- mirrors crates/simulation/src/fluid/flow.rs:582-586 (`can_maybe_pass_through`) -/
def canMaybePassThrough (rules : FluidRules) (facts neighbor : BlockFacts) : Bool :=
  !neighbor.fluid.isSourceOfKind rules.kind && neighbor.canHoldAnyFluid &&
    canPassThroughWall facts neighbor

/-- mirrors crates/simulation/src/fluid/flow.rs:590-592 (`can_pass_through`) -/
def canPassThrough (rules : FluidRules) (facts neighbor : BlockFacts) : Bool :=
  canMaybePassThrough rules facts neighbor && neighbor.canHoldSpecificFluid rules.kind

/-- mirrors crates/simulation/src/fluid/flow.rs:645-651 (`can_hold_specific`) -/
def canHoldSpecific (facts : BlockFacts) : Option FluidKind → Bool
  | some kind => facts.canHoldSpecificFluid kind
  | none => !facts.waterContainer

variable {W R : Type} [FluidWorld W] [RandomSource R]

/-! ## What the rules read -/

/-- The horizontal neighbours of one kind that the cell is open to, as `get_new_liquid` folds them:
the largest amount and the number of sources. -/
def feeding (world : W) (rules : FluidRules) (pos : Pos) (facts : BlockFacts) : Nat × Nat :=
  Dir.HORIZONTAL.foldl
    (fun (maxAmount, sources) dir =>
      match FluidWorld.facts world (pos.offset dir) with
      | none => (maxAmount, sources)
      | some nfacts =>
        if !sameKind nfacts.fluid rules.kind then (maxAmount, sources)
        else if !canPassThroughWall facts nfacts then (maxAmount, sources)
        else (max maxAmount nfacts.fluid.amount,
          if nfacts.fluid.isSource then sources + 1 else sources))
    (0, 0)

/-- mirrors crates/simulation/src/fluid/flow.rs:218-262 (`get_new_liquid`) -/
def getNewLiquid (world : W) (rules : FluidRules) (pos : Pos) (facts : BlockFacts) : FluidState :=
  let (maxAmount, sources) := feeding world rules pos facts
  if sources ≥ 2 && rules.convertToSource &&
      (FluidWorld.facts world (pos.offset .down)).any fun below =>
        below.fullCube || below.fluid.isSourceOfKind rules.kind then
    sourceState rules.kind
  else if (FluidWorld.facts world (pos.offset .up)).any fun above =>
      !above.fluid.isEmpty && sameKind above.fluid rules.kind && canPassThroughWall facts above then
    fallingState rules.kind
  else if maxAmount ≤ rules.dropOff then .empty
  else flowingState rules.kind (maxAmount - rules.dropOff)

/-- mirrors crates/simulation/src/fluid/flow.rs:298-306 (`fluid_height`) -/
def fluidHeight (world : W) (fluid : FluidState) (pos : Pos) : ℚ :=
  let sameAbove := (FluidWorld.facts world (pos.offset .up)).any fun above =>
    sameKind above.fluid (fluid.kind.getD .water)
  if sameAbove then 1 else (fluid.amount : ℚ) / 9

/-- mirrors crates/simulation/src/fluid/flow.rs:273-294 (`get_spread_delay`) -/
def getSpreadDelay (world : W) (rules : FluidRules) (pos : Pos) (old new : FluidState) (random : R) :
    R × Nat :=
  let delay := rules.tickDelay
  if rules.kind = .lava && !old.isEmpty && !new.isEmpty && !old.isFalling && !new.isFalling &&
      fluidHeight world new pos > fluidHeight world old pos then
    let (random, draw) := RandomSource.nextI32Bounded random 4
    (random, if draw ≠ 0 then min (delay * 4) (2 ^ 32 - 1) else delay)
  else (random, delay)

/-- mirrors crates/simulation/src/fluid/flow.rs:565-578 (`is_water_hole`) -/
def isWaterHole (world : W) (kind : FluidKind) (pos : Pos) (facts : BlockFacts) : Bool :=
  match FluidWorld.facts world (pos.offset .down) with
  | none => false
  | some below =>
    if !canPassThroughWall facts below then false
    else sameKind below.fluid kind || below.canHoldFluid kind

/-- mirrors crates/simulation/src/fluid/flow.rs:609-619 (`source_neighbor_count`) -/
def sourceNeighborCount (world : W) (rules : FluidRules) (pos : Pos) : Nat :=
  Dir.HORIZONTAL.countP fun dir =>
    (FluidWorld.facts world (pos.offset dir)).any (·.fluid.isSourceOfKind rules.kind)

/-- mirrors crates/simulation/src/fluid/flow.rs:627-642 (`can_be_replaced_with`) -/
def canBeReplacedWith (world : W) (existing : FluidState) (newKind : Option FluidKind) (dir : Dir)
    (pos : Pos) : Bool :=
  match existing.kind with
  | some .water => dir = .down && newKind ≠ some .water
  | some .lava =>
    fluidHeight world existing pos ≥ LAVA_REPLACEABLE_HEIGHT && newKind = some .water
  | none => true

/-- The loop of `get_slope_distance` over the directions left, with what the search one step
further finds. -/
def slopeLoop (world : W) (rules : FluidRules) (pos : Pos) (distance : Nat) (came : Dir)
    (facts : BlockFacts) (further : Option (Pos → Dir → BlockFacts → Nat)) :
    List Dir → Nat → Nat
  | [], best => best
  | dir :: dirs, best =>
    let next := slopeLoop world rules pos distance came facts further dirs
    if dir = came then next best
    else
      match FluidWorld.facts world (pos.offset dir) with
      | none => next best
      | some nfacts =>
        if !canPassThrough rules facts nfacts then next best
        else if isWaterHole world rules.kind (pos.offset dir) nfacts then distance
        else
          match further with
          | none => next best
          | some find => next (min best (find (pos.offset dir) dir.opposite nfacts))

/-- mirrors crates/simulation/src/fluid/flow.rs:520-560 (`get_slope_distance`), with the levels left
below `slope_find_distance` as the recursion's measure -/
def getSlopeDistance (world : W) (rules : FluidRules) :
    Nat → Pos → Nat → Dir → BlockFacts → Nat
  | 0, pos, distance, came, facts =>
    slopeLoop world rules pos distance came facts none Dir.HORIZONTAL 1000
  | left + 1, pos, distance, came, facts =>
    slopeLoop world rules pos distance came facts
      (some fun npos came nfacts => getSlopeDistance world rules left npos (distance + 1) came nfacts)
      Dir.HORIZONTAL 1000

/-- The distance `get_spread` gives a neighbour. -/
def holeDistance (world : W) (rules : FluidRules) (npos : Pos) (dir : Dir) (nfacts : BlockFacts) : Nat :=
  if isWaterHole world rules.kind npos nfacts then 0
  else getSlopeDistance world rules (rules.slopeFindDistance - 1) npos 1 dir.opposite nfacts

/-- One direction of `get_spread`, mirrors crates/simulation/src/fluid/flow.rs:489-514 -/
def spreadStep (world : W) (rules : FluidRules) (pos : Pos) (facts : BlockFacts)
    (acc : Nat × List (Dir × FluidState)) (dir : Dir) : Nat × List (Dir × FluidState) :=
  let npos := pos.offset dir
  match FluidWorld.facts world npos with
  | none => acc
  | some nfacts =>
    let newFluid := getNewLiquid world rules npos nfacts
    if !canMaybePassThrough rules facts nfacts then acc
    else if !canHoldSpecific nfacts newFluid.kind then acc
    else
      let (best, map) := acc
      let distance := holeDistance world rules npos dir nfacts
      let map := if distance < best then [] else map
      if distance ≤ best then
        (distance,
          if canBeReplacedWith world nfacts.fluid newFluid.kind dir npos then map ++ [(dir, newFluid)]
          else map)
      else (best, map)

/-- mirrors crates/simulation/src/fluid/flow.rs:479-516 (`get_spread`) -/
def getSpread (world : W) (rules : FluidRules) (pos : Pos) (facts : BlockFacts) :
    List (Dir × FluidState) :=
  (Dir.HORIZONTAL.foldl (spreadStep world rules pos facts) (1000, [])).2

/-! ## What the rules write -/

/-- mirrors crates/simulation/src/fluid/flow.rs:693-726 (`should_spread_liquid`) -/
def shouldSpreadLiquid (world : W) (kind : FluidKind) (pos : Pos) (outcome : FluidTickOutcome) :
    (W × FluidTickOutcome) × Bool :=
  if kind ≠ .lava then ((world, outcome), true)
  else
    match FluidWorld.facts world pos with
    | none => ((world, outcome), true)
    | some facts =>
      if facts.fluid.kind ≠ some .lava then ((world, outcome), true)
      else
        let waterAdjacent := POSSIBLE_FLOW_DIRECTIONS.any fun dir =>
          (FluidWorld.facts world (pos.offset dir.opposite)).any (·.fluid.kind = some .water)
        if !waterAdjacent then ((world, outcome), true)
        else
          let target := if facts.fluid.isSource then OBSIDIAN else COBBLESTONE
          let (world, changed) := FluidWorld.setBlockNamed world pos target
          ((world, if changed then { outcome with converted := true } else outcome), false)

/-- One neighbour of `notify_neighbors`, mirrors crates/simulation/src/fluid/flow.rs:463-469 -/
def notifyNeighbor (pos : Pos) (state : W × FluidTickOutcome) (dir : Dir) : W × FluidTickOutcome :=
  let neighbor := pos.offset dir
  match (FluidWorld.facts state.1 neighbor).bind (·.fluid.kind) with
  | none => state
  | some kind => (shouldSpreadLiquid state.1 kind neighbor state.2).1

/-- mirrors crates/simulation/src/fluid/flow.rs:462-470 (`notify_neighbors`) -/
def notifyNeighbors (world : W) (pos : Pos) (outcome : FluidTickOutcome) : W × FluidTickOutcome :=
  UPDATE_ORDER.foldl (notifyNeighbor pos) (world, outcome)

/-- mirrors crates/simulation/src/fluid/flow.rs:672-677 (`on_place`) -/
def onPlace (world : W) (pos : Pos) (outcome : FluidTickOutcome) : (W × FluidTickOutcome) × Bool :=
  match (FluidWorld.facts world pos).bind (·.fluid.kind) with
  | none => ((world, outcome), true)
  | some kind => shouldSpreadLiquid world kind pos outcome

/-- The `&mut` arguments of a tick: the world, the queue and the outcome. -/
structure Ticking (W : Type) where
  world : W
  queue : FluidQueue Pos
  outcome : FluidTickOutcome

/-- mirrors crates/simulation/src/fluid/flow.rs:405-440 (`spread_to`) -/
def spreadTo (t : Ticking W) (rules : FluidRules) (pos : Pos) (facts : BlockFacts) (dir : Dir)
    (fluid : FluidState) (now : Nat) : Ticking W :=
  if rules.kind = .lava && dir = .down && facts.fluid.kind = some .water &&
      !facts.waterContainer then
    let (world, changed) := FluidWorld.setBlockNamed t.world pos STONE
    let outcome := if changed then { t.outcome with converted := true } else t.outcome
    let (world, outcome) := notifyNeighbors world pos outcome
    ⟨world, t.queue, outcome⟩
  else
    let (world, changed) := FluidWorld.placeFluid t.world pos fluid
    let outcome := if changed then { t.outcome with spreadWrites := t.outcome.spreadWrites + 1 }
      else t.outcome
    let t : Ticking W := if fluid.isEmpty then ⟨world, t.queue, outcome⟩
      else
        let ((world, outcome), keeps) := shouldSpreadLiquid world rules.kind pos outcome
        ⟨world, if keeps then (t.queue.schedule now pos rules.tickDelay).1 else t.queue, outcome⟩
    let (world, outcome) := notifyNeighbors t.world pos t.outcome
    ⟨world, t.queue, outcome⟩

/-- One neighbour of `spread_to_sides`, mirrors crates/simulation/src/fluid/flow.rs:380-387 -/
def spreadToSide (rules : FluidRules) (pos : Pos) (now : Nat) (t : Ticking W)
    (side : Dir × FluidState) : Ticking W :=
  let target := pos.offset side.1
  match FluidWorld.facts t.world target with
  | none => t
  | some tfacts => spreadTo t rules target tfacts side.1 side.2 now

/-- mirrors crates/simulation/src/fluid/flow.rs:361-388 (`spread_to_sides`) -/
def spreadToSides (t : Ticking W) (rules : FluidRules) (pos : Pos) (facts : BlockFacts)
    (fluid : FluidState) (now : Nat) : Ticking W :=
  let amount : Int := if fluid.isFalling then 7 else (fluid.amount : Int) - rules.dropOff
  if amount ≤ 0 then t
  else (getSpread t.world rules pos facts).foldl (spreadToSide rules pos now) t

/-- What `spread` does when it cannot go down. -/
def spreadSideways (t : Ticking W) (rules : FluidRules) (pos : Pos) (facts : BlockFacts)
    (fluid : FluidState) (now : Nat) : Ticking W :=
  if fluid.isSource || !isWaterHole t.world rules.kind pos facts then
    spreadToSides t rules pos facts fluid now
  else t

/-- mirrors crates/simulation/src/fluid/flow.rs:313-354 (`spread`) -/
def spread (t : Ticking W) (rules : FluidRules) (pos : Pos) (facts : BlockFacts)
    (fluid : FluidState) (now : Nat) : Ticking W :=
  if fluid.isEmpty then t
  else
    let belowPos := pos.offset .down
    match FluidWorld.facts t.world belowPos with
    | none => spreadSideways t rules pos facts fluid now
    | some below =>
      let newLiquid := getNewLiquid t.world rules belowPos below
      if canMaybePassThrough rules facts below &&
          canBeReplacedWith t.world below.fluid newLiquid.kind .down belowPos &&
          canHoldSpecific below newLiquid.kind then
        let t := spreadTo t rules belowPos below .down newLiquid now
        if sourceNeighborCount t.world rules pos ≥ 3 then
          spreadToSides t rules pos facts fluid now
        else t
      else spreadSideways t rules pos facts fluid now

/-- A cell re-levels itself, as the two branches of `tick` do it: the write, the notification and
the facts read again. -/
def relevel (t : Ticking W) (pos : Pos) (facts : BlockFacts) (fluid : FluidState) :
    Ticking W × BlockFacts :=
  let (world, _) := FluidWorld.placeFluid t.world pos fluid
  let (world, outcome) := notifyNeighbors world pos t.outcome
  (⟨world, t.queue, outcome⟩, (FluidWorld.facts world pos).getD facts)

/-- The part of `tick` between the conversion and the spread, for a cell that is not a source. -/
def flowOn (t : Ticking W) (rules : FluidRules) (pos : Pos) (facts : BlockFacts)
    (fluid : FluidState) (now : Nat) (random : R) : (Ticking W × R) × BlockFacts × FluidState :=
  if fluid.isSource then ((t, random), facts, fluid)
  else
    let newLiquid := getNewLiquid t.world rules pos facts
    let (random, delay) := getSpreadDelay t.world rules pos fluid newLiquid random
    if newLiquid.isEmpty then
      let t := { t with outcome := { t.outcome with removed := true } }
      let (t, facts) := relevel t pos facts .empty
      ((t, random), facts, newLiquid)
    else if newLiquid ≠ fluid then
      let t := { t with outcome := { t.outcome with levelChanged := true } }
      let (t, facts) := relevel t pos facts newLiquid
      (({ t with queue := (t.queue.schedule now pos delay).1 }, random), facts, newLiquid)
    else ((t, random), facts, fluid)

/-- mirrors crates/simulation/src/fluid/flow.rs:150-205 (`tick`) -/
def tick (world : W) (rules : FluidRules) (pos : Pos) (now : Nat) (queue : FluidQueue Pos)
    (random : R) : Ticking W × R :=
  match FluidWorld.facts world pos with
  | none => (⟨world, queue, {}⟩, random)
  | some facts =>
    if facts.fluid.isEmpty then (⟨world, queue, {}⟩, random)
    else
      let ((world, outcome), keeps) := shouldSpreadLiquid world rules.kind pos {}
      if !keeps then
        let (world, outcome) := notifyNeighbors world pos outcome
        (⟨world, queue, { outcome with didWork := true }⟩, random)
      else
        let ((t, random), facts, fluid) :=
          flowOn ⟨world, queue, outcome⟩ rules pos facts facts.fluid now random
        let t := spread t rules pos facts fluid now
        let o := t.outcome
        ({ t with outcome := { o with didWork :=
          o.didWork || o.levelChanged || o.removed || o.converted || o.spreadWrites ≠ 0 } }, random)

end Apoptosis.L2.Fluid
