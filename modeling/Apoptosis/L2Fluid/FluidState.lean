import Apoptosis.Core.I32
/-!
# Fluids and the world they flow in (`simulation/src/fluid/state.rs`, `world.rs`)

A fluid body holds its bounds, so an amount is never `0` or above `8` and a
source is always full. `FluidWorld` is what the rules ask of a world;
`LawfulFluidWorld` adds what they rely on: a write changes the one cell it
names, and leaves there what it was asked to.

* `offset_back`: a step to a neighbour is undone by the step back, or stands still.
-/
namespace Apoptosis.L2.Fluid
open Apoptosis.Core

/-- mirrors crates/simulation/src/fluid/state.rs:57-62 (`FluidKind`) -/
inductive FluidKind
  | water
  | lava
  deriving DecidableEq, Repr

/-- mirrors crates/simulation/src/fluid/state.rs:99-104 (`FluidBody`) -/
structure FluidBody where
  amount : Nat
  falling : Bool
  source : Bool
  amount_pos : 0 < amount
  amount_le : amount ≤ 8
  source_full : source = true → amount = 8
  deriving DecidableEq

namespace FluidBody

/-- mirrors crates/simulation/src/fluid/state.rs:109-121 (`FluidBody::flowing`) -/
def flowing (amount : Nat) : FluidBody where
  amount := if amount = 0 then 1 else if amount > 8 then 8 else amount
  falling := false
  source := false
  amount_pos := by grind
  amount_le := by grind
  source_full := nofun

/-- mirrors crates/simulation/src/fluid/state.rs:125-131 (`FluidBody::falling`) -/
def fullFalling : FluidBody := ⟨8, true, false, by decide, by decide, nofun⟩

/-- mirrors crates/simulation/src/fluid/state.rs:135-141 (`FluidBody::source`) -/
def fullSource : FluidBody := ⟨8, false, true, by decide, by decide, fun _ => rfl⟩

end FluidBody

/-- mirrors crates/simulation/src/fluid/state.rs:177-185 (`FluidState`) -/
inductive FluidState
  | empty
  | water (body : FluidBody)
  | lava (body : FluidBody)
  deriving DecidableEq

namespace FluidState

/-- mirrors crates/simulation/src/fluid/state.rs:218-220 (`FluidState::is_empty`) -/
def isEmpty (f : FluidState) : Bool := f = .empty

/-- mirrors crates/simulation/src/fluid/state.rs:224-230 (`FluidState::kind`) -/
def kind : FluidState → Option FluidKind
  | .empty => none
  | .water _ => some .water
  | .lava _ => some .lava

/-- mirrors crates/simulation/src/fluid/state.rs:234-239 (`FluidState::body`) -/
def body : FluidState → Option FluidBody
  | .empty => none
  | .water b => some b
  | .lava b => some b

/-- mirrors crates/simulation/src/fluid/state.rs:243-248 (`FluidState::amount`) -/
def amount (f : FluidState) : Nat := (f.body.map (·.amount)).getD 0

/-- mirrors crates/simulation/src/fluid/state.rs:252-254 (`FluidState::is_source`) -/
def isSource (f : FluidState) : Bool := f.body.any (·.source)

/-- mirrors crates/simulation/src/fluid/state.rs:258-260 (`FluidState::is_falling`) -/
def isFalling (f : FluidState) : Bool := f.body.any (·.falling)

/-- mirrors crates/simulation/src/fluid/state.rs:279-281 (`FluidState::is_source_of_kind`) -/
def isSourceOfKind (f : FluidState) (kind : FluidKind) : Bool := f.kind = some kind && f.isSource

@[simp] theorem kind_empty : FluidState.empty.kind = none := rfl

@[simp] theorem kind_eq_none {f : FluidState} : f.kind = none ↔ f = .empty := by
  cases f <;> simp [kind]

end FluidState

/-- mirrors crates/simulation/src/fluid/state.rs:321-328 (`FluidRules`) -/
structure FluidRules where
  kind : FluidKind
  fast : Bool
  convertToSource : Bool
  deriving DecidableEq

namespace FluidRules

/-- mirrors crates/simulation/src/fluid/state.rs:353-364 (`FluidRules::tick_delay`) -/
def tickDelay (r : FluidRules) : Nat :=
  match r.kind with
  | .water => 5
  | .lava => if r.fast then 10 else 30

/-- mirrors crates/simulation/src/fluid/state.rs:368-379 (`FluidRules::slope_find_distance`) -/
def slopeFindDistance (r : FluidRules) : Nat :=
  match r.kind with
  | .water => 4
  | .lava => if r.fast then 4 else 2

/-- mirrors crates/simulation/src/fluid/state.rs:383-394 (`FluidRules::drop_off`) -/
def dropOff (r : FluidRules) : Nat :=
  match r.kind with
  | .water => 1
  | .lava => if r.fast then 1 else 2

end FluidRules

/-- mirrors crates/simulation/src/fluid/world.rs:54-61 (`Pos`) -/
@[ext] structure Pos where
  x : I32
  y : I32
  z : I32
  deriving DecidableEq

/-- mirrors crates/simulation/src/fluid/world.rs:88-101 (`Dir`) -/
inductive Dir
  | down
  | up
  | north
  | south
  | west
  | east
  deriving DecidableEq, Repr

namespace Dir

/-- mirrors crates/simulation/src/fluid/world.rs:111 (`Dir::HORIZONTAL`) -/
def HORIZONTAL : List Dir := [north, east, south, west]

/-- mirrors crates/simulation/src/fluid/world.rs:115-124 (`Dir::delta`) -/
def delta : Dir → I32 × I32 × I32
  | .down => (.zero, .negOne, .zero)
  | .up => (.zero, .one, .zero)
  | .north => (.zero, .zero, .negOne)
  | .south => (.zero, .zero, .one)
  | .west => (.negOne, .zero, .zero)
  | .east => (.one, .zero, .zero)

/-- mirrors crates/simulation/src/fluid/world.rs:128-137 (`Dir::opposite`) -/
def opposite : Dir → Dir
  | .down => .up
  | .up => .down
  | .north => .south
  | .south => .north
  | .west => .east
  | .east => .west

end Dir

namespace Pos

def key (p : Pos) : I32 ×ₗ I32 ×ₗ I32 := toLex (p.x, toLex (p.y, p.z))

theorem key_injective : Function.Injective key := by
  intro p q h
  simp only [key, EmbeddingLike.apply_eq_iff_eq, Prod.mk.injEq] at h
  exact Pos.ext h.1 h.2.1 h.2.2

/-- The derived `Ord`: by `x`, then `y`, then `z`. -/
instance : LinearOrder Pos := LinearOrder.lift' key key_injective

/-- mirrors crates/simulation/src/fluid/world.rs:76-83 (`Pos::offset`) -/
def offset (p : Pos) (dir : Dir) : Pos where
  x := p.x.saturatingAdd dir.delta.1
  y := p.y.saturatingAdd dir.delta.2.1
  z := p.z.saturatingAdd dir.delta.2.2

/-- At the edge of the coordinates the step stands still; elsewhere the step back undoes it. -/
theorem offset_back (p : Pos) (dir : Dir) :
    p.offset dir = p ∨ (p.offset dir).offset dir.opposite = p := by
  have hx := p.x.one_back
  have hx' := p.x.negOne_back
  have hy := p.y.one_back
  have hy' := p.y.negOne_back
  have hz := p.z.one_back
  have hz' := p.z.negOne_back
  cases dir <;> simpa [Pos.ext_iff, offset, Dir.delta, Dir.opposite]

end Pos

/-- mirrors crates/simulation/src/fluid/world.rs:166-184 (`BlockFacts`) -/
structure BlockFacts where
  id : Int
  fluid : FluidState
  air : Bool
  fullCube : Bool
  canHoldAnyFluid : Bool
  waterContainer : Bool
  waterlogged : Bool
  deriving DecidableEq

namespace BlockFacts

/-- mirrors crates/simulation/src/fluid/world.rs:188-198 (`BlockFacts::air`) -/
def ofAir (id : Int) : BlockFacts := ⟨id, .empty, true, false, true, false, false⟩

/-- mirrors crates/simulation/src/fluid/world.rs:202-212 (`BlockFacts::solid`) -/
def solid (id : Int) : BlockFacts := ⟨id, .empty, false, true, false, false, false⟩

/-- mirrors crates/simulation/src/fluid/world.rs:216-226 (`BlockFacts::of_fluid`) -/
def ofFluid (id : Int) (fluid : FluidState) : BlockFacts :=
  ⟨id, fluid, false, false, true, false, false⟩

/-- mirrors crates/simulation/src/fluid/world.rs:230-247 (`BlockFacts::container`) -/
def container (id : Int) (waterlogged fullCube : Bool) : BlockFacts :=
  ⟨id, if waterlogged then .water .fullSource else .empty, false, fullCube, true, true, waterlogged⟩

/-- mirrors crates/simulation/src/fluid/world.rs:254-259 (`BlockFacts::can_hold_specific_fluid`) -/
def canHoldSpecificFluid (b : BlockFacts) (kind : FluidKind) : Bool :=
  !b.waterContainer || (kind = .water && !b.waterlogged)

/-- mirrors crates/simulation/src/fluid/world.rs:263-265 (`BlockFacts::can_hold_fluid`) -/
def canHoldFluid (b : BlockFacts) (kind : FluidKind) : Bool :=
  b.canHoldAnyFluid && b.canHoldSpecificFluid kind

end BlockFacts

/-- mirrors crates/simulation/src/fluid/world.rs:269-294 (`FluidWorld`) -/
class FluidWorld (W : Type) where
  facts : W → Pos → Option BlockFacts
  placeFluid : W → Pos → FluidState → W × Bool
  setBlockNamed : W → Pos → String → W × Bool

/-- What the rules rely on. A placed fluid may be refused, which leaves the cell as it was. -/
class LawfulFluidWorld (W : Type) extends FluidWorld W where
  placeFluid_ne (w : W) {p q : Pos} (f : FluidState) (h : q ≠ p) :
    facts (placeFluid w p f).1 q = facts w q
  placeFluid_self (w : W) {p : Pos} {f : FluidState} {b : BlockFacts}
    (h : facts (placeFluid w p f).1 p = some b) :
    b.fluid = f ∨ (b.waterContainer ∧ f.kind = some .water ∧ b.fluid.kind = some .water) ∨
      facts w p = some b
  setBlockNamed_ne (w : W) {p q : Pos} (name : String) (h : q ≠ p) :
    facts (setBlockNamed w p name).1 q = facts w q
  setBlockNamed_self (w : W) {p : Pos} {name : String} {b : BlockFacts}
    (h : facts (setBlockNamed w p name).1 p = some b) : b.fluid = .empty

end Apoptosis.L2.Fluid
