import Apoptosis.Core.Bisect
import Apoptosis.Core.I32
import Apoptosis.L2World.World
/-!
# Boxes that move among blocks (`world/src/collision.rs`, `world/src/world.rs`)

A box moves one axis at a time, as far as the region it sweeps stays clear of
the collision boxes of the cells it covers. Coordinates are exact.

* `intersectsSolid_mono`: a larger box meets whatever a smaller one meets.
* `clipAxis_spec`: how far a box gets along an axis.
-/
namespace Apoptosis.L2.Terrain
open Apoptosis.Core Apoptosis.L2.Registry

inductive Axis
  | x | y | z
  deriving DecidableEq, Repr

instance : Fintype Axis := ⟨{.x, .y, .z}, fun a => by cases a <;> decide⟩

/-- mirrors crates/world/src/collision.rs:26-33 (`Vec3`) -/
abbrev Vec3 (K : Type*) := Axis → K

/-- mirrors crates/world/src/collision.rs:94-107 (`Aabb`) -/
structure Aabb (K : Type*) where
  min : Vec3 K
  max : Vec3 K

/-- mirrors crates/world/src/collision.rs:237-285 (`NON_SOLID`) -/
def NON_SOLID : List String :=
  [
    "minecraft:air", "minecraft:cave_air", "minecraft:void_air", "minecraft:water",
    "minecraft:lava", "minecraft:short_grass", "minecraft:tall_grass", "minecraft:fern",
    "minecraft:large_fern", "minecraft:dead_bush", "minecraft:dandelion", "minecraft:poppy",
    "minecraft:torch", "minecraft:wall_torch", "minecraft:soul_torch", "minecraft:redstone_torch",
    "minecraft:redstone_wire", "minecraft:rail", "minecraft:powered_rail",
    "minecraft:detector_rail", "minecraft:activator_rail", "minecraft:ladder", "minecraft:vine",
    "minecraft:oak_sapling", "minecraft:spruce_sapling", "minecraft:birch_sapling",
    "minecraft:jungle_sapling", "minecraft:acacia_sapling", "minecraft:dark_oak_sapling",
    "minecraft:sugar_cane", "minecraft:wheat", "minecraft:carrots", "minecraft:potatoes",
    "minecraft:beetroots", "minecraft:snow", "minecraft:lever", "minecraft:stone_pressure_plate",
    "minecraft:oak_pressure_plate", "minecraft:tripwire", "minecraft:tripwire_hook",
    "minecraft:lily_pad", "minecraft:kelp", "minecraft:seagrass", "minecraft:scaffolding",
    "minecraft:cobweb", "minecraft:soul_fire", "minecraft:fire"]

/-- mirrors crates/world/src/collision.rs:325-340 (`is_solid`, `is_solid_or_unknown`) -/
def isSolidOrUnknown (registry : BlockRegistry) (id : Int) : Bool :=
  if registry.isEmpty id then false
  else match registry.blockName id with
  | none => true
  | some name => String.ofList name ∉ NON_SOLID

set_option linter.unusedSectionVars false

variable {K : Type*} [Field K] [LinearOrder K] [FloorRing K]

namespace Aabb

/-- mirrors crates/world/src/collision.rs:133-142 (`Aabb::block`) -/
def block (x y z : Int) : Aabb K where
  min | .x => x | .y => y | .z => z
  max | .x => x + 1 | .y => y + 1 | .z => z + 1

/-- mirrors crates/world/src/collision.rs:164-173 (`Aabb::offset`) -/
def offset (b : Aabb K) (delta : Vec3 K) : Aabb K where
  min a := b.min a + delta a
  max a := b.max a + delta a

/-- mirrors crates/world/src/collision.rs:178-187 (`Aabb::expand`) -/
def expand (b : Aabb K) (amount : K) : Aabb K where
  min a := b.min a - amount
  max a := b.max a + amount

/-- mirrors crates/world/src/collision.rs:205-212 (`Aabb::intersects`) -/
def Intersects (b other : Aabb K) : Prop := ∀ a, b.min a < other.max a ∧ other.min a < b.max a

instance (b other : Aabb K) : Decidable (b.Intersects other) := inferInstanceAs (Decidable (∀ _, _))

/-- mirrors crates/world/src/collision.rs:216-229 (`Aabb::block_range`): the first block along an axis,
and the one past the last -/
def blockRange (b : Aabb K) (a : Axis) : Int × Int := ((I32.clamp ⌊b.min a⌋).val, (I32.clamp ⌈b.max a⌉).val)

end Aabb

/-- A world whose registry has a shape table. -/
structure ShapedWorld (K : Type*) extends World where
  /-- `BlockRegistry::collision_boxes`, in the coordinates of the cell. -/
  collisionBoxes : Int → Option (List (Aabb K))

/-- The integers of `low..high`. -/
def span (low high : Int) : List Int := (List.range (high - low).toNat).map fun (d : Nat) => low + d

theorem mem_span {low high i : Int} : i ∈ span low high ↔ low ≤ i ∧ i < high := by
  simp only [span, List.mem_map, List.mem_range]
  constructor
  · rintro ⟨d, hd, rfl⟩
    omega
  · intro h
    exact ⟨(i - low).toNat, by omega, by omega⟩

namespace ShapedWorld

/-- The lowest corner of a cell. -/
def corner (x y z : Int) : Vec3 K
  | .x => x
  | .y => y
  | .z => z

/-- The collision boxes of a cell, where they stand. -/
def cellBoxes (w : ShapedWorld K) (x y z : Int) : List (Aabb K) :=
  let id := w.getBlock x y z
  if !isSolidOrUnknown w.registry id then []
  else match w.collisionBoxes id with
  | none => [.block x y z]
  | some boxes => boxes.map fun shape => shape.offset (corner x y z)

/-- mirrors crates/world/src/world.rs:684-722 (`intersects_solid`) -/
def intersectsSolid (w : ShapedWorld K) (b : Aabb K) : Bool :=
  (span (b.blockRange .x).1 (b.blockRange .x).2).any fun x =>
    (span (b.blockRange .y).1 (b.blockRange .y).2).any fun y =>
      (span (b.blockRange .z).1 (b.blockRange .z).2).any fun z =>
        (w.cellBoxes x y z).any fun cell => b.Intersects cell

end ShapedWorld

/-- mirrors crates/world/src/world.rs:800-806 (`axis_delta`) -/
def axisDelta (axis : Axis) (amount : K) : Vec3 K := fun a => if a = axis then amount else 0

/-- mirrors crates/world/src/world.rs:812-822 (`swept`) -/
def swept (base : Aabb K) (delta : Vec3 K) : Aabb K where
  min a := min (base.min a) ((base.offset delta).min a)
  max a := max (base.max a) ((base.offset delta).max a)

/-- mirrors crates/world/src/world.rs:826-833 (`MoveResult`) -/
structure MoveResult (K : Type*) where
  delta : Vec3 K
  onGround : Bool
  collided : Axis → Bool

namespace ShapedWorld

variable (w : ShapedWorld K)

/-- mirrors crates/world/src/world.rs:657-682 (`clip_axis`) -/
def clipAxis (base : Aabb K) (axis : Axis) (amount epsilon : K) : Option K :=
  if w.intersectsSolid (base.expand (-epsilon)) then none
  else if !w.intersectsSolid ((swept base (axisDelta axis amount)).expand (-epsilon)) then some amount
  else some (amount * bisect (fun mid =>
    w.intersectsSolid ((swept base (axisDelta axis (amount * mid))).expand (-epsilon))) 16 0 1)

/-- The body of the loop of `move_axes`. -/
def moveAxis (box : Aabb K) (delta : Vec3 K) (epsilon : K) (r : MoveResult K) (axis : Axis) : MoveResult K :=
  let amount := delta axis
  if amount = 0 then r
  else match w.clipAxis (box.offset r.delta) axis amount epsilon with
  | some actual =>
    let short : Bool := |actual - amount| > epsilon
    { delta := r.delta + axisDelta axis actual
      onGround := r.onGround || (axis = .y && amount < 0 && short)
      collided := Function.update r.collided axis (r.collided axis || short) }
  | none => { r with collided := Function.update r.collided axis true }

def axisOrder (delta : Vec3 K) : List Axis := if |delta .x| ≥ |delta .z| then [.y, .x, .z] else [.y, .z, .x]

/-- mirrors crates/world/src/world.rs:546-592 (`move_axes`) -/
def moveAxes (box : Aabb K) (delta : Vec3 K) (epsilon : K) : MoveResult K :=
  (axisOrder delta).foldl (w.moveAxis box delta epsilon) ⟨0, false, fun _ => false⟩

/-- The square of the horizontal length. -/
def flat (delta : Vec3 K) : K := delta .x * delta .x + delta .z * delta .z

/-- mirrors crates/world/src/world.rs:603-645 (`try_step_up`) -/
def tryStepUp (base : Aabb K) (delta : Vec3 K) (normal : MoveResult K) (step epsilon : K) : Option (MoveResult K) :=
  if step ≤ 0 then none
  else
    let raised := base.offset (axisDelta .y step)
    if w.intersectsSolid (raised.expand (-epsilon)) then none
    else
      let stepped := w.moveAxes raised delta epsilon
      let downAllow := step + max (-delta .y) 0
      let steppedBox := raised.offset stepped.delta
      match w.clipAxis steppedBox .y (-downAllow) epsilon with
      | none => none
      | some down =>
        let finalDelta := stepped.delta + axisDelta .y step + axisDelta .y down
        if flat finalDelta ≤ flat normal.delta then none
        else
          let landed : Bool := |down + downAllow| > epsilon
          some {
            delta := finalDelta
            onGround := stepped.onGround || landed
            collided := Function.update stepped.collided .y (stepped.collided .y || landed) }

def EPSILON : K := 1 / 10 ^ 7

/-- Of a finite box and a finite movement; for any other the source returns no movement.
mirrors crates/world/src/world.rs:518-542 (`move_with_collision`) -/
def moveWithCollision (box : Aabb K) (delta : Vec3 K) (stepHeight : K) : MoveResult K :=
  let normal := w.moveAxes box delta EPSILON
  if stepHeight > 0 ∧ (normal.collided .x ∨ normal.collided .z) then
    (w.tryStepUp box delta normal stepHeight EPSILON).getD normal
  else normal

end ShapedWorld

/-! ## Boxes within boxes -/

namespace Aabb

/-- The first box is part of the second. -/
def Within (a b : Aabb K) : Prop := ∀ i, b.min i ≤ a.min i ∧ a.max i ≤ b.max i

variable {a b c : Aabb K}

theorem Within.trans (h : a.Within b) (h' : b.Within c) : a.Within c := fun i =>
  ⟨(h' i).1.trans (h i).1, (h i).2.trans (h' i).2⟩

theorem Within.intersects (h : a.Within b) (hi : a.Intersects c) : b.Intersects c := fun i =>
  ⟨(h i).1.trans_lt (hi i).1, (hi i).2.trans_le (h i).2⟩

variable [IsStrictOrderedRing K]

theorem Within.expand (h : a.Within b) (amount : K) : (a.expand amount).Within (b.expand amount) := fun i =>
  ⟨sub_le_sub_right (h i).1 amount, add_le_add_left (h i).2 amount⟩

theorem Within.blockRange (h : a.Within b) (i : Axis) :
    (b.blockRange i).1 ≤ (a.blockRange i).1 ∧ (a.blockRange i).2 ≤ (b.blockRange i).2 :=
  ⟨I32.clamp_mono (Int.floor_le_floor (h i).1), I32.clamp_mono (Int.ceil_le_ceil (h i).2)⟩

end Aabb

/-- A box covers the cells it reaches into; the last coordinate of all is never covered. -/
theorem Aabb.blockRange_covers [IsStrictOrderedRing K] {b : Aabb K} {a : Axis} {i : Int} (hlow : -2 ^ 31 ≤ i)
    (hhigh : i < 2 ^ 31 - 1) (hmin : b.min a < i + 1) (hmax : i < b.max a) :
    (b.blockRange a).1 ≤ i ∧ i < (b.blockRange a).2 := by
  have hfloor : ⌊b.min a⌋ ≤ i := Int.lt_add_one_iff.mp (Int.floor_lt.mpr (by exact_mod_cast hmin))
  have hceil : i + 1 ≤ ⌈b.max a⌉ := Int.add_one_le_iff.mpr (Int.lt_ceil.mpr hmax)
  constructor
  · exact (I32.clamp_mono hfloor).trans_eq (I32.clamp_of_mem hlow (by omega))
  · have := I32.clamp_mono hceil
    rw [I32.clamp_of_mem (by omega) (by omega)] at this
    exact Int.add_one_le_iff.mp this

section

variable [IsStrictOrderedRing K] {base : Aabb K} {axis : Axis}

theorem swept_zero (base : Aabb K) (axis : Axis) : swept base (axisDelta axis 0) = base := by
  simp [swept, Aabb.offset, axisDelta]

/-- A movement sweeps more the farther it goes. -/
theorem swept_within {amount s t : K} (hs : 0 ≤ s) (hst : s ≤ t) :
    (swept base (axisDelta axis (amount * s))).Within (swept base (axisDelta axis (amount * t))) := by
  intro i
  have hzero (q : K) : 0 + q = q := zero_add q
  simp only [swept, Aabb.offset, axisDelta]
  split
  · rcases le_total 0 amount with h | h
    · have hpos : 0 ≤ amount * s := mul_nonneg h hs
      have hle : amount * s ≤ amount * t := mul_le_mul_of_nonneg_left hst h
      refine ⟨le_min (min_le_left _ _) ?_, max_le (le_max_left _ _) (le_max_of_le_right (by linarith))⟩
      exact (min_le_left _ _).trans (by linarith)
    · have hneg : amount * s ≤ 0 := mul_nonpos_of_nonpos_of_nonneg h hs
      have hle : amount * t ≤ amount * s := mul_le_mul_of_nonpos_left hst h
      refine ⟨le_min (min_le_left _ _) (min_le_of_right_le (by linarith)), max_le (le_max_left _ _) ?_⟩
      exact le_max_of_le_left (by linarith)
  · exact ⟨le_rfl, le_rfl⟩

end

namespace ShapedWorld

variable {w : ShapedWorld K} {b c : Aabb K}

theorem intersectsSolid_iff : w.intersectsSolid b = true ↔ ∃ x y z,
    ((b.blockRange .x).1 ≤ x ∧ x < (b.blockRange .x).2) ∧ ((b.blockRange .y).1 ≤ y ∧ y < (b.blockRange .y).2) ∧
      ((b.blockRange .z).1 ≤ z ∧ z < (b.blockRange .z).2) ∧ ∃ cell ∈ w.cellBoxes x y z, b.Intersects cell := by
  simp only [intersectsSolid, List.any_eq_true, mem_span, decide_eq_true_eq]
  constructor
  · rintro ⟨x, hx, y, hy, z, hz, cell, hcell, hb⟩
    exact ⟨x, y, z, hx, hy, hz, cell, hcell, hb⟩
  · rintro ⟨x, y, z, hx, hy, hz, cell, hcell, hb⟩
    exact ⟨x, hx, y, hy, z, hz, cell, hcell, hb⟩

variable [IsStrictOrderedRing K]

theorem intersectsSolid_mono (h : b.Within c) (hb : w.intersectsSolid b = true) : w.intersectsSolid c = true := by
  obtain ⟨x, y, z, hx, hy, hz, cell, hcell, hi⟩ := intersectsSolid_iff.mp hb
  have hrange := h.blockRange
  exact intersectsSolid_iff.mpr ⟨x, y, z, ⟨(hrange .x).1.trans hx.1, hx.2.trans_le (hrange .x).2⟩,
    ⟨(hrange .y).1.trans hy.1, hy.2.trans_le (hrange .y).2⟩,
    ⟨(hrange .z).1.trans hz.1, hz.2.trans_le (hrange .z).2⟩, cell, hcell, h.intersects hi⟩

/-! ## How far a box gets along an axis -/

/-- The part of the movement is clear. -/
def Clear (w : ShapedWorld K) (base : Aabb K) (axis : Axis) (amount epsilon part : K) : Prop :=
  w.intersectsSolid ((swept base (axisDelta axis (amount * part))).expand (-epsilon)) = false

variable {base : Aabb K} {axis : Axis} {amount epsilon : K}

theorem Clear.mono {s t : K} (h : w.Clear base axis amount epsilon t) (hs : 0 ≤ s) (hst : s ≤ t) :
    w.Clear base axis amount epsilon s := by
  refine Bool.eq_false_iff.mpr fun hbad => ?_
  rw [Clear, intersectsSolid_mono ((swept_within hs hst).expand _) hbad] at h
  exact nomatch h

theorem clear_zero : w.Clear base axis amount epsilon 0 ↔ w.intersectsSolid (base.expand (-epsilon)) = false := by
  rw [Clear, mul_zero, swept_zero]

/-- A box that can move at all gets a part of the way, the whole of it if that
is clear, and otherwise the last clear one of the 65536ths. -/
theorem clipAxis_spec {actual : K} (h : w.clipAxis base axis amount epsilon = some actual) :
    ∃ j : ℕ, j ≤ 2 ^ 16 ∧ actual = amount * (j / 2 ^ 16) ∧
      ∀ m : ℕ, m ≤ 2 ^ 16 → (w.Clear base axis amount epsilon (m / 2 ^ 16) ↔ m ≤ j) := by
  rw [clipAxis] at h
  split at h
  · exact nomatch h
  next hbase =>
  have hzero : w.Clear base axis amount epsilon 0 := clear_zero.mpr (Bool.eq_false_iff.mpr hbase)
  split at h
  · next hall =>
    obtain rfl := Option.some.inj h
    have hone : w.Clear base axis amount epsilon 1 := by
      rw [Clear, mul_one]
      simpa using hall
    refine ⟨2 ^ 16, le_rfl, by norm_num, fun m hm => iff_of_true (hone.mono (by positivity) ?_) hm⟩
    exact (div_le_one (by positivity)).mpr (by exact_mod_cast hm)
  · next hnot =>
    obtain rfl := Option.some.inj h
    set bad := fun mid => w.intersectsSolid ((swept base (axisDelta axis (amount * mid))).expand (-epsilon)) with hbad
    have hlow : bad 0 = false := hzero
    have hhigh : bad 1 = true := by
      rw [hbad]
      simpa using hnot
    have hmono : ∀ s t, (0 : K) ≤ s → s ≤ t → bad s = true → bad t = true := fun s t hs hst =>
      intersectsSolid_mono ((swept_within hs hst).expand _)
    obtain ⟨j, hj, heq, -⟩ := bisect_grid 16 hlow hhigh
    have hgrid (i : ℕ) : (0 : K) + i * ((1 - 0) / 2 ^ 16) = i / 2 ^ 16 := by ring
    rw [hgrid] at heq
    refine ⟨j, hj.le, by rw [heq], fun m _ => ?_⟩
    have hiff := bisect_good_iff 16 zero_lt_one hmono hlow hhigh m
    rw [hgrid, heq, div_le_div_iff_of_pos_right (by positivity), Nat.cast_le] at hiff
    exact hiff

/-- A clipped movement sweeps a clear region. -/
theorem clipAxis_clear {actual : K} (h : w.clipAxis base axis amount epsilon = some actual) :
    w.intersectsSolid ((swept base (axisDelta axis actual)).expand (-epsilon)) = false := by
  obtain ⟨j, hj, rfl, hclear⟩ := clipAxis_spec h
  exact (hclear j hj).mpr le_rfl

/-- Where the whole sweep is clear, the whole movement is allowed. -/
theorem clipAxis_of_clear
    (h : w.intersectsSolid ((swept base (axisDelta axis amount)).expand (-epsilon)) = false) :
    w.clipAxis base axis amount epsilon = some amount := by
  have hone : w.Clear base axis amount epsilon 1 := by
    rw [Clear, mul_one]
    exact h
  have hbase := clear_zero.mp (hone.mono le_rfl zero_le_one)
  rw [clipAxis, if_neg (by rw [hbase]; exact Bool.false_ne_true), if_pos (by rw [h]; rfl)]

theorem part_mem {j : ℕ} (h : j ≤ 2 ^ 16) : (0 : K) ≤ j / 2 ^ 16 ∧ (j / 2 ^ 16 : K) ≤ 1 :=
  ⟨by positivity, (div_le_one (by positivity)).mpr (by exact_mod_cast h)⟩

end ShapedWorld

end Apoptosis.L2.Terrain
