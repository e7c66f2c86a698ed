import Apoptosis.Core.Instances
import Apoptosis.L2World.Movement
/-!
# Movement among blocks that reach out of their cells (`world/src/world.rs`)

`intersects_solid` looks at the cells a box covers. A block whose collision
box reaches out of its cell, as a fence's does, is missed where the mover
does not cover the cell itself, and so is a block at `i32::MAX`.

Results:
* `intersectsSolid_iff_overlaps`: where no block reaches out, the scan misses nothing.
* `legs_clear`: a movement axis by axis sweeps what the scan finds clear.
* `route_clear`: so does the whole movement, with a step up.
* `lift_clear`: what may be passed where a box is lifted.
* `reach_unsafe`, `last_unsafe`: a block that the scan misses is moved into.
* `never_inside_iff`.
-/
namespace Apoptosis.L2.Terrain
open Apoptosis.Core Apoptosis.L2.Registry Apoptosis.L2.Storage

set_option linter.unusedSectionVars false

variable {K : Type*} [Field K] [LinearOrder K] [FloorRing K] [IsStrictOrderedRing K]

/-- An `i32`. -/
def InRange (i : Int) : Prop := -2 ^ 31 ≤ i ∧ i < 2 ^ 31

/-- Part of the way from `u` to `v`. -/
def partWay (u v : Vec3 K) (t : K) : Vec3 K := fun a => u a + t * (v a - u a)

theorem partWay_self (u : Vec3 K) (t : K) : partWay u u t = u := by
  funext a
  rw [partWay, sub_self, mul_zero, add_zero]

namespace ShapedWorld

/-! ## What is solid -/

/-- The box overlaps the collision box of some block. -/
def Overlaps (w : ShapedWorld K) (b : Aabb K) : Prop := ∃ x y z, InRange x ∧ InRange y ∧ InRange z ∧
  ∃ cell ∈ w.cellBoxes x y z, b.Intersects cell

/-- No collision box reaches out of its cell. -/
def Contained (w : ShapedWorld K) : Prop := ∀ x y z, ∀ cell ∈ w.cellBoxes x y z, ∀ a,
  corner x y z a ≤ cell.min a ∧ cell.max a ≤ corner x y z a + 1

/-- No block with a collision box is at the last coordinate of an axis. -/
def Inland (w : ShapedWorld K) : Prop := ∀ x y z, InRange x → InRange y → InRange z →
  w.cellBoxes x y z ≠ [] → x < 2 ^ 31 - 1 ∧ y < 2 ^ 31 - 1 ∧ z < 2 ^ 31 - 1

variable {w : ShapedWorld K} {b : Aabb K}

theorem blockRange_inRange {b : Aabb K} {a : Axis} {i : Int} (h : (b.blockRange a).1 ≤ i ∧ i < (b.blockRange a).2) :
    InRange i := by
  have hlow : -2 ^ 31 ≤ (b.blockRange a).1 := (I32.clamp ⌊b.min a⌋).property.1
  have hhigh : (b.blockRange a).2 < 2 ^ 31 := (I32.clamp ⌈b.max a⌉).property.2
  unfold InRange
  omega

theorem overlaps_of_intersectsSolid (h : w.intersectsSolid b = true) : w.Overlaps b := by
  obtain ⟨x, y, z, hx, hy, hz, hcell⟩ := intersectsSolid_iff.mp h
  exact ⟨x, y, z, blockRange_inRange hx, blockRange_inRange hy, blockRange_inRange hz, hcell⟩

/-- Where no block reaches out of its cell, and none is at the end of the coordinates, the scan finds
every overlap. -/
theorem intersectsSolid_iff_overlaps (hcontained : w.Contained) (hinland : w.Inland) :
    w.intersectsSolid b = true ↔ w.Overlaps b := by
  refine ⟨overlaps_of_intersectsSolid, ?_⟩
  rintro ⟨x, y, z, hx, hy, hz, cell, hcell, hb⟩
  obtain ⟨hx', hy', hz'⟩ := hinland x y z hx hy hz (List.ne_nil_of_mem hcell)
  have hbox := hcontained x y z cell hcell
  refine intersectsSolid_iff.mpr ⟨x, y, z, ?_, ?_, ?_, cell, hcell, hb⟩
  · exact Aabb.blockRange_covers hx.1 hx' ((hb .x).1.trans_le (hbox .x).2) ((hbox .x).1.trans_lt (hb .x).2)
  · exact Aabb.blockRange_covers hy.1 hy' ((hb .y).1.trans_le (hbox .y).2) ((hbox .y).1.trans_lt (hb .y).2)
  · exact Aabb.blockRange_covers hz.1 hz' ((hb .z).1.trans_le (hbox .z).2) ((hbox .z).1.trans_lt (hb .z).2)

/-! ## The way of a movement -/

section way
variable (w) (box : Aabb K) (delta : Vec3 K) (step : K)

/-- The scan finds nothing where the box is, moved so far. -/
def NoHit (moved : Vec3 K) : Prop := w.intersectsSolid ((box.offset moved).expand (-EPSILON)) = false

/-- The ways along the axes that a movement is made of. -/
def legs : List Axis → MoveResult K → List (Vec3 K × Vec3 K)
  | [], _ => []
  | axis :: axes, r =>
    (r.delta, (w.moveAxis box delta EPSILON r axis).delta) :: legs axes (w.moveAxis box delta EPSILON r axis)

/-- The ways of `move_axes`. -/
def axisLegs : List (Vec3 K × Vec3 K) := w.legs box delta (axisOrder delta) ⟨0, false, fun _ => false⟩

/-- The step up that `move_with_collision` takes, if it does. -/
def stepUp : Option (MoveResult K) :=
  if step > 0 ∧ ((w.moveAxes box delta EPSILON).collided .x ∨ (w.moveAxes box delta EPSILON).collided .z) then
    w.tryStepUp box delta (w.moveAxes box delta EPSILON) step EPSILON
  else none

/-- The ways along the axes of the whole movement: from where the box stands, or from where it is
lifted to and then down. -/
def route : List (Vec3 K × Vec3 K) :=
  match w.stepUp box delta step with
  | none => w.axisLegs box delta
  | some stepped =>
    (w.axisLegs (raisedBox box step) delta).map (fun leg => (leg.1 + axisDelta .y step, leg.2 + axisDelta .y step)) ++
      [((w.raisedMove box delta step).delta + axisDelta .y step, stepped.delta)]

end way

variable {box : Aabb K} {delta : Vec3 K} {step : K}

theorem moveWithCollision_eq : w.moveWithCollision box delta step =
    (w.stepUp box delta step).getD (w.moveAxes box delta EPSILON) := by
  rw [moveWithCollision, stepUp]
  split <;> rfl

theorem noHit_of_within {moved : Vec3 K} {region : Aabb K}
    (h : w.intersectsSolid (region.expand (-EPSILON)) = false) (hin : (box.offset moved).Within region) :
    w.NoHit box moved := by
  refine Bool.eq_false_iff.mpr fun hbad => ?_
  exact Bool.false_ne_true (h.symm.trans (intersectsSolid_mono (hin.expand _) hbad))

/-- What a movement along an axis passes is in the region it sweeps. -/
theorem offset_within_swept (r : Vec3 K) (axis : Axis) (actual : K) {t : K} (h0 : 0 ≤ t) (h1 : t ≤ 1) :
    (box.offset (partWay r (r + axisDelta axis actual) t)).Within (swept (box.offset r) (axisDelta axis actual)) := by
  have hpart : (swept (box.offset r) (axisDelta axis (actual * t))).Within
      (swept (box.offset r) (axisDelta axis (actual * 1))) := swept_within h0 h1
  rw [mul_one] at hpart
  refine Aabb.Within.trans (fun a => ?_) hpart
  have hmin : ((box.offset r).offset (axisDelta axis (actual * t))).min a =
      (box.offset (partWay r (r + axisDelta axis actual) t)).min a := by
    simp only [Aabb.offset, partWay, axisDelta, Pi.add_apply]
    split <;> ring
  have hmax : ((box.offset r).offset (axisDelta axis (actual * t))).max a =
      (box.offset (partWay r (r + axisDelta axis actual) t)).max a := by
    simp only [Aabb.offset, partWay, axisDelta, Pi.add_apply]
    split <;> ring
  exact ⟨hmin ▸ min_le_right _ _, hmax ▸ le_max_right _ _⟩

theorem NoHit.sweep {r : Vec3 K} {axis : Axis} {amount actual : K}
    (h : w.clipAxis (box.offset r) axis amount EPSILON = some actual) {t : K} (h0 : 0 ≤ t) (h1 : t ≤ 1) :
    w.NoHit box (partWay r (r + axisDelta axis actual) t) :=
  noHit_of_within (clipAxis_clear h) (offset_within_swept r axis actual h0 h1)

theorem partWay_one (u v : Vec3 K) : partWay u v 1 = v := by
  funext a
  rw [partWay, one_mul, add_sub_cancel]

/-- One axis passes nothing the scan would find. -/
theorem NoHit.axis {r : MoveResult K} (h : w.NoHit box r.delta) (axis : Axis) {t : K} (h0 : 0 ≤ t) (h1 : t ≤ 1) :
    w.NoHit box (partWay r.delta (w.moveAxis box delta EPSILON r axis).delta t) := by
  rw [moveAxis]
  split
  · rw [partWay_self]
    exact h
  · split
    · next actual hclip => exact NoHit.sweep hclip h0 h1
    · rw [partWay_self]
      exact h

theorem legs_clear {axes : List Axis} {r : MoveResult K} (h : w.NoHit box r.delta) :
    (∀ leg ∈ w.legs box delta axes r, ∀ t, 0 ≤ t → t ≤ 1 → w.NoHit box (partWay leg.1 leg.2 t)) ∧
      w.NoHit box (axes.foldl (w.moveAxis box delta EPSILON) r).delta := by
  induction axes generalizing r with
  | nil => exact ⟨fun _ hleg => absurd hleg List.not_mem_nil, h⟩
  | cons axis axes ih =>
    have hend : w.NoHit box (w.moveAxis box delta EPSILON r axis).delta := by
      have hone := @NoHit.axis _ _ _ _ _ w box delta r h axis 1 zero_le_one le_rfl
      rwa [partWay_one] at hone
    obtain ⟨hlegs, hlast⟩ := ih hend
    refine ⟨fun leg hleg t h0 h1 => ?_, hlast⟩
    rcases List.mem_cons.mp hleg with rfl | hleg
    · exact h.axis axis h0 h1
    · exact hlegs leg hleg t h0 h1

theorem moveAxes_clear (h : w.NoHit box 0) :
    (∀ leg ∈ w.axisLegs box delta, ∀ t, 0 ≤ t → t ≤ 1 → w.NoHit box (partWay leg.1 leg.2 t)) ∧
      w.NoHit box (w.moveAxes box delta EPSILON).delta :=
  legs_clear h

/-- A step up starts where the box has headroom, and ends by settling. -/
theorem stepUp_some {stepped : MoveResult K} (h : w.stepUp box delta step = some stepped) : 0 < step ∧
    w.intersectsSolid ((raisedBox box step).expand (-EPSILON)) = false ∧
    ∃ down, w.clipAxis (w.steppedBox box delta step) .y (-downAllow delta step) EPSILON = some down ∧
      stepped.delta = (w.raisedMove box delta step).delta + axisDelta .y step + axisDelta .y down := by
  rw [stepUp] at h
  split at h
  · next htry =>
    rw [tryStepUp, if_neg (not_le.mpr htry.1)] at h
    dsimp only at h
    split at h
    · cases h
    · next hfree =>
      split at h
      · cases h
      · next down hclip =>
        split at h
        · cases h
        · obtain rfl := Option.some.inj h
          exact ⟨htry.1, Bool.eq_false_iff.mpr hfree, down, hclip, rfl⟩
  · cases h

/-- What the raised box passes, seen from where the box stood. -/
theorem noHit_raised {moved : Vec3 K} : w.NoHit (raisedBox box step) moved ↔ w.NoHit box (moved + axisDelta .y step) := by
  have hbox : (raisedBox box step).offset moved = box.offset (moved + axisDelta .y step) := by
    simp only [raisedBox, Aabb.offset, Pi.add_apply]
    congr 1 <;> funext a <;> ring
  rw [NoHit, NoHit, hbox]

theorem partWay_add (u v s : Vec3 K) (t : K) : partWay (u + s) (v + s) t = partWay u v t + s := by
  funext a
  simp only [partWay, Pi.add_apply]
  ring

/-- The whole movement passes nothing the scan would find. -/
theorem route_clear (h : w.NoHit box 0) :
    (∀ leg ∈ w.route box delta step, ∀ t, 0 ≤ t → t ≤ 1 → w.NoHit box (partWay leg.1 leg.2 t)) ∧
      w.NoHit box (w.moveWithCollision box delta step).delta := by
  rw [moveWithCollision_eq, route]
  split
  · next hnone =>
    rw [hnone]
    exact moveAxes_clear h
  · next stepped hsome =>
    rw [hsome, Option.getD_some]
    obtain ⟨-, hfree, down, hclip, hmoved⟩ := stepUp_some hsome
    have hraised : w.NoHit (raisedBox box step) 0 := by
      have hzero : (raisedBox box step).offset 0 = raisedBox box step := by simp [Aabb.offset]
      rwa [NoHit, hzero]
    obtain ⟨hlegs, -⟩ := @moveAxes_clear _ _ _ _ _ w (raisedBox box step) delta hraised
    have hsettle (t : K) (h0 : 0 ≤ t) (h1 : t ≤ 1) :
        w.NoHit box (partWay ((w.raisedMove box delta step).delta + axisDelta .y step) stepped.delta t) := by
      have hsweep := NoHit.sweep hclip h0 h1
      rw [noHit_raised, ← partWay_add] at hsweep
      rw [hmoved, add_right_comm]
      exact hsweep
    refine ⟨fun leg hleg t h0 h1 => ?_, ?_⟩
    · rcases List.mem_append.mp hleg with hleg | hleg
      · obtain ⟨inner, hinner, rfl⟩ := List.mem_map.mp hleg
        rw [partWay_add, ← noHit_raised]
        exact hlegs inner hinner t h0 h1
      · obtain rfl := List.mem_singleton.mp hleg
        exact hsettle t h0 h1
    · have hlast := hsettle 1 zero_le_one le_rfl
      rwa [partWay_one] at hlast

/-! ## What a movement keeps out of -/

section keeps
variable (w : ShapedWorld K)

/-- The box, shrunk, is in no block where it is, moved so far. -/
def Outside (box : Aabb K) (moved : Vec3 K) : Prop := ¬w.Overlaps ((box.offset moved).expand (-EPSILON))

/-- A box that is in no block ends in none, and passes none along the axes. -/
def KeepsOut : Prop := ∀ (box : Aabb K) (delta : Vec3 K) (step : K), step ≤ box.max .y - box.min .y →
  w.Outside box 0 → w.Outside box (w.moveWithCollision box delta step).delta ∧
    ∀ leg ∈ w.route box delta step, ∀ t, 0 ≤ t → t ≤ 1 → w.Outside box (partWay leg.1 leg.2 t)

/-- Nor does it pass one where it is lifted. -/
def LiftKeepsOut : Prop := ∀ (box : Aabb K) (delta : Vec3 K) (step : K), step ≤ box.max .y - box.min .y →
  w.Outside box 0 → w.stepUp box delta step ≠ none → ∀ t, 0 ≤ t → t ≤ 1 → w.Outside box (axisDelta .y (t * step))

end keeps

theorem noHit_iff_outside (hcontained : w.Contained) (hinland : w.Inland) {moved : Vec3 K} :
    w.NoHit box moved ↔ w.Outside box moved := by
  rw [NoHit, Outside, ← intersectsSolid_iff_overlaps hcontained hinland, Bool.not_eq_true]

theorem keepsOut_of_contained (hcontained : w.Contained) (hinland : w.Inland) : w.KeepsOut := by
  intro box delta step _ hstart
  obtain ⟨hlegs, hend⟩ := @route_clear _ _ _ _ _ w box delta step ((noHit_iff_outside hcontained hinland).mpr hstart)
  exact ⟨(noHit_iff_outside hcontained hinland).mp hend, fun leg hleg t h0 h1 =>
    (noHit_iff_outside hcontained hinland).mp (hlegs leg hleg t h0 h1)⟩

/-- Between where a box stands and where it is lifted to there is room for a thin plate only. -/
theorem lift_clear {c : Aabb K} (hthick : 2 * EPSILON < c.max .y - c.min .y) (htall : step ≤ box.max .y - box.min .y)
    (hpos : 0 ≤ step) {t : K} (h0 : 0 ≤ t) (h1 : t ≤ 1)
    (hhit : ((box.offset (axisDelta .y (t * step))).expand (-EPSILON)).Intersects c) :
    (box.expand (-EPSILON)).Intersects c ∨ ((raisedBox box step).expand (-EPSILON)).Intersects c := by
  have hpart : 0 ≤ t * step := mul_nonneg h0 hpos
  have hpart' : t * step ≤ step := mul_le_of_le_one_left hpos h1
  obtain ⟨hlow, hhigh⟩ := hhit .y
  simp only [Aabb.offset, Aabb.expand, axisDelta, if_pos, sub_neg_eq_add] at hlow hhigh
  rcases lt_or_ge (c.min .y) (box.max .y + -EPSILON) with hbase | hover
  · refine .inl fun a => ?_
    have ha := hhit a
    cases a
    · simpa [Aabb.offset, Aabb.expand, axisDelta] using ha
    · exact ⟨by simp only [Aabb.expand, sub_neg_eq_add]; linarith, hbase⟩
    · simpa [Aabb.offset, Aabb.expand, axisDelta] using ha
  · refine .inr fun a => ?_
    have ha := hhit a
    cases a
    · simpa [raisedBox, Aabb.offset, Aabb.expand, axisDelta] using ha
    · simp only [raisedBox, Aabb.offset, Aabb.expand, axisDelta, if_pos, sub_neg_eq_add]
      exact ⟨by linarith, by linarith⟩
    · simpa [raisedBox, Aabb.offset, Aabb.expand, axisDelta] using ha

end ShapedWorld

/-! ## What the table gives -/

section table
variable (registry : BlockRegistry) (collisionBoxes : Int → Option (List (Aabb K)))

/-- No box that the table gives a solid state reaches out of its cell. -/
def InCell : Prop := ∀ id, isSolidOrUnknown registry id = true → ∀ shapes, collisionBoxes id = some shapes →
  ∀ shape ∈ shapes, ∀ a, 0 ≤ shape.min a ∧ shape.max a ≤ 1

section
attribute [local instance] Apoptosis.Core.atLeastTwo

/-- Every box of a solid state is thicker than what movers are shrunk by. -/
def Thick (a : Axis) : Prop := ∀ id, isSolidOrUnknown registry id = true → ∀ shapes, collisionBoxes id = some shapes →
  ∀ shape ∈ shapes, 2 * ShapedWorld.EPSILON < shape.max a - shape.min a

end

end table

namespace ShapedWorld

/-- The blocks are those of the table. -/
structure Over (w : ShapedWorld K) (registry : BlockRegistry) (collisionBoxes : Int → Option (List (Aabb K))) :
    Prop where
  registry : w.registry = registry
  boxes : w.collisionBoxes = collisionBoxes

variable {w : ShapedWorld K} {registry : BlockRegistry} {collisionBoxes : Int → Option (List (Aabb K))}

/-- A cell's boxes are the whole cell, or the table's. -/
theorem cell_shape (hover : w.Over registry collisionBoxes) {x y z : Int} {c : Aabb K} (hc : c ∈ w.cellBoxes x y z) :
    c = .block x y z ∨ ∃ id shapes shape, isSolidOrUnknown registry id = true ∧ collisionBoxes id = some shapes ∧
      shape ∈ shapes ∧ c = shape.offset (corner x y z) := by
  rw [cellBoxes, hover.registry, hover.boxes] at hc
  split at hc
  · exact absurd hc List.not_mem_nil
  · next hsolid =>
    split at hc
    · exact .inl (List.mem_singleton.mp hc)
    · next shapes hshapes =>
      obtain ⟨shape, hshape, rfl⟩ := List.mem_map.mp hc
      exact .inr ⟨_, shapes, shape, by simpa using hsolid, hshapes, hshape, rfl⟩

theorem contained_of_inCell (hover : w.Over registry collisionBoxes) (hin : InCell registry collisionBoxes) :
    w.Contained := by
  intro x y z c hc a
  rcases cell_shape hover hc with rfl | ⟨id, shapes, shape, hsolid, hshapes, hshape, rfl⟩
  · cases a <;> exact ⟨le_rfl, le_rfl⟩
  · obtain ⟨hmin, hmax⟩ := hin id hsolid shapes hshapes shape hshape a
    dsimp only [Aabb.offset]
    exact ⟨by linarith, by linarith⟩

theorem cell_thick (hover : w.Over registry collisionBoxes) {a : Axis} (hthick : Thick registry collisionBoxes a)
    {x y z : Int} {c : Aabb K} (hc : c ∈ w.cellBoxes x y z) : 2 * EPSILON < c.max a - c.min a := by
  rcases cell_shape hover hc with rfl | ⟨id, shapes, shape, hsolid, hshapes, hshape, rfl⟩
  · have hsmall : (2 * EPSILON : K) < 1 := by
      rw [EPSILON]
      norm_num
    have hone : (Aabb.block x y z : Aabb K).max a - (Aabb.block x y z : Aabb K).min a = 1 := by
      cases a <;> exact add_sub_cancel_left _ _
    rwa [hone]
  · have h := hthick id hsolid shapes hshapes shape hshape
    have hsame : (shape.offset (corner x y z)).max a - (shape.offset (corner x y z)).min a = shape.max a - shape.min a :=
      add_sub_add_right_eq_sub _ _ _
    rwa [hsame]

theorem liftKeepsOut (hover : w.Over registry collisionBoxes) (hin : InCell registry collisionBoxes)
    (hthick : Thick registry collisionBoxes .y) (hinland : w.Inland) : w.LiftKeepsOut := by
  rintro box delta step htall hstart hup t h0 h1 ⟨x, y, z, hx, hy, hz, c, hc, hhit⟩
  obtain ⟨stepped, hsome⟩ := Option.ne_none_iff_exists'.mp hup
  obtain ⟨hpos, hfree, -⟩ := stepUp_some hsome
  rcases lift_clear (cell_thick hover hthick hc) htall hpos.le h0 h1 hhit with hbase | hraised
  · refine hstart ⟨x, y, z, hx, hy, hz, c, hc, ?_⟩
    simpa [Aabb.offset] using hbase
  · have hno := (intersectsSolid_iff_overlaps (contained_of_inCell hover hin) hinland).mpr
      ⟨x, y, z, hx, hy, hz, c, hc, hraised⟩
    cases hfree.symm.trans hno

/-! ## What is not seen -/

theorem moveAxis_still {delta : Vec3 K} {epsilon : K} (r : MoveResult K) {axis : Axis} (h : delta axis = 0) :
    w.moveAxis box delta epsilon r axis = r := by
  rw [moveAxis]
  exact if_pos h

/-- A movement along one axis whose sweep is clear is made in full. -/
theorem moveAxes_along {a : Axis} {amount : K}
    (h : w.intersectsSolid ((swept box (axisDelta a amount)).expand (-EPSILON)) = false) :
    w.moveAxes box (axisDelta a amount) EPSILON = ⟨axisDelta a amount, false, fun _ => false⟩ := by
  have hmove : w.moveAxis box (axisDelta a amount) EPSILON ⟨0, false, fun _ => false⟩ a =
      ⟨axisDelta a amount, false, fun _ => false⟩ := by
    have hbase : box.offset 0 = box := by simp [Aabb.offset]
    have hself : axisDelta a amount a = amount := if_pos rfl
    rw [moveAxis]
    dsimp only
    split
    · next hzero =>
      have hstill : axisDelta a amount = 0 := by
        funext i
        simp [axisDelta, hself.symm.trans hzero]
      rw [hstill]
    · have hpos : ¬(0 : K) > EPSILON := by
        rw [EPSILON, gt_iff_lt, not_lt]
        positivity
      rw [hself, hbase, clipAxis_of_clear h]
      simp [hpos]
  have hother (r : MoveResult K) {i : Axis} (hi : i ≠ a) : w.moveAxis box (axisDelta a amount) EPSILON r i = r :=
    moveAxis_still r (if_neg hi)
  rw [moveAxes, axisOrder]
  cases a <;> split <;>
    · simp (disch := decide) only [List.foldl_cons, List.foldl_nil, hother]
      exact hmove

/-- So is the whole movement. -/
theorem moveWithCollision_along {a : Axis} {amount : K}
    (h : w.intersectsSolid ((swept box (axisDelta a amount)).expand (-EPSILON)) = false) :
    (w.moveWithCollision box (axisDelta a amount) step).delta = axisDelta a amount := by
  rw [moveWithCollision, moveAxes_along h]
  simp

/-- What a shrunk box sweeps along an axis to get to a place. -/
def reach (goal : Aabb K) (a : Axis) (amount : K) : Aabb K :=
  (swept ((goal.expand EPSILON).offset (axisDelta a (-amount))) (axisDelta a amount)).expand (-EPSILON)

theorem reach_min (goal : Aabb K) (a : Axis) (amount : K) :
    (reach goal a amount).min a = min (goal.min a - amount) (goal.min a) := by
  simp only [reach, swept, Aabb.offset, Aabb.expand, axisDelta, if_pos, sub_neg_eq_add]
  rw [← min_add_add_right]
  congr 1 <;> ring

theorem reach_max (goal : Aabb K) (a : Axis) (amount : K) :
    (reach goal a amount).max a = max (goal.max a - amount) (goal.max a) := by
  simp only [reach, swept, Aabb.offset, Aabb.expand, axisDelta, if_pos]
  rw [← max_add_add_right]
  congr 1 <;> ring

/-- A box is moved into a block that the sweep does not see. -/
theorem not_keepsOut {goal : Aabb K} {a : Axis} {amount : K} (hseen : w.intersectsSolid (reach goal a amount) = false)
    (hstart : ¬w.Overlaps (goal.offset (axisDelta a (-amount)))) (hgoal : w.Overlaps goal)
    (htall : goal.min .y ≤ goal.max .y) : ¬w.KeepsOut := by
  intro hkeeps
  have hpos : (0 : K) < EPSILON := by
    rw [EPSILON]
    positivity
  set box : Aabb K := (goal.expand EPSILON).offset (axisDelta a (-amount)) with hbox
  have hheight : 0 ≤ box.max .y - box.min .y := by
    simp only [hbox, Aabb.offset, Aabb.expand]
    linarith
  have hshrunk (moved : Vec3 K) : (box.offset moved).expand (-EPSILON) = goal.offset (axisDelta a (-amount) + moved) := by
    simp only [hbox, Aabb.offset, Aabb.expand, Pi.add_apply]
    congr 1 <;> funext i <;> ring
  have hmoved : (w.moveWithCollision box (axisDelta a amount) 0).delta = axisDelta a amount :=
    moveWithCollision_along hseen
  have hback : axisDelta a (-amount) + axisDelta a amount = (0 : Vec3 K) := by
    funext i
    simp [axisDelta]
    split <;> simp
  have hin := (hkeeps box (axisDelta a amount) 0 hheight (by rwa [Outside, hshrunk, add_zero])).1
  rw [hmoved, Outside, hshrunk, hback] at hin
  refine hin ?_
  simpa [Aabb.offset] using hgoal

/-- A box around another, but for one axis. -/
def around (c : Aabb K) (a : Axis) (low high : K) : Aabb K where
  min i := if i = a then low else min (c.min i) (c.max i) - 1
  max i := if i = a then high else max (c.min i) (c.max i) + 1

theorem around_min (c : Aabb K) (a : Axis) (low high : K) : (around c a low high).min a = low := if_pos rfl

theorem around_max (c : Aabb K) (a : Axis) (low high : K) : (around c a low high).max a = high := if_pos rfl

theorem around_intersects {c : Aabb K} {a : Axis} {low high : K} (hlow : low < c.max a) (hhigh : c.min a < high) :
    (around c a low high).Intersects c := by
  intro i
  simp only [around]
  split
  · next heq => exact heq ▸ ⟨hlow, hhigh⟩
  · exact ⟨by linarith [min_le_right (c.min i) (c.max i)], by linarith [le_max_left (c.min i) (c.max i)]⟩

theorem around_tall {c : Aabb K} {a : Axis} {low high : K} (h : low ≤ high) :
    (around c a low high).min .y ≤ (around c a low high).max .y := by
  simp only [around]
  split
  · exact h
  · linarith [min_le_max (α := K) (a := c.min .y) (b := c.max .y)]

/-- No block is seen past the last coordinate. -/
theorem unseen_last {a : Axis} (h : 2 ^ 31 - 1 ≤ b.min a) : w.intersectsSolid b = false := by
  refine Bool.eq_false_iff.mpr fun hb => ?_
  obtain ⟨x, y, z, hx, hy, hz, -⟩ := intersectsSolid_iff.mp hb
  have hlow : 2 ^ 31 - 1 ≤ (b.blockRange a).1 := by
    have hfloor : (2 ^ 31 - 1 : Int) ≤ ⌊b.min a⌋ := Int.le_floor.mpr (by exact_mod_cast h)
    exact (I32.clamp_of_mem (by decide) (by decide)).ge.trans (I32.clamp_mono hfloor)
  have hhigh : (b.blockRange a).2 < 2 ^ 31 := (I32.clamp ⌈b.max a⌉).property.2
  cases a <;> omega

theorem corner_lt {x y z : Int} (hx : InRange x) (hy : InRange y) (hz : InRange z) (a : Axis) :
    corner x y z a + 1 ≤ (2 ^ 31 : K) := by
  have hcast {i : Int} (h : InRange i) : (i : K) + 1 ≤ 2 ^ 31 := by
    exact_mod_cast h.2
  cases a
  · exact hcast hx
  · exact hcast hy
  · exact hcast hz

/-- A block with a collision box at the last coordinate is moved into. -/
theorem last_unsafe (hcontained : w.Contained) {x y z : Int} (hx : InRange x) (hy : InRange y) (hz : InRange z)
    {c : Aabb K} (hc : c ∈ w.cellBoxes x y z) {a : Axis} (hlast : (corner x y z a : K) = 2 ^ 31 - 1)
    (hthick : c.min a < c.max a) : ¬w.KeepsOut := by
  have hmin : 2 ^ 31 - 1 ≤ c.min a := hlast ▸ (hcontained x y z c hc a).1
  refine @not_keepsOut _ _ _ _ _ w (around c a (2 ^ 31 - 1) (c.min a + 1)) a (-1) ?_ ?_ ?_ (around_tall (by linarith))
  · refine unseen_last (a := a) ?_
    rw [reach_min, around_min]
    exact le_min (by linarith) le_rfl
  · rintro ⟨x', y', z', hx', hy', hz', c', hc', hhit⟩
    have hfar := (hhit a).1
    have hcell := (hcontained x' y' z' c' hc' a).2.trans (corner_lt hx' hy' hz' a)
    simp only [Aabb.offset, around_min, axisDelta, if_pos] at hfar
    linarith
  · exact ⟨x, y, z, hx, hy, hz, c, hc, around_intersects (hmin.trans_lt hthick) (by linarith)⟩

theorem inland_of_keepsOut (hover : w.Over registry collisionBoxes) (hin : InCell registry collisionBoxes)
    (hthick : ∀ a, Thick registry collisionBoxes a) (hkeeps : w.KeepsOut) : w.Inland := by
  intro x y z hx hy hz hne
  obtain ⟨c, hc⟩ := List.exists_mem_of_ne_nil _ hne
  have hcontained := contained_of_inCell hover hin
  have hsolid (a : Axis) : c.min a < c.max a := by
    have hpos : (0 : K) < 2 * EPSILON := by
      rw [EPSILON]
      positivity
    linarith [cell_thick hover (hthick a) hc]
  have hcast {i : Int} (hi : InRange i) (hnot : ¬i < 2 ^ 31 - 1) : (i : K) = 2 ^ 31 - 1 := by
    have heq : i = 2 ^ 31 - 1 := by
      unfold InRange at hi
      omega
    rw [heq]
    norm_num
  refine ⟨?_, ?_, ?_⟩
  · by_contra hnot
    exact last_unsafe hcontained hx hy hz hc (a := .x) (hcast hx hnot) (hsolid .x) hkeeps
  · by_contra hnot
    exact last_unsafe hcontained hx hy hz hc (a := .y) (hcast hy hnot) (hsolid .y) hkeeps
  · by_contra hnot
    exact last_unsafe hcontained hx hy hz hc (a := .z) (hcast hz hnot) (hsolid .z) hkeeps

end ShapedWorld

/-! ## A world of one block -/

def loneSection (id : Int) : Section where
  y := 0
  blocks := (List.replicate 4096 0).set 0 id
  nonEmptyBlockCount := 1
  blockLight := none
  skyLight := none
  size := by rw [List.length_set, List.length_replicate]

def loneChunk (registry : BlockRegistry) (id : Int) : Chunk :=
  { Chunk.air ⟨0, 0⟩ 0 1 registry with sections := [loneSection id] }

/-- A world with one block, at (0, 0, 0). -/
def loneWorld (registry : BlockRegistry) (collisionBoxes : Int → Option (List (Aabb K))) (id : Int) : ShapedWorld K where
  registry := registry
  chunks pos := if pos = ⟨0, 0⟩ then some (loneChunk registry id) else none
  light := fun _ => none
  changes := []
  minSectionY := 0
  sectionCount := 1
  collisionBoxes := collisionBoxes

section lone

variable {registry : BlockRegistry} {collisionBoxes : Int → Option (List (Aabb K))} {id : Int}

theorem loneSection_get (i : Nat) : ((loneSection id).blocks[i]?).getD 0 = if i = 0 then id else 0 := by
  show (((List.replicate 4096 (0 : Int)).set 0 id)[i]?).getD 0 = _
  by_cases h : i = 0
  · rw [h, List.getElem?_set_self (by rw [List.length_replicate]; norm_num)]
    rfl
  · rw [List.getElem?_set_ne (Ne.symm h), List.getElem?_replicate, if_neg h]
    split <;> rfl

theorem loneChunk_index (y : Int) : (loneChunk registry id).sectionIndexFor y = if y / 16 = 0 then some 0 else none := by
  unfold Chunk.sectionIndexFor
  have hlow : (loneChunk registry id).minSectionY = 0 := rfl
  have hcount : (loneChunk registry id).sections.length = 1 := rfl
  rw [hlow, hcount]
  dsimp only
  split
  · rw [if_pos (by omega)]
    exact congrArg some (by omega)
  · rw [if_neg (by omega)]

theorem loneChunk_getBlock {x y z : Int} (hx : x / 16 = 0) (hz : z / 16 = 0) :
    (loneChunk registry id).getBlock x y z = if x = 0 ∧ y = 0 ∧ z = 0 then id else 0 := by
  rw [Chunk.getBlock_eq, Chunk.idAt, loneChunk_index]
  split
  · have hslot : Section.index (x % 16) (y % 16) (z % 16) = 0 ↔ x = 0 ∧ y = 0 ∧ z = 0 := by
      unfold Section.index
      omega
    show ((loneSection id).blocks[Section.index (x % 16) (y % 16) (z % 16)]?).getD 0 = _
    rw [loneSection_get]
    simp only [hslot]
  · rw [if_neg (by omega)]
    rfl

theorem loneWorld_getBlock (x y z : Int) :
    (loneWorld registry collisionBoxes id).getBlock x y z = if x = 0 ∧ y = 0 ∧ z = 0 then id else 0 := by
  rw [World.getBlock]
  by_cases hpos : chunkOf x z = ⟨0, 0⟩
  · have hx : x / 16 = 0 := congrArg ChunkPos.x hpos
    have hz : z / 16 = 0 := congrArg ChunkPos.z hpos
    simp only [loneWorld, hpos, if_true, Option.map_some, Option.getD_some]
    exact loneChunk_getBlock hx hz
  · have hno : ¬(x = 0 ∧ y = 0 ∧ z = 0) := by
      rintro ⟨rfl, -, rfl⟩
      exact hpos rfl
    simp only [loneWorld, hpos, if_false, hno]
    rfl

/-- The world's only boxes are those of its block. -/
theorem loneWorld_cell (hair : isSolidOrUnknown registry 0 = false) (hid : isSolidOrUnknown registry id = true)
    {shapes : List (Aabb K)} (hshapes : collisionBoxes id = some shapes) {x y z : Int} {c : Aabb K} :
    c ∈ (loneWorld registry collisionBoxes id).cellBoxes x y z ↔ (x = 0 ∧ y = 0 ∧ z = 0) ∧ c ∈ shapes := by
  have hregistry : (loneWorld registry collisionBoxes id).registry = registry := rfl
  have hboxes : (loneWorld registry collisionBoxes id).collisionBoxes = collisionBoxes := rfl
  rw [ShapedWorld.cellBoxes, loneWorld_getBlock, hregistry, hboxes]
  split
  · next h =>
    obtain ⟨rfl, rfl, rfl⟩ := h
    have hstay (shape : Aabb K) : shape.offset (ShapedWorld.corner 0 0 0) = shape := by
      rw [Aabb.offset]
      have hzero (a : Axis) : (ShapedWorld.corner 0 0 0 : Vec3 K) a = 0 := by cases a <;> exact Int.cast_zero
      simp only [hzero, add_zero]
    rw [hid, hshapes]
    simp [hstay]
  · next h =>
    rw [hair]
    simp [h]

theorem loneWorld_over (registry : BlockRegistry) (collisionBoxes : Int → Option (List (Aabb K))) (id : Int) :
    (loneWorld registry collisionBoxes id).Over registry collisionBoxes :=
  ⟨rfl, rfl⟩

theorem loneWorld_inland (hair : isSolidOrUnknown registry 0 = false) (hid : isSolidOrUnknown registry id = true)
    {shapes : List (Aabb K)} (hshapes : collisionBoxes id = some shapes) :
    (loneWorld registry collisionBoxes id).Inland := by
  intro x y z _ _ _ hne
  obtain ⟨c, hc⟩ := List.exists_mem_of_ne_nil _ hne
  obtain ⟨⟨rfl, rfl, rfl⟩, -⟩ := (loneWorld_cell hair hid hshapes).mp hc
  decide

/-- From another cell the block is not seen. -/
theorem loneWorld_unseen (hair : isSolidOrUnknown registry 0 = false) (hid : isSolidOrUnknown registry id = true)
    {shapes : List (Aabb K)} (hshapes : collisionBoxes id = some shapes) {b : Aabb K} {a : Axis}
    (h : 1 ≤ b.min a ∨ b.max a ≤ 0) : (loneWorld registry collisionBoxes id).intersectsSolid b = false := by
  refine Bool.eq_false_iff.mpr fun hb => ?_
  obtain ⟨x, y, z, hx, hy, hz, c, hc, -⟩ := ShapedWorld.intersectsSolid_iff.mp hb
  obtain ⟨⟨rfl, rfl, rfl⟩, -⟩ := (loneWorld_cell hair hid hshapes).mp hc
  have hcovers : (b.blockRange a).1 ≤ 0 ∧ 0 < (b.blockRange a).2 := by
    cases a
    · exact hx
    · exact hy
    · exact hz
  rcases h with hlow | hhigh
  · have hfloor : (1 : Int) ≤ ⌊b.min a⌋ := Int.le_floor.mpr (by exact_mod_cast hlow)
    have hfirst : 1 ≤ (b.blockRange a).1 :=
      (I32.clamp_of_mem (by decide) (by decide)).ge.trans (I32.clamp_mono hfloor)
    omega
  · have hceil : ⌈b.max a⌉ ≤ 0 := Int.ceil_le.mpr (by exact_mod_cast hhigh)
    have hend : (b.blockRange a).2 ≤ 0 :=
      (I32.clamp_mono hceil).trans (I32.clamp_of_mem (by decide) (by decide)).le
    omega

/-- A block that reaches out of its cell is moved into from where it is not seen. -/
theorem reach_unsafe (hair : isSolidOrUnknown registry 0 = false) (hid : isSolidOrUnknown registry id = true)
    {shapes : List (Aabb K)} (hshapes : collisionBoxes id = some shapes) {shape : Aabb K} (hshape : shape ∈ shapes)
    {a : Axis} (hout : ¬(0 ≤ shape.min a ∧ shape.max a ≤ 1)) : ¬(loneWorld registry collisionBoxes id).KeepsOut := by
  have hmem : shape ∈ (loneWorld registry collisionBoxes id).cellBoxes 0 0 0 :=
    (loneWorld_cell hair hid hshapes).mpr ⟨⟨rfl, rfl, rfl⟩, hshape⟩
  have hzero : InRange 0 := by
    unfold InRange
    decide
  rcases not_and_or.mp hout with hlow | hhigh
  · obtain ⟨m, hm⟩ := (shapes.map (-·.min a)).toFinset.exists_le
    set low := min (-1) (shape.max a - 1) with hlowdef
    set far := max 0 m with hfar
    refine @ShapedWorld.not_keepsOut _ _ _ _ _ (loneWorld registry collisionBoxes id)
      (ShapedWorld.around shape a low 0) a far ?_ ?_ ?_
      (ShapedWorld.around_tall ((min_le_left _ _).trans (by norm_num)))
    · refine loneWorld_unseen hair hid hshapes (a := a) (.inr ?_)
      rw [ShapedWorld.reach_max, ShapedWorld.around_max]
      exact max_le (by linarith [le_max_left 0 m]) le_rfl
    · rintro ⟨x, y, z, -, -, -, c, hc, hhit⟩
      have hc' := ((loneWorld_cell hair hid hshapes).mp hc).2
      have hbound : -c.min a ≤ m := hm _ (List.mem_toFinset.mpr (List.mem_map_of_mem hc'))
      have hnear := (hhit a).2
      simp only [Aabb.offset, ShapedWorld.around_max, axisDelta, if_pos] at hnear
      linarith [le_max_right 0 m]
    · refine ⟨0, 0, 0, hzero, hzero, hzero, shape, hmem, ShapedWorld.around_intersects ?_ (not_le.mp hlow)⟩
      linarith [min_le_right (-1) (shape.max a - 1)]
  · obtain ⟨m, hm⟩ := (shapes.map (·.max a)).toFinset.exists_le
    set high := max 2 (shape.min a + 1) with hhighdef
    set far := max 0 (m - 1) with hfar
    refine @ShapedWorld.not_keepsOut _ _ _ _ _ (loneWorld registry collisionBoxes id)
      (ShapedWorld.around shape a 1 high) a (-far) ?_ ?_ ?_
      (ShapedWorld.around_tall (le_max_of_le_left (by norm_num)))
    · refine loneWorld_unseen hair hid hshapes (a := a) (.inl ?_)
      rw [ShapedWorld.reach_min, ShapedWorld.around_min]
      exact le_min (by linarith [le_max_left 0 (m - 1)]) le_rfl
    · rintro ⟨x, y, z, -, -, -, c, hc, hhit⟩
      have hc' := ((loneWorld_cell hair hid hshapes).mp hc).2
      have hbound : c.max a ≤ m := hm _ (List.mem_toFinset.mpr (List.mem_map_of_mem hc'))
      have hnear := (hhit a).1
      simp only [Aabb.offset, ShapedWorld.around_min, axisDelta, if_pos, neg_neg] at hnear
      linarith [le_max_right 0 (m - 1)]
    · refine ⟨0, 0, 0, hzero, hzero, hzero, shape, hmem, ShapedWorld.around_intersects (not_le.mp hhigh) ?_⟩
      linarith [le_max_right 2 (shape.min a + 1)]

end lone

/-- For every shape table: in every world whose blocks keep clear of the last coordinate, a box that is in
no block ends in none and passes none along the axes, if and only if no collision box of the table reaches out
of its cell. Where none does and none is too thin, the worlds that keep clear are the only ones; and if none
is too thin to be between a box and where it is lifted to, none is passed there either. -/
theorem never_inside_iff (registry : BlockRegistry) (collisionBoxes : Int → Option (List (Aabb K)))
    (hair : isSolidOrUnknown registry 0 = false) :
    (InCell registry collisionBoxes ↔
      ∀ w : ShapedWorld K, w.Over registry collisionBoxes → w.Inland → w.KeepsOut) ∧
    (InCell registry collisionBoxes → (∀ a, Thick registry collisionBoxes a) →
      ∀ w : ShapedWorld K, w.Over registry collisionBoxes → (w.KeepsOut ↔ w.Inland)) ∧
    (InCell registry collisionBoxes → Thick registry collisionBoxes .y →
      ∀ w : ShapedWorld K, w.Over registry collisionBoxes → w.Inland → w.LiftKeepsOut) := by
  have hkeeps (hin : InCell registry collisionBoxes) (w : ShapedWorld K) (hover : w.Over registry collisionBoxes)
      (hinland : w.Inland) : w.KeepsOut :=
    ShapedWorld.keepsOut_of_contained (ShapedWorld.contained_of_inCell hover hin) hinland
  refine ⟨⟨hkeeps, fun hall id hid shapes hshapes shape hshape a => ?_⟩, fun hin hthick w hover => ?_,
    fun hin hthick w hover hinland => ShapedWorld.liftKeepsOut hover hin hthick hinland⟩
  · by_contra hout
    exact reach_unsafe hair hid hshapes hshape hout
      (hall _ (loneWorld_over registry collisionBoxes id) (loneWorld_inland hair hid hshapes))
  · exact ⟨ShapedWorld.inland_of_keepsOut hover hin hthick, hkeeps hin w hover⟩

/-! ## A fence -/

/-- Air and a fence. -/
def fenceTable : BlockRegistry where
  byName name :=
    if name = "minecraft:air".toList then some ⟨0, 0, 1, []⟩
    else if name = "minecraft:oak_fence".toList then some ⟨1, 1, 1, []⟩ else none
  byId := ["minecraft:air".toList, "minecraft:oak_fence".toList]
  airId := 0
  emptyIds := [0]

/-- A post, half a block higher than its cell. -/
def fenceShape : Aabb ℚ := ⟨fun | .y => 0 | _ => 3 / 8, fun | .y => 3 / 2 | _ => 5 / 8⟩

def fenceBoxes (id : Int) : Option (List (Aabb ℚ)) := if id = 1 then some [fenceShape] else none

/-- Half a block above the post. -/
def faller : Aabb ℚ := ⟨fun | .y => 2 | _ => 2 / 10, fun | .y => 38 / 10 | _ => 8 / 10⟩

theorem fence_cell {x y z : Int} {c : Aabb ℚ} :
    c ∈ (loneWorld fenceTable fenceBoxes 1).cellBoxes x y z ↔ (x = 0 ∧ y = 0 ∧ z = 0) ∧ c ∈ [fenceShape] :=
  loneWorld_cell (by decide +kernel) (by decide +kernel) rfl

/-- A box that falls onto a fence ends in it. -/
theorem fence_entered : ¬∀ (w : ShapedWorld ℚ) (box : Aabb ℚ) (delta : Vec3 ℚ) (step : ℚ),
    step ≤ box.max .y - box.min .y → w.Outside box 0 →
      w.Outside box (w.moveWithCollision box delta step).delta := by
  intro h
  have hmoved : ((loneWorld fenceTable fenceBoxes 1).moveWithCollision faller (axisDelta .y (-8 / 10)) (6 / 10)).delta =
      axisDelta .y (-8 / 10) := by
    refine ShapedWorld.moveWithCollision_along
      (loneWorld_unseen (a := .y) (by decide +kernel) (by decide +kernel) rfl (.inl ?_))
    norm_num [swept, faller, Aabb.offset, Aabb.expand, axisDelta, ShapedWorld.EPSILON]
  have hstart : (loneWorld fenceTable fenceBoxes 1).Outside faller 0 := by
    rintro ⟨x, y, z, -, -, -, c, hc, hhit⟩
    obtain rfl := List.mem_singleton.mp (fence_cell.mp hc).2
    have hlow := (hhit .y).1
    norm_num [faller, fenceShape, Aabb.offset, Aabb.expand, ShapedWorld.EPSILON] at hlow
  have hend := h _ faller (axisDelta .y (-8 / 10)) (6 / 10) (by norm_num [faller]) hstart
  rw [hmoved] at hend
  have hzero : InRange 0 := by
    unfold InRange
    decide
  refine hend ⟨0, 0, 0, hzero, hzero, hzero, fenceShape,
    fence_cell.mpr ⟨⟨rfl, rfl, rfl⟩, List.mem_singleton_self _⟩, fun a => ?_⟩
  cases a <;>
    · simp [faller, fenceShape, Aabb.offset, Aabb.expand, axisDelta, ShapedWorld.EPSILON]
      norm_num

/-- The slab's table gives no box that reaches out. -/
theorem never_inside_slab : slabWorld.KeepsOut ∧ slabWorld.LiftKeepsOut := by
  have hshape {id : Int} {shapes : List (Aabb ℚ)} (h : slabWorld.collisionBoxes id = some shapes) {shape : Aabb ℚ}
      (hmem : shape ∈ shapes) : shape = slabShape := by
    dsimp only [slabWorld] at h
    split at h
    · obtain rfl := Option.some.inj h
      exact List.mem_singleton.mp hmem
    · exact nomatch h
  have hin : InCell slabTable slabWorld.collisionBoxes := by
    intro id _ shapes hshapes shape hmem a
    obtain rfl := hshape hshapes hmem
    cases a <;> norm_num [slabShape]
  have hthick : Thick slabTable slabWorld.collisionBoxes .y := by
    intro id _ shapes hshapes shape hmem
    obtain rfl := hshape hshapes hmem
    norm_num [slabShape, ShapedWorld.EPSILON]
  have hinland : slabWorld.Inland := by
    intro x y z _ _ _ hne
    obtain ⟨c, hc⟩ := List.exists_mem_of_ne_nil _ hne
    obtain ⟨⟨rfl, rfl, rfl⟩, -⟩ := slabWorld_cell.mp hc
    decide
  obtain ⟨hiff, -, hlift⟩ := never_inside_iff slabTable slabWorld.collisionBoxes (by decide +kernel)
  exact ⟨hiff.mp hin slabWorld ⟨rfl, rfl⟩ hinland, hlift hin hthick slabWorld ⟨rfl, rfl⟩ hinland⟩

end Apoptosis.L2.Terrain
