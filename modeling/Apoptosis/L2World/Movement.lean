import Apoptosis.L2World.ChunkPlaces
import Apoptosis.L2World.Collision
/-!
# How far a box is moved (`world/src/world.rs`)

A blocked box is tried again from where it is raised to, and settles down
afterwards, by the step and by what it was to fall: it has fallen that far
already, and where nothing stops it, it falls twice.

* `moveAxes_between`: a movement axis by axis stays within what was asked.
* `moveWithCollision_cases`: a movement with a step up, and one without.
* `within_asked_iff`: when the whole movement stays within what was asked.
* `slab_passed`: a box that falls twice as far as it was to.
-/
namespace Apoptosis.L2.Terrain
open Apoptosis.Core Apoptosis.L2.Registry Apoptosis.L2.Storage

set_option linter.unusedSectionVars false

variable {K : Type*} [Field K] [LinearOrder K] [FloorRing K] [IsStrictOrderedRing K]

namespace ShapedWorld

variable {w : ShapedWorld K} {box : Aabb K} {delta : Vec3 K} {step epsilon : K}

theorem part_between {amount part : K} (h : 0 ≤ part) (h' : part ≤ 1) : amount * part ∈ Set.uIcc 0 amount := by
  rw [Set.mem_uIcc]
  rcases le_total 0 amount with hpos | hneg
  · exact .inl ⟨mul_nonneg hpos h, mul_le_of_le_one_right hpos h'⟩
  · exact .inr ⟨le_mul_of_le_one_right hneg h', mul_nonpos_of_nonpos_of_nonneg hneg h⟩

/-- One axis adds a part of what was asked along it. -/
theorem moveAxis_delta (r : MoveResult K) (axis : Axis) :
    ∃ actual ∈ Set.uIcc 0 (delta axis), (w.moveAxis box delta epsilon r axis).delta = r.delta + axisDelta axis actual := by
  have hnone : r.delta = r.delta + axisDelta axis 0 := by
    funext a
    simp [axisDelta]
  rw [moveAxis]
  split
  · exact ⟨0, Set.left_mem_uIcc, hnone⟩
  · split
    · next actual hactual =>
      obtain ⟨j, hj, rfl, -⟩ := clipAxis_spec hactual
      exact ⟨_, part_between (part_mem hj).1 (part_mem hj).2, rfl⟩
    · exact ⟨0, Set.left_mem_uIcc, hnone⟩

theorem moveAxes_fold (axes : List Axis) (hnodup : axes.Nodup) (r : MoveResult K) (a : Axis) :
    (axes.foldl (w.moveAxis box delta epsilon) r).delta a - r.delta a ∈ Set.uIcc 0 (delta a) := by
  suffices h : (a ∉ axes → (axes.foldl (w.moveAxis box delta epsilon) r).delta a = r.delta a) ∧
      (a ∈ axes → (axes.foldl (w.moveAxis box delta epsilon) r).delta a - r.delta a ∈ Set.uIcc 0 (delta a)) by
    by_cases ha : a ∈ axes
    · exact h.2 ha
    · rw [h.1 ha, sub_self]
      exact Set.left_mem_uIcc
  induction axes generalizing r with
  | nil => exact ⟨fun _ => rfl, fun h => absurd h List.not_mem_nil⟩
  | cons axis rest ih =>
    obtain ⟨hnot, hrest⟩ := List.nodup_cons.mp hnodup
    obtain ⟨actual, hactual, hdelta⟩ := @moveAxis_delta _ _ _ _ _ w box delta epsilon r axis
    obtain ⟨hout, hin⟩ := ih hrest (w.moveAxis box delta epsilon r axis)
    rw [hdelta] at hout hin
    simp only [List.mem_cons, not_or, List.foldl_cons, Pi.add_apply, axisDelta] at hout hin ⊢
    constructor
    · rintro ⟨hne, hrest⟩
      rw [hout hrest, if_neg hne, add_zero]
    · rintro (rfl | ha)
      · rw [hout hnot, if_pos rfl, add_sub_cancel_left]
        exact hactual
      · have hne : a ≠ axis := fun heq => hnot (heq ▸ ha)
        simpa [hne] using hin ha

/-- A movement axis by axis stays within what was asked. -/
theorem moveAxes_between (w : ShapedWorld K) (box : Aabb K) (delta : Vec3 K) (epsilon : K) (a : Axis) :
    (w.moveAxes box delta epsilon).delta a ∈ Set.uIcc 0 (delta a) := by
  have hnodup : (axisOrder delta).Nodup := by
    rw [axisOrder]
    split <;> decide
  have h := @moveAxes_fold _ _ _ _ _ w box delta epsilon _ hnodup
    ⟨0, false, fun _ => false⟩ a
  simp only [Pi.zero_apply, sub_zero] at h
  exact h

/-! ## Stepping up -/

variable (w box delta step)

/-- The box raised by the step. -/
def raisedBox : Aabb K := box.offset (axisDelta .y step)

/-- The whole movement, from where the box is raised to. -/
def raisedMove : MoveResult K := w.moveAxes (raisedBox box step) delta EPSILON

/-- The box where the raised movement ends. -/
def steppedBox : Aabb K := (raisedBox box step).offset (w.raisedMove box delta step).delta

/-- How far the box may settle. -/
def downAllow : K := step + max (-delta .y) 0

/-- A step up gets the box farther than the blocked movement. -/
structure StepsUp : Prop where
  pos : 0 < step
  blocked : (w.moveAxes box delta EPSILON).collided .x ∨ (w.moveAxes box delta EPSILON).collided .z
  headroom : w.intersectsSolid ((raisedBox box step).expand (-EPSILON)) = false
  farther : flat (w.moveAxes box delta EPSILON).delta < flat (w.raisedMove box delta step).delta

variable {w box delta step}

theorem flat_vertical (d : Vec3 K) (s t : K) : flat (d + axisDelta .y s + axisDelta .y t) = flat d := by
  simp [flat, axisDelta]

/-- A movement is the blocked one, or the raised one with its settling. -/
theorem moveWithCollision_cases (w : ShapedWorld K) (box : Aabb K) (delta : Vec3 K) (step : K) :
    (w.moveWithCollision box delta step = w.moveAxes box delta EPSILON ∧
      ¬(w.StepsUp box delta step ∧ w.intersectsSolid ((w.steppedBox box delta step).expand (-EPSILON)) = false)) ∨
    ∃ down, w.StepsUp box delta step ∧
      w.clipAxis (w.steppedBox box delta step) .y (-downAllow delta step) EPSILON = some down ∧
      (w.moveWithCollision box delta step).delta =
        (w.raisedMove box delta step).delta + axisDelta .y step + axisDelta .y down := by
  rw [moveWithCollision]
  split
  · next htry =>
    rw [tryStepUp, if_neg (not_le.mpr htry.1)]
    dsimp only
    split
    · next hsolid =>
      refine .inl ⟨rfl, fun h => ?_⟩
      have := h.1.headroom
      rw [raisedBox, hsolid] at this
      cases this
    · next hfree =>
      split
      · next hclip =>
        refine .inl ⟨rfl, fun h => ?_⟩
        rw [clipAxis] at hclip
        split at hclip
        · next hbase => cases hbase.symm.trans h.2
        · split at hclip
          · cases hclip
          · cases hclip
      · next down hclip =>
        rw [flat_vertical]
        split
        · next hle => exact .inl ⟨rfl, fun h => absurd h.1.farther (not_lt.mpr hle)⟩
        · next hlt =>
          exact .inr ⟨down, ⟨htry.1, htry.2, Bool.eq_false_iff.mpr hfree, not_le.mp hlt⟩, hclip, rfl⟩
  · next hno => exact .inl ⟨rfl, fun h => hno ⟨h.1.pos, h.1.blocked⟩⟩

/-! ## What is asked -/

/-- Every part of the movement is within what was asked, and a step. -/
structure WithinAsked (delta : Vec3 K) (step : K) (moved : Vec3 K) : Prop where
  horizontal : ∀ a, a ≠ .y → moved a ∈ Set.uIcc 0 (delta a)
  low : min (delta .y) 0 ≤ moved .y
  high : moved .y ≤ max (delta .y) 0 + step
  level : step = 0 → moved .y ∈ Set.uIcc 0 (delta .y)

/-- A step up whose settling is clear to below the height that was asked for, by one of the 65536ths
that the search tries. -/
structure FallsPast (w : ShapedWorld K) (box : Aabb K) (delta : Vec3 K) (step : K) : Prop extends
    StepsUp w box delta step where
  falling : delta .y < 0
  clear : ∃ m : ℕ, m ≤ 2 ^ 16 ∧
    (w.raisedMove box delta step).delta .y + step - (step - delta .y) * (m / 2 ^ 16) < delta .y ∧
    w.Clear (w.steppedBox box delta step) .y (-(step - delta .y)) EPSILON (m / 2 ^ 16)

theorem within_of_between (hstep : 0 ≤ step) {moved : Vec3 K} (h : ∀ a, moved a ∈ Set.uIcc 0 (delta a)) :
    WithinAsked delta step moved := by
  obtain ⟨hlow, hhigh⟩ := h .y
  refine ⟨fun a _ => h a, ?_, ?_, fun _ => h .y⟩
  · exact (min_comm _ _).trans_le hlow
  · exact hhigh.trans ((max_comm _ _).trans_le (le_add_of_nonneg_right hstep))

theorem step_within_iff (hsteps : w.StepsUp box delta step) {down : K}
    (hclip : w.clipAxis (w.steppedBox box delta step) .y (-downAllow delta step) EPSILON = some down) :
    WithinAsked delta step ((w.raisedMove box delta step).delta + axisDelta .y step + axisDelta .y down) ↔
      ¬w.FallsPast box delta step := by
  have hbetween (a : Axis) : (w.raisedMove box delta step).delta a ∈ Set.uIcc 0 (delta a) :=
    moveAxes_between w (raisedBox box step) delta EPSILON a
  obtain ⟨j, hj, rfl, hgrid⟩ := clipAxis_spec hclip
  obtain ⟨h0, h1⟩ := part_mem (K := K) hj
  have hpos := hsteps.pos
  have hy : ((w.raisedMove box delta step).delta + axisDelta .y step +
      axisDelta .y (-downAllow delta step * (j / 2 ^ 16)) : Vec3 K) .y =
      (w.raisedMove box delta step).delta .y + step - downAllow delta step * (j / 2 ^ 16) := by
    simp only [Pi.add_apply, axisDelta, if_pos]
    ring
  have hhorizontal : ∀ a, a ≠ .y → ((w.raisedMove box delta step).delta + axisDelta .y step +
      axisDelta .y (-downAllow delta step * (j / 2 ^ 16)) : Vec3 K) a ∈ Set.uIcc 0 (delta a) := by
    intro a ha
    simpa [axisDelta, ha] using hbetween a
  have hup : (w.raisedMove box delta step).delta .y ∈ Set.uIcc 0 (delta .y) := hbetween .y
  rcases le_or_gt 0 (delta .y) with hrise | hfall
  · -- nothing is settled but the step
    have hdown : downAllow delta step = step := by
      rw [downAllow, max_eq_right (by linarith), add_zero]
    rw [Set.uIcc_of_le hrise] at hup
    have hpart : 0 ≤ step * (j / 2 ^ 16 : K) ∧ step * (j / 2 ^ 16 : K) ≤ step :=
      ⟨mul_nonneg hpos.le h0, mul_le_of_le_one_right hpos.le h1⟩
    refine iff_of_true ⟨hhorizontal, ?_, ?_, fun hz => absurd hz hpos.ne'⟩ fun hpast => not_lt.mpr hrise hpast.falling
    · rw [hy, hdown, min_eq_right hrise]
      linarith [hup.1]
    · rw [hy, hdown, max_eq_left hrise]
      linarith [hup.2]
  · have hdown : downAllow delta step = step - delta .y := by
      rw [downAllow, max_eq_left (by linarith), sub_eq_add_neg]
    rw [Set.uIcc_of_ge hfall.le] at hup
    have hallow : 0 < step - delta .y := by linarith
    have hpart : 0 ≤ (step - delta .y) * (j / 2 ^ 16 : K) := mul_nonneg hallow.le h0
    rw [hdown] at hgrid hhorizontal hy ⊢
    constructor
    · intro hwithin hpast
      obtain ⟨m, hm, hlow, hclear⟩ := hpast.clear
      have hle := (hgrid m hm).mp hclear
      have hcast : (m / 2 ^ 16 : K) ≤ j / 2 ^ 16 := by gcongr
      have hmul := mul_le_mul_of_nonneg_left hcast hallow.le
      have := hwithin.low
      rw [hy, min_eq_left hfall.le] at this
      linarith
    · intro hno
      refine ⟨hhorizontal, ?_, ?_, fun hz => absurd hz hpos.ne'⟩
      · rw [hy, min_eq_left hfall.le]
        by_contra hlt
        exact hno ⟨hsteps, hfall, j, hj, not_le.mp hlt, (hgrid j hj).mpr le_rfl⟩
      · rw [hy, max_eq_right hfall.le]
        linarith [hup.2]

/-- For every world, box, movement and step height: the movement stays within
what was asked, unless a step up of a falling box settles past it. -/
theorem within_asked_iff (w : ShapedWorld K) (box : Aabb K) (delta : Vec3 K) (step : K) (hstep : 0 ≤ step) :
    WithinAsked delta step (w.moveWithCollision box delta step).delta ↔ ¬w.FallsPast box delta step := by
  rcases moveWithCollision_cases w box delta step with ⟨hnormal, hno⟩ | ⟨down, hsteps, hclip, hmoved⟩
  · rw [hnormal]
    refine iff_of_true (within_of_between hstep fun a => moveAxes_between w box delta EPSILON a) fun hpast => hno ?_
    obtain ⟨m, -, -, hclear⟩ := hpast.clear
    exact ⟨hpast.toStepsUp, clear_zero.mp (hclear.mono le_rfl (by positivity))⟩
  · rw [hmoved]
    exact step_within_iff hsteps hclip

end ShapedWorld

/-! ## A box that passes over a slab -/

/-- Air and a slab. -/
def slabTable : BlockRegistry where
  byName name :=
    if name = "minecraft:air".toList then some ⟨0, 0, 1, []⟩
    else if name = "minecraft:stone_slab".toList then some ⟨1, 1, 1, []⟩ else none
  byId := ["minecraft:air".toList, "minecraft:stone_slab".toList]
  airId := 0
  emptyIds := [0]

/-- A section of air with one slab. -/
def slabSection : Section where
  y := 0
  blocks := (List.replicate 4096 0).set 1 1
  nonEmptyBlockCount := 1
  blockLight := none
  skyLight := none
  size := by rw [List.length_set, List.length_replicate]

def slabChunk : Chunk := { Chunk.air ⟨0, 0⟩ 0 1 slabTable with sections := [slabSection] }

/-- The lower half of a cell. -/
def slabShape : Aabb ℚ := ⟨fun _ => 0, fun | .y => 1 / 2 | _ => 1⟩

/-- A world with the lower half of the block at (1, 0, 0) filled. -/
def slabWorld : ShapedWorld ℚ where
  registry := slabTable
  chunks pos := if pos = ⟨0, 0⟩ then some slabChunk else none
  light := fun _ => none
  changes := []
  minSectionY := 0
  sectionCount := 1
  collisionBoxes id := if id = 1 then some [slabShape] else none

def slabBox : Aabb ℚ := ⟨fun | .x => 1 | _ => 0, fun | .x => 2 | .y => 1 / 2 | .z => 1⟩

theorem slabSection_get (i : Nat) : (slabSection.blocks[i]?).getD 0 = if i = 1 then 1 else 0 := by
  show (((List.replicate 4096 (0 : Int)).set 1 1)[i]?).getD 0 = _
  by_cases h : i = 1
  · rw [h, List.getElem?_set_self (by rw [List.length_replicate]; norm_num)]
    rfl
  · rw [List.getElem?_set_ne (Ne.symm h), List.getElem?_replicate, if_neg h]
    split <;> rfl

theorem slabChunk_index (y : Int) : slabChunk.sectionIndexFor y = if y / 16 = 0 then some 0 else none := by
  unfold Chunk.sectionIndexFor
  have hlow : slabChunk.minSectionY = 0 := rfl
  have hcount : slabChunk.sections.length = 1 := rfl
  rw [hlow, hcount]
  dsimp only
  split
  · rw [if_pos (by omega)]
    exact congrArg some (by omega)
  · rw [if_neg (by omega)]

theorem slabChunk_getBlock {x y z : Int} (hx : x / 16 = 0) (hz : z / 16 = 0) :
    slabChunk.getBlock x y z = if x = 1 ∧ y = 0 ∧ z = 0 then 1 else 0 := by
  rw [Chunk.getBlock_eq, Chunk.idAt, slabChunk_index]
  split
  · have hslot : Section.index (x % 16) (y % 16) (z % 16) = 1 ↔ x = 1 ∧ y = 0 ∧ z = 0 := by
      unfold Section.index
      omega
    show (slabSection.blocks[Section.index (x % 16) (y % 16) (z % 16)]?).getD 0 = _
    rw [slabSection_get]
    simp only [hslot]
  · rw [if_neg (by omega)]
    rfl

theorem slabWorld_getBlock (x y z : Int) : slabWorld.getBlock x y z = if x = 1 ∧ y = 0 ∧ z = 0 then 1 else 0 := by
  rw [World.getBlock]
  by_cases hpos : chunkOf x z = ⟨0, 0⟩
  · have hx : x / 16 = 0 := congrArg ChunkPos.x hpos
    have hz : z / 16 = 0 := congrArg ChunkPos.z hpos
    simp only [slabWorld, hpos, if_true, Option.map_some, Option.getD_some]
    exact slabChunk_getBlock hx hz
  · have hno : ¬(x = 1 ∧ y = 0 ∧ z = 0) := by
      rintro ⟨rfl, -, rfl⟩
      exact hpos rfl
    simp only [slabWorld, hpos, if_false, hno]
    rfl

theorem slabShape_offset : slabShape.offset (ShapedWorld.corner 1 0 0) = slabBox := by
  rw [Aabb.offset, slabShape, slabBox]
  congr 1 <;> funext a <;> cases a <;> norm_num [ShapedWorld.corner]

theorem slabWorld_cell {x y z : Int} {c : Aabb ℚ} :
    c ∈ slabWorld.cellBoxes x y z ↔ (x = 1 ∧ y = 0 ∧ z = 0) ∧ c = slabBox := by
  rw [ShapedWorld.cellBoxes, slabWorld_getBlock]
  split
  · next h =>
    obtain ⟨rfl, rfl, rfl⟩ := h
    have hsolid : (!isSolidOrUnknown slabWorld.registry 1) = false := by decide +kernel
    have hboxes : slabWorld.collisionBoxes 1 = some [slabShape] := rfl
    rw [hsolid, hboxes]
    simp only [Bool.false_eq_true, if_false, List.map_cons, List.map_nil, slabShape_offset, List.mem_singleton,
      and_self, true_and]
  · next h =>
    have hsolid : (!isSolidOrUnknown slabWorld.registry 0) = true := by decide +kernel
    rw [hsolid]
    simp [h]

/-- A box meets the slab where it overlaps it and reaches its cell. -/
theorem slabWorld_meets (b : Aabb ℚ) : slabWorld.intersectsSolid b = true ↔
    (((b.blockRange .x).1 ≤ 1 ∧ 1 < (b.blockRange .x).2) ∧ ((b.blockRange .y).1 ≤ 0 ∧ 0 < (b.blockRange .y).2) ∧
      (b.blockRange .z).1 ≤ 0 ∧ 0 < (b.blockRange .z).2) ∧ b.Intersects slabBox := by
  rw [ShapedWorld.intersectsSolid_iff]
  constructor
  · rintro ⟨x, y, z, hx, hy, hz, c, hc, hb⟩
    obtain ⟨⟨rfl, rfl, rfl⟩, rfl⟩ := slabWorld_cell.mp hc
    exact ⟨⟨hx, hy, hz⟩, hb⟩
  · rintro ⟨⟨hx, hy, hz⟩, hb⟩
    exact ⟨1, 0, 0, hx, hy, hz, slabBox, slabWorld_cell.mpr ⟨⟨rfl, rfl, rfl⟩, rfl⟩, hb⟩

def mover : Aabb ℚ := ⟨fun | .y => 4 / 10 | _ => 2 / 10, fun | .y => 22 / 10 | _ => 8 / 10⟩

/-- Two blocks forward and three tenths down. -/
def asked : Vec3 ℚ := fun | .x => 2 | .y => -3 / 10 | .z => 0

theorem slabWorld_clear {b : Aabb ℚ} (a : Axis) (h : slabBox.max a ≤ b.min a ∨ b.max a ≤ slabBox.min a) :
    slabWorld.intersectsSolid b = false := by
  refine Bool.eq_false_iff.mpr fun hb => ?_
  have hi := ((slabWorld_meets b).mp hb).2 a
  rcases h with h | h
  · exact absurd hi.1 (not_lt.mpr h)
  · exact absurd hi.2 (not_lt.mpr h)

section

open ShapedWorld

theorem moveAxis_some {w : ShapedWorld ℚ} {box : Aabb ℚ} {delta : Vec3 ℚ} {epsilon actual : ℚ} {r : MoveResult ℚ}
    {axis : Axis} (hne : delta axis ≠ 0) (h : w.clipAxis (box.offset r.delta) axis (delta axis) epsilon = some actual) :
    (w.moveAxis box delta epsilon r axis).delta = r.delta + axisDelta axis actual ∧
      ((w.moveAxis box delta epsilon r axis).collided axis = true ↔
        r.collided axis = true ∨ epsilon < |actual - delta axis|) := by
  rw [moveAxis]
  dsimp only
  rw [if_neg hne, h]
  simp

/-- Down by three tenths, and then forward by what is free. -/
theorem asked_fold (box : Aabb ℚ) : slabWorld.moveAxes box asked EPSILON =
    slabWorld.moveAxis box asked EPSILON (slabWorld.moveAxis box asked EPSILON ⟨0, false, fun _ => false⟩ .y) .x := by
  have horder : axisOrder asked = [.y, .x, .z] := by
    rw [axisOrder, if_pos (by norm_num [asked])]
  have hz (r : MoveResult ℚ) : slabWorld.moveAxis box asked EPSILON r .z = r := by
    rw [moveAxis]
    exact if_pos rfl
  rw [moveAxes, horder, List.foldl_cons, List.foldl_cons, List.foldl_cons, List.foldl_nil, hz]

/-- The fall before the obstacle is free, at the height of the floor and raised. -/
theorem asked_fall {box : Aabb ℚ} (h : box.max .x ≤ 1) :
    (slabWorld.moveAxis box asked EPSILON ⟨0, false, fun _ => false⟩ .y).delta = axisDelta .y (-3 / 10) := by
  have hclip : slabWorld.clipAxis (box.offset 0) .y (asked .y) EPSILON = some (asked .y) := by
    refine clipAxis_of_clear (slabWorld_clear .x (.inr ?_))
    have hmax : ((swept (box.offset 0) (axisDelta .y (asked .y))).expand (-EPSILON)).max .x = box.max .x - EPSILON := by
      simp [swept, Aabb.offset, Aabb.expand, axisDelta]
      ring
    rw [hmax, EPSILON, slabBox]
    norm_num
    linarith
  have hfirst := moveAxis_some (r := ⟨0, false, fun _ => false⟩) (by norm_num [asked]) hclip
  rw [hfirst.1, zero_add]
  rfl

theorem normal_blocked : (slabWorld.moveAxes mover asked EPSILON).collided .x = true ∧
    flat (slabWorld.moveAxes mover asked EPSILON).delta < 4 := by
  have hfall := @asked_fall mover (by norm_num [mover])
  set base := mover.offset (axisDelta .y (-3 / 10)) with hbase
  have hsome : slabWorld.clipAxis base .x (asked .x) EPSILON ≠ none := by
    have hclear : slabWorld.intersectsSolid (base.expand (-EPSILON)) = false := by
      refine slabWorld_clear .x (.inr ?_)
      simp [hbase, mover, Aabb.offset, Aabb.expand, axisDelta, slabBox, EPSILON]
      norm_num
    rw [clipAxis, if_neg (by rw [hclear]; exact Bool.false_ne_true)]
    split <;> exact Option.some_ne_none _
  obtain ⟨actual, hclip⟩ := Option.ne_none_iff_exists'.mp hsome
  obtain ⟨j, hj, hactual, hgrid⟩ := clipAxis_spec hclip
  -- the sweep of the whole step meets the slab
  have hlt : j < 2 ^ 16 := by
    by_contra hge
    have hclear := (hgrid (2 ^ 16) le_rfl).mpr (not_lt.mp hge)
    rw [Clear, Nat.cast_pow, Nat.cast_ofNat, div_self (by norm_num), mul_one] at hclear
    refine Bool.eq_false_iff.mp hclear ((slabWorld_meets _).mpr ⟨⟨?_, ?_, ?_⟩, ?_⟩)
    · refine Aabb.blockRange_covers (by decide) (by decide) ?_ ?_ <;>
        · simp [hbase, swept, mover, asked, Aabb.offset, Aabb.expand, axisDelta, EPSILON]
          norm_num
    · refine Aabb.blockRange_covers (by decide) (by decide) ?_ ?_ <;>
        · simp [hbase, swept, mover, asked, Aabb.offset, Aabb.expand, axisDelta, EPSILON]
          norm_num
    · refine Aabb.blockRange_covers (by decide) (by decide) ?_ ?_ <;>
        · simp [hbase, swept, mover, asked, Aabb.offset, Aabb.expand, axisDelta, EPSILON]
          norm_num
    · intro a
      cases a <;>
        · simp [hbase, swept, mover, asked, Aabb.offset, Aabb.expand, axisDelta, EPSILON, slabBox]
          norm_num
  have hpart : (j / 2 ^ 16 : ℚ) ≤ 65535 / 65536 := by
    have : (j : ℚ) ≤ 65535 := by exact_mod_cast (by omega : j ≤ 65535)
    rw [div_le_div_iff₀ (by norm_num) (by norm_num)]
    linarith
  have hpos := (part_mem (K := ℚ) hj).1
  set first := slabWorld.moveAxis mover asked EPSILON ⟨0, false, fun _ => false⟩ .y
  have hclip' : slabWorld.clipAxis (mover.offset first.delta) .x (asked .x) EPSILON = some actual := by
    rw [hfall]
    exact hclip
  obtain ⟨hdelta, hcollided⟩ := moveAxis_some (by norm_num [asked]) hclip'
  rw [asked_fold]
  constructor
  · refine hcollided.mpr (.inr ?_)
    rw [hactual, abs_of_neg] <;> norm_num [asked, EPSILON] <;> linarith
  · rw [hdelta, hfall]
    simp [flat, axisDelta, hactual, asked]
    nlinarith

theorem raised_free : (slabWorld.raisedMove mover asked (6 / 10)).delta = axisDelta .y (-3 / 10) + axisDelta .x 2 := by
  have hfall : (slabWorld.moveAxis (raisedBox mover (6 / 10)) asked EPSILON ⟨0, false, fun _ => false⟩ .y).delta =
      axisDelta .y (-3 / 10) := asked_fall (by simp [raisedBox, mover, Aabb.offset, axisDelta]; norm_num)
  have hclip : slabWorld.clipAxis ((raisedBox mover (6 / 10)).offset (axisDelta .y (-3 / 10))) .x (asked .x) EPSILON =
      some (asked .x) := by
    refine clipAxis_of_clear (slabWorld_clear .y (.inl ?_))
    simp [swept, raisedBox, mover, Aabb.offset, Aabb.expand, axisDelta, slabBox, EPSILON]
    norm_num
  rw [raisedMove, asked_fold, (moveAxis_some (by norm_num [asked]) (hfall ▸ hclip)).1, hfall]
  rfl

/-- Over the slab, nothing stops the settling. -/
theorem slab_settle : slabWorld.Clear (slabWorld.steppedBox mover asked (6 / 10)) .y (-(6 / 10 - asked .y)) EPSILON 1 := by
  refine slabWorld_clear .x (.inl ?_)
  rw [steppedBox, raised_free]
  simp [swept, raisedBox, mover, asked, Aabb.offset, Aabb.expand, axisDelta, slabBox, EPSILON]
  norm_num

theorem mover_fallsPast : slabWorld.FallsPast mover asked (6 / 10) where
  pos := by norm_num
  blocked := .inl normal_blocked.1
  headroom := by
    refine slabWorld_clear .x (.inr ?_)
    simp [raisedBox, mover, Aabb.offset, Aabb.expand, axisDelta, slabBox, EPSILON]
    norm_num
  farther := by
    refine normal_blocked.2.trans_eq ?_
    rw [raised_free]
    simp [flat, axisDelta]
    norm_num
  falling := by norm_num [asked]
  clear := by
    refine ⟨2 ^ 16, le_rfl, ?_, ?_⟩
    · rw [raised_free]
      simp [axisDelta, asked]
      norm_num
    · have hone : ((2 ^ 16 : ℕ) / 2 ^ 16 : ℚ) = 1 := by norm_num
      rw [hone]
      exact slab_settle

/-- A box that was to fall three tenths of a block falls six. -/
theorem slab_passed : ¬∀ (w : ShapedWorld ℚ) (box : Aabb ℚ) (delta : Vec3 ℚ) (step : ℚ), 0 ≤ step →
    WithinAsked delta step (w.moveWithCollision box delta step).delta := by
  intro h
  have hwithin := h slabWorld mover asked (6 / 10) (by norm_num)
  rcases moveWithCollision_cases slabWorld mover asked (6 / 10) with ⟨-, hno⟩ | ⟨down, hsteps, hclip, hmoved⟩
  · obtain ⟨m, -, -, hclear⟩ := mover_fallsPast.clear
    exact hno ⟨mover_fallsPast.toStepsUp, clear_zero.mp (hclear.mono le_rfl (by positivity))⟩
  · rw [hmoved] at hwithin
    exact (step_within_iff hsteps hclip).mp hwithin mover_fallsPast

/-- A box that is to rise and that nothing blocks. -/
theorem within_asked_iff_rise : WithinAsked (axisDelta .y 1) (6 / 10)
    (slabWorld.moveWithCollision mover (axisDelta .y 1) (6 / 10)).delta :=
  (within_asked_iff slabWorld mover (axisDelta .y 1) (6 / 10) (by norm_num)).mpr fun h =>
    absurd h.falling (by norm_num [axisDelta])

end

end Apoptosis.L2.Terrain
