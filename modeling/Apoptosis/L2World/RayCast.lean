import Apoptosis.Core.GridRay
import Apoptosis.Core.Instances
import Apoptosis.L2World.Collision
/-!
# Rays that look for a block (`world/src/ray.rs`)

A ray asks for one voxel after another, until one is selected or its reach ends.
Coordinates are exact.

* `walk_eq`: the loop asks for the voxels that the ray passes.
* `rayVisits_eq`: so does the whole cast, where its coordinates fit.
-/
namespace Apoptosis.L2.Terrain
open Apoptosis.Core

variable {K : Type*} [Field K] [LinearOrder K] {σ : Type*}

/-- mirrors crates/world/src/ray.rs:19-22 (`BlockSampler`) -/
abbrev BlockSampler := I32 → I32 → I32 → Option Int

/-- A closure, with the state that it changes.
mirrors crates/world/src/ray.rs:84 (`Selector`) -/
abbrev Selector (σ : Type*) := σ → Int → Bool × σ

/-- mirrors crates/world/src/collision.rs:370-381 (`BlockHit`) -/
structure BlockHit (K : Type*) where
  x : I32
  y : I32
  z : I32
  face : Nat
  distance : K
  deriving DecidableEq

def FACE_DOWN : Nat := 0
def FACE_UP : Nat := 1
def FACE_NORTH : Nat := 2
def FACE_SOUTH : Nat := 3
def FACE_WEST : Nat := 4
def FACE_EAST : Nat := 5

/-- The face that is entered along an axis; `true` where the ray goes up it. -/
def faces : Axis → Bool → Nat
  | .x, false => FACE_EAST
  | .x, true => FACE_WEST
  | .y, false => FACE_UP
  | .y, true => FACE_DOWN
  | .z, false => FACE_SOUTH
  | .z, true => FACE_NORTH

/-- mirrors crates/world/src/ray.rs:195-203 (`axis_step`) -/
def axisStep (value : K) : I32 := if 0 < value then .one else if value < 0 then .negOne else .zero

abbrev Voxel := Axis → I32

/-- A voxel that is not available is not asked about. -/
def ask (sampler : BlockSampler) (select : Selector σ) (state : σ) (voxel : Voxel) : Bool × σ :=
  match sampler (voxel .x) (voxel .y) (voxel .z) with
  | some id => select state id
  | none => (false, state)

def hitAt (voxel : Voxel) (face : Nat) (distance : K) : BlockHit K :=
  ⟨voxel .x, voxel .y, voxel .z, face, distance⟩

/-- `none` is a boundary that is never reached. -/
def stepAxis (tMax : Axis → WithTop K) : Axis :=
  if tMax .x ≤ tMax .y ∧ tMax .x ≤ tMax .z then .x else if tMax .y ≤ tMax .z then .y else .z

def perAxis {α : Type*} (x y z : α) : Axis → α
  | .x => x
  | .y => y
  | .z => z

theorem perAxis_eta {α : Type*} (f : Axis → α) : perAxis (f .x) (f .y) (f .z) = f :=
  funext fun a => by cases a <;> rfl

structure Walker (K : Type*) where
  voxel : Voxel
  tMax : Axis → WithTop K

/-- The loop of `ray_cast`, with the voxels it looks at; `none` where a coordinate overflows, or the
loop takes more rounds.
mirrors crates/world/src/ray.rs:162-192 -/
def walk (sampler : BlockSampler) (select : Selector σ) (dir : Axis → K) (maxDistance : K) :
    Nat → σ → Walker K → Option (List Voxel × Option (BlockHit K))
  | 0, _, _ => none
  | fuel + 1, state, walker =>
    let axis := stepAxis walker.tMax
    match walker.tMax axis with
    | none => some ([], none)
    | some distance =>
      if maxDistance < distance then some ([], none)
      else
        match (walker.voxel axis).checkedAdd (axisStep (dir axis)) with
        | none => none
        | some coordinate =>
          let voxel := Function.update walker.voxel axis coordinate
          let tMax := Function.update walker.tMax axis ((distance + |1 / dir axis| : K) : WithTop K)
          match ask sampler select state voxel with
          | (true, _) => some ([voxel], some (hitAt voxel (faces axis (0 < dir axis)) distance))
          | (false, state) =>
            (walk sampler select dir maxDistance fuel state ⟨voxel, tMax⟩).map fun (voxels, hit) =>
              (voxel :: voxels, hit)

/-- `none` where the coordinate overflows. -/
def boundary (dir : K) (voxel : I32) : Option Int :=
  if 0 < dir then (voxel.checkedAdd .one).map (·.val) else some voxel.val

/-- mirrors crates/world/src/ray.rs:138-149 -/
def firstBoundary (origin dir : K) (voxel : I32) : Option (WithTop K) :=
  if dir = 0 then some ⊤
  else
    match boundary dir voxel with
    | none => none
    | some b => some ((((b : K) - origin) / dir : K) : WithTop K)

section
attribute [local instance] Apoptosis.Core.atLeastTwo

/-- `f64::EPSILON`. -/
def EPSILON_F64 : K := 1 / 2 ^ 52

end

variable [FloorRing K]

/-- The voxels that `ray_cast` looks at, and the hit; `none` where a coordinate overflows.
mirrors crates/world/src/ray.rs:94-193 (`ray_cast`) -/
def rayVisits (sqrt : K → K) (sampler : BlockSampler) (select : Selector σ) (state : σ)
    (origin direction : Vec3 K) (maxDistance : K) : Option (List Voxel × Option (BlockHit K)) :=
  if maxDistance ≤ 0 then some ([], none)
  else
    let length := sqrt (direction .x * direction .x + direction .y * direction .y + direction .z * direction .z)
    if length ≤ EPSILON_F64 then some ([], none)
    else
      let dir : Vec3 K := fun a => direction a / length
      let voxel : Voxel := fun a => .clamp ⌊origin a⌋
      match ask sampler select state voxel with
      | (true, _) => some ([voxel], some (hitAt voxel FACE_UP 0))
      | (false, state) =>
        match firstBoundary (origin .x) (dir .x) (voxel .x), firstBoundary (origin .y) (dir .y) (voxel .y),
          firstBoundary (origin .z) (dir .z) (voxel .z) with
        | some x, some y, some z =>
          let fuel := (Ray.mk origin dir).rank maxDistance (fun a => (voxel a).val) + 1
          (walk sampler select dir maxDistance fuel state ⟨voxel, perAxis x y z⟩).map
            fun (voxels, hit) => (voxel :: voxels, hit)
        | _, _, _ => none

/-- mirrors crates/world/src/ray.rs:94-193 (`ray_cast`) -/
def rayCast (sqrt : K → K) (sampler : BlockSampler) (select : Selector σ) (state : σ)
    (origin direction : Vec3 K) (maxDistance : K) : Option (Option (BlockHit K)) :=
  (rayVisits sqrt sampler select state origin direction maxDistance).map (·.2)

/-! ## The voxels that are passed -/

/-- The boundaries of a cell that the ray is in. -/
def leaves (r : Ray Axis K) (cell : Axis → Int) (a : Axis) : WithTop K :=
  if r.dir a = 0 then ⊤ else (r.leave cell a : K)

/-- Of two boundaries that are reached together, the loop takes the first axis. -/
def crossing (r : Ray Axis K) (cell : Axis → Int) : Option Axis :=
  if r.dir (stepAxis (leaves r cell)) = 0 then none else some (stepAxis (leaves r cell))

omit [Field K] [FloorRing K] in
theorem stepAxis_le (tMax : Axis → WithTop K) (a : Axis) : tMax (stepAxis tMax) ≤ tMax a := by
  unfold stepAxis
  split
  · next h => cases a <;> first | exact le_rfl | exact h.1 | exact h.2
  · next h =>
    split
    · next h' =>
      cases a with
      | x =>
        rcases le_total (tMax .x) (tMax .y) with hle | hle
        · exact absurd ⟨hle, hle.trans h'⟩ h
        · exact hle
      | y => exact le_rfl
      | z => exact h'
    · next h' =>
      have hzy := (not_le.mp h').le
      cases a with
      | x =>
        rcases le_total (tMax .x) (tMax .z) with hle | hle
        · exact absurd ⟨hle.trans hzy, hle⟩ h
        · exact hle
      | y => exact hzy
      | z => exact le_rfl

omit [FloorRing K] in
theorem crossing_picks (r : Ray Axis K) : r.Picks (crossing r) where
  first cell a h := by
    unfold crossing at h
    split at h
    · exact nomatch h
    · next hdir =>
      cases h
      refine ⟨hdir, fun b hb => ?_⟩
      have := stepAxis_le (leaves r cell) b
      rw [leaves, leaves, if_neg hdir, if_neg hb] at this
      exact WithTop.coe_le_coe.mp this
  still cell h b := by
    unfold crossing at h
    split at h
    · next hdir =>
      have := stepAxis_le (leaves r cell) b
      rw [leaves, if_pos hdir, top_le_iff, leaves] at this
      by_contra hb
      rw [if_neg hb] at this
      exact WithTop.coe_ne_top this
    · exact nomatch h

/-- The coordinates fit into 32 bits. -/
def Fits (cell : Axis → Int) : Prop := ∀ a, -2 ^ 31 ≤ cell a ∧ cell a < 2 ^ 31

instance (cell : Axis → Int) : Decidable (Fits cell) := inferInstanceAs (Decidable (∀ _, _))

def voxelOf (cell : Axis → Int) : Voxel := fun a => .clamp (cell a)

/-- The face that the ray crosses into the cell; a ray that starts in it has crossed none. -/
def faceOf (r : Ray Axis K) (v : Visit Axis K) : Nat :=
  match v.across with
  | none => FACE_UP
  | some a => faces a (0 < r.dir a)

def hitOf (r : Ray Axis K) (v : Visit Axis K) : BlockHit K := hitAt (voxelOf v.cell) (faceOf r v) v.time

/-- Asking about the cells one after another. -/
def scan (r : Ray Axis K) (sampler : BlockSampler) (select : Selector σ) :
    σ → List (Visit Axis K) → Option (List Voxel × Option (BlockHit K))
  | _, [] => some ([], none)
  | state, v :: visits =>
    if Fits v.cell then
      match ask sampler select state (voxelOf v.cell) with
      | (true, _) => some ([voxelOf v.cell], some (hitOf r v))
      | (false, state) =>
        (scan r sampler select state visits).map fun (voxels, hit) => (voxelOf v.cell :: voxels, hit)
    else none

theorem voxelOf_of_val {cell : Axis → Int} {voxel : Voxel} (h : ∀ a, (voxel a).val = cell a) :
    voxelOf cell = voxel := by
  funext a
  have := (voxel a).property
  have hcell := h a
  exact Subtype.ext ((I32.clamp_of_mem (by omega) (by omega)).trans hcell.symm)

/-! ## The loop -/

variable {r : Ray Axis K} {sampler : BlockSampler} {select : Selector σ} {cell : Axis → Int} {a : Axis}

omit [FloorRing K] in
theorem axisStep_val (hdir : r.dir a ≠ 0) : (axisStep (r.dir a)).val = r.step a := by
  unfold axisStep Ray.step
  rcases lt_or_gt_of_ne hdir with hneg | hpos
  · rw [if_neg hneg.not_gt, if_pos hneg, if_neg hneg.not_gt]
    rfl
  · rw [if_pos hpos, if_pos hpos]
    rfl

omit [FloorRing K] in
/-- The coordinate behind the wall, where it fits. -/
theorem checkedAdd_axisStep {voxel : Voxel} (hvoxel : ∀ a, (voxel a).val = cell a) (hdir : r.dir a ≠ 0) :
    (¬Fits (r.next cell a) ∧ (voxel a).checkedAdd (axisStep (r.dir a)) = none) ∨
      ∃ coordinate, (voxel a).checkedAdd (axisStep (r.dir a)) = some coordinate ∧ Fits (r.next cell a) ∧
        ∀ b, (Function.update voxel a coordinate b).val = r.next cell a b := by
  cases hadd : (voxel a).checkedAdd (axisStep (r.dir a)) with
  | none =>
    refine .inl ⟨fun hfits => ?_, rfl⟩
    have hnone := I32.checkedAdd_eq_none hadd
    rw [axisStep_val hdir, hvoxel a, ← Ray.next_self] at hnone
    exact hnone (hfits a)
  | some coordinate =>
    have hval := I32.checkedAdd_eq_some hadd
    rw [axisStep_val hdir, hvoxel a, ← Ray.next_self] at hval
    have hall (b : Axis) : (Function.update voxel a coordinate b).val = r.next cell a b := by
      by_cases hb : b = a
      · rw [hb, Function.update_self, hval]
      · rw [Function.update_of_ne hb, Ray.next_of_ne r cell hb, hvoxel b]
    refine .inr ⟨coordinate, rfl, fun b => ?_, hall⟩
    rw [← hall b]
    exact (Function.update voxel a coordinate b).property

variable [IsStrictOrderedRing K]

omit [FloorRing K] in
theorem leaves_next (hdir : r.dir a ≠ 0) :
    Function.update (leaves r cell) a ((r.leave cell a + |1 / r.dir a| : K) : WithTop K) =
      leaves r (r.next cell a) := by
  funext b
  by_cases hb : b = a
  · rw [hb, Function.update_self, leaves, if_neg hdir, Ray.leave_next_self hdir]
  · rw [Function.update_of_ne hb, leaves, leaves, Ray.leave_next_of_ne hb]

omit [FloorRing K] in
/-- One round of the loop. -/
theorem walk_round (reach : K) (fuel : Nat) (state : σ) (walker : Walker K)
    (hvoxel : ∀ a, (walker.voxel a).val = cell a) (hmax : walker.tMax = leaves r cell) :
    (walk sampler select r.dir reach (fuel + 1) state walker = some ([], none) ∧
      ∀ a, crossing r cell = some a → reach < r.leave cell a) ∨
    ∃ a, crossing r cell = some a ∧ r.dir a ≠ 0 ∧ r.leave cell a ≤ reach ∧
      ((¬Fits (r.next cell a) ∧ walk sampler select r.dir reach (fuel + 1) state walker = none) ∨
      (Fits (r.next cell a) ∧ ∃ walker', (∀ b, (walker'.voxel b).val = r.next cell a b) ∧
        walker'.tMax = leaves r (r.next cell a) ∧
        walk sampler select r.dir reach (fuel + 1) state walker =
          match ask sampler select state walker'.voxel with
          | (true, _) =>
            some ([walker'.voxel], some (hitAt walker'.voxel (faces a (0 < r.dir a)) (r.leave cell a)))
          | (false, state) => (walk sampler select r.dir reach fuel state walker').map
              fun (voxels, hit) => (walker'.voxel :: voxels, hit))) := by
  rw [walk, hmax]
  dsimp only
  by_cases hdir : r.dir (stepAxis (leaves r cell)) = 0
  · left
    have htop : leaves r cell (stepAxis (leaves r cell)) = ⊤ := if_pos hdir
    refine ⟨?_, fun a ha => ?_⟩
    · rw [htop]
    · rw [crossing, if_pos hdir] at ha
      exact nomatch ha
  · have hcross : crossing r cell = some (stepAxis (leaves r cell)) := if_neg hdir
    generalize stepAxis (leaves r cell) = a at hdir hcross
    have hleave : leaves r cell a = (r.leave cell a : K) := if_neg hdir
    rw [hleave]
    by_cases hreach : reach < r.leave cell a
    · exact .inl ⟨if_pos hreach, fun b hb => by rw [hcross] at hb; cases hb; exact hreach⟩
    · refine .inr ⟨a, hcross, hdir, not_lt.mp hreach, ?_⟩
      obtain ⟨hfits, hnone⟩ | ⟨coordinate, hsome, hfits, hall⟩ := checkedAdd_axisStep hvoxel hdir
      · left
        refine ⟨hfits, ?_⟩
        show (if reach < r.leave cell a then _ else _) = _
        rw [if_neg hreach, hnone]
      · right
        refine ⟨hfits, ⟨_, _⟩, hall, leaves_next hdir, ?_⟩
        show (if reach < r.leave cell a then _ else _) = _
        rw [if_neg hreach, hsome]
        rfl

/-- The loop asks about the cells that the ray passes. -/
theorem walk_eq (reach : K) (fuel : Nat) (state : σ) (walker : Walker K)
    (hvoxel : ∀ a, (walker.voxel a).val = cell a) (hmax : walker.tMax = leaves r cell)
    (hfuel : r.rank reach cell ≤ fuel) :
    walk sampler select r.dir reach (fuel + 1) state walker =
      scan r sampler select state (r.visits (crossing r) reach fuel cell) := by
  induction fuel generalizing state cell walker with
  | zero =>
    obtain ⟨hwalk, -⟩ | ⟨a, -, hdir, hle, -⟩ := walk_round reach 0 state walker hvoxel hmax
    · exact hwalk
    · exact absurd ((Ray.rank_next hdir hle).trans_le hfuel) (Nat.not_lt_zero _)
  | succ fuel ih =>
    rw [Ray.visits]
    obtain ⟨hwalk, hfar⟩ | ⟨a, hcross, hdir, hle, hround⟩ := walk_round reach (fuel + 1) state walker hvoxel hmax
    · rw [hwalk]
      split
      · rfl
      · next a ha =>
        rw [if_pos (hfar a ha)]
        rfl
    · rw [hcross]
      dsimp only
      rw [if_neg (not_lt.mpr hle), scan]
      obtain ⟨hfits, hwalk⟩ | ⟨hfits, walker', hvoxel', hmax', hwalk⟩ := hround
      · rw [hwalk, if_neg hfits]
      · have hrank := Ray.rank_next hdir hle
        rw [hwalk, if_pos hfits, voxelOf_of_val hvoxel']
        split
        · rw [hitOf, voxelOf_of_val hvoxel']
          rfl
        · next state' _ => rw [ih state' walker' hvoxel' hmax' (by omega)]

/-! ## The cast -/

/-- The first boundaries fit into 32 bits. -/
def WallsFit (r : Ray Axis K) : Prop := ∀ a, 0 < r.dir a → ⌊r.origin a⌋ + 1 < 2 ^ 31

omit [FloorRing K] [IsStrictOrderedRing K] in
theorem firstBoundary_eq {voxel : I32} (hvoxel : voxel.val = cell a) :
    (firstBoundary (r.origin a) (r.dir a) voxel = some (leaves r cell a) ∧ (0 < r.dir a → cell a + 1 < 2 ^ 31)) ∨
      (firstBoundary (r.origin a) (r.dir a) voxel = none ∧ 0 < r.dir a ∧ ¬cell a + 1 < 2 ^ 31) := by
  have hrange := voxel.property
  unfold firstBoundary leaves Ray.leave Ray.wall boundary
  by_cases hzero : r.dir a = 0
  · rw [if_pos hzero, if_pos hzero]
    exact .inl ⟨rfl, fun h => absurd hzero h.ne'⟩
  · rw [if_neg hzero, if_neg hzero]
    by_cases hpos : 0 < r.dir a
    · rw [if_pos hpos, if_pos hpos]
      obtain ⟨hnone, hmax⟩ | ⟨b, hsome, hval⟩ := voxel.checkedAdd_one
      · right
        have hmax' : voxel.val = 2 ^ 31 - 1 := congrArg Subtype.val hmax
        exact ⟨by rw [hnone]; rfl, hpos, by omega⟩
      · left
        have := b.property
        refine ⟨?_, fun _ => by omega⟩
        rw [hsome, ← hvoxel, ← hval]
        rfl
    · rw [if_neg hpos, if_neg hpos, ← hvoxel]
      exact .inl ⟨rfl, fun h => absurd h hpos⟩

/-- The cells that a ray passes. -/
def cellsPassed (r : Ray Axis K) (reach : K) : List (Visit Axis K) := r.passed (crossing r) reach

def startCell (r : Ray Axis K) : Axis → Int := fun a => ⌊r.origin a⌋

variable {sqrt : K → K} {state : σ} {reach : K}

theorem rayVisits_unit (hsqrt : sqrt 1 = 1)
    (hunit : r.dir .x * r.dir .x + r.dir .y * r.dir .y + r.dir .z * r.dir .z = 1) (hreach : 0 < reach) :
    rayVisits sqrt sampler select state r.origin r.dir reach =
      match ask sampler select state (voxelOf (startCell r)) with
      | (true, _) => some ([voxelOf (startCell r)], some (hitAt (voxelOf (startCell r)) FACE_UP 0))
      | (false, state) =>
        match firstBoundary (r.origin .x) (r.dir .x) (voxelOf (startCell r) .x),
          firstBoundary (r.origin .y) (r.dir .y) (voxelOf (startCell r) .y),
          firstBoundary (r.origin .z) (r.dir .z) (voxelOf (startCell r) .z) with
        | some x, some y, some z =>
          (walk sampler select r.dir reach (r.rank reach (fun a => (voxelOf (startCell r) a).val) + 1) state
            ⟨voxelOf (startCell r), perAxis x y z⟩).map
            fun (voxels, hit) => (voxelOf (startCell r) :: voxels, hit)
        | _, _, _ => none := by
  have heps : ¬(1 : K) ≤ EPSILON_F64 := by
    rw [EPSILON_F64, not_le]
    exact (div_lt_one (by positivity)).mpr (one_lt_pow₀ one_lt_two (by decide))
  unfold rayVisits
  rw [if_neg (not_le.mpr hreach), hunit, hsqrt]
  simp only [div_one]
  rw [if_neg heps]
  rfl

/-- Where the cast starts inside 32 bits, it asks about the cells that the ray passes. -/
theorem rayVisits_eq (hsqrt : sqrt 1 = 1)
    (hunit : r.dir .x * r.dir .x + r.dir .y * r.dir .y + r.dir .z * r.dir .z = 1) (hreach : 0 < reach)
    (hfits : Fits (startCell r))
    (hwalls : (ask sampler select state (voxelOf (startCell r))).1 = true ∨ WallsFit r) :
    rayVisits sqrt sampler select state r.origin r.dir reach =
      scan r sampler select state (cellsPassed r reach) := by
  have hval (a : Axis) : (voxelOf (startCell r) a).val = startCell r a :=
    I32.clamp_of_mem (hfits a).1 (hfits a).2
  rw [rayVisits_unit hsqrt hunit hreach, cellsPassed, Ray.passed, scan]
  show _ = if Fits (startCell r) then _ else none
  rw [if_pos hfits]
  show _ = match ask sampler select state (voxelOf (startCell r)) with | (true, _) => _ | (false, state) => _
  split
  · rfl
  · next state' heq =>
    rw [heq] at hwalls
    have hbound (a : Axis) : firstBoundary (r.origin a) (r.dir a) (voxelOf (startCell r) a) =
        some (leaves r (startCell r) a) := by
      rcases firstBoundary_eq (r := r) (hval a) with h | ⟨-, hpos, hnot⟩
      · exact h.1
      · exact absurd (hwalls.resolve_left Bool.false_ne_true a hpos) hnot
    rw [hbound, hbound, hbound]
    dsimp only
    have hcell : (fun a => (voxelOf (startCell r) a).val) = startCell r := funext hval
    rw [hcell, perAxis_eta, walk_eq (r := r) reach _ state' ⟨voxelOf (startCell r), leaves r (startCell r)⟩ hval rfl le_rfl]
    rfl

/-- Where they do not, it asks about another cell, or does not end. -/
theorem rayVisits_overflow (hsqrt : sqrt 1 = 1)
    (hunit : r.dir .x * r.dir .x + r.dir .y * r.dir .y + r.dir .z * r.dir .z = 1) (hreach : 0 < reach)
    (hfits : Fits (startCell r))
    (hwalls : ¬((ask sampler select state (voxelOf (startCell r))).1 = true ∨ WallsFit r)) :
    rayVisits sqrt sampler select state r.origin r.dir reach = none := by
  have hval (a : Axis) : (voxelOf (startCell r) a).val = startCell r a :=
    I32.clamp_of_mem (hfits a).1 (hfits a).2
  rw [rayVisits_unit hsqrt hunit hreach]
  split
  · next heq => exact absurd (.inl (by rw [heq])) hwalls
  · split
    · next x y z hx hy hz =>
      refine absurd (.inr fun a hpos => ?_) hwalls
      have hone : firstBoundary (r.origin a) (r.dir a) (voxelOf (startCell r) a) ≠ none := by
        cases a
        · rw [hx]; exact Option.some_ne_none _
        · rw [hy]; exact Option.some_ne_none _
        · rw [hz]; exact Option.some_ne_none _
      rcases firstBoundary_eq (r := r) (hval a) with h | h
      · exact h.2 hpos
      · exact absurd h.1 hone
    · rfl

end Apoptosis.L2.Terrain
