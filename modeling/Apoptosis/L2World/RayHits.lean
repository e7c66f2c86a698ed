import Apoptosis.L2World.RayCast
/-!
# What a ray hits (`world/src/ray.rs`)

A ray should stop where a voxel is not available, so that nothing is seen behind
it. The loop goes on: it asks about the next voxel instead.

* `scan_iff`: asking goes right while the voxels before the hit are available.
* `sees_iff`: a cast sees what it should exactly when they are, and its coordinates fit.
* `gap_seen_through`: a block behind a voxel that is not available is hit.
-/
namespace Apoptosis.L2.Terrain
open Apoptosis.Core

variable {K : Type*} {σ : Type*}

/-! ## What should be hit -/

/-- The block of a cell; there is none outside 32 bits. -/
def blockOf (sampler : BlockSampler) (cell : Axis → Int) : Option Int :=
  if Fits cell then sampler (voxelOf cell .x) (voxelOf cell .y) (voxelOf cell .z) else none

/-- The first cell that is accepted, where none before it is unavailable. -/
def firstHit (sampler : BlockSampler) (select : Selector σ) : σ → List (Visit Axis K) → Option (Visit Axis K)
  | _, [] => none
  | state, v :: visits =>
    match blockOf sampler v.cell with
    | none => none
    | some id =>
      match select state id with
      | (true, _) => some v
      | (false, state) => firstHit sampler select state visits

/-- The cast looks at the cells that the ray passes, from the first on, and hits the first that is
accepted. -/
def Sees [Field K] [LinearOrder K] [FloorRing K] (sqrt : K → K) (sampler : BlockSampler) (select : Selector σ) (state : σ)
    (r : Ray Axis K) (reach : K) : Prop :=
  ∃ voxels hit, rayVisits sqrt sampler select state r.origin r.dir reach = some (voxels, hit) ∧
    (voxels.map fun voxel a => (voxel a).val) <+: (cellsPassed r reach).map (·.cell) ∧
    hit = (firstHit sampler select state (cellsPassed r reach)).map (hitOf r)

/-! ## What is on the way -/

section
variable (sampler : BlockSampler) (select : Selector σ)

def Accepts (state : σ) (v : Visit Axis K) : Prop := (ask sampler select state (voxelOf v.cell)).1 = true

/-- The selector's state, after it was asked about the cells. -/
def stateAfter : σ → List (Visit Axis K) → σ
  | state, [] => state
  | state, v :: visits => stateAfter (ask sampler select state (voxelOf v.cell)).2 visits

/-- None of the cells is accepted, when the selector is asked about one after another. -/
def Refuses : σ → List (Visit Axis K) → Prop
  | _, [] => True
  | state, v :: visits =>
    ¬Accepts sampler select state v ∧ Refuses (ask sampler select state (voxelOf v.cell)).2 visits

/-- What holds of each cell that comes before the first hit or is it, and of those before it. -/
def Along (state : σ) (visits : List (Visit Axis K)) (P : List (Visit Axis K) → Visit Axis K → Prop) : Prop :=
  ∀ before v, before ++ [v] <+: visits → Refuses sampler select state before → P before v

end

/-- The coordinates fit as far as the ray gets, and what comes before the hit is available. -/
structure Unobstructed [Field K] [LinearOrder K] [FloorRing K] (sampler : BlockSampler)
    (select : Selector σ) (state : σ) (r : Ray Axis K) (reach : K) : Prop where
  fits : Along sampler select state (cellsPassed r reach) fun _ v => Fits v.cell
  walls : (ask sampler select state (voxelOf (startCell r))).1 = true ∨ WallsFit r
  available : Along sampler select state (cellsPassed r reach) fun before v =>
    Accepts sampler select (stateAfter sampler select state before) v → ∀ u ∈ before, blockOf sampler u.cell ≠ none

/-! ## Asking -/

variable {sampler : BlockSampler} {select : Selector σ} {state : σ} {v : Visit Axis K}
  {visits : List (Visit Axis K)}

theorem along_cons {P : List (Visit Axis K) → Visit Axis K → Prop} :
    Along sampler select state (v :: visits) P ↔ P [] v ∧ (¬Accepts sampler select state v →
      Along sampler select (ask sampler select state (voxelOf v.cell)).2 visits fun before u => P (v :: before) u) := by
  constructor
  · intro h
    refine ⟨h [] v (List.cons_prefix_cons.mpr ⟨rfl, List.nil_prefix⟩) trivial, fun hv before u hpre href => ?_⟩
    exact h (v :: before) u (List.cons_prefix_cons.mpr ⟨rfl, hpre⟩) ⟨hv, href⟩
  · rintro ⟨hfirst, hrest⟩ before u hpre href
    cases before with
    | nil =>
      obtain rfl := (List.cons_prefix_cons.mp hpre).1
      exact hfirst
    | cons w before =>
      obtain ⟨rfl, hpre'⟩ := List.cons_prefix_cons.mp hpre
      exact hrest href.1 before u hpre' href.2

/-- What is not available is not accepted, and leaves the selector alone. -/
theorem ask_of_unavailable (hfits : Fits v.cell) (h : blockOf sampler v.cell = none) :
    ask sampler select state (voxelOf v.cell) = (false, state) := by
  rw [blockOf, if_pos hfits] at h
  rw [ask, h]

theorem ask_of_block {id : Int} (hfits : Fits v.cell) (h : blockOf sampler v.cell = some id) :
    ask sampler select state (voxelOf v.cell) = select state id := by
  rw [blockOf, if_pos hfits] at h
  rw [ask, h]

theorem not_accepts {answer : σ} (h : ask sampler select state (voxelOf v.cell) = (false, answer)) :
    ¬Accepts sampler select state v := by
  rw [Accepts, h]
  exact Bool.false_ne_true

theorem stateAfter_cons {answer : Bool} {state' : σ} (h : ask sampler select state (voxelOf v.cell) = (answer, state'))
    (before : List (Visit Axis K)) :
    stateAfter sampler select state (v :: before) = stateAfter sampler select state' before := by
  rw [stateAfter, h]

variable [Field K] [LinearOrder K] {r : Ray Axis K}

/-- The cells that were looked at are the first ones. -/
theorem scan_prefix {voxels : List Voxel} {hit : Option (BlockHit K)}
    (h : scan r sampler select state visits = some (voxels, hit)) :
    (voxels.map fun voxel a => (voxel a).val) <+: visits.map (·.cell) := by
  induction visits generalizing state voxels hit with
  | nil =>
    cases h
    exact List.nil_prefix
  | cons v visits ih =>
    rw [scan] at h
    split at h
    · next hfits =>
      have hcell : (fun a => (voxelOf v.cell a).val) = v.cell :=
        funext fun a => I32.clamp_of_mem (hfits a).1 (hfits a).2
      split at h
      · cases h
        rw [List.map_cons, List.map_cons, hcell]
        exact List.cons_prefix_cons.mpr ⟨rfl, List.nil_prefix⟩
      · obtain ⟨⟨voxels', hit'⟩, hscan, heq⟩ := Option.map_eq_some_iff.mp h
        cases heq
        rw [List.map_cons, List.map_cons, hcell]
        exact List.cons_prefix_cons.mpr ⟨rfl, ih hscan⟩
    · cases h

omit [Field K] [LinearOrder K] in
/-- What is hit does not depend on the voxels that were looked at before. -/
theorem exists_looked_iff {x : Option (List Voxel × Option (BlockHit K))} (voxel : Voxel)
    (hit : Option (BlockHit K)) :
    (∃ voxels, x.map (fun (voxels, hit) => (voxel :: voxels, hit)) = some (voxels, hit)) ↔
      ∃ voxels, x = some (voxels, hit) := by
  constructor
  · rintro ⟨voxels, h⟩
    obtain ⟨⟨voxels', hit'⟩, hscan, heq⟩ := Option.map_eq_some_iff.mp h
    cases heq
    exact ⟨voxels', hscan⟩
  · rintro ⟨voxels, h⟩
    exact ⟨voxel :: voxels, by rw [h]; rfl⟩

/-- Nothing is hit where nothing is accepted. -/
theorem scan_none_iff : (∃ voxels, scan r sampler select state visits = some (voxels, none)) ↔
    (Along sampler select state visits fun _ v => Fits v.cell) ∧
      Along sampler select state visits fun before v =>
        ¬Accepts sampler select (stateAfter sampler select state before) v := by
  induction visits generalizing state with
  | nil =>
    refine iff_of_true ⟨[], rfl⟩ ⟨fun before v hpre => ?_, fun before v hpre => ?_⟩
    · exact absurd (List.prefix_nil.mp hpre) (by simp)
    · exact absurd (List.prefix_nil.mp hpre) (by simp)
  | cons v visits ih =>
    rw [along_cons, along_cons, scan]
    by_cases hfits : Fits v.cell
    · rw [if_pos hfits]
      rcases hask : ask sampler select state (voxelOf v.cell) with ⟨answer, state'⟩
      cases answer with
      | true =>
        refine iff_of_false ?_ fun h => h.2.1 ?_
        · rintro ⟨voxels, h⟩
          cases h
        · show (ask sampler select state (voxelOf v.cell)).1 = true
          rw [hask]
      | false =>
        have hnot := not_accepts hask
        dsimp only
        rw [exists_looked_iff, ih]
        simp only [stateAfter_cons hask]
        exact ⟨fun h => ⟨⟨hfits, fun _ => h.1⟩, hnot, fun _ => h.2⟩, fun h => ⟨h.1.2 hnot, h.2.2 hnot⟩⟩
    · rw [if_neg hfits]
      refine iff_of_false ?_ fun h => hfits h.1.1
      rintro ⟨_, h⟩
      cases h

/-- Asking goes right while the voxels before the hit are available. -/
theorem scan_iff : (∃ voxels, scan r sampler select state visits =
      some (voxels, (firstHit sampler select state visits).map (hitOf r))) ↔
    (Along sampler select state visits fun _ v => Fits v.cell) ∧
      Along sampler select state visits fun before v =>
        Accepts sampler select (stateAfter sampler select state before) v →
          ∀ u ∈ before, blockOf sampler u.cell ≠ none := by
  induction visits generalizing state with
  | nil =>
    refine iff_of_true ⟨[], rfl⟩ ⟨fun before v hpre => ?_, fun before v hpre => ?_⟩
    · exact absurd (List.prefix_nil.mp hpre) (by simp)
    · exact absurd (List.prefix_nil.mp hpre) (by simp)
  | cons v visits ih =>
    rw [along_cons, along_cons, scan, firstHit]
    by_cases hfits : Fits v.cell
    swap
    · rw [if_neg hfits]
      refine iff_of_false ?_ fun h => hfits h.1.1
      rintro ⟨_, h⟩
      cases h
    rw [if_pos hfits]
    cases hblock : blockOf sampler v.cell with
    | none =>
      have hask : ask sampler select state (voxelOf v.cell) = (false, state) := ask_of_unavailable hfits hblock
      have hnot := not_accepts hask
      rw [hask]
      dsimp only
      rw [Option.map_none, exists_looked_iff, scan_none_iff]
      simp only [stateAfter_cons hask]
      refine ⟨fun h => ⟨⟨hfits, fun _ => h.1⟩, fun hacc => absurd hacc hnot, fun _ before u hpre href hacc => ?_⟩,
        fun h => ⟨h.1.2 hnot, fun before u hpre href hacc => ?_⟩⟩
      · exact absurd hacc (h.2 before u hpre href)
      · exact h.2.2 hnot before u hpre href hacc v (List.mem_cons_self ..) hblock
    | some id =>
      have hask : ask sampler select state (voxelOf v.cell) = select state id := ask_of_block hfits hblock
      rcases hselect : select state id with ⟨answer, state'⟩
      rw [hselect] at hask
      dsimp only
      rw [hask, hselect]
      cases answer with
      | true =>
        have hacc : Accepts sampler select state v := by
          rw [Accepts, hask]
        exact iff_of_true ⟨_, rfl⟩
          ⟨⟨hfits, fun h => absurd hacc h⟩, fun _ u hu => absurd hu List.not_mem_nil, fun h => absurd hacc h⟩
      | false =>
        have hnot := not_accepts hask
        dsimp only
        rw [exists_looked_iff, ih]
        simp only [stateAfter_cons hask]
        refine ⟨fun h => ⟨⟨hfits, fun _ => h.1⟩, fun hacc => absurd hacc hnot, fun _ before u hpre href hacc w hw => ?_⟩,
          fun h => ⟨h.1.2 hnot, fun before u hpre href hacc w hw => ?_⟩⟩
        · rcases List.mem_cons.mp hw with rfl | hw
          · rw [hblock]
            exact Option.some_ne_none id
          · exact h.2 before u hpre href hacc w hw
        · exact h.2.2 hnot before u hpre href hacc w (List.mem_cons_of_mem _ hw)

/-! ## What is seen -/

variable [IsStrictOrderedRing K] [FloorRing K] {sqrt : K → K} {reach : K}

omit [IsStrictOrderedRing K] in
theorem startCell_mem (P : List (Visit Axis K) → Visit Axis K → Prop)
    (h : Along sampler select state (cellsPassed r reach) P) : P [] ⟨startCell r, 0, none⟩ :=
  h [] _ (List.cons_prefix_cons.mpr ⟨rfl, List.nil_prefix⟩) trivial

/-- A cast that looks at the ray's cells starts inside 32 bits. -/
theorem fits_along (hsqrt : sqrt 1 = 1)
    (hunit : r.dir .x * r.dir .x + r.dir .y * r.dir .y + r.dir .z * r.dir .z = 1) (hreach : 0 < reach)
    {voxels : List Voxel} {hit : Option (BlockHit K)}
    (h : rayVisits sqrt sampler select state r.origin r.dir reach = some (voxels, hit))
    (hpre : (voxels.map fun voxel a => (voxel a).val) <+: (cellsPassed r reach).map (·.cell)) :
    Fits (startCell r) := by
  have hfirst : ∃ rest, voxels = voxelOf (startCell r) :: rest := by
    rw [rayVisits_unit hsqrt hunit hreach] at h
    split at h
    · cases h
      exact ⟨[], rfl⟩
    · split at h
      · obtain ⟨⟨rest, hit'⟩, -, heq⟩ := Option.map_eq_some_iff.mp h
        cases heq
        exact ⟨rest, rfl⟩
      · exact nomatch h
  obtain ⟨rest, rfl⟩ := hfirst
  rw [cellsPassed, Ray.passed, List.map_cons, List.map_cons] at hpre
  have hcell : (fun a => (voxelOf (startCell r) a).val) = startCell r := (List.cons_prefix_cons.mp hpre).1
  intro a
  rw [← hcell]
  exact (voxelOf (startCell r) a).property

theorem sees_iff_unobstructed (hsqrt : sqrt 1 = 1)
    (hunit : r.dir .x * r.dir .x + r.dir .y * r.dir .y + r.dir .z * r.dir .z = 1) (hreach : 0 < reach) :
    Sees sqrt sampler select state r reach ↔ Unobstructed sampler select state r reach := by
  by_cases hfits : Fits (startCell r)
  · by_cases hwalls : (ask sampler select state (voxelOf (startCell r))).1 = true ∨ WallsFit r
    · have hvisits := rayVisits_eq hsqrt hunit hreach hfits hwalls
      unfold Sees
      rw [hvisits]
      constructor
      · rintro ⟨voxels, hit, hscan, -, rfl⟩
        obtain ⟨hall, havail⟩ := scan_iff.mp ⟨voxels, hscan⟩
        exact ⟨hall, hwalls, havail⟩
      · intro h
        obtain ⟨voxels, hscan⟩ := scan_iff.mpr ⟨h.fits, h.available⟩
        exact ⟨voxels, _, hscan, scan_prefix hscan, rfl⟩
    · refine iff_of_false ?_ fun h => hwalls h.walls
      rintro ⟨voxels, hit, h, -⟩
      rw [rayVisits_overflow hsqrt hunit hreach hfits hwalls] at h
      exact nomatch h
  · refine iff_of_false ?_ fun h => hfits (startCell_mem _ h.fits)
    rintro ⟨voxels, hit, h, hpre, -⟩
    exact hfits (fits_along hsqrt hunit hreach h hpre)

/-- The ray passes its cells in order, with none left out; the cast sees what it should exactly when
what comes before the hit is available, and the coordinates fit. -/
theorem sees_iff (hsqrt : sqrt 1 = 1)
    (hunit : r.dir .x * r.dir .x + r.dir .y * r.dir .y + r.dir .z * r.dir .z = 1) (hreach : 0 < reach) :
    r.Traverses reach (cellsPassed r reach) ∧
      (Sees sqrt sampler select state r reach ↔ Unobstructed sampler select state r reach) :=
  ⟨Ray.traverses (crossing_picks r) hreach.le, sees_iff_unobstructed hsqrt hunit hreach⟩

/-- From the middle of a block to the east. -/
def eastward : Ray Axis ℚ := ⟨fun _ => 1 / 2, perAxis 1 0 0⟩

/-- Air, a voxel that is not loaded, and stone behind it. -/
def gap : BlockSampler := fun x _ _ => if x.val = 1 then none else if x.val = 2 then some 1 else some 0

def notAir : Selector Unit := fun _ id => (decide (id ≠ 0), ())

theorem sees_iff_eastward : eastward.Traverses 3 (cellsPassed eastward 3) ∧
    (Sees id gap notAir () eastward 3 ↔ Unobstructed gap notAir () eastward 3) :=
  sees_iff rfl (by simp [eastward, perAxis]) (by norm_num)

/-- The stone behind the voxel that is not loaded is hit. -/
theorem gap_seen_through : (rayCast id gap notAir () eastward.origin eastward.dir 3).map (·.map (·.x.val)) =
      some (some 2) ∧ ¬Sees id gap notAir () eastward 3 := by
  refine ⟨by decide +kernel, ?_⟩
  rintro ⟨voxels, hit, h, -, rfl⟩
  have hhit : (rayVisits id gap notAir () eastward.origin eastward.dir 3).map (·.2.isSome) = some true := by
    decide +kernel
  have hnone : (firstHit gap notAir () (cellsPassed eastward 3)).isSome = false := by decide +kernel
  rw [h, Option.map_some, Option.isSome_map, hnone] at hhit
  exact nomatch hhit

end Apoptosis.L2.Terrain
