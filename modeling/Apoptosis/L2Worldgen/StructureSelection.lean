import Apoptosis.Core.I32
import Apoptosis.Core.Scalar
import Mathlib.Data.List.Destutter
/-!
# Where structures start (`worldgen/src/structures.rs`)

The world is cut into cells, and every chunk decides alone whether it is the
origin of a structure: it draws the attempts of its cell again and answers when
one of them lands on it. No state is shared between the chunks of a cell.

Results:
* `originInCell_within`: a drawn origin lies in the first chunks of its cell.
* `selectFor_some`: what a selection says.
* `selected_subset`: the chunks of a cell, as the origins of its attempts.
* `structures_sparse`.
-/
namespace Apoptosis.L2.Structures
open Apoptosis.Core

/-! ## Seeds -/

/-- mirrors crates/persistence/src/chunk.rs:37-42 (`ChunkPos`), with its machine coordinates -/
structure ChunkPos where
  x : I32
  z : I32
  deriving DecidableEq

/-- mirrors crates/worldgen/src/seed.rs:207-215 (`splitmix64_mix`) -/
def splitmix64Mix (input : UInt64) : UInt64 :=
  let value := input ^^^ (input >>> 30)
  let value := value * 0xBF58476D1CE4E5B9
  let value := value ^^^ (value >>> 27)
  let value := value * 0x94D049BB133111EB
  value ^^^ (value >>> 31)

/-- mirrors crates/worldgen/src/seed.rs:224-226 (`pack_chunk_pos`) -/
def packChunkPos (pos : ChunkPos) : UInt64 :=
  ((Int64.ofInt pos.x.val).toUInt64 <<< 32) ||| (Int32.ofInt pos.z.val).toUInt32.toUInt64

/-- mirrors crates/worldgen/src/structures.rs:164 (`ATTEMPT_SALT`) -/
def ATTEMPT_SALT : UInt64 := 0x517CC1B727220A95

/-- mirrors crates/worldgen/src/structures.rs:166 (`ORIGIN_SALT`) -/
def ORIGIN_SALT : UInt64 := 0xA07E1B5D3C9F2147

/-- mirrors crates/worldgen/src/structures.rs:170 (`PICK_SALT`) -/
def PICK_SALT : UInt64 := 0x2C1B3D4E5F607182

/-! ## The grid -/

/-- mirrors crates/worldgen/src/structures.rs:301-308 (`StructureGrid`) -/
structure StructureGrid where
  spacing : I32
  separation : I32
  maxAttempts : UInt32
  one_le_spacing : 1 ≤ spacing.val
  separation_nonneg : 0 ≤ separation.val
  separation_lt : separation.val < spacing.val
  one_le_maxAttempts : 1 ≤ maxAttempts.toNat

namespace StructureGrid

/-- The separation that `new` keeps. -/
def clampSeparation (spacing separation : I32) (h : 1 ≤ spacing.val) : I32 :=
  if separation.val < 0 then I32.zero
  else if separation.val ≥ spacing.val then ⟨spacing.val - 1, by have := spacing.property; omega⟩
  else separation

theorem clampSeparation_range {spacing : I32} (separation : I32) (h : 1 ≤ spacing.val) :
    0 ≤ (clampSeparation spacing separation h).val ∧ (clampSeparation spacing separation h).val < spacing.val := by
  unfold clampSeparation
  split
  · exact ⟨le_rfl, by rw [I32.zero_val]; omega⟩
  · split
    · dsimp only
      omega
    · omega

/-- mirrors crates/worldgen/src/structures.rs:318-337 (`StructureGrid::new`) -/
def new (spacingChunks separationChunks : I32) (maxAttempts : UInt32) : StructureGrid :=
  have hspacing : 1 ≤ (if spacingChunks.val < 1 then I32.one else spacingChunks).val := by
    split
    · exact le_rfl
    · omega
  have hseparation := clampSeparation_range separationChunks hspacing
  { spacing := if spacingChunks.val < 1 then I32.one else spacingChunks
    separation := clampSeparation (if spacingChunks.val < 1 then I32.one else spacingChunks) separationChunks hspacing
    maxAttempts := if maxAttempts < 1 then 1 else maxAttempts
    one_le_spacing := hspacing
    separation_nonneg := hseparation.1
    separation_lt := hseparation.2
    one_le_maxAttempts := by
      split
      · exact le_rfl
      · rename_i h
        simpa using Nat.le_of_not_lt fun hlt => h (UInt32.lt_iff_toNat_lt.2 hlt) }

/-- mirrors crates/worldgen/src/structures.rs:361-363 (`StructureGrid::drawable_chunks`) -/
def drawableChunks (grid : StructureGrid) : I32 :=
  ⟨grid.spacing.val - grid.separation.val, by
    have := grid.spacing.property
    have := grid.separation_nonneg
    have := grid.separation_lt
    omega⟩

theorem drawableChunks_pos (grid : StructureGrid) : 0 < grid.drawableChunks.val := by
  have := grid.separation_lt
  show 0 < grid.spacing.val - grid.separation.val
  omega

/-- `i32::div_euclid` by the spacing. -/
def axisCell (grid : StructureGrid) (i : I32) : I32 :=
  ⟨i.val / grid.spacing.val, by
    have hone := grid.one_le_spacing
    have := i.property
    refine ⟨(Int.le_ediv_iff_mul_le (by omega)).2 ?_, (Int.ediv_lt_iff_lt_mul (by omega)).2 ?_⟩ <;> nlinarith⟩

/-- mirrors crates/worldgen/src/structures.rs:370-375 (`StructureGrid::cell_of`) -/
def cellOf (grid : StructureGrid) (pos : ChunkPos) : ChunkPos := ⟨grid.axisCell pos.x, grid.axisCell pos.z⟩

/-- mirrors crates/worldgen/src/structures.rs:387-392 (`StructureGrid::corner_of`) -/
def cornerOf (grid : StructureGrid) (cell : ChunkPos) : ChunkPos :=
  ⟨I32.clamp (cell.x.val * grid.spacing.val), I32.clamp (cell.z.val * grid.spacing.val)⟩

/-- mirrors crates/worldgen/src/structures.rs:402-411 (`StructureGrid::origin_in_cell`) -/
def originInCell (grid : StructureGrid) (corner : ChunkPos) (draw : UInt64) : ChunkPos :=
  let span := grid.drawableChunks.val.toNat
  ⟨I32.clamp (corner.x.val + (draw.toNat % span : Nat)), I32.clamp (corner.z.val + (draw.toNat / span % span : Nat))⟩

/-- The corner of the cell is in the range of the coordinates, so `corner_of` computes it. -/
def Unsaturated (grid : StructureGrid) (cell : ChunkPos) : Prop :=
  (-2 ^ 31 ≤ cell.x.val * grid.spacing.val ∧ cell.x.val * grid.spacing.val < 2 ^ 31) ∧
    (-2 ^ 31 ≤ cell.z.val * grid.spacing.val ∧ cell.z.val * grid.spacing.val < 2 ^ 31)

/-- The position is among the first drawable chunks of the cell, on both axes. -/
def Within (grid : StructureGrid) (cell pos : ChunkPos) : Prop :=
  (cell.x.val * grid.spacing.val ≤ pos.x.val ∧
      pos.x.val < cell.x.val * grid.spacing.val + (grid.spacing.val - grid.separation.val)) ∧
    (cell.z.val * grid.spacing.val ≤ pos.z.val ∧
      pos.z.val < cell.z.val * grid.spacing.val + (grid.spacing.val - grid.separation.val))

/-- An offset below the span stays below it where the sum saturates. -/
theorem clamp_offset {corner span : Int} {n : Nat} (hlow : -2 ^ 31 ≤ corner) (hhigh : corner < 2 ^ 31)
    (hn : (n : Int) < span) :
    corner ≤ (I32.clamp ((I32.clamp corner).val + n)).val ∧ (I32.clamp ((I32.clamp corner).val + n)).val < corner + span := by
  rw [I32.clamp_of_mem hlow hhigh]
  show corner ≤ max _ _ ∧ max _ _ < corner + span
  omega

theorem originInCell_within (grid : StructureGrid) {cell : ChunkPos} (hcell : grid.Unsaturated cell) (draw : UInt64) :
    grid.Within cell (grid.originInCell (grid.cornerOf cell) draw) := by
  have hpos := grid.drawableChunks_pos
  have hoffset : ∀ n : Nat, ((n % grid.drawableChunks.val.toNat : Nat) : Int) < grid.spacing.val - grid.separation.val := by
    intro n
    have hlt : n % grid.drawableChunks.val.toNat < grid.drawableChunks.val.toNat := Nat.mod_lt _ (by omega)
    have hspan : grid.drawableChunks.val = grid.spacing.val - grid.separation.val := rfl
    omega
  exact ⟨clamp_offset hcell.1.1 hcell.1.2 (hoffset _), clamp_offset hcell.2.1 hcell.2.2 (hoffset _)⟩

end StructureGrid

/-! ## The set -/

/-- mirrors crates/worldgen/src/structures.rs:682-687 (`normalise_chance`) -/
def normaliseChance : Scalar → ℚ
  | .nan => 0
  | .negInf => 0
  | .posInf => 1
  | .finite q => max 0 (min q 1)

/-- mirrors crates/worldgen/src/structures.rs:702-705 (`unit_float`): the top 53 bits, which the
conversion keeps. -/
def unitFloat (mixed : UInt64) : ℚ := (mixed >>> 11).toNat / 2 ^ 53

section Names
variable {N : Type*} [LinearOrder N]

/-- mirrors crates/worldgen/src/structures.rs:433-437 (`StructureSet`); the names are ascending
and distinct, by a sort and a `dedup` or by the order of a `BTreeMap`. -/
structure StructureSet (N : Type*) [LinearOrder N] where
  grid : StructureGrid
  names : List N
  chance : ℚ
  sorted : names.Pairwise (· < ·)

/-- mirrors crates/worldgen/src/structures.rs:627-643 (`StructureSelection`) -/
structure StructureSelection (N : Type*) where
  name : N
  ordinal : Nat
  attempt : Nat
  cell : ChunkPos
  origin : ChunkPos
  chance : ℚ
  deriving DecidableEq

namespace StructureSet

theorem isChain_lt {names : List N} (hle : names.IsChain (· ≤ ·)) (hne : names.IsChain (· ≠ ·)) :
    names.IsChain (· < ·) := by
  induction names with
  | nil => exact .nil
  | cons a names ih =>
    cases names with
    | nil => exact .singleton a
    | cons b names =>
      rw [List.isChain_cons_cons] at hle hne ⊢
      exact ⟨lt_of_le_of_ne hle.1 hne.1, ih hle.2 hne.2⟩

/-- A sorted list without neighbours that are equal ascends. -/
theorem dedup_sorted (names : List N) :
    ((names.mergeSort (· ≤ ·)).destutter (· ≠ ·)).Pairwise (· < ·) := by
  have hle : ((names.mergeSort (· ≤ ·)).destutter (· ≠ ·)).Pairwise (· ≤ ·) :=
    (List.pairwise_mergeSort' (· ≤ ·) names).sublist (List.destutter_sublist _ _)
  have hne := List.isChain_destutter (· ≠ ·) (names.mergeSort (· ≤ ·))
  rw [← List.isChain_iff_pairwise] at hle ⊢
  exact isChain_lt hle hne

/-- mirrors crates/worldgen/src/structures.rs:469-482 (`StructureSet::with_names`) -/
def withNames (names : List N) (grid : StructureGrid) (chance : Scalar) : StructureSet N where
  grid := grid
  names := (names.mergeSort (· ≤ ·)).destutter (· ≠ ·)
  chance := normaliseChance chance
  sorted := dedup_sorted names

/-- mirrors crates/worldgen/src/structures.rs:709-713 (`names_ordinal`); the names are distinct, so
the binary search finds the only match. -/
def namesOrdinal (names : List N) (name : N) : Nat := (names.findIdx? (· = name)).getD 0

/-- mirrors crates/worldgen/src/structures.rs:541-545, the cell's own draw -/
def cellDraw (seed : Int64) (cell : ChunkPos) : UInt64 :=
  splitmix64Mix (seed.toUInt64 ^^^ ATTEMPT_SALT * 0x9E3779B97F4A7C15 ^^^ packChunkPos cell)

/-- mirrors crates/worldgen/src/structures.rs:583, the draw of an attempt -/
def attemptDraw (cellDraw : UInt64) (attempt : Nat) : UInt64 :=
  splitmix64Mix (cellDraw ^^^ ATTEMPT_SALT ^^^ (UInt64.ofNat attempt + 1))

/-- mirrors crates/worldgen/src/structures.rs:587, the draw of an attempt's origin -/
def originDraw (cellDraw : UInt64) (attempt : Nat) : UInt64 :=
  splitmix64Mix (attemptDraw cellDraw attempt ^^^ ORIGIN_SALT)

/-- mirrors crates/worldgen/src/structures.rs:574-608 (`StructureSet::evaluate_attempt`) -/
def evaluateAttempt (set : StructureSet N) (cellDraw : UInt64) (pos cell corner : ChunkPos) (attempt : Nat)
    (chance : ℚ) : Option (StructureSelection N) :=
  if unitFloat (attemptDraw cellDraw attempt) ≥ chance then none
  else
    let h2 := originDraw cellDraw attempt
    let h3 := splitmix64Mix (h2 ^^^ PICK_SALT)
    let origin := set.grid.originInCell corner h2
    if origin ≠ pos then none
    else do
      let name ← set.names[h3.toNat % set.names.length]?
      return { name := name, ordinal := namesOrdinal set.names name, attempt := attempt, cell := cell,
               origin := origin, chance := chance }

/-- mirrors crates/worldgen/src/structures.rs:551, the attempts of a cell -/
def attempts (grid : StructureGrid) (cellDraw : UInt64) : Nat := 1 + cellDraw.toNat % grid.maxAttempts.toNat

/-- mirrors crates/worldgen/src/structures.rs:524-567 (`StructureSet::select_for`) -/
def selectFor (set : StructureSet N) (seed : Int64) (pos : ChunkPos) (chance : Scalar) :
    Option (StructureSelection N) :=
  if set.names.isEmpty then none
  else if normaliseChance chance ≤ 0 then none
  else
    let cell := set.grid.cellOf pos
    let h0 := cellDraw seed cell
    (List.range (attempts set.grid h0)).findSome? fun attempt =>
      set.evaluateAttempt h0 pos cell (set.grid.cornerOf cell) attempt (normaliseChance chance)

/-- mirrors crates/worldgen/src/structures.rs:514-516 (`StructureSet::select`) -/
def select (set : StructureSet N) (seed : Int64) (pos : ChunkPos) : Option (StructureSelection N) :=
  set.selectFor seed pos (.finite set.chance)

/-! ## What one chunk decides -/

theorem attempts_le (grid : StructureGrid) (h0 : UInt64) : attempts grid h0 ≤ grid.maxAttempts.toNat := by
  have hpos := grid.one_le_maxAttempts
  have := Nat.mod_lt h0.toNat (y := grid.maxAttempts.toNat) (by omega)
  unfold attempts
  omega

theorem namesOrdinal_of_mem {names : List N} {name : N} (h : name ∈ names) :
    names[namesOrdinal names name]? = some name := by
  have hsome : (names.findIdx? (· = name)).isSome := by
    rw [List.findIdx?_isSome]
    exact List.any_eq_true.2 ⟨name, h, by simp⟩
  obtain ⟨i, hi⟩ := Option.isSome_iff_exists.1 hsome
  obtain ⟨hlt, hat, -⟩ := List.findIdx?_eq_some_iff_getElem.1 hi
  rw [namesOrdinal, hi, Option.getD_some, List.getElem?_eq_getElem hlt]
  exact congrArg some (by simpa using hat)

theorem evaluateAttempt_some {set : StructureSet N} {h0 : UInt64} {pos cell corner : ChunkPos} {attempt : Nat}
    {chance : ℚ} {selection : StructureSelection N}
    (h : set.evaluateAttempt h0 pos cell corner attempt chance = some selection) :
    set.grid.originInCell corner (originDraw h0 attempt) = pos ∧ selection.cell = cell ∧ selection.origin = pos ∧
      selection.attempt = attempt ∧ set.names[selection.ordinal]? = some selection.name := by
  unfold evaluateAttempt at h
  split at h
  · cases h
  dsimp only at h
  split at h
  · cases h
  · next horigin =>
    obtain ⟨name, hname, hret⟩ := Option.bind_eq_some_iff.1 h
    cases hret
    have heq := not_not.1 horigin
    exact ⟨heq, rfl, heq, rfl, namesOrdinal_of_mem (List.mem_of_getElem? hname)⟩

/-- A selection is the chunk its own attempt draws, and says so. -/
theorem selectFor_some {set : StructureSet N} {seed : Int64} {pos : ChunkPos} {chance : Scalar}
    {selection : StructureSelection N} (h : set.selectFor seed pos chance = some selection) :
    selection.attempt < attempts set.grid (cellDraw seed (set.grid.cellOf pos)) ∧
      set.grid.originInCell (set.grid.cornerOf (set.grid.cellOf pos))
        (originDraw (cellDraw seed (set.grid.cellOf pos)) selection.attempt) = pos ∧
      selection.cell = set.grid.cellOf pos ∧ selection.origin = pos ∧
      set.names[selection.ordinal]? = some selection.name := by
  unfold selectFor at h
  split at h
  · cases h
  split at h
  · cases h
  · obtain ⟨attempt, hmem, hattempt⟩ := List.exists_of_findSome?_eq_some h
    obtain ⟨horigin, hcell, hself, rfl, hname⟩ := evaluateAttempt_some hattempt
    exact ⟨List.mem_range.1 hmem, horigin, hcell, hself, hname⟩

theorem selected_within {set : StructureSet N} {seed : Int64} {pos : ChunkPos} {chance : Scalar}
    (hcell : set.grid.Unsaturated (set.grid.cellOf pos)) (h : (set.selectFor seed pos chance).isSome) :
    set.grid.Within (set.grid.cellOf pos) pos := by
  obtain ⟨selection, hselection⟩ := Option.isSome_iff_exists.1 h
  have hwithin := set.grid.originInCell_within hcell
    (originDraw (cellDraw seed (set.grid.cellOf pos)) selection.attempt)
  rwa [(selectFor_some hselection).2.1] at hwithin

/-! ## All chunks together -/

/-- The chunks of the cell that are selected. -/
def selected (set : StructureSet N) (seed : Int64) (chance : Scalar) (cell : ChunkPos) : Set ChunkPos :=
  {pos | set.grid.cellOf pos = cell ∧ (set.selectFor seed pos chance).isSome}

/-- The chunks of a cell that are selected are origins of the cell's attempts. -/
theorem selected_subset (set : StructureSet N) (seed : Int64) (chance : Scalar) (cell : ChunkPos) :
    set.selected seed chance cell ⊆ ((Finset.range (attempts set.grid (cellDraw seed cell))).image fun attempt =>
      set.grid.originInCell (set.grid.cornerOf cell) (originDraw (cellDraw seed cell) attempt) : Finset ChunkPos) := by
  rintro pos ⟨rfl, h⟩
  obtain ⟨selection, hselection⟩ := Option.isSome_iff_exists.1 h
  obtain ⟨hlt, horigin, -⟩ := selectFor_some hselection
  exact Finset.mem_coe.2 (Finset.mem_image.2 ⟨_, Finset.mem_range.2 hlt, horigin⟩)

theorem selected_encard_le (set : StructureSet N) (seed : Int64) (chance : Scalar) (cell : ChunkPos) :
    (set.selected seed chance cell).encard ≤ set.grid.maxAttempts.toNat := by
  refine (Set.encard_le_encard (set.selected_subset seed chance cell)).trans ?_
  rw [Set.encard_coe_eq_coe_finsetCard]
  exact_mod_cast Finset.card_image_le.trans ((Finset.card_range _).le.trans (attempts_le _ _))

end StructureSet

/-- Two positions at least `gap` apart on some axis. -/
def Apart (gap : Int) (a b : ChunkPos) : Prop := gap ≤ |a.x.val - b.x.val| ∨ gap ≤ |a.z.val - b.z.val|

/-- Along an axis, drawable chunks of different cells leave the separation between them. -/
theorem axis_apart {spacing separation c c' i i' : Int} (hsep : separation < spacing) (hne : c ≠ c')
    (h : c * spacing ≤ i ∧ i < c * spacing + (spacing - separation))
    (h' : c' * spacing ≤ i' ∧ i' < c' * spacing + (spacing - separation)) (hnonneg : 0 ≤ separation) :
    separation + 1 ≤ |i - i'| := by
  rcases lt_or_gt_of_ne hne with hlt | hlt
  · have : (c + 1) * spacing ≤ c' * spacing := mul_le_mul_of_nonneg_right hlt (by omega)
    rw [abs_sub_comm]
    refine le_trans ?_ (le_abs_self _)
    linarith
  · have : (c' + 1) * spacing ≤ c * spacing := mul_le_mul_of_nonneg_right hlt (by omega)
    refine le_trans ?_ (le_abs_self _)
    linarith

namespace StructureGrid

theorem Within.apart {grid : StructureGrid} {cell cell' pos pos' : ChunkPos} (hne : cell ≠ cell')
    (h : grid.Within cell pos) (h' : grid.Within cell' pos') : Apart (grid.separation.val + 1) pos pos' := by
  have hlt := grid.separation_lt
  have hnonneg := grid.separation_nonneg
  by_cases hx : cell.x.val = cell'.x.val
  · have hz : cell.z.val ≠ cell'.z.val := fun hz => hne <| by
      obtain ⟨x, z⟩ := cell
      obtain ⟨x', z'⟩ := cell'
      exact congrArg₂ ChunkPos.mk (Subtype.ext hx) (Subtype.ext hz)
    exact .inr (axis_apart hlt hz h.2 h'.2 hnonneg)
  · exact .inl (axis_apart hlt hx h.1 h'.1 hnonneg)

end StructureGrid

/-- Every chunk decides alone, yet at most `maxAttempts` chunks of a cell are selected. Where the
corners are in range they are among the first drawable chunks, each reported as itself, and those
of different cells keep the separation. -/
theorem structures_sparse (set : StructureSet N) (seed : Int64) (chance : Scalar) :
    (∀ cell, (set.selected seed chance cell).encard ≤ set.grid.maxAttempts.toNat) ∧
      (∀ pos selection, set.grid.Unsaturated (set.grid.cellOf pos) → set.selectFor seed pos chance = some selection →
        set.grid.Within (set.grid.cellOf pos) pos ∧ selection.cell = set.grid.cellOf pos ∧ selection.origin = pos ∧
          set.names[selection.ordinal]? = some selection.name) ∧
      ∀ pos pos', set.grid.Unsaturated (set.grid.cellOf pos) → set.grid.Unsaturated (set.grid.cellOf pos') →
        (set.selectFor seed pos chance).isSome → (set.selectFor seed pos' chance).isSome →
        set.grid.cellOf pos ≠ set.grid.cellOf pos' → Apart (set.grid.separation.val + 1) pos pos' := by
  refine ⟨fun cell => set.selected_encard_le seed chance cell, fun pos selection hcell h => ?_, ?_⟩
  · obtain ⟨-, -, hreported, horigin, hname⟩ := StructureSet.selectFor_some h
    exact ⟨StructureSet.selected_within hcell (Option.isSome_of_eq_some h), hreported, horigin, hname⟩
  · intro pos pos' hcell hcell' h h' hne
    exact StructureGrid.Within.apart hne (StructureSet.selected_within hcell h) (StructureSet.selected_within hcell' h')

end Names

/-- Four by four chunks, two attempts, one chunk of slack. -/
def hamlet : StructureSet ℕ := ⟨.new ⟨4, I32.four_mem⟩ .one 2, [7, 9], 1, by decide⟩

/-- West of the origin, in the cell `(-1, 0)`. -/
def hamletWest : ChunkPos := ⟨⟨-4, by decide⟩, ⟨2, by decide⟩⟩

/-- In the cell `(0, 0)`. -/
def hamletEast : ChunkPos := ⟨⟨2, by decide⟩, .zero⟩

theorem structures_sparse_hamlet :
    (hamlet.selected 3 (.finite 1) (hamlet.grid.cellOf hamletEast)).encard ≤ 2 ∧
      hamlet.grid.Within (hamlet.grid.cellOf hamletWest) hamletWest ∧ Apart 2 hamletWest hamletEast := by
  obtain ⟨hcount, hone, htwo⟩ := structures_sparse hamlet 3 (.finite 1)
  have hwest : hamlet.grid.Unsaturated (hamlet.grid.cellOf hamletWest) := by
    constructor <;> decide +kernel
  have heast : hamlet.grid.Unsaturated (hamlet.grid.cellOf hamletEast) := by
    constructor <;> decide +kernel
  have hsome : (hamlet.selectFor 3 hamletWest (.finite 1)).isSome := by decide +kernel
  have hselected := Option.eq_some_of_isSome hsome
  exact ⟨hcount _, (hone _ _ hwest hselected).1,
    htwo _ _ hwest heast hsome (by decide +kernel) (by decide +kernel)⟩

end Apoptosis.L2.Structures
