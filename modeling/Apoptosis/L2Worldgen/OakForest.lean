import Apoptosis.L2Worldgen.OakTree
/-!
# The trees of a chunk (`worldgen/src/features.rs`)

Every column of a chunk decides by draws of its own whether an oak stands on
its surface; the columns follow one another in one chunk, so an oak meets what
the oaks before it left.

* `treeSurface_above`: over a surface there is only air.
* `attempt_cases`: one column's turn.
* `grown_from`: a block that is neither log nor leaf is there from the start.
* `Populated`, `populate_spec`: what a pass over the columns does.
* `oaks_spare_iff`. As its documentation says it, it fails: `oak_takes_stone`.
-/
namespace Apoptosis.L2.Worldgen
open Apoptosis.Core Apoptosis.L2.Registry Apoptosis.L2.Storage Apoptosis.L2.Terrain

def BIOMES : List Biome := [.plains, .desert, .forest, .ocean, .mountains, .taiga]

/-- mirrors crates/worldgen/src/features.rs:218-232 (`TreeStats`) -/
structure TreeStats where
  columnsConsidered : Nat
  treesPlaced : Nat
  refusedStraddling : Nat
  refusedVertical : Nat
  blocksWritten : Nat
  deriving DecidableEq, Repr

/-- mirrors crates/worldgen/src/features.rs:526-530 (`is_plantable_top`) -/
def isPlantableTop (palette : BlockPalette) (id : Int) : Bool :=
  BIOMES.any fun biome => biome.hasTrees && palette.topOf biome = id

/-- The loop of `tree_surface`, from the top of the chunk down. -/
def topBlock (chunk : Chunk) (palette : BlockPalette) (blockX blockZ : I32) : Nat → Option I32
  | 0 => none
  | n + 1 =>
    if chunk.getBlock blockX.val (chunk.minY + n) blockZ.val ≠ palette.air then
      some (I32.clamp (chunk.minY + n))
    else topBlock chunk palette blockX blockZ n

/-- mirrors crates/worldgen/src/features.rs:495-523 (`tree_surface`) -/
def treeSurface (chunk : Chunk) (palette : BlockPalette) (blockX blockZ : I32) : Option I32 :=
  match topBlock chunk palette blockX blockZ (chunk.maxY - chunk.minY).toNat with
  | none => none
  | some surface =>
    let block := chunk.getBlock blockX.val surface.val blockZ.val
    if block = palette.water ∨ !isPlantableTop palette block then none
    else if (span 1 (MIN_TRUNK_HEIGHT + 1)).any fun offset =>
        chunk.maxY ≤ (I32.clamp (surface.val + offset)).val ||
          chunk.getBlock blockX.val (surface.val + offset) blockZ.val ≠ palette.air then none
    else if chunk.maxY ≤ (I32.clamp (surface.val + (MIN_TRUNK_HEIGHT + CANOPY_LAYERS + 1))).val then
      none
    else some surface

/-- What a column draws from its own source: `next_f64`, then `next_i32_inclusive`. -/
structure Draw where
  roll : ℚ
  trunkHeight : I32

/-- What a pass reads and does not write. Floats are exact, and a density is the chance it gives
each biome. -/
structure Orchard where
  registry : BlockRegistry
  palette : BlockPalette
  chancePerColumn : Biome → ℚ
  columnRandom : ChunkPos → I32 → I32 → Draw

/-- mirrors crates/worldgen/src/features.rs:337-381 (`attempt`) -/
def attempt (o : Orchard) (pos : ChunkPos) (biome : Biome) (state : TreeStats × Chunk)
    (blockX blockZ : I32) : TreeStats × Chunk :=
  let (stats, chunk) := state
  if !biome.hasTrees then (stats, chunk)
  else if o.chancePerColumn biome ≤ 0 then (stats, chunk)
  else
    let stats := { stats with columnsConsidered := stats.columnsConsidered + 1 }
    let random := o.columnRandom pos blockX blockZ
    if o.chancePerColumn biome ≤ random.roll then (stats, chunk)
    else match treeSurface chunk o.palette blockX blockZ with
    | none => (stats, chunk)
    | some surface =>
      match placeOakAt chunk o.registry o.palette blockX surface blockZ random.trunkHeight with
      | (.placed blocks, chunk) => ({ stats with
          treesPlaced := stats.treesPlaced + 1
          blocksWritten := stats.blocksWritten + blocks }, chunk)
      | (.refusedStraddling, chunk) =>
        ({ stats with refusedStraddling := stats.refusedStraddling + 1 }, chunk)
      | (.refusedVertical, chunk) =>
        ({ stats with refusedVertical := stats.refusedVertical + 1 }, chunk)

/-- The columns in the order of the loops. -/
def columns (pos : ChunkPos) : List (I32 × I32) :=
  let baseX := I32.clamp (pos.x * 16)
  let baseZ := I32.clamp (pos.z * 16)
  (span 0 16).flatMap fun localZ => (span 0 16).map fun localX =>
    (I32.clamp (baseX.val + localX), I32.clamp (baseZ.val + localZ))

/-- The loops over the columns, with the biome of each. -/
def populate (o : Orchard) (pos : ChunkPos) (biomeAt : I32 → I32 → Biome)
    (state : TreeStats × Chunk) (columns : List (I32 × I32)) : TreeStats × Chunk :=
  columns.foldl (fun state column =>
    attempt o pos (biomeAt column.1 column.2) state column.1 column.2) state

/-- mirrors crates/worldgen/src/features.rs:275-304 (`populate_oak_trees`) -/
def populateOakTrees (chunk : Chunk) (pos : ChunkPos) (biomes : I32 → I32 → I32 → Biome)
    (o : Orchard) (terrainHeight : I32 → I32 → I32) : TreeStats × Chunk :=
  populate o pos (fun x z => biomes x z (terrainHeight x z)) (⟨0, 0, 0, 0, 0⟩, chunk) (columns pos)

/-- mirrors crates/worldgen/src/features.rs:312-334 (`populate_oak_trees_flat`) -/
def populateOakTreesFlat (chunk : Chunk) (pos : ChunkPos) (biome : Biome) (o : Orchard) :
    TreeStats × Chunk :=
  populate o pos (fun _ _ => biome) (⟨0, 0, 0, 0, 0⟩, chunk) (columns pos)

/-! ## A surface and what is above it -/

variable {chunk : Chunk} {palette : BlockPalette} {blockX blockZ : I32}

theorem topBlock_above {n : Nat} {surface : I32} (hmax : chunk.minY + n < 2 ^ 31)
    (h : topBlock chunk palette blockX blockZ n = some surface) {y : Int} (hlow : surface.val < y)
    (hhigh : y < chunk.minY + n) :
    chunk.getBlock blockX.val y blockZ.val = palette.air := by
  induction n with
  | zero => exact nomatch h
  | succ n ih =>
    rw [topBlock] at h
    split at h
    · cases h
      have : chunk.minY + n ≤ (I32.clamp (chunk.minY + n)).val := by
        simp only [I32.clamp]
        omega
      omega
    · next hair =>
      by_cases htop : y = chunk.minY + n
      · rw [htop]
        exact not_not.mp hair
      · exact ih (by omega) h (by omega)

theorem treeSurface_above (hmax : chunk.maxY < 2 ^ 31) {surface : I32}
    (h : treeSurface chunk palette blockX blockZ = some surface) {y : Int} (hlow : surface.val < y)
    (hmin : chunk.minY ≤ y) (hhigh : y < chunk.maxY) :
    chunk.idAt blockX.val y blockZ.val = some palette.air := by
  unfold treeSurface at h
  split at h
  · cases h
  next top htop =>
  have hsurface : surface = top := by
    dsimp only at h
    split at h
    · cases h
    split at h
    · cases h
    split at h
    · cases h
    · exact (Option.some.inj h).symm
  subst hsurface
  have hair := topBlock_above (by omega) htop hlow (by omega)
  obtain ⟨id, hid⟩ := Option.isSome_iff_exists.mp
    ((Chunk.idAt_isSome_iff (x := blockX.val) (z := blockZ.val)).mpr ⟨hmin, hhigh⟩)
  rw [Chunk.getBlock_eq, hid, Option.getD_some] at hair
  rw [hid, hair]

/-! ## One column -/

/-- The oak a column grows in a chunk as it stands. -/
def Orchard.grows (o : Orchard) (pos : ChunkPos) (biome : Biome) (chunk : Chunk)
    (blockX blockZ : I32) : Option Oak :=
  if biome.hasTrees ∧ 0 < o.chancePerColumn biome ∧
      (o.columnRandom pos blockX blockZ).roll < o.chancePerColumn biome then
    (treeSurface chunk o.palette blockX blockZ).map fun surface =>
      oakAt blockX surface blockZ (o.columnRandom pos blockX blockZ).trunkHeight
  else none

variable {o : Orchard} {pos : ChunkPos} {biome : Biome} {state : TreeStats × Chunk}

theorem changed_self (chunk : Chunk) : (Chunk.changed chunk chunk).ncard = 0 := by
  have hnone : Chunk.changed chunk chunk = ∅ := by
    ext c
    exact ⟨fun h => h.2.2 rfl, nofun⟩
  rw [hnone, Set.ncard_empty]

/-- A column grows its oak, or leaves the chunk as it is; it counts the cells it changes. -/
theorem attempt_cases (hmax : state.2.maxY < 2 ^ 31) (blockX blockZ : I32) :
    let result := attempt o pos biome state blockX blockZ
    result.1.blocksWritten = state.1.blocksWritten + (Chunk.changed state.2 result.2).ncard ∧
      ((∃ oak, o.grows pos biome state.2 blockX blockZ = some oak ∧ oak.Fits state.2 ∧
          oak.Stands o.palette state.2 result.2) ∨
        (∀ oak, o.grows pos biome state.2 blockX blockZ = some oak → ¬oak.Fits state.2) ∧
          result.2 = state.2) := by
  intro result
  obtain ⟨stats, chunk⟩ := state
  -- a turn without an oak
  have hidle (hnone : o.grows pos biome chunk blockX blockZ = none) (hchunk : result.2 = chunk)
      (hcount : result.1.blocksWritten = stats.blocksWritten) :
      result.1.blocksWritten = stats.blocksWritten + (Chunk.changed chunk result.2).ncard ∧
        ((∃ oak, o.grows pos biome chunk blockX blockZ = some oak ∧ oak.Fits chunk ∧
            oak.Stands o.palette chunk result.2) ∨
          (∀ oak, o.grows pos biome chunk blockX blockZ = some oak → ¬oak.Fits chunk) ∧
            result.2 = chunk) := by
    rw [hchunk, changed_self, hnone]
    exact ⟨hcount, .inr ⟨nofun, rfl⟩⟩
  by_cases htrees : biome.hasTrees
  case neg =>
    have hresult : result = (stats, chunk) := if_pos (by simpa using htrees)
    exact hidle (if_neg fun h => htrees h.1) (by rw [hresult]) (by rw [hresult])
  by_cases hchance : o.chancePerColumn biome ≤ 0
  case pos =>
    have hresult : result = (stats, chunk) :=
      (if_neg (by simpa using htrees)).trans (if_pos hchance)
    exact hidle (if_neg fun h => absurd h.2.1 (not_lt.mpr hchance)) (by rw [hresult])
      (by rw [hresult])
  by_cases hroll : o.chancePerColumn biome ≤ (o.columnRandom pos blockX blockZ).roll
  case pos =>
    have hresult : result = ({ stats with columnsConsidered := stats.columnsConsidered + 1 }, chunk) :=
      (if_neg (by simpa using htrees)).trans ((if_neg hchance).trans (if_pos hroll))
    exact hidle (if_neg fun h => absurd h.2.2 (not_lt.mpr hroll)) (by rw [hresult])
      (by rw [hresult])
  have hgrows : o.grows pos biome chunk blockX blockZ =
      (treeSurface chunk o.palette blockX blockZ).map fun surface =>
        oakAt blockX surface blockZ (o.columnRandom pos blockX blockZ).trunkHeight :=
    if_pos ⟨htrees, not_le.mp hchance, not_le.mp hroll⟩
  have hresult : result = _ :=
    (if_neg (by simpa using htrees)).trans ((if_neg hchance).trans (if_neg hroll))
  cases hsurface : treeSurface chunk o.palette blockX blockZ with
  | none =>
    rw [hsurface] at hresult hgrows
    exact hidle hgrows (by rw [hresult]) (by rw [hresult])
  | some surface =>
    rw [hsurface] at hresult hgrows
    dsimp only at hresult
    by_cases hfits : (oakAt blockX surface blockZ
        (o.columnRandom pos blockX blockZ).trunkHeight).Fits chunk
    · obtain ⟨hplaced, hstands⟩ := @placeOakAt_stands _ o.palette o.registry _ _ _ _ hmax hfits
      generalize placeOakAt chunk o.registry o.palette blockX surface blockZ
        (o.columnRandom pos blockX blockZ).trunkHeight = placed at *
      obtain ⟨placement, chunk'⟩ := placed
      dsimp only at hplaced hstands
      rw [hplaced] at hresult
      dsimp only at hresult
      rw [hresult]
      exact ⟨rfl, .inl ⟨_, hgrows, hfits, hstands⟩⟩
    · obtain ⟨hchunk, hrefused⟩ := @placeOakAt_refused _ o.palette o.registry _ _ _ _ hmax hfits
      generalize placeOakAt chunk o.registry o.palette blockX surface blockZ
        (o.columnRandom pos blockX blockZ).trunkHeight = placed at *
      obtain ⟨placement, chunk'⟩ := placed
      dsimp only at hchunk hrefused
      subst hchunk
      have hnone : ∀ oak, o.grows pos biome chunk' blockX blockZ = some oak → ¬oak.Fits chunk' := by
        intro oak hoak
        rw [hgrows, Option.map_some] at hoak
        exact Option.some.inj hoak ▸ hfits
      cases placement with
      | placed blocks => exact absurd rfl (hrefused blocks)
      | refusedStraddling =>
        rw [hresult]
        exact ⟨by rw [changed_self]; rfl, .inr ⟨hnone, rfl⟩⟩
      | refusedVertical =>
        rw [hresult]
        exact ⟨by rw [changed_self]; rfl, .inr ⟨hnone, rfl⟩⟩

/-! ## A pass over the columns -/

/-- A column's oak finds only air, leaves and oak logs in its canopy. -/
def Orchard.Harmless (o : Orchard) (pos : ChunkPos) (biome : Biome) (chunk : Chunk)
    (column : I32 × I32) : Prop :=
  ∀ oak, o.grows pos biome chunk column.1 column.2 = some oak → oak.Fits chunk →
    ∀ c ∈ oak.canopy, ∀ id, chunk.idAt c.1 c.2.1 c.2.2 = some id →
      isFree o.registry id ∨ id = o.palette.oakLog

theorem grows_eq_some {oak : Oak} (h : o.grows pos biome chunk blockX blockZ = some oak) :
    ∃ surface, treeSurface chunk o.palette blockX blockZ = some surface ∧
      oak = oakAt blockX surface blockZ (o.columnRandom pos blockX blockZ).trunkHeight := by
  unfold Orchard.grows at h
  split at h
  · obtain ⟨surface, hsurface, rfl⟩ := Option.map_eq_some_iff.mp h
    exact ⟨surface, hsurface, rfl⟩
  · exact nomatch h

/-- The trunk of an oak that a column grows is all air. -/
theorem grows_trunk {oak : Oak} (hmax : chunk.maxY < 2 ^ 31)
    (hgrows : o.grows pos biome chunk blockX blockZ = some oak) (hfits : oak.Fits chunk)
    {c : Int × Int × Int} (hc : c ∈ oak.trunk) :
    chunk.idAt c.1 c.2.1 c.2.2 = some o.palette.air := by
  obtain ⟨surface, hsurface, rfl⟩ := grows_eq_some hgrows
  have hcell := hfits.cell oakAt_height (List.mem_append_left _ hc)
  obtain ⟨hx, hy, hz⟩ := Oak.mem_trunk.mp hc
  rw [hx, hz]
  exact treeSurface_above hmax hsurface hy.1 hcell.2.2.1 hcell.2.2.2

/-- A block of the chunk after an oak is the oak's, or was there before. -/
theorem Oak.Stands.kept {oak : Oak} {chunk' : Chunk} (h : oak.Stands palette chunk chunk')
    {x y z id : Int} (hid : chunk'.idAt x y z = some id) :
    id = palette.oakLog ∨ id = palette.oakLeaves ∨ chunk.idAt x y z = some id := by
  by_cases hnone : ∀ c ∈ oak.trunk ++ oak.canopy, ¬Chunk.SameCell c.1 c.2.1 c.2.2 x y z
  · exact .inr (.inr ((h.others x y z hnone).symm.trans hid))
  push Not at hnone
  obtain ⟨c, hc, hcell⟩ := hnone
  rw [sameCell_idAt hcell] at hid
  rcases List.mem_append.mp hc with hc | hc
  · rw [h.trunk c hc] at hid
    exact .inl (Option.some.inj hid).symm
  · rw [h.canopy c hc] at hid
    obtain ⟨old, -, hold⟩ := Option.map_eq_some_iff.mp hid
    split at hold
    · exact .inl hold.symm
    · exact .inr (.inl hold.symm)

theorem attempt_kept (hmax : state.2.maxY < 2 ^ 31) (blockX blockZ : I32) :
    let result := attempt o pos biome state blockX blockZ
    Chunk.SameShape state.2 result.2 ∧ ∀ x y z id, result.2.idAt x y z = some id →
      id = o.palette.oakLog ∨ id = o.palette.oakLeaves ∨ state.2.idAt x y z = some id := by
  intro result
  obtain ⟨-, ⟨oak, -, -, hstands⟩ | ⟨-, hsame⟩⟩ := @attempt_cases o pos biome _ hmax blockX blockZ
  · exact ⟨hstands.shape, fun x y z id hid => hstands.kept hid⟩
  · rw [show result.2 = state.2 from hsame]
    exact ⟨.refl _, fun x y z id hid => .inr (.inr hid)⟩

variable {biomeAt : I32 → I32 → Biome}

/-- A block that is neither log nor leaf is there from the start. -/
theorem grown_from (hmax : state.2.maxY < 2 ^ 31) (cols : List (I32 × I32)) :
    let result := populate o pos biomeAt state cols
    Chunk.SameShape state.2 result.2 ∧ ∀ x y z id, result.2.idAt x y z = some id →
      id = o.palette.oakLog ∨ id = o.palette.oakLeaves ∨ state.2.idAt x y z = some id := by
  induction cols generalizing state with
  | nil => exact ⟨.refl _, fun x y z id hid => .inr (.inr hid)⟩
  | cons column cols ih =>
    obtain ⟨hshape, hkept⟩ := @attempt_kept o pos (biomeAt column.1 column.2) _ hmax column.1 column.2
    obtain ⟨hshape', hkept'⟩ := @ih (attempt o pos (biomeAt column.1 column.2) state
      column.1 column.2) (by rw [hshape.maxY]; exact hmax)
    refine ⟨hshape.trans hshape', fun x y z id hid => ?_⟩
    rcases hkept' x y z id hid with hlog | hleaves | hbefore
    · exact .inl hlog
    · exact .inr (.inl hleaves)
    · exact hkept x y z id hbefore

/-- A turn spares what is there exactly when it is harmless. -/
theorem attempt_spares_iff (hmax : state.2.maxY < 2 ^ 31) (hair : isFree o.registry o.palette.air)
    (hleaves : isFree o.registry o.palette.oakLeaves) (column : I32 × I32) :
    Spares o.registry state.2 (attempt o pos biome state column.1 column.2).2 ↔
      o.Harmless pos biome state.2 column := by
  obtain ⟨-, ⟨oak, hgrows, hfits, hstands⟩ | ⟨hnone, hsame⟩⟩ := @attempt_cases o pos biome _ hmax column.1 column.2
  · rw [hstands.spares_iff]
    constructor
    · intro hclear oak' hoak' _ c hc id hid
      cases hgrows.symm.trans hoak'
      rcases hclear.canopy c hc id hid with hfree | hlog | rfl
      · exact .inl hfree
      · exact .inr hlog
      · exact .inl hleaves
    · intro hharmless
      refine ⟨fun c hc id hid => ?_, fun c hc id hid => ?_⟩
      · rw [grows_trunk hmax hgrows hfits hc] at hid
        exact .inl (Option.some.inj hid ▸ hair)
      · rcases hharmless oak hgrows hfits c hc id hid with hfree | hlog
        · exact .inl hfree
        · exact .inr (.inl hlog)
  · rw [hsame]
    refine iff_of_true (fun x y z id hid hne => absurd hid hne) ?_
    exact fun oak hoak hfits => absurd hfits (hnone oak hoak)

theorem populate_append (before after : List (I32 × I32)) :
    populate o pos biomeAt state (before ++ after) =
      populate o pos biomeAt (populate o pos biomeAt state before) after := List.foldl_append

/-- A pass spares what is there exactly when every turn is harmless where it stands. -/
theorem populate_spares_iff (hmax : state.2.maxY < 2 ^ 31)
    (hair : isFree o.registry o.palette.air) (hleaves : isFree o.registry o.palette.oakLeaves)
    (cols : List (I32 × I32)) :
    Spares o.registry state.2 (populate o pos biomeAt state cols).2 ↔
      ∀ before column after, cols = before ++ column :: after →
        o.Harmless pos (biomeAt column.1 column.2) (populate o pos biomeAt state before).2 column := by
  constructor
  · intro hspares before column after hsplit oak hgrows hfits c hc id hid
    obtain ⟨hshape, hkept⟩ := @grown_from o pos _ biomeAt hmax before
    have hmax' : (populate o pos biomeAt state before).2.maxY < 2 ^ 31 := by
      rw [hshape.maxY]
      exact hmax
    obtain ⟨-, ⟨oak', hgrows', -, hstands⟩ | ⟨hnone, -⟩⟩ :=
      @attempt_cases o pos (biomeAt column.1 column.2) _ hmax' column.1 column.2
    case inr => exact absurd hfits (hnone oak hgrows)
    cases hgrows.symm.trans hgrows'
    by_cases hlog : id = o.palette.oakLog
    · exact .inr hlog
    by_cases hleaf : id = o.palette.oakLeaves
    · exact .inl (hleaf ▸ hleaves)
    -- what is neither log nor leaf was there from the start, and never comes back
    have hfirst := ((hkept _ _ _ id hid).resolve_left hlog).resolve_left hleaf
    refine .inl (hspares _ _ _ id hfirst fun hlast => ?_)
    obtain ⟨-, hkept'⟩ := @grown_from o pos (attempt o pos (biomeAt column.1 column.2) (populate o pos biomeAt state before)
        column.1 column.2) biomeAt (by rw [hstands.shape.maxY]; exact hmax') after
    rw [hsplit, populate_append] at hlast
    have hthen := ((hkept' _ _ _ id hlast).resolve_left hlog).resolve_left hleaf
    rw [hstands.canopy c hc, hid, Option.map_some, if_neg hlog] at hthen
    exact hleaf (Option.some.inj hthen).symm
  · intro hharmless
    induction cols using List.reverseRecOn with
    | nil => exact fun x y z id hid hne => absurd hid hne
    | append_singleton cols column ih =>
      have hbefore := ih fun before column' after hsplit =>
        hharmless before column' (after ++ [column]) (by rw [hsplit]; simp)
      obtain ⟨hshape, -⟩ := @grown_from o pos _ biomeAt hmax cols
      have hturn := (@attempt_spares_iff _ pos (biomeAt column.1 column.2) _
        (by rw [hshape.maxY]; exact hmax) hair hleaves column).mpr (hharmless cols column [] rfl)
      rw [populate_append]
      intro x y z id hid hne
      by_cases hthen : (populate o pos biomeAt state cols).2.idAt x y z = some id
      · exact hturn x y z id hthen hne
      · exact hbefore x y z id hid hthen

theorem columns_own {column : I32 × I32} (h : column ∈ columns pos) :
    (-2 ^ 27 ≤ pos.x ∧ pos.x < 2 ^ 27 → column.1.val / 16 = pos.x) ∧
      (-2 ^ 27 ≤ pos.z ∧ pos.z < 2 ^ 27 → column.2.val / 16 = pos.z) := by
  obtain ⟨localZ, hz, h⟩ := List.mem_flatMap.mp h
  obtain ⟨localX, hx, rfl⟩ := List.mem_map.mp h
  rw [mem_span] at hx hz
  dsimp only [I32.clamp]
  omega

/-- What a pass does, turn by turn, and when it spares what is there. -/
structure Populated (o : Orchard) (pos : ChunkPos) (biomeAt : I32 → I32 → Biome) (chunk : Chunk)
    (result : TreeStats × Chunk) : Prop where
  counted : ∀ before column after, columns pos = before ++ column :: after →
    let state := populate o pos biomeAt (⟨0, 0, 0, 0, 0⟩, chunk) before
    let state' := populate o pos biomeAt (⟨0, 0, 0, 0, 0⟩, chunk) (before ++ [column])
    state'.1.blocksWritten = state.1.blocksWritten + (Chunk.changed state.2 state'.2).ncard
  turns : ∀ before column after, columns pos = before ++ column :: after →
    let state := populate o pos biomeAt (⟨0, 0, 0, 0, 0⟩, chunk) before
    let state' := populate o pos biomeAt (⟨0, 0, 0, 0, 0⟩, chunk) (before ++ [column])
    state'.2 = state.2 ∨ ∃ oak : Oak, oak.Fits state.2 ∧ oak.Stands o.palette state.2 state'.2 ∧
      ∀ c ∈ oak.trunk ++ oak.canopy, (-2 ^ 27 ≤ pos.x ∧ pos.x < 2 ^ 27 → c.1 / 16 = pos.x) ∧
        (-2 ^ 27 ≤ pos.z ∧ pos.z < 2 ^ 27 → c.2.2 / 16 = pos.z)
  spares : Spares o.registry chunk result.2 ↔
    ∀ before column after, columns pos = before ++ column :: after →
      o.Harmless pos (biomeAt column.1 column.2)
        (populate o pos biomeAt (⟨0, 0, 0, 0, 0⟩, chunk) before).2 column

theorem populate_spec (hmax : chunk.maxY < 2 ^ 31) (hair : isFree o.registry o.palette.air)
    (hleaves : isFree o.registry o.palette.oakLeaves) :
    Populated o pos biomeAt chunk
      (populate o pos biomeAt (⟨0, 0, 0, 0, 0⟩, chunk) (columns pos)) := by
  have hshape (before : List (I32 × I32)) :
      (populate o pos biomeAt (⟨0, 0, 0, 0, 0⟩, chunk) before).2.maxY < 2 ^ 31 := by
    rw [(@grown_from o pos (⟨0, 0, 0, 0, 0⟩, chunk) biomeAt hmax before).1.maxY]
    exact hmax
  refine ⟨fun before column after hsplit => ?_, fun before column after hsplit => ?_,
    @populate_spares_iff _ _ (⟨0, 0, 0, 0, 0⟩, chunk) _ hmax hair hleaves _⟩
  · rw [populate_append]
    exact (attempt_cases (hshape before) column.1 column.2).1
  · dsimp only
    rw [populate_append]
    obtain ⟨-, ⟨oak, hgrows, hfits, hstands⟩ | ⟨-, hsame⟩⟩ :=
      @attempt_cases o pos (biomeAt column.1 column.2) _ (hshape before) column.1 column.2
    · refine .inr ⟨oak, hfits, hstands, fun c hc => ?_⟩
      obtain ⟨surface, -, rfl⟩ := grows_eq_some hgrows
      obtain ⟨hx, hz, -⟩ := hfits.cell oakAt_height hc
      have hown := @columns_own pos column
        (hsplit ▸ List.mem_append_right _ (List.mem_cons_self ..))
      exact ⟨fun h => hx.trans (hown.1 h), fun h => hz.trans (hown.2 h)⟩
    · exact .inl hsame

/-! ## Both ways to plant -/

/-- An oak takes only air and leaves exactly when its cells are clear of anything else. -/
theorem oaks_spare_iff (hmax : chunk.maxY < 2 ^ 31) (hair : isFree o.registry o.palette.air)
    (hleaves : isFree o.registry o.palette.oakLeaves) :
    (∀ blockX surfaceY blockZ trunkHeight : I32,
      let oak := oakAt blockX surfaceY blockZ trunkHeight
      let result := placeOakAt chunk o.registry o.palette blockX surfaceY blockZ trunkHeight
      (¬oak.Fits chunk → result.2 = chunk ∧ ∀ blocks, result.1 ≠ .placed blocks) ∧
      (oak.Fits chunk → result.1 = .placed (Chunk.changed chunk result.2).ncard ∧
        oak.Stands o.palette chunk result.2) ∧
      (Spares o.registry chunk result.2 ↔
        (oak.Fits chunk → oak.Clear o.registry o.palette chunk))) ∧
    (∀ biomes terrainHeight, Populated o pos (fun x z => biomes x z (terrainHeight x z)) chunk
      (populateOakTrees chunk pos biomes o terrainHeight)) ∧
    ∀ biome, Populated o pos (fun _ _ => biome) chunk (populateOakTreesFlat chunk pos biome o) := by
  refine ⟨fun blockX surfaceY blockZ trunkHeight => ?_, fun biomes terrainHeight =>
    populate_spec hmax hair hleaves, fun biome => populate_spec hmax hair hleaves⟩
  intro oak result
  by_cases hfits : oak.Fits chunk
  · obtain ⟨hplaced, hstands⟩ := @placeOakAt_stands _ o.palette o.registry _ _ _ _
      hmax hfits
    refine ⟨fun hnot => absurd hfits hnot, fun _ => ⟨hplaced, hstands⟩, ?_⟩
    rw [hstands.spares_iff]
    exact ⟨fun hclear _ => hclear, fun h => h hfits⟩
  · have hrefused := @placeOakAt_refused _ o.palette o.registry _ _ _ _ hmax hfits
    refine ⟨fun _ => hrefused, fun h => absurd h hfits, ?_⟩
    rw [show result.2 = chunk from hrefused.1]
    exact iff_of_true (fun x y z id hid hne => absurd hid hne) fun h => absurd h hfits

/-- Grass under the trunk at 8, 0, 8, and a stone of a slope beside the canopy. -/
def slope : Chunk where
  pos := ⟨0, 0⟩
  sections := [⟨0, ((List.replicate 4096 0).set 136 4).set 1417 1, 2, none, none,
    by rw [List.length_set, List.length_set, List.length_replicate]⟩, .air 1 0]
  minSectionY := 0
  status := "minecraft:full"
  dataVersion := 4790
  lastUpdate := 0
  inhabitedTime := 0
  lightCorrect := false
  dirty := true
  extra := []

/-- A forest in which every column plants. -/
def grove : Orchard where
  registry := ⟨fun _ => none, ["minecraft:air".toList, "minecraft:stone".toList,
    "minecraft:oak_log".toList, "minecraft:oak_leaves".toList, "minecraft:grass_block".toList,
    "minecraft:water".toList], 0, [0]⟩
  palette := ⟨0, 5, 2, 3, fun _ => 4⟩
  chancePerColumn := fun _ => 1
  columnRandom := fun _ _ _ => ⟨0, ⟨4, Core.I32.four_mem⟩⟩

theorem oaks_spare_iff_slope : slope.maxY < 2 ^ 31 ∧
    isFree grove.registry grove.palette.air ∧ isFree grove.registry grove.palette.oakLeaves ∧
    Populated grove ⟨0, 0⟩ (fun _ _ => .forest) slope
      (populateOakTreesFlat slope ⟨0, 0⟩ .forest grove) :=
  ⟨by decide, by decide +kernel, by decide +kernel,
    (oaks_spare_iff (by decide) (by decide +kernel) (by decide +kernel)).2.2 .forest⟩

/-- The canopy takes the stone. -/
theorem oak_takes_stone : slope.maxY < 2 ^ 31 ∧ isFree grove.registry grove.palette.air ∧
    isFree grove.registry grove.palette.oakLeaves ∧
    ¬Spares grove.registry slope
      (placeOakAt slope grove.registry grove.palette ⟨8, by decide⟩ ⟨0, by decide⟩ ⟨8, by decide⟩
        ⟨4, by decide⟩).2 := by
  refine ⟨by decide, by decide +kernel, by decide +kernel, fun hspares => ?_⟩
  have hfits : (oakAt ⟨8, by decide⟩ ⟨0, by decide⟩ ⟨8, by decide⟩ ⟨4, by decide⟩).Fits slope := by
    decide
  have hstands := (@placeOakAt_stands _ grove.palette grove.registry _ _ _ _
    (by decide) hfits).2
  have hstone : slope.idAt 9 5 8 = some 1 := by decide +kernel
  have hfree := (hstands.spares_iff.mp hspares).canopy (9, 5, 8) (by decide) 1 hstone
  revert hfree
  decide +kernel

end Apoptosis.L2.Worldgen
