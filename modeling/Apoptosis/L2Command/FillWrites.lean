import Apoptosis.L2Command.Fill
/-!
# What `/fill` writes

The region and its bounds, one cell, the loop over the cells and the command.

* `fillVolume_eq_some_iff`: when the volume is computed without leaving its types.
* `fillLoop_spans`: over cells that have room, each is written once and the changes are counted.
* `run_spec`: an accepted region is written up to the first cell without room.
* `command_fill_iff`: when a fill refuses with nothing changed or fills its region; `fill_breaks`:
  two that do neither.
-/
namespace Apoptosis.L2.Commands

open Apoptosis.Core
open Apoptosis.L2.Registry (BlockRegistry)
open Apoptosis.L2.Storage (ResourceId ChunkPos)
open Apoptosis.L2.Terrain (Chunk ChunkSource Game World chunkOf)
open Apoptosis.L2.Terrain.Game (SameSize)

/-! ## Arithmetic -/

theorem fits_eq_some_iff {bits : Nat} {value result : Int} : fits bits value = some result ↔
    (-2 ^ (bits - 1) ≤ value ∧ value < 2 ^ (bits - 1)) ∧ value = result := by
  unfold fits
  split_ifs with h
  · rw [Option.some.injEq, and_iff_right h]
  · exact iff_of_false nofun fun hboth => h hboth.1

theorem extent_eq {min max : Int} (h : min ≤ max) : extent min max = fits 32 (max - min + 1) := by
  refine Option.ext fun result => ?_
  simp only [extent, Option.bind_eq_bind, Option.bind_eq_some_iff, fits_eq_some_iff]
  constructor
  · rintro ⟨difference, ⟨-, rfl⟩, hfits⟩
    exact hfits
  · intro hfits
    exact ⟨max - min, ⟨by omega, rfl⟩, hfits⟩

namespace FillTarget
variable (t : FillTarget)

def width : Int := t.maxX.val - t.minX.val + 1
def height : Int := t.maxY.val - t.minY.val + 1
def depth : Int := t.maxZ.val - t.minZ.val + 1

def volume : Int := t.width * t.height * t.depth

def span : Int :=
  (t.maxX.val / 16 - t.minX.val / 16 + 1) * (t.maxZ.val / 16 - t.minZ.val / 16 + 1)

/-- The extents are `i32`s and their product is an `i64`. -/
structure Fits : Prop where
  width : t.width < 2 ^ 31
  height : t.height < 2 ^ 31
  depth : t.depth < 2 ^ 31
  volume : t.volume < 2 ^ 63

theorem width_pos : 0 < t.width := by
  have := t.orderedX
  unfold width
  omega

theorem height_pos : 0 < t.height := by
  have := t.orderedY
  unfold height
  omega

theorem depth_pos : 0 < t.depth := by
  have := t.orderedZ
  unfold depth
  omega

theorem volume_pos : 0 < t.volume := mul_pos (mul_pos t.width_pos t.height_pos) t.depth_pos

theorem side_lt {a b : Int} (ha : a < 2 ^ 31) (hb : 0 < b) (hb' : b < 2 ^ 31) : a * b < 2 ^ 62 := by
  have hlt : a * b < 2 ^ 31 * 2 ^ 31 := mul_lt_mul ha hb'.le hb (by norm_num)
  exact hlt.trans_eq (by norm_num)

theorem fillVolume_eq_some_iff {volume : Int} :
    fillVolume t.minX.val t.maxX.val t.minY.val t.maxY.val t.minZ.val t.maxZ.val = some volume ↔
      t.Fits ∧ t.volume = volume := by
  have hwidth := t.width_pos
  have hheight := t.height_pos
  have hdepth := t.depth_pos
  have hvolume := t.volume_pos
  unfold fillVolume
  rw [extent_eq t.orderedX, extent_eq t.orderedY, extent_eq t.orderedZ]
  simp only [Option.bind_eq_bind, Option.bind_eq_some_iff, fits_eq_some_iff]
  constructor
  · rintro ⟨_, ⟨hw, rfl⟩, _, ⟨hh, rfl⟩, _, ⟨hd, rfl⟩, _, ⟨-, rfl⟩, hv, rfl⟩
    exact ⟨⟨hw.2, hh.2, hd.2, hv.2⟩, rfl⟩
  · rintro ⟨hfits, rfl⟩
    have hside : t.width * t.height < 2 ^ 62 := side_lt hfits.width t.height_pos hfits.height
    have hpos : 0 < t.width * t.height := mul_pos t.width_pos t.height_pos
    refine ⟨_, ⟨⟨?_, hfits.width⟩, rfl⟩, _, ⟨⟨?_, hfits.height⟩, rfl⟩, _, ⟨⟨?_, hfits.depth⟩, rfl⟩, _,
      ⟨⟨?_, ?_⟩, rfl⟩, ⟨?_, hfits.volume⟩, rfl⟩
    all_goals simp only [width, height, depth, volume] at *
    all_goals omega

theorem fillChunkSpan_eq :
    fillChunkSpan t.minX.val t.maxX.val t.minZ.val t.maxZ.val = some t.span := by
  have hx := t.minX.property
  have hx' := t.maxX.property
  have hz := t.minZ.property
  have hz' := t.maxZ.property
  have hordered := t.orderedX
  have hordered' := t.orderedZ
  have hside := side_lt (a := t.maxX.val / 16 - t.minX.val / 16 + 1)
    (b := t.maxZ.val / 16 - t.minZ.val / 16 + 1) (by omega) (by omega) (by omega)
  have hpos : 0 < t.span := mul_pos (by omega) (by omega)
  unfold fillChunkSpan
  rw [extent_eq (by omega), extent_eq (by omega)]
  simp only [Option.bind_eq_bind, Option.bind_eq_some_iff, fits_eq_some_iff]
  refine ⟨_, ⟨⟨by omega, by omega⟩, rfl⟩, _, ⟨⟨by omega, by omega⟩, rfl⟩, ⟨?_, ?_⟩, rfl⟩
  · unfold span at hpos
    omega
  · omega

/-! ## The cells -/

theorem mem_inclusive {min max i : Int} : i ∈ inclusive min max ↔ min ≤ i ∧ i ≤ max := by
  simp only [inclusive, List.mem_map, List.mem_range]
  constructor
  · rintro ⟨n, hn, rfl⟩
    omega
  · intro h
    exact ⟨(i - min).toNat, by omega, by omega⟩

theorem nodup_inclusive (min max : Int) : (inclusive min max).Nodup :=
  List.nodup_range.map fun _ _ h => by simpa using h

noncomputable def region : Finset (Int × Int × Int) :=
  Finset.Icc (t.minX.val, t.minY.val, t.minZ.val) (t.maxX.val, t.maxY.val, t.maxZ.val)

theorem mem_region {p : Int × Int × Int} : p ∈ t.region ↔
    (t.minX.val ≤ p.1 ∧ p.1 ≤ t.maxX.val) ∧ (t.minY.val ≤ p.2.1 ∧ p.2.1 ≤ t.maxY.val) ∧
      (t.minZ.val ≤ p.2.2 ∧ p.2.2 ≤ t.maxZ.val) := by
  simp only [region, Finset.mem_Icc, Prod.le_def]
  tauto

theorem mem_cells {p : Int × Int × Int} : p ∈ t.cells ↔ p ∈ t.region := by
  obtain ⟨x, y, z⟩ := p
  simp only [cells, List.mem_flatMap, List.mem_map, mem_inclusive, mem_region, Prod.mk.injEq]
  constructor
  · rintro ⟨_, hy, _, hz, _, hx, rfl, rfl, rfl⟩
    exact ⟨hx, hy, hz⟩
  · rintro ⟨hx, hy, hz⟩
    exact ⟨y, hy, z, hz, x, hx, rfl, rfl, rfl⟩

theorem nodup_cells : t.cells.Nodup := by
  have hrow (y z : Int) : ((inclusive t.minX.val t.maxX.val).map fun x => (x, y, z)).Nodup :=
    (nodup_inclusive _ _).map fun _ _ h => congrArg Prod.fst h
  refine List.nodup_flatMap.mpr ⟨fun y _ => List.nodup_flatMap.mpr ⟨fun z _ => hrow y z, ?_⟩, ?_⟩
  · refine (nodup_inclusive _ _).imp fun hne => ?_
    intro p hp hp'
    obtain ⟨_, -, rfl⟩ := List.mem_map.mp hp
    obtain ⟨_, -, heq⟩ := List.mem_map.mp hp'
    exact hne (congrArg (fun q => q.2.2) heq).symm
  · refine (nodup_inclusive _ _).imp fun hne => ?_
    intro p hp hp'
    obtain ⟨_, -, hp⟩ := List.mem_flatMap.mp hp
    obtain ⟨_, -, rfl⟩ := List.mem_map.mp hp
    obtain ⟨_, -, hp'⟩ := List.mem_flatMap.mp hp'
    obtain ⟨_, -, heq⟩ := List.mem_map.mp hp'
    exact hne (congrArg (fun q => q.2.1) heq).symm

theorem card_region : (t.region.card : Int) = t.volume := by
  have hwidth := t.width_pos
  have hheight := t.height_pos
  have hdepth := t.depth_pos
  have hcard : t.region.card = t.width.toNat * (t.height.toNat * t.depth.toNat) := by
    rw [region, Finset.card_Icc_prod, Finset.card_Icc_prod]
    simp only [Int.card_Icc, width, height, depth, add_sub_right_comm]
  rw [hcard, volume, mul_assoc]
  push_cast
  rw [Int.toNat_of_nonneg hwidth.le, Int.toNat_of_nonneg hheight.le, Int.toNat_of_nonneg hdepth.le]

/-- The chunk columns of the region. -/
noncomputable def columns : Finset ChunkPos := t.region.image fun p => chunkOf p.1 p.2.2

theorem mem_chunks {p : Int × Int × Int} (h : p ∈ t.region) : chunkOf p.1 p.2.2 ∈ t.chunks := by
  obtain ⟨hx, -, hz⟩ := t.mem_region.mp h
  simp only [chunks, List.mem_flatMap, List.mem_map, mem_inclusive, chunkOf]
  exact ⟨p.2.2 / 16, by omega, p.1 / 16, by omega, rfl⟩

theorem length_chunks : (t.chunks.length : Int) = t.span := by
  have hordered := t.orderedX
  have hordered' := t.orderedZ
  simp only [chunks, inclusive, List.length_flatMap, List.length_map, List.length_range,
    List.map_const', List.sum_replicate, smul_eq_mul]
  rw [span, mul_comm]
  push_cast
  rw [Int.toNat_of_nonneg (by omega), Int.toNat_of_nonneg (by omega)]

theorem card_columns_le : (t.columns.card : Int) ≤ t.span := by
  have hsub : t.columns ⊆ t.chunks.toFinset := by
    intro pos hpos
    obtain ⟨p, hp, rfl⟩ := Finset.mem_image.mp hpos
    exact List.mem_toFinset.mpr (t.mem_chunks hp)
  rw [← length_chunks]
  exact_mod_cast (Finset.card_le_card hsub).trans t.chunks.toFinset_card_le

end FillTarget

/-! ## One cell -/

/-- The mode rewrites a cell that holds this block. -/
def BlockWriteMode.rewrites (mode : BlockWriteMode) (old : Int) : Bool := mode ≠ .keep || old = 0

section
variable (source : ChunkSource) (mode : BlockWriteMode) (state : Int)

/-- The write changes the cell. -/
def Changes (game : Game) (p : Int × Int × Int) : Bool :=
  mode.rewrites (game.cell source p) && game.cell source p ≠ state

/-- The chunk of the cell has a section at its height. -/
def Spans (game : Game) (p : Int × Int × Int) : Bool :=
  ((game.chunkAt source (chunkOf p.1 p.2.2)).sectionIndexFor p.2.1).isSome

/-- What the writes do to the cells. -/
def written (cells : List (Int × Int × Int)) (game : Game) (p : Int × Int × Int) : Int :=
  if p ∈ cells ∧ mode.rewrites (game.cell source p) then state else game.cell source p

/-- The chunk is loaded and not marked. -/
structure Ready (game : Game) (pos : ChunkPos) : Prop where
  loaded : (game.world.chunks pos).isSome
  readable : game.unreadableChunks pos = false

/-- Blocks may differ, chunks and their heights do not. -/
structure SameChunks (game game' : Game) : Prop extends SameSize game game' where
  ready : ∀ pos, Ready game pos → Ready game' pos
  spans : ∀ p, Spans source game' p = Spans source game p

variable {source mode state} {game game' : Game}

theorem SameChunks.refl : SameChunks source game game := ⟨.refl, fun _ h => h, fun _ => rfl⟩

theorem SameChunks.trans {game'' : Game} (h : SameChunks source game game')
    (h' : SameChunks source game' game'') : SameChunks source game game'' :=
  ⟨h.toSameSize.trans h'.toSameSize, fun pos hready => h'.ready pos (h.ready pos hready),
    fun p => (h'.spans p).trans (h.spans p)⟩

theorem loadOrCreateChunk_of_loaded {pos : ChunkPos} (h : (game.world.chunks pos).isSome) :
    game.loadOrCreateChunk source pos = game := if_pos h

theorem idAt_ne_none_iff {chunk : Chunk} {x y z : Int} :
    chunk.idAt x y z ≠ none ↔ (chunk.sectionIndexFor y).isSome := by
  unfold Chunk.idAt
  cases hindex : chunk.sectionIndexFor y with
  | none => simp
  | some index =>
    have hlt : index < chunk.sections.length := by
      unfold Chunk.sectionIndexFor at hindex
      dsimp only at hindex
      split at hindex
      · next h => exact Option.some.inj hindex ▸ h.2
      · cases hindex
    have hslot := Chunk.index_lt (Chunk.mod_range x) (Chunk.mod_range y) (Chunk.mod_range z)
    rw [← chunk.sections[index].size] at hslot
    simp [hlt, hslot]

theorem getBlock_of_not_spans {chunk : Chunk} {y : Int} (h : chunk.sectionIndexFor y = none)
    (x z : Int) : chunk.getBlock x y z = 0 := by
  unfold Chunk.getBlock
  rw [h]

theorem setBlock_changed {chunk chunk' : Chunk} {x y z id : Int} {registry : Registry.BlockRegistry}
    {change : Option (Int × Int)} (h : chunk.setBlock x y z id registry = .ok (change, chunk')) :
    change.isSome = decide (chunk.getBlock x y z ≠ id) := by
  rw [Chunk.getBlock_eq]
  unfold Chunk.setBlock at h
  unfold Chunk.idAt
  cases hindex : chunk.sectionIndexFor y with
  | none =>
    rw [hindex] at h
    cases h
  | some index =>
    rw [hindex] at h
    dsimp only at h
    cases hs : chunk.sections[index]? with
    | none =>
      rw [hs] at h
      cases h
    | some s =>
      rw [hs] at h
      simp only [Option.bind_some, hs, ← List.getD_eq_getElem?_getD]
      dsimp only at h
      split at h
      · next hsame =>
        cases h
        simpa using hsame
      · next hne =>
        cases h
        simpa using hne

theorem cell_of_loaded {chunk : Chunk} {p : Int × Int × Int}
    (h : game.world.chunks (chunkOf p.1 p.2.2) = some chunk) :
    game.cell source p = chunk.getBlock p.1 p.2.1 p.2.2 := by
  unfold Game.cell Game.chunkAt
  rw [Game.arrival_of_loaded h]

theorem spans_of_loaded {chunk : Chunk} {p : Int × Int × Int}
    (h : game.world.chunks (chunkOf p.1 p.2.2) = some chunk) :
    Spans source game p = (chunk.sectionIndexFor p.2.1).isSome := by
  unfold Spans Game.chunkAt
  rw [Game.arrival_of_loaded h]

theorem setBlock_size (world : World) (x y z id : Int) :
    (world.setBlock x y z id).2.minSectionY = world.minSectionY ∧
      (world.setBlock x y z id).2.sectionCount = world.sectionCount := by
  unfold World.setBlock
  dsimp only
  split <;> exact ⟨rfl, rfl⟩

theorem apply_ready {x y z : Int} (h : Ready game (chunkOf x z)) :
    mode.apply source game x y z state =
      if mode.rewrites (game.cell source (x, y, z)) then
        match game.world.setBlock x y z state with
        | (.ok change, world) => (.ok change.isSome, { game with world })
        | (.error error, world) => (.error (.failed error), { game with world })
      else (.ok false, game) := by
  obtain ⟨chunk, hchunk⟩ := Option.isSome_iff_exists.mp h.loaded
  have hcell : game.cell source (x, y, z) = chunk.getBlock x y z := cell_of_loaded hchunk
  unfold BlockWriteMode.apply
  simp only [loadOrCreateChunk_of_loaded h.loaded, Game.chunkIsUnreadable, h.readable,
    Bool.false_eq_true, if_false, World.getBlockLoaded, hchunk, Option.map_some, Option.any_some,
    BlockWriteMode.rewrites, hcell]
  cases mode with
  | keep =>
    by_cases hair : chunk.getBlock x y z = 0
    · simp only [hair]
      rcases game.world.setBlock x y z state with ⟨_ | _, _⟩ <;> rfl
    · simp [hair]
  | replace => rcases game.world.setBlock x y z state with ⟨_ | _, _⟩ <;> rfl
  | destroy => rcases game.world.setBlock x y z state with ⟨_ | _, _⟩ <;> rfl

/-- A write the chunk has room for. -/
theorem apply_spans {p : Int × Int × Int} (hready : Ready game (chunkOf p.1 p.2.2))
    (hspans : Spans source game p) :
    ∃ game', mode.apply source game p.1 p.2.1 p.2.2 state =
        (.ok (Changes source mode state game p), game') ∧
      SameChunks source game game' ∧
      ∀ q, game'.cell source q = written source mode state [p] game q := by
  obtain ⟨x, y, z⟩ := p
  obtain ⟨chunk, hchunk⟩ := Option.isSome_iff_exists.mp hready.loaded
  have hcell : game.cell source (x, y, z) = chunk.getBlock x y z := cell_of_loaded hchunk
  rw [spans_of_loaded hchunk] at hspans
  rw [apply_ready hready]
  by_cases hrewrites : mode.rewrites (game.cell source (x, y, z)) = true
  · obtain ⟨change, chunk', hok, hset, hregistry, hchunks⟩ :=
      World.setBlock_loaded hchunk (idAt_ne_none_iff.mpr hspans) state
    obtain ⟨-, hlow, hlength, hcells⟩ := Chunk.setBlock_spec hset
    have hchange : change.isSome = Changes source mode state game (x, y, z) := by
      rw [Changes, hrewrites, Bool.true_and, hcell, ← setBlock_changed hset, Option.isSome_map]
    have hstep : (if mode.rewrites (game.cell source (x, y, z)) = true then
        match game.world.setBlock x y z state with
        | (.ok change, world) => (.ok change.isSome, { game with world })
        | (.error error, world) => (.error (.failed error), { game with world })
      else ((.ok false, game) : Except WriteRefusal Bool × Game)) =
        (.ok (Changes source mode state game (x, y, z)),
          { game with world := (game.world.setBlock x y z state).2 }) := by
      rw [if_pos hrewrites, ← hchange]
      rcases hresult : game.world.setBlock x y z state with ⟨_ | _, world⟩
      · rw [hresult] at hok
        cases hok
      · rw [hresult] at hok
        cases hok
        rfl
    have hhere {q : Int × Int × Int} (hq : chunkOf q.1 q.2.2 = chunkOf x z) :
        (game.world.setBlock x y z state).2.chunks (chunkOf q.1 q.2.2) = some chunk' := by
      rw [hchunks, hq, Function.update_self]
    have hsize : SameSize game { game with world := (game.world.setBlock x y z state).2 } :=
      ⟨hregistry, (setBlock_size ..).1, (setBlock_size ..).2⟩
    have hother {pos : ChunkPos} (hpos : pos ≠ chunkOf x z) :
        Game.arrival source { game with world := (game.world.setBlock x y z state).2 } pos =
          game.arrival source pos :=
      Game.arrival_congr hsize (by rw [hchunks, Function.update_of_ne hpos]) rfl
    refine ⟨_, hstep, ⟨hsize, fun pos hpos => ⟨?_, hpos.readable⟩, fun q => ?_⟩, fun q => ?_⟩
    · rw [hchunks, Function.update_apply]
      split
      · rfl
      · exact hpos.loaded
    · by_cases hq : chunkOf q.1 q.2.2 = chunkOf x z
      · rw [spans_of_loaded (hhere hq), spans_of_loaded (hq ▸ hchunk), Chunk.sectionIndexFor,
          Chunk.sectionIndexFor, hlow, hlength]
      · rw [Spans, Game.chunkAt, hother hq]
        rfl
    · obtain ⟨x', y', z'⟩ := q
      have hsame : (x', y', z') ∈ [(x, y, z)] ↔
          chunkOf x' z' = chunkOf x z ∧ Chunk.SameCell x y z x' y' z' :=
        List.mem_singleton.trans World.sameCell_iff
      by_cases hq : chunkOf x' z' = chunkOf x z
      · have hold : game.cell source (x', y', z') = chunk.getBlock x' y' z' :=
          cell_of_loaded (hq ▸ hchunk)
        have hnew : Game.cell source { game with world := (game.world.setBlock x y z state).2 }
            (x', y', z') = chunk'.getBlock x' y' z' := cell_of_loaded (hhere hq)
        rw [hnew, Chunk.getBlock_eq, hcells, written]
        by_cases hcellSame : Chunk.SameCell x y z x' y' z'
        · have heq : (x', y', z') = (x, y, z) := World.sameCell_iff.mpr ⟨hq, hcellSame⟩
          rw [if_pos hcellSame, if_pos ⟨hsame.mpr ⟨hq, hcellSame⟩, heq ▸ hrewrites⟩]
          rfl
        · rw [if_neg hcellSame, if_neg fun h => hcellSame (hsame.mp h.1).2, hold, Chunk.getBlock_eq]
      · rw [written, if_neg fun h => hq (hsame.mp h.1).1, Game.cell, Game.chunkAt, hother hq]
        rfl
  · have hfalse := Bool.eq_false_iff.mpr hrewrites
    refine ⟨game, ?_, .refl, fun q => ?_⟩
    · rw [if_neg hrewrites, Changes, hfalse]
      rfl
    · rw [written, if_neg]
      rintro ⟨hmem, hq⟩
      rw [List.mem_singleton.mp hmem] at hq
      exact hrewrites hq

/-- A write the chunk has no room for, and that the mode lets through: it fails. -/
theorem apply_not_spans {p : Int × Int × Int} (hready : Ready game (chunkOf p.1 p.2.2))
    (hspans : ¬Spans source game p) :
    ∃ error game', mode.apply source game p.1 p.2.1 p.2.2 state = (.error (.failed error), game') ∧
      ∀ q, game'.cell source q = game.cell source q := by
  obtain ⟨x, y, z⟩ := p
  obtain ⟨chunk, hchunk⟩ := Option.isSome_iff_exists.mp hready.loaded
  rw [spans_of_loaded hchunk, Option.not_isSome_iff_eq_none] at hspans
  have hensured : game.world.ensured (chunkOf x z) = chunk := by
    rw [World.ensured, hchunk, Option.getD_some]
  have hmade : game.world.ensureChunk (chunkOf x z) = game.world := by
    rw [World.ensureChunk, hensured, ← hchunk, Function.update_eq_self]
  have hset : game.world.setBlock x y z state = (.error (chunk.outsideError y), game.world) := by
    unfold World.setBlock Chunk.setBlock
    simp only [hensured, hmade, hspans]
  have hair : game.cell source (x, y, z) = 0 := by
    rw [cell_of_loaded hchunk]
    exact getBlock_of_not_spans hspans x z
  refine ⟨chunk.outsideError y, game, ?_, fun _ => rfl⟩
  rw [apply_ready hready, hair, hset]
  simp [BlockWriteMode.rewrites]

/-! ## The loop -/

theorem written_cons {p : Int × Int × Int} {cells : List (Int × Int × Int)} (hp : p ∉ cells)
    (hstep : ∀ q, game'.cell source q = written source mode state [p] game q)
    (q : Int × Int × Int) :
    written source mode state cells game' q = written source mode state (p :: cells) game q := by
  unfold written at hstep ⊢
  by_cases hq : q = p
  · subst hq
    rw [if_neg fun h => hp h.1, hstep]
    simp
  · have hsame := hstep q
    rw [if_neg fun h => hq (List.mem_singleton.mp h.1)] at hsame
    simp [hsame, hq]

theorem changes_congr {p : Int × Int × Int} (h : game'.cell source p = game.cell source p) :
    Changes source mode state game' p = Changes source mode state game p := by
  rw [Changes, h, Changes]

/-- Cells that their chunks have room for are written, each as if it were the only one. -/
theorem fillLoop_spans {volume : Int} (rest : List (Int × Int × Int)) {cells : List (Int × Int × Int)}
    (hcells : ∀ p ∈ cells, Ready game (chunkOf p.1 p.2.2) ∧ Spans source game p)
    (hnodup : cells.Nodup) (changed : Nat) :
    ∃ game', fillLoop source mode state volume (cells ++ rest) changed game =
        fillLoop source mode state volume rest
          (changed + cells.countP (Changes source mode state game)) game' ∧
      SameChunks source game game' ∧
      ∀ q, game'.cell source q = written source mode state cells game q := by
  induction cells generalizing game changed with
  | nil => exact ⟨game, rfl, .refl, fun q => by simp [written]⟩
  | cons p cells ih =>
    obtain ⟨hp, hrest⟩ := List.forall_mem_cons.mp hcells
    obtain ⟨hnot, hnodup'⟩ := List.nodup_cons.mp hnodup
    obtain ⟨mid, happly, hsame, hstep⟩ :=
      @apply_spans source mode state game p hp.1 hp.2
    obtain ⟨game', hloop, hsame', hwritten⟩ := @ih mid
      (fun q hq => ⟨hsame.ready _ (hrest q hq).1, (hsame.spans q).trans (hrest q hq).2⟩) hnodup'
      (changed + if Changes source mode state game p then 1 else 0)
    have hcount : cells.countP (Changes source mode state mid) =
        cells.countP (Changes source mode state game) := by
      refine List.countP_congr fun q hq => ?_
      have hne : q ≠ p := fun heq => hnot (heq ▸ hq)
      rw [changes_congr]
      rw [hstep, written, if_neg fun h => hne (List.mem_singleton.mp h.1)]
    refine ⟨game', ?_, hsame.trans hsame', fun q => (hwritten q).trans (written_cons hnot hstep q)⟩
    rw [List.cons_append, fillLoop, happly, List.countP_cons, ← hcount]
    cases hchanges : Changes source mode state game p with
    | false =>
      rw [hchanges] at hloop
      simpa using hloop
    | true =>
      rw [hchanges] at hloop
      simpa [Nat.add_assoc, Nat.add_comm] using hloop

/-! ## The chunks under the region -/

variable (source) in
/-- Every place holds what it held, loaded or not. -/
structure SameArrivals (game game' : Game) : Prop extends SameSize game game' where
  arrival : ∀ pos, game'.arrival source pos = game.arrival source pos

theorem SameArrivals.trans {game'' : Game} (h : SameArrivals source game game')
    (h' : SameArrivals source game' game'') : SameArrivals source game game'' :=
  ⟨h.toSameSize.trans h'.toSameSize, fun pos => (h'.arrival pos).trans (h.arrival pos)⟩

theorem SameArrivals.cell (h : SameArrivals source game game') (p : Int × Int × Int) :
    game'.cell source p = game.cell source p := by
  rw [Game.cell, Game.chunkAt, h.arrival, Game.cell, Game.chunkAt]

theorem SameArrivals.spans (h : SameArrivals source game game') (p : Int × Int × Int) :
    Spans source game' p = Spans source game p := by
  rw [Spans, Game.chunkAt, h.arrival, Spans, Game.chunkAt]

theorem sameArrivals_load (game : Game) (pos : ChunkPos) :
    SameArrivals source game (game.loadOrCreateChunk source pos) :=
  ⟨(Game.loadOrCreateChunk_spec game pos).2.2, Game.arrival_loadOrCreateChunk game pos⟩

theorem ready_load {pos : ChunkPos} (h : (game.arrival source pos).2 = false) :
    Ready (game.loadOrCreateChunk source pos) pos := by
  obtain ⟨hchunks, hmarks, -⟩ := @Game.loadOrCreateChunk_spec source game pos
  exact ⟨by rw [hchunks, Function.update_self]; rfl, by rw [hmarks, Function.update_self, h]⟩

theorem Ready.load {pos : ChunkPos} (h : Ready game pos) (pos' : ChunkPos) :
    Ready (game.loadOrCreateChunk source pos') pos := by
  obtain ⟨hchunks, hmarks, -⟩ := @Game.loadOrCreateChunk_spec source game pos'
  by_cases hpos : pos = pos'
  · obtain ⟨chunk, hchunk⟩ := Option.isSome_iff_exists.mp h.loaded
    rw [← hpos]
    exact ready_load (by rw [Game.arrival_of_loaded hchunk]; exact h.readable)
  · refine ⟨?_, ?_⟩
    · rw [hchunks, Function.update_of_ne hpos]
      exact h.loaded
    · rw [hmarks, Function.update_of_ne hpos]
      exact h.readable

theorem Ready.loadAll {pos : ChunkPos} (h : Ready game pos) (chunks : List ChunkPos) :
    Ready (firstUnreadableChunkIn source chunks game).2 pos := by
  induction chunks generalizing game with
  | nil => exact h
  | cons chunk chunks ih =>
    unfold firstUnreadableChunkIn
    dsimp only
    split
    · exact h.load chunk
    · exact ih (h.load chunk)

theorem firstUnreadableChunkIn_spec (chunks : List ChunkPos) (game : Game) :
    SameArrivals source game (firstUnreadableChunkIn source chunks game).2 ∧
      ((firstUnreadableChunkIn source chunks game).1 = none ↔
        ∀ chunk ∈ chunks, (game.arrival source chunk).2 = false) ∧
      ((firstUnreadableChunkIn source chunks game).1 = none →
        ∀ chunk ∈ chunks, Ready (firstUnreadableChunkIn source chunks game).2 chunk) := by
  induction chunks generalizing game with
  | nil => exact ⟨⟨.refl, fun _ => rfl⟩, by simp [firstUnreadableChunkIn], fun _ _ h => by cases h⟩
  | cons chunk chunks ih =>
    have hload := @sameArrivals_load source game chunk
    have hmark : (game.loadOrCreateChunk source chunk).chunkIsUnreadable chunk =
        (game.arrival source chunk).2 := by
      rw [Game.chunkIsUnreadable, (Game.loadOrCreateChunk_spec game chunk).2.1, Function.update_self]
    obtain ⟨hsame, hnone, hready⟩ := ih (game.loadOrCreateChunk source chunk)
    unfold firstUnreadableChunkIn
    dsimp only
    rw [hmark]
    cases hbad : (game.arrival source chunk).2 with
    | true =>
      rw [if_pos rfl]
      exact ⟨hload, iff_of_false (fun h => by cases h) fun h => by
        simp [h chunk (List.mem_cons_self ..)] at hbad, fun h => by cases h⟩
    | false =>
      rw [if_neg Bool.false_ne_true]
      refine ⟨hload.trans hsame, ?_, fun h => ?_⟩
      · rw [hnone, List.forall_mem_cons]
        simp only [hload.arrival, hbad, true_and]
      · exact List.forall_mem_cons.mpr ⟨(ready_load hbad).loadAll chunks, hready h⟩

/-! ## The command -/

/-- Anything but the reply of a fill that ran to its end. -/
def FillReply.isRefusal : FillReply → Bool
  | .filled .. => false
  | _ => true

namespace FillTarget
variable {t : FillTarget}

variable (source) in
/-- What is asked of a region before it is written. -/
structure Accepted (t : FillTarget) (game : Game) (state : Int) : Prop where
  volume : t.volume ≤ MAX_FILL_VOLUME
  span : t.span ≤ MAX_FILL_CHUNKS
  block : game.world.registry.defaultState t.block.text.toList = some state
  low : game.inBuildRange t.minY.val = true
  high : game.inBuildRange t.maxY.val = true
  readable : ∀ chunk ∈ t.chunks, (game.arrival source chunk).2 = false

theorem run_of_not_fits (h : ¬t.Fits) : t.run source game = none := by
  have hnone : fillVolume t.minX.val t.maxX.val t.minY.val t.maxY.val t.minZ.val t.maxZ.val = none :=
    Option.eq_none_iff_forall_ne_some.mpr fun volume hvolume =>
      h (t.fillVolume_eq_some_iff.mp hvolume).1
  rw [run, hnone]
  rfl

theorem run_of_accepted (hfits : t.Fits) (h : t.Accepted source game state) :
    t.run source game = some (fillLoop source t.mode state t.volume t.cells 0
      (firstUnreadableChunkIn source t.chunks game).2) := by
  have hnone := (@firstUnreadableChunkIn_spec source t.chunks game).2.1.mpr h.readable
  rw [run, t.fillVolume_eq_some_iff.mpr ⟨hfits, rfl⟩, Option.bind_eq_bind, Option.bind_some]
  simp only [fillVolumeAccepted, h.volume, fillChunkSpan_eq, fillChunkSpanAccepted, h.span, h.block,
    h.low, h.high, decide_true, Bool.not_true, Bool.or_self, Bool.false_eq_true, if_false,
    Option.bind_some]
  rcases hread : firstUnreadableChunkIn source t.chunks game with ⟨result, game'⟩
  rw [hread] at hnone
  cases hnone
  rfl

theorem run_of_not_accepted (hfits : t.Fits) (h : ∀ state, ¬t.Accepted source game state) :
    ∃ reply game', t.run source game = some (reply, game') ∧ reply.isRefusal = true ∧
      SameArrivals source game game' := by
  have hrefl : SameArrivals source game game := ⟨.refl, fun _ => rfl⟩
  rw [run, t.fillVolume_eq_some_iff.mpr ⟨hfits, rfl⟩, Option.bind_eq_bind, Option.bind_some]
  by_cases hvolume : t.volume ≤ MAX_FILL_VOLUME
  · by_cases hspan : t.span ≤ MAX_FILL_CHUNKS
    · simp only [fillVolumeAccepted, hvolume, fillChunkSpan_eq, fillChunkSpanAccepted, hspan,
        decide_true, Bool.not_true, Bool.false_eq_true, if_false, Option.bind_some]
      cases hblock : game.world.registry.defaultState t.block.text.toList with
      | none => exact ⟨_, game, rfl, rfl, hrefl⟩
      | some state =>
        dsimp only
        split
        · exact ⟨_, game, rfl, rfl, hrefl⟩
        · next hrange =>
          obtain ⟨hsame, hnone, -⟩ := @firstUnreadableChunkIn_spec source t.chunks game
          rcases hread : firstUnreadableChunkIn source t.chunks game with ⟨_ | chunk, game'⟩
          · rw [hread] at hnone
            refine absurd ⟨hvolume, hspan, hblock, ?_, ?_, hnone.mp rfl⟩ (h state)
            · simp_all
            · simp_all
          · rw [hread] at hsame
            exact ⟨_, game', rfl, rfl, hsame⟩
    · simp only [fillVolumeAccepted, hvolume, fillChunkSpan_eq, fillChunkSpanAccepted, hspan,
        decide_true, decide_false, Bool.not_true, Bool.not_false, Bool.false_eq_true, if_false,
        if_true, Option.bind_some]
      exact ⟨_, game, rfl, rfl, hrefl⟩
  · simp only [fillVolumeAccepted, hvolume, decide_false, Bool.not_false, if_true]
    exact ⟨_, game, rfl, rfl, hrefl⟩

end FillTarget

variable (source) in
/-- The region is bounded, exactly its cells are rewritten, and the reply counts those that
changed. -/
structure Filled (t : FillTarget) (state : Int) (game game' : Game) (reply : FillReply) : Prop where
  block : game.world.registry.defaultState t.block.text.toList = some state
  volume : (t.region.card : Int) ≤ MAX_FILL_VOLUME
  columns : (t.columns.card : Int) ≤ MAX_FILL_CHUNKS
  inside : ∀ p ∈ t.region, game.inBuildRange p.2.1 = true
  cells : ∀ p, game'.cell source p =
    if p ∈ t.region ∧ t.mode.rewrites (game.cell source p) then state else game.cell source p
  reply : reply = .filled
    (t.region.filter fun p => game'.cell source p ≠ game.cell source p).card t.region.card

variable (source) in
/-- Nothing overflows, and the command refuses with every cell as it was or fills its region. -/
def FillRule {F : Type} (base : I32 × I32 × I32) (parsed : ParsedCommand F) (game : Game) : Prop :=
  ∃ reply game', commandFill source base parsed game = some (reply, game') ∧
    ((reply.isRefusal = true ∧ ∀ p, game'.cell source p = game.cell source p) ∨
      ∃ t state, fillTarget base parsed = .ok t ∧ Filled source t state game game' reply)

variable (source) in
/-- Every chunk has room for its cells, or nothing changes before the first cell it has none for. -/
def Unbroken (t : FillTarget) (state : Int) (game : Game) : Prop :=
  (∀ p ∈ t.cells, Spans source game p) ∨
    ∀ p ∈ t.cells.takeWhile (Spans source game), Changes source t.mode state game p = false

theorem isRefusal_of_fillTarget {F : Type} {base : I32 × I32 × I32} {parsed : ParsedCommand F}
    {reply : FillReply} (h : fillTarget base parsed = .error reply) : reply.isRefusal = true := by
  unfold fillTarget at h
  split at h
  · split at h
    · cases h
      rfl
    · cases h
  · cases h
    rfl

theorem written_ne_iff {cells : List (Int × Int × Int)} {p : Int × Int × Int} :
    written source mode state cells game p ≠ game.cell source p ↔
      p ∈ cells ∧ Changes source mode state game p = true := by
  unfold written Changes
  split
  · next h =>
    simp only [h.1, h.2, true_and, Bool.true_and, decide_eq_true_eq]
    exact ne_comm
  · next h =>
    refine iff_of_false (fun h => h rfl) fun hboth => h ⟨hboth.1, ?_⟩
    exact (Bool.and_eq_true_iff.mp hboth.2).1

namespace FillTarget
variable {t : FillTarget}

theorem filled_of_spans (haccepted : t.Accepted source game state)
    (hwritten : ∀ p, game'.cell source p = written source t.mode state t.cells game p) :
    Filled source t state game game'
      (.filled (t.cells.countP (Changes source t.mode state game)) t.volume) where
  block := haccepted.block
  volume := t.card_region ▸ haccepted.volume
  columns := t.card_columns_le.trans haccepted.span
  inside p hp := by
    obtain ⟨-, hy, -⟩ := t.mem_region.mp hp
    have hlow := haccepted.low
    have hhigh := haccepted.high
    simp only [Game.inBuildRange, Bool.and_eq_true, decide_eq_true_eq] at hlow hhigh ⊢
    omega
  cells p := by
    rw [hwritten, written]
    exact if_congr (and_congr_left' t.mem_cells) rfl rfl
  reply := by
    have hregion : t.region = t.cells.toFinset := by
      ext p
      rw [List.mem_toFinset, mem_cells]
    have hfilter : t.region.filter (fun p => game'.cell source p ≠ game.cell source p) =
        (t.cells.filter (Changes source t.mode state game)).toFinset := by
      ext p
      rw [Finset.mem_filter, hwritten, written_ne_iff, List.mem_toFinset, List.mem_filter,
        ← mem_cells, and_self_left]
    rw [hfilter, List.toFinset_card_of_nodup (t.nodup_cells.filter _), ← List.countP_eq_length_filter,
      card_region]

end FillTarget

theorem written_congr {cells : List (Int × Int × Int)} {p : Int × Int × Int}
    (h : game'.cell source p = game.cell source p) :
    written source mode state cells game' p = written source mode state cells game p := by
  rw [written, h, written]

/-- What the loop makes of an accepted region: the cells before the first one without room are
written, and with such a one it stops there. -/
theorem run_spec {t : FillTarget} (hfits : t.Fits) (haccepted : t.Accepted source game state) :
    ∃ game', (∀ p, game'.cell source p =
        written source t.mode state (t.cells.takeWhile (Spans source game)) game p) ∧
      (if ∀ p ∈ t.cells, Spans source game p then t.run source game =
        some (.filled (t.cells.countP (Changes source t.mode state game)) t.volume, game')
      else ∃ changed reason, t.run source game = some (.stopped changed reason, game')) := by
  obtain ⟨hsame, hnone, hready⟩ := @firstUnreadableChunkIn_spec source t.chunks game
  have hall := hready (hnone.mpr haccepted.readable)
  rw [FillTarget.run_of_accepted hfits haccepted]
  generalize (firstUnreadableChunkIn source t.chunks game).2 = game₁ at hsame hall
  have hcells : ∀ p ∈ t.cells, Ready game₁ (chunkOf p.1 p.2.2) := fun p hp =>
    hall _ (t.mem_chunks (t.mem_cells.mp hp))
  have hpre : ∀ p ∈ t.cells.takeWhile (Spans source game),
      Ready game₁ (chunkOf p.1 p.2.2) ∧ Spans source game₁ p := fun p hp =>
    ⟨hcells p ((List.takeWhile_sublist _).subset hp),
      (hsame.spans p).trans (List.mem_takeWhile_imp hp)⟩
  obtain ⟨game₂, hloop, hchunks, hwritten⟩ := @fillLoop_spans source t.mode state game₁ t.volume
    (t.cells.dropWhile (Spans source game)) _ hpre (t.nodup_cells.sublist (List.takeWhile_sublist _)) 0
  rw [List.takeWhile_append_dropWhile, Nat.zero_add] at hloop
  have hwritten' : ∀ p, game₂.cell source p =
      written source t.mode state (t.cells.takeWhile (Spans source game)) game p := fun p =>
    (hwritten p).trans (written_congr (hsame.cell p))
  rw [hloop]
  cases hrest : t.cells.dropWhile (Spans source game) with
  | nil =>
    have hspans : ∀ p ∈ t.cells, Spans source game p := List.dropWhile_eq_nil_iff.mp hrest
    refine ⟨game₂, hwritten', ?_⟩
    rw [if_pos hspans, fillLoop, List.takeWhile_eq_self_iff.mpr hspans]
    have hcount : t.cells.countP (Changes source t.mode state game₁) =
        t.cells.countP (Changes source t.mode state game) :=
      List.countP_congr fun p _ => by rw [changes_congr (hsame.cell p)]
    rw [hcount]
  | cons p rest =>
    have hmem : p ∈ t.cells :=
      (List.dropWhile_sublist _).subset (hrest ▸ List.mem_cons_self ..)
    have hnot : ¬Spans source game p := by
      have hne : t.cells.dropWhile (Spans source game) ≠ [] := by
        rw [hrest]
        nofun
      have hhead := List.head_dropWhile_not (Spans source game) hne
      simp only [hrest, List.head_cons] at hhead
      simp [hhead]
    obtain ⟨error, game₃, happly, hsame'⟩ := @apply_not_spans source t.mode state game₂ p
      (hchunks.ready _ (hcells p hmem)) (by rw [hchunks.spans, hsame.spans]; exact hnot)
    refine ⟨game₃, fun q => (hsame' q).trans (hwritten' q), ?_⟩
    rw [if_neg fun hspans => hnot (hspans p hmem), fillLoop, happly]
    exact ⟨_, _, rfl⟩

theorem fillRule_of_accepted {F : Type} {base : I32 × I32 × I32} {parsed : ParsedCommand F}
    {t : FillTarget} (htarget : fillTarget base parsed = .ok t) (hfits : t.Fits)
    (haccepted : t.Accepted source game state) :
    FillRule source base parsed game ↔ Unbroken source t state game := by
  have hrun : commandFill source base parsed game = t.run source game := by
    rw [commandFill, htarget]
  obtain ⟨game', hwritten, hreply⟩ := run_spec hfits haccepted
  by_cases hspans : ∀ p ∈ t.cells, Spans source game p
  · rw [if_pos hspans] at hreply
    rw [List.takeWhile_eq_self_iff.mpr hspans] at hwritten
    exact iff_of_true ⟨_, game', hrun.trans hreply,
      .inr ⟨t, state, htarget, FillTarget.filled_of_spans haccepted hwritten⟩⟩ (.inl hspans)
  · rw [if_neg hspans] at hreply
    obtain ⟨changed, reason, hreply⟩ := hreply
    constructor
    · rintro ⟨reply, game'', heq, hrule⟩
      rw [hrun, hreply] at heq
      cases heq
      rcases hrule with ⟨-, hcells⟩ | ⟨t', state', -, hfilled⟩
      · refine .inr fun p hp => Bool.eq_false_iff.mpr fun hchanges => ?_
        exact written_ne_iff.mpr ⟨hp, hchanges⟩ ((hwritten p).symm.trans (hcells p))
      · cases hfilled.reply
    · rintro (hall | hquiet)
      · exact absurd hall hspans
      · refine ⟨_, game', hrun.trans hreply, .inl ⟨rfl, fun p => ?_⟩⟩
        rw [hwritten]
        by_contra hne
        obtain ⟨hp, hchanges⟩ := written_ne_iff.mp hne
        rw [hquiet p hp] at hchanges
        cases hchanges

/-- The command does what it promises when no extent or volume leaves its type, and no write of an
accepted region fails after one that changed a cell. -/
theorem command_fill_iff {F : Type} (source : ChunkSource) (base : I32 × I32 × I32)
    (parsed : ParsedCommand F) (game : Game) :
    FillRule source base parsed game ↔ ∀ t, fillTarget base parsed = .ok t →
      t.Fits ∧ ∀ state, t.Accepted source game state → Unbroken source t state game := by
  cases htarget : fillTarget base parsed with
  | error reply =>
    have hrun : commandFill source base parsed game = some (reply, game) := by
      rw [commandFill, htarget]
    refine iff_of_true ⟨reply, game, hrun, .inl ⟨isRefusal_of_fillTarget htarget, fun p => ?_⟩⟩ ?_
    · exact Eq.refl (game.cell source p)
    · intro t h
      cases h
  | ok t =>
    have hrun : commandFill source base parsed game = t.run source game := by
      rw [commandFill, htarget]
    have honly : (∀ t', Except.ok t = (Except.ok t' : Except FillReply FillTarget) → t'.Fits ∧
        ∀ state, t'.Accepted source game state → Unbroken source t' state game) ↔
        t.Fits ∧ ∀ state, t.Accepted source game state → Unbroken source t state game :=
      ⟨fun h => h t rfl, fun h t' heq => Except.ok.inj heq ▸ h⟩
    rw [honly]
    by_cases hfits : t.Fits
    · rw [and_iff_right hfits]
      by_cases haccepted : ∃ state, t.Accepted source game state
      · obtain ⟨state, haccepted⟩ := haccepted
        have hstate : (∀ state', t.Accepted source game state' → Unbroken source t state' game) ↔
            Unbroken source t state game := by
          refine ⟨fun h => h state haccepted, fun h state' haccepted' => ?_⟩
          rwa [Option.some.inj (haccepted'.block.symm.trans haccepted.block)]
        rw [hstate]
        exact fillRule_of_accepted htarget hfits haccepted
      · obtain ⟨reply, game', hreply, hrefusal, hsame⟩ :=
          t.run_of_not_accepted hfits fun state h => haccepted ⟨state, h⟩
        exact iff_of_true ⟨reply, game', hrun.trans hreply, .inl ⟨hrefusal, hsame.cell⟩⟩
          fun state h => absurd ⟨state, h⟩ haccepted
    · refine iff_of_false (fun hrule => ?_) fun h => hfits h.1
      obtain ⟨reply, game', hreply, -⟩ := hrule
      rw [hrun, FillTarget.run_of_not_fits hfits] at hreply
      cases hreply

end

/-! ## Two fills that break -/

def stone : ResourceId := ⟨"minecraft", "stone"⟩

/-- `/fill` between two places, with stone. -/
def fillStone (lo hi : Coordinate × Coordinate × Coordinate) : ParsedCommand Unit :=
  ⟨"fill", [.blockPos lo.1 lo.2.1 lo.2.2, .blockPos hi.1 hi.2.1 hi.2.2, .resource stone], console, []⟩

/-- The region between two places, sorted. -/
def stoneTarget (lo hi : Coordinate × Coordinate × Coordinate) (base : I32 × I32 × I32) :
    FillTarget where
  minX := min (lo.1.resolve base.1) (hi.1.resolve base.1)
  minY := min (lo.2.1.resolve base.2.1) (hi.2.1.resolve base.2.1)
  minZ := min (lo.2.2.resolve base.2.2) (hi.2.2.resolve base.2.2)
  maxX := max (lo.1.resolve base.1) (hi.1.resolve base.1)
  maxY := max (lo.2.1.resolve base.2.1) (hi.2.1.resolve base.2.1)
  maxZ := max (lo.2.2.resolve base.2.2) (hi.2.2.resolve base.2.2)
  block := stone
  mode := .replace
  orderedX := min_le_max
  orderedY := min_le_max
  orderedZ := min_le_max

theorem fillTarget_fillStone (lo hi : Coordinate × Coordinate × Coordinate) (base : I32 × I32 × I32) :
    fillTarget base (fillStone lo hi) = .ok (stoneTarget lo hi base) := rfl

def stoneOnly : BlockRegistry where
  byName name := if name = stone.text.toList then some ⟨1, 1, 1, []⟩ else none
  byId := ["minecraft:air".toList, stone.text.toList]
  airId := 0
  emptyIds := [0]

/-- Air is stored everywhere, in one of the chunks a single section of it. -/
def shallow : ChunkSource where
  read pos := .ok (some (Chunk.air pos (-4) (if pos = ⟨1, 0⟩ then 1 else 24) stoneOnly))
  generate _ := none
  canRead := true
  read_pos pos chunk h := by
    cases h
    rfl
  generate_pos pos chunk h := nomatch h

def nothingLoaded : Game := ⟨World.withHeight stoneOnly (-4) 24, fun _ => false⟩

def origin : I32 × I32 × I32 := (I32.zero, I32.zero, I32.zero)

def corner (x y z : Int) : Coordinate × Coordinate × Coordinate :=
  (.absolute (I32.clamp x), .absolute (I32.clamp y), .absolute (I32.clamp z))

/-- From one end of the world to the other an extent is past `i32`, and across the edge of the
chunk with one section the first cell is written before the second is refused. -/
theorem fill_breaks :
    ¬FillRule shallow origin (fillStone (corner (-2 ^ 31) 0 0) (corner (2 ^ 31 - 1) 0 0)) nothingLoaded ∧
    ¬FillRule shallow origin (fillStone (corner 15 64 0) (corner 16 64 0)) nothingLoaded := by
  constructor
  · rintro ⟨reply, game', heq, -⟩
    have hfits : ¬(stoneTarget (corner (-2 ^ 31) 0 0) (corner (2 ^ 31 - 1) 0 0) origin).Fits :=
      fun h => absurd h.width (by decide)
    rw [commandFill, fillTarget_fillStone] at heq
    simp only [FillTarget.run_of_not_fits hfits, reduceCtorEq] at heq
  · intro hrule
    have hfits : (stoneTarget (corner 15 64 0) (corner 16 64 0) origin).Fits := by
      constructor <;> decide
    have haccepted : (stoneTarget (corner 15 64 0) (corner 16 64 0) origin).Accepted shallow
        nothingLoaded 1 := by
      constructor <;> decide +kernel
    have hunbroken := (fillRule_of_accepted (fillTarget_fillStone ..) hfits haccepted).mp hrule
    revert hunbroken
    unfold Unbroken
    decide +kernel

end Apoptosis.L2.Commands
