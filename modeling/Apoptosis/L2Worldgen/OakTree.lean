import Apoptosis.L2World.ChunkWrites
import Apoptosis.L2World.Collision
/-!
# One oak (`worldgen/src/features.rs`)

A trunk and a canopy above it, written cell by cell into one chunk. The
canopy skips oak logs; every other cell is overwritten, whatever it holds.

* `canopyOffsets_apart`: the cells of a canopy are the canopy's once each.
* `placeOakAt_eq`: an oak that is not refused, as paints of its cells.
* `placeOakAt_leaves`: what an oak leaves in every cell, and what it counts.
* `placeOakAt_spares_iff`: when an oak takes only cells that are free.
-/
namespace Apoptosis.L2.Worldgen
open Apoptosis.Core Apoptosis.L2.Registry Apoptosis.L2.Storage Apoptosis.L2.Terrain

/-- mirrors crates/worldgen/src/biome.rs:61-74 (`Biome`) -/
inductive Biome where
  | plains | desert | forest | ocean | mountains | taiga
  deriving DecidableEq, Repr

/-- mirrors crates/worldgen/src/biome.rs:126-128 (`Biome::has_trees`) -/
def Biome.hasTrees : Biome → Bool
  | plains | forest | taiga => true
  | desert | ocean | mountains => false

/-- mirrors crates/worldgen/src/terrain.rs:183-203 (`BlockPalette`), what the trees read of it -/
structure BlockPalette where
  air : Int
  water : Int
  oakLog : Int
  oakLeaves : Int
  topOf : Biome → Int

def MIN_TRUNK_HEIGHT : Int := 4
def MAX_TRUNK_HEIGHT : Int := 6
def CANOPY_RADIUS : Int := 2
def CANOPY_LAYERS : Int := 2

/-- mirrors crates/worldgen/src/features.rs:250-260 (`OakPlacement`) -/
inductive OakPlacement where
  | placed (blocks : Nat)
  | refusedStraddling
  | refusedVertical
  deriving DecidableEq, Repr

/-- mirrors crates/worldgen/src/features.rs:463-468 (`tree_fits_in_chunk`) -/
def treeFitsInChunk (blockX blockZ : I32) : Bool :=
  (CANOPY_RADIUS ≤ blockX.val % 16 ∧ blockX.val % 16 < 16 - CANOPY_RADIUS) ∧
    (CANOPY_RADIUS ≤ blockZ.val % 16 ∧ blockZ.val % 16 < 16 - CANOPY_RADIUS)

/-- mirrors crates/worldgen/src/features.rs:471-475 (`write`) -/
def write (chunk : Chunk) (registry : BlockRegistry) (x y z id : Int) : Bool × Chunk :=
  match chunk.setBlock x y z id registry with
  | .ok (some _, chunk) => (true, chunk)
  | .ok (none, chunk) => (false, chunk)
  | .error _ => (false, chunk)

/-- The canopy's cells about the trunk, in the order of the loops: across, by layer, across. -/
def canopyOffsets : List (Int × Int × Int) :=
  (span 0 (CANOPY_LAYERS + 1)).flatMap fun layer =>
    let radius := max (CANOPY_RADIUS - layer) 0
    (span (-radius) (radius + 1)).flatMap fun dx =>
      (span (-radius) (radius + 1)).filterMap fun dz =>
        if layer = 0 ∧ |dx| = radius ∧ |dz| = radius then none else some (dx, layer, dz)

/-- The trunk's height, in the range the feature draws from. -/
def clampHeight (trunkHeight : I32) : I32 :=
  I32.clamp (max MIN_TRUNK_HEIGHT (min trunkHeight.val MAX_TRUNK_HEIGHT))

/-- One turn of the trunk's loop. -/
def growLog (registry : BlockRegistry) (palette : BlockPalette) (x z : Int) (state : Nat × Chunk)
    (y : Int) : Nat × Chunk :=
  match write state.2 registry x y z palette.oakLog with
  | (true, chunk) => (state.1 + 1, chunk)
  | (false, chunk) => (state.1, chunk)

/-- One turn of the canopy's loops. -/
def growLeaf (registry : BlockRegistry) (palette : BlockPalette) (blockX trunkTop blockZ : I32)
    (state : Nat × Chunk) (offset : Int × Int × Int) : Nat × Chunk :=
  let x := (I32.clamp (blockX.val + offset.1)).val
  let y := (I32.clamp ((I32.clamp (trunkTop.val + 1)).val + offset.2.1)).val
  let z := (I32.clamp (blockZ.val + offset.2.2)).val
  if state.2.getBlock x y z = palette.oakLog then state
  else match write state.2 registry x y z palette.oakLeaves with
  | (true, chunk) => (state.1 + 1, chunk)
  | (false, chunk) => (state.1, chunk)

/-- mirrors crates/worldgen/src/features.rs:401-455 (`place_oak_at`) -/
def placeOakAt (chunk : Chunk) (registry : BlockRegistry) (palette : BlockPalette)
    (blockX surfaceY blockZ trunkHeight : I32) : OakPlacement × Chunk :=
  let trunkTop := surfaceY.saturatingAdd (clampHeight trunkHeight)
  let canopyTop := I32.clamp ((I32.clamp (trunkTop.val + 1)).val + CANOPY_LAYERS)
  if !treeFitsInChunk blockX blockZ then (.refusedStraddling, chunk)
  else if chunk.maxY ≤ canopyTop.val ∨ surfaceY.val < chunk.minY then (.refusedVertical, chunk)
  else
    let trunk := (span (I32.clamp (surfaceY.val + 1)).val (trunkTop.val + 1)).foldl
      (growLog registry palette blockX.val blockZ.val) (0, chunk)
    let tree := canopyOffsets.foldl (growLeaf registry palette blockX trunkTop blockZ) trunk
    (.placed tree.1, tree.2)

/-! ## The cells of an oak -/

/-- Where an oak stands, and how high its trunk is. -/
structure Oak where
  x : Int
  surface : Int
  z : Int
  height : Int

namespace Oak

def trunk (oak : Oak) : List (Int × Int × Int) :=
  (span (oak.surface + 1) (oak.surface + oak.height + 1)).map fun y => (oak.x, y, oak.z)

def canopy (oak : Oak) : List (Int × Int × Int) := canopyOffsets.map fun offset =>
  (oak.x + offset.1, oak.surface + oak.height + 1 + offset.2.1, oak.z + offset.2.2)

/-- The oak fits between the columns and the heights of the chunk. -/
structure Fits (oak : Oak) (chunk : Chunk) : Prop where
  x : 2 ≤ oak.x % 16 ∧ oak.x % 16 < 14
  z : 2 ≤ oak.z % 16 ∧ oak.z % 16 < 14
  low : chunk.minY ≤ oak.surface
  high : oak.surface + oak.height + 3 < chunk.maxY

instance (oak : Oak) (chunk : Chunk) : Decidable (oak.Fits chunk) :=
  decidable_of_iff ((2 ≤ oak.x % 16 ∧ oak.x % 16 < 14) ∧ (2 ≤ oak.z % 16 ∧ oak.z % 16 < 14) ∧
      chunk.minY ≤ oak.surface ∧ oak.surface + oak.height + 3 < chunk.maxY)
    ⟨fun ⟨hx, hz, hlow, hhigh⟩ => ⟨hx, hz, hlow, hhigh⟩, fun h => ⟨h.x, h.z, h.low, h.high⟩⟩

def paints (oak : Oak) (palette : BlockPalette) : List Chunk.Paint :=
  oak.trunk.map (fun cell => ⟨cell.1, cell.2.1, cell.2.2, fun _ => some palette.oakLog⟩) ++
    oak.canopy.map fun cell => ⟨cell.1, cell.2.1, cell.2.2,
      fun id => if id = palette.oakLog then none else some palette.oakLeaves⟩

end Oak

/-- The oak a call of `place_oak_at` is about. -/
def oakAt (blockX surfaceY blockZ trunkHeight : I32) : Oak :=
  ⟨blockX.val, surfaceY.val, blockZ.val, max MIN_TRUNK_HEIGHT (min trunkHeight.val MAX_TRUNK_HEIGHT)⟩

theorem canopyOffsets_bounds : ∀ offset ∈ canopyOffsets, (-2 ≤ offset.1 ∧ offset.1 ≤ 2) ∧
    (0 ≤ offset.2.1 ∧ offset.2.1 ≤ 2) ∧ (-2 ≤ offset.2.2 ∧ offset.2.2 ≤ 2) := by decide

theorem canopyOffsets_apart : canopyOffsets.Nodup := by decide

theorem span_nodup (low high : Int) : (span low high).Nodup :=
  List.nodup_range.map fun a b (h : low + (a : Int) = low + b) => by omega

namespace Oak

variable {oak : Oak} {chunk : Chunk} {palette : BlockPalette} {registry : BlockRegistry}
  {c : Int × Int × Int}

theorem mem_trunk : c ∈ oak.trunk ↔ c.1 = oak.x ∧
    (oak.surface < c.2.1 ∧ c.2.1 ≤ oak.surface + oak.height) ∧ c.2.2 = oak.z := by
  simp only [trunk, List.mem_map, mem_span]
  constructor
  · rintro ⟨y, hy, rfl⟩
    exact ⟨rfl, ⟨by dsimp only; omega, by dsimp only; omega⟩, rfl⟩
  · rintro ⟨hx, hy, hz⟩
    exact ⟨c.2.1, by omega, Prod.ext hx.symm (Prod.ext rfl hz.symm)⟩

theorem canopy_bounds (h : c ∈ oak.canopy) : (oak.x - 2 ≤ c.1 ∧ c.1 ≤ oak.x + 2) ∧
    (oak.surface + oak.height < c.2.1 ∧ c.2.1 ≤ oak.surface + oak.height + 3) ∧
    (oak.z - 2 ≤ c.2.2 ∧ c.2.2 ≤ oak.z + 2) := by
  obtain ⟨offset, hoffset, rfl⟩ := List.mem_map.mp h
  have := canopyOffsets_bounds offset hoffset
  dsimp only
  omega

theorem cells_nodup (oak : Oak) : (oak.trunk ++ oak.canopy).Nodup := by
  refine List.nodup_append.mpr ⟨?_, ?_, fun c hc c' hc' heq => ?_⟩
  · refine (span_nodup _ _).map fun a b hab => ?_
    exact (Prod.mk.inj (Prod.mk.inj hab).2).1
  · refine canopyOffsets_apart.map fun a b hab => ?_
    obtain ⟨hx, hyz⟩ := Prod.mk.inj hab
    obtain ⟨hy, hz⟩ := Prod.mk.inj hyz
    exact Prod.ext (by omega) (Prod.ext (by omega) (by omega))
  · have htrunk := mem_trunk.mp hc
    have hcanopy := canopy_bounds hc'
    rw [← heq] at hcanopy
    omega

/-- The cells of an oak that fits are in the columns its trunk is in, and between the heights. -/
theorem Fits.cell (h : oak.Fits chunk) (hheight : 0 ≤ oak.height) (hc : c ∈ oak.trunk ++ oak.canopy) :
    c.1 / 16 = oak.x / 16 ∧ c.2.2 / 16 = oak.z / 16 ∧ chunk.minY ≤ c.2.1 ∧ c.2.1 < chunk.maxY := by
  obtain ⟨hx, hz, hlow, hhigh⟩ := h
  rcases List.mem_append.mp hc with hc | hc
  · have := mem_trunk.mp hc
    exact ⟨by rw [this.1], by rw [this.2.2], by omega, by omega⟩
  · have := canopy_bounds hc
    omega

theorem Fits.apart (h : oak.Fits chunk) (hheight : 0 ≤ oak.height) :
    (oak.trunk ++ oak.canopy).Pairwise fun c c' =>
      ¬Chunk.SameCell c.1 c.2.1 c.2.2 c'.1 c'.2.1 c'.2.2 := by
  refine oak.cells_nodup.imp_of_mem fun {c c'} hc hc' hne hsame => hne ?_
  have hcell := h.cell hheight hc
  have hcell' := h.cell hheight hc'
  obtain ⟨hx, hy, hz⟩ := hsame
  exact Prod.ext (by omega) (Prod.ext hy.symm (by omega))

theorem Fits.paints_in (h : oak.Fits chunk) (hheight : 0 ≤ oak.height) :
    ∀ p ∈ oak.paints palette, chunk.minY ≤ p.y ∧ p.y < chunk.maxY := by
  intro p hp
  rcases List.mem_append.mp hp with hp | hp
  all_goals
    obtain ⟨c, hc, rfl⟩ := List.mem_map.mp hp
  · exact (h.cell hheight (List.mem_append_left _ hc)).2.2
  · exact (h.cell hheight (List.mem_append_right _ hc)).2.2

theorem Fits.paints_apart (h : oak.Fits chunk) (hheight : 0 ≤ oak.height) :
    (oak.paints palette).Pairwise fun p q => ¬p.Covers q.x q.y q.z := by
  obtain ⟨htrunk, hcanopy, hacross⟩ := List.pairwise_append.mp (h.apart hheight)
  refine List.pairwise_append.mpr ⟨List.pairwise_map.mpr htrunk, List.pairwise_map.mpr hcanopy, ?_⟩
  intro p hp q hq
  obtain ⟨c, hc, rfl⟩ := List.mem_map.mp hp
  obtain ⟨c', hc', rfl⟩ := List.mem_map.mp hq
  exact hacross c hc c' hc'

end Oak

/-! ## The loops as paints -/

variable {chunk : Chunk} {palette : BlockPalette} {registry : BlockRegistry}
  {blockX surfaceY blockZ trunkHeight : I32}

theorem growLog_eq (x z y : Int) (state : Nat × Chunk) :
    growLog registry palette x z state y =
      Chunk.paint registry state ⟨x, y, z, fun _ => some palette.oakLog⟩ := by
  unfold growLog write Chunk.paint
  dsimp only
  cases state.2.setBlock x y z palette.oakLog registry with
  | error e => rfl
  | ok result =>
    obtain ⟨change, chunk'⟩ := result
    cases change <;> rfl

theorem growLeaf_eq {trunkTop : I32} {offset : Int × Int × Int} {x y z : Int}
    (hx : (I32.clamp (blockX.val + offset.1)).val = x)
    (hy : (I32.clamp ((I32.clamp (trunkTop.val + 1)).val + offset.2.1)).val = y)
    (hz : (I32.clamp (blockZ.val + offset.2.2)).val = z) (state : Nat × Chunk) :
    growLeaf registry palette blockX trunkTop blockZ state offset =
      Chunk.paint registry state ⟨x, y, z,
        fun id => if id = palette.oakLog then none else some palette.oakLeaves⟩ := by
  unfold growLeaf write Chunk.paint
  rw [hx, hy, hz]
  dsimp only
  split
  · rfl
  · dsimp only
    cases state.2.setBlock x y z palette.oakLeaves registry with
    | error e => rfl
    | ok result =>
      obtain ⟨change, chunk'⟩ := result
      cases change <;> rfl

theorem oakAt_height : 0 ≤ (oakAt blockX surfaceY blockZ trunkHeight).height := by
  simp only [oakAt, MIN_TRUNK_HEIGHT, MAX_TRUNK_HEIGHT]
  omega

theorem clampHeight_val :
    (clampHeight trunkHeight).val = (oakAt blockX surfaceY blockZ trunkHeight).height := by
  refine I32.clamp_of_mem ?_ ?_
  all_goals
    simp only [MIN_TRUNK_HEIGHT, MAX_TRUNK_HEIGHT]
    omega

theorem treeFits_iff : treeFitsInChunk blockX blockZ = true ↔
    (2 ≤ blockX.val % 16 ∧ blockX.val % 16 < 14) ∧ (2 ≤ blockZ.val % 16 ∧ blockZ.val % 16 < 14) := by
  simp only [treeFitsInChunk, CANOPY_RADIUS]
  norm_num

/-- The vertical rule, with sums that no bound cuts. -/
theorem vertical_iff (hmax : chunk.maxY < 2 ^ 31) :
    (chunk.maxY ≤ (I32.clamp ((I32.clamp
        ((surfaceY.saturatingAdd (clampHeight trunkHeight)).val + 1)).val + CANOPY_LAYERS)).val ∨
      surfaceY.val < chunk.minY) ↔
    ¬(chunk.minY ≤ surfaceY.val ∧
      surfaceY.val + (oakAt blockX surfaceY blockZ trunkHeight).height + 3 < chunk.maxY) := by
  have hheight := @oakAt_height blockX surfaceY blockZ trunkHeight
  have hsurface := surfaceY.property
  rw [I32.saturatingAdd_val, @clampHeight_val blockX surfaceY blockZ _]
  simp only [I32.clamp, CANOPY_LAYERS]
  omega

theorem placeOakAt_refused (hmax : chunk.maxY < 2 ^ 31)
    (hfits : ¬(oakAt blockX surfaceY blockZ trunkHeight).Fits chunk) :
    (placeOakAt chunk registry palette blockX surfaceY blockZ trunkHeight).2 = chunk ∧
      ∀ blocks, (placeOakAt chunk registry palette blockX surfaceY blockZ trunkHeight).1 ≠
        .placed blocks := by
  unfold placeOakAt
  dsimp only
  split
  · exact ⟨rfl, nofun⟩
  next hborder =>
  split
  · exact ⟨rfl, nofun⟩
  next hvertical =>
  rw [@vertical_iff _ blockX _ blockZ _ hmax, not_not] at hvertical
  have hcolumns := treeFits_iff.mp (by simpa using hborder)
  exact absurd ⟨hcolumns.1, hcolumns.2, hvertical.1, hvertical.2⟩ hfits

/-- An oak that fits is written as the paints of its cells. -/
theorem placeOakAt_eq (hmax : chunk.maxY < 2 ^ 31)
    (hfits : (oakAt blockX surfaceY blockZ trunkHeight).Fits chunk) :
    let tree := ((oakAt blockX surfaceY blockZ trunkHeight).paints palette).foldl
      (Chunk.paint registry) (0, chunk)
    placeOakAt chunk registry palette blockX surfaceY blockZ trunkHeight =
      (.placed tree.1, tree.2) := by
  intro tree
  obtain ⟨hx, hz, hlow, hhigh⟩ := hfits
  have hheight := @oakAt_height blockX surfaceY blockZ trunkHeight
  have hvertical := @vertical_iff _ blockX surfaceY blockZ trunkHeight hmax
  have hborder := @treeFits_iff blockX blockZ
  -- no sum of the coordinates leaves its type
  have hsurface := surfaceY.property
  have htop : (surfaceY.saturatingAdd (clampHeight trunkHeight)).val =
      surfaceY.val + (oakAt blockX surfaceY blockZ trunkHeight).height := by
    have := @clampHeight_val blockX surfaceY blockZ trunkHeight
    rw [I32.saturatingAdd_of_mem, this]
    all_goals
      rw [this]
      simp only [oakAt] at hhigh hheight ⊢
      omega
  have hfirst : (I32.clamp (surfaceY.val + 1)).val = surfaceY.val + 1 := by
    refine I32.clamp_of_mem (by omega) ?_
    simp only [oakAt] at hhigh hheight
    omega
  have htrunk : (span (I32.clamp (surfaceY.val + 1)).val
        ((surfaceY.saturatingAdd (clampHeight trunkHeight)).val + 1)).foldl
        (growLog registry palette blockX.val blockZ.val) (0, chunk) =
      ((oakAt blockX surfaceY blockZ trunkHeight).trunk.map fun cell =>
        (⟨cell.1, cell.2.1, cell.2.2, fun _ => some palette.oakLog⟩ : Chunk.Paint)).foldl
        (Chunk.paint registry) (0, chunk) := by
    rw [hfirst, htop, Oak.trunk, List.map_map, List.foldl_map]
    exact List.foldl_ext _ _ _ fun state y _ => growLog_eq ..
  have hcanopy (state : Nat × Chunk) : canopyOffsets.foldl (growLeaf registry palette blockX
        (surfaceY.saturatingAdd (clampHeight trunkHeight)) blockZ) state =
      ((oakAt blockX surfaceY blockZ trunkHeight).canopy.map fun cell =>
        (⟨cell.1, cell.2.1, cell.2.2,
          fun id => if id = palette.oakLog then none else some palette.oakLeaves⟩ :
            Chunk.Paint)).foldl (Chunk.paint registry) state := by
    rw [Oak.canopy, List.map_map, List.foldl_map]
    refine List.foldl_ext _ _ _ fun state offset hoffset => growLeaf_eq ?_ ?_ ?_ state
    · have := canopyOffsets_bounds offset hoffset
      have := blockX.property
      simp only [oakAt] at hx ⊢
      exact I32.clamp_of_mem (by omega) (by omega)
    · have := canopyOffsets_bounds offset hoffset
      rw [htop]
      simp only [oakAt] at hhigh hheight ⊢
      rw [I32.clamp_of_mem (i := surfaceY.val + _ + 1) (by omega) (by omega)]
      exact I32.clamp_of_mem (by omega) (by omega)
    · have := canopyOffsets_bounds offset hoffset
      have := blockZ.property
      simp only [oakAt] at hz ⊢
      exact I32.clamp_of_mem (by omega) (by omega)
  have htree : tree = canopyOffsets.foldl (growLeaf registry palette blockX
      (surfaceY.saturatingAdd (clampHeight trunkHeight)) blockZ)
      ((span (I32.clamp (surfaceY.val + 1)).val
        ((surfaceY.saturatingAdd (clampHeight trunkHeight)).val + 1)).foldl
        (growLog registry palette blockX.val blockZ.val) (0, chunk)) := by
    rw [htrunk, hcanopy]
    exact List.foldl_append
  rw [htree, placeOakAt]
  dsimp only
  rw [if_neg (by rw [hborder.mpr ⟨hx, hz⟩]; decide), if_neg]
  rw [hvertical, not_not]
  exact ⟨hlow, hhigh⟩

/-! ## What an oak takes -/

/-- Leaves of any kind, by name. -/
def isLeaves (registry : BlockRegistry) (id : Int) : Bool :=
  (registry.blockName id).any fun name => "_leaves".toList.isSuffixOf name

/-- Air or leaves. -/
def isFree (registry : BlockRegistry) (id : Int) : Bool :=
  registry.isEmpty id || isLeaves registry id

/-- Only cells of air or leaves are not as they were. -/
def Spares (registry : BlockRegistry) (chunk chunk' : Chunk) : Prop :=
  ∀ x y z id, chunk.idAt x y z = some id → chunk'.idAt x y z ≠ some id → isFree registry id

/-- An oak finds only air, leaves and oak logs. -/
structure Oak.Clear (oak : Oak) (registry : BlockRegistry) (palette : BlockPalette) (chunk : Chunk) :
    Prop where
  trunk : ∀ c ∈ oak.trunk, ∀ id, chunk.idAt c.1 c.2.1 c.2.2 = some id →
    isFree registry id ∨ id = palette.oakLog
  canopy : ∀ c ∈ oak.canopy, ∀ id, chunk.idAt c.1 c.2.1 c.2.2 = some id →
    isFree registry id ∨ id = palette.oakLog ∨ id = palette.oakLeaves

/-- What a placed oak leaves. -/
structure Oak.Stands (oak : Oak) (palette : BlockPalette) (chunk chunk' : Chunk) : Prop where
  shape : Chunk.SameShape chunk chunk'
  trunk : ∀ c ∈ oak.trunk, chunk'.idAt c.1 c.2.1 c.2.2 = some palette.oakLog
  canopy : ∀ c ∈ oak.canopy, chunk'.idAt c.1 c.2.1 c.2.2 = (chunk.idAt c.1 c.2.1 c.2.2).map fun id =>
    if id = palette.oakLog then palette.oakLog else palette.oakLeaves
  others : ∀ x y z, (∀ c ∈ oak.trunk ++ oak.canopy, ¬Chunk.SameCell c.1 c.2.1 c.2.2 x y z) →
    chunk'.idAt x y z = chunk.idAt x y z

theorem sameCell_idAt {x y z x' y' z' : Int} (h : Chunk.SameCell x y z x' y' z') (chunk : Chunk) :
    chunk.idAt x' y' z' = chunk.idAt x y z := by
  obtain ⟨hx, rfl, hz⟩ := h
  simp only [Chunk.idAt, hx, hz]

theorem placeOakAt_stands (hmax : chunk.maxY < 2 ^ 31)
    (hfits : (oakAt blockX surfaceY blockZ trunkHeight).Fits chunk) :
    let result := placeOakAt chunk registry palette blockX surfaceY blockZ trunkHeight
    result.1 = .placed (Chunk.changed chunk result.2).ncard ∧
      (oakAt blockX surfaceY blockZ trunkHeight).Stands palette chunk result.2 := by
  intro result
  have hheight := @oakAt_height blockX surfaceY blockZ trunkHeight
  have hin := @Oak.Fits.paints_in _ _ palette hfits hheight
  have hapart := @Oak.Fits.paints_apart _ _ palette hfits hheight
  have hresult := @placeOakAt_eq _ palette registry _ _ _ _ hmax hfits
  have hncard := @Chunk.changed_ncard registry (0, chunk) _ hin hapart
  obtain ⟨hshape, hcovered, hfree, hcount⟩ :=
    @Chunk.paintAll_spec registry (0, chunk) _ hin hapart
  refine ⟨?_, ?_⟩
  · rw [show result = _ from hresult, hncard, hcount]
    exact congrArg OakPlacement.placed (Nat.zero_add _)
  · rw [show result = _ from hresult]
    refine ⟨hshape, fun c hc => ?_, fun c hc => ?_, fun x y z hnone => hfree x y z fun p hp => ?_⟩
    · obtain ⟨old, hold⟩ := Option.isSome_iff_exists.mp ((Chunk.idAt_isSome_iff
        (x := c.1) (z := c.2.2)).mpr (hfits.cell hheight (List.mem_append_left _ hc)).2.2)
      have hpaint := hcovered _ (List.mem_append_left _ (List.mem_map_of_mem hc)) c.1 c.2.1 c.2.2
        ⟨rfl, rfl, rfl⟩
      rw [hpaint, hold]
      rfl
    · have hpaint := hcovered _ (List.mem_append_right _ (List.mem_map_of_mem hc)) c.1 c.2.1 c.2.2
        ⟨rfl, rfl, rfl⟩
      rw [hpaint]
      refine congrArg (Option.map · _) (funext fun id => ?_)
      rw [Chunk.Paint.onto]
      dsimp only
      split
      · next hlog => rw [hlog]; rfl
      · rfl
    · rcases List.mem_append.mp hp with hp | hp
      all_goals
        obtain ⟨c, hc, rfl⟩ := List.mem_map.mp hp
      · exact hnone c (List.mem_append_left _ hc)
      · exact hnone c (List.mem_append_right _ hc)

/-- An oak spares what is there exactly when it finds its cells clear. -/
theorem Oak.Stands.spares_iff {oak : Oak} {chunk' : Chunk} (h : oak.Stands palette chunk chunk') :
    Spares registry chunk chunk' ↔ oak.Clear registry palette chunk := by
  constructor
  · refine fun hspares => ⟨fun c hc id hid => ?_, fun c hc id hid => ?_⟩
    · by_cases hlog : id = palette.oakLog
      · exact .inr hlog
      · refine .inl (hspares _ _ _ id hid ?_)
        rw [h.trunk c hc]
        exact fun heq => hlog (Option.some.inj heq).symm
    · by_cases hlog : id = palette.oakLog
      · exact .inr (.inl hlog)
      by_cases hleaves : id = palette.oakLeaves
      · exact .inr (.inr hleaves)
      · refine .inl (hspares _ _ _ id hid ?_)
        rw [h.canopy c hc, hid, Option.map_some, if_neg hlog]
        exact fun heq => hleaves (Option.some.inj heq).symm
  · intro hclear x y z id hid hchanged
    by_cases hnone : ∀ c ∈ oak.trunk ++ oak.canopy, ¬Chunk.SameCell c.1 c.2.1 c.2.2 x y z
    · rw [h.others x y z hnone] at hchanged
      exact absurd hid hchanged
    push Not at hnone
    obtain ⟨c, hc, hcell⟩ := hnone
    rw [sameCell_idAt hcell] at hid hchanged
    rcases List.mem_append.mp hc with hc | hc
    · rw [h.trunk c hc] at hchanged
      exact (hclear.trunk c hc id hid).resolve_right fun heq => hchanged (heq ▸ rfl)
    · rw [h.canopy c hc, hid, Option.map_some] at hchanged
      rcases hclear.canopy c hc id hid with hfree | rfl | rfl
      · exact hfree
      · exact absurd (by rw [if_pos rfl]) hchanged
      · refine absurd (congrArg some ?_) hchanged
        split
        · next heq => exact heq.symm
        · rfl

end Apoptosis.L2.Worldgen
