import Apoptosis.Core.I32
import Apoptosis.L2World.ChunkWrites
/-!
# Placing a structure into a chunk (`worldgen/src/placement.rs`)

A resolved template is written block by block, in file order, into one chunk.
`Chunk::set_block` wraps horizontally, so whether a block is the chunk's is
decided before, in world coordinates.

Results:
* `visit_eq`: one turn of the loop by the block's fate.
* `ChunkArea.same_cell`: inside the area no two positions share a cell.
* `visitAll_spec`: what the whole loop leaves in every cell.
* `visitAll_accounted`: every block is counted, or its cell held its state.
* `place_exact`.
-/
namespace Apoptosis.L2.Worldgen
open Apoptosis.Core Apoptosis.L2.Registry Apoptosis.L2.Storage Apoptosis.L2.Terrain

/-- `[i32; 3]` -/
abbrev Triple := I32 × I32 × I32

/-- mirrors crates/worldgen/src/structure.rs:655-659 (`inside`) -/
def inside (size pos : Triple) : Bool :=
  (0 ≤ pos.1.val ∧ pos.1.val < size.1.val) ∧ (0 ≤ pos.2.1.val ∧ pos.2.1.val < size.2.1.val) ∧
    (0 ≤ pos.2.2.val ∧ pos.2.2.val < size.2.2.val)

/-- mirrors crates/worldgen/src/structure.rs:391-400 (`StructureBlock`) -/
structure StructureBlock where
  pos : Triple
  state : Nat

/-- mirrors crates/worldgen/src/structure.rs:506-515 (`ResolvedStructure`) -/
structure ResolvedStructure where
  size : Triple
  palette : List Int
  blocks : List StructureBlock

/-- mirrors crates/worldgen/src/placement.rs:104-122 (`CrossChunk`) -/
inductive CrossChunk where
  | singleChunk | clip
  deriving DecidableEq, Repr

/-- mirrors crates/worldgen/src/placement.rs:125-136 (`AirPolicy`) -/
inductive AirPolicy where
  | ignoreAir | overwrite
  deriving DecidableEq, Repr

/-- mirrors crates/worldgen/src/placement.rs:193-224 (`PlacementReport`) -/
structure PlacementReport where
  blocksWritten : Nat
  blocksOutside : Nat
  blocksOutOfWorld : Nat
  blocksAirSkipped : Nat
  blocksOutsideTemplate : Nat
  refused : Option String
  deriving DecidableEq, Repr

namespace PlacementReport

/-- mirrors crates/worldgen/src/placement.rs:228-238 (`PlacementReport::empty`) -/
def empty : PlacementReport := ⟨0, 0, 0, 0, 0, none⟩

/-- mirrors crates/worldgen/src/placement.rs:245-252 (`PlacementReport::accounted`) -/
def accounted (r : PlacementReport) : Nat :=
  r.blocksWritten + r.blocksOutside + r.blocksOutOfWorld + r.blocksAirSkipped +
    r.blocksOutsideTemplate

/-- mirrors crates/worldgen/src/placement.rs:267-273 (`PlacementReport::refuse`) -/
def refuse (name reason : String) : PlacementReport :=
  { empty with refused := some (name ++ ": " ++ reason) }

end PlacementReport

/-- mirrors crates/worldgen/src/placement.rs:375-383 (`ChunkArea`) -/
structure ChunkArea where
  minX : I32
  maxX : I32
  minZ : I32
  maxZ : I32
  minY : Int
  maxY : Int

namespace ChunkArea

def SECTION_WIDTH : I32 := ⟨16, by decide⟩

/-- mirrors crates/worldgen/src/placement.rs:393-403 (`ChunkArea::of`) -/
def of (chunk : Chunk) : ChunkArea :=
  let minX := I32.clamp (chunk.pos.x * 16)
  let minZ := I32.clamp (chunk.pos.z * 16)
  { minX
    maxX := minX.saturatingAdd SECTION_WIDTH
    minZ
    maxZ := minZ.saturatingAdd SECTION_WIDTH
    minY := chunk.minY
    maxY := chunk.maxY }

/-- mirrors crates/worldgen/src/placement.rs:411-413 (`ChunkArea::contains_horizontal`) -/
def containsHorizontal (area : ChunkArea) (x z : Int) : Bool :=
  (area.minX.val ≤ x ∧ x < area.maxX.val) ∧ (area.minZ.val ≤ z ∧ z < area.maxZ.val)

/-- mirrors crates/worldgen/src/placement.rs:416-418 (`ChunkArea::contains_vertical`) -/
def containsVertical (area : ChunkArea) (y : Int) : Bool := area.minY ≤ y ∧ y < area.maxY

end ChunkArea

/-- The three `checked_add`s of a block's position and the origin. -/
def worldPos (pos origin : Triple) : Option Triple := do
  let x ← pos.1.checkedAdd origin.1
  let y ← pos.2.1.checkedAdd origin.2.1
  let z ← pos.2.2.checkedAdd origin.2.2
  return (x, y, z)

/-- mirrors crates/worldgen/src/placement.rs:427-444 (`ResolvedStructure::blocks_outside_at`) -/
def ResolvedStructure.blocksOutsideAt (s : ResolvedStructure) (origin : Triple) (area : ChunkArea) :
    Nat :=
  s.blocks.countP fun block =>
    inside s.size block.pos && match worldPos block.pos origin with
      | none => true
      | some (x, y, z) => !area.containsHorizontal x.val z.val || !area.containsVertical y.val

/-- `{:?}` of `[i32; 3]` -/
def debugTriple (t : Triple) : String :=
  "[" ++ toString t.1.val ++ ", " ++ toString t.2.1.val ++ ", " ++ toString t.2.2.val ++ "]"

/-- The reason of a refusal. -/
def doesNotFit (s : ResolvedStructure) (origin : Triple) (outside : Nat) : String :=
  "does not fit in one chunk: " ++ toString outside ++ " of " ++ toString s.blocks.length ++
    " blocks fall outside (size " ++ debugTriple s.size ++ " at origin (" ++
    toString origin.1.val ++ ", " ++ toString origin.2.1.val ++ ", " ++ toString origin.2.2.val ++ "))"

/-- What the loop of `place` reads and does not write. -/
structure Site where
  structure_ : ResolvedStructure
  area : ChunkArea
  origin : Triple
  air : AirPolicy
  registry : BlockRegistry

/-- One turn of the loop of `place`. -/
def visit (site : Site) (state : PlacementReport × Chunk) (block : StructureBlock) :
    PlacementReport × Chunk :=
  let (report, chunk) := state
  if !inside site.structure_.size block.pos then
    ({ report with blocksOutsideTemplate := report.blocksOutsideTemplate + 1 }, chunk)
  else match worldPos block.pos site.origin with
  | none => ({ report with blocksOutside := report.blocksOutside + 1 }, chunk)
  | some (x, y, z) =>
    if !site.area.containsHorizontal x.val z.val then
      ({ report with blocksOutside := report.blocksOutside + 1 }, chunk)
    else if !site.area.containsVertical y.val then
      ({ report with blocksOutOfWorld := report.blocksOutOfWorld + 1 }, chunk)
    else match site.structure_.palette[block.state]? with
    | none => ({ report with blocksOutsideTemplate := report.blocksOutsideTemplate + 1 }, chunk)
    | some id =>
      if id = site.registry.airId ∧ site.air = .ignoreAir then
        ({ report with blocksAirSkipped := report.blocksAirSkipped + 1 }, chunk)
      else match chunk.setBlock x.val y.val z.val id site.registry with
      | .ok (some _, chunk) => ({ report with blocksWritten := report.blocksWritten + 1 }, chunk)
      | .ok (none, chunk) => (report, chunk)
      | .error _ => (report, chunk)

/-- mirrors crates/worldgen/src/placement.rs:295-370 (`place`) -/
def place (structure_ : ResolvedStructure) (chunk : Chunk) (origin : Triple) (air : AirPolicy)
    (crossChunk : CrossChunk) (registry : BlockRegistry) (name : String) : PlacementReport × Chunk :=
  let area := ChunkArea.of chunk
  let outside := structure_.blocksOutsideAt origin area
  if crossChunk = .singleChunk ∧ 0 < outside then
    (.refuse name (doesNotFit structure_ origin outside), chunk)
  else structure_.blocks.foldl (visit ⟨structure_, area, origin, air, registry⟩) (.empty, chunk)

/-! ## The fate of a block -/

inductive Fate where
  | outsideTemplate | outside | outOfWorld | airSkipped
  | write (x y z id : Int)

/-- Where a block of the template ends up. -/
def Site.fate (site : Site) (block : StructureBlock) : Fate :=
  if !inside site.structure_.size block.pos then .outsideTemplate
  else match worldPos block.pos site.origin with
  | none => .outside
  | some (x, y, z) =>
    if !site.area.containsHorizontal x.val z.val then .outside
    else if !site.area.containsVertical y.val then .outOfWorld
    else match site.structure_.palette[block.state]? with
    | none => .outsideTemplate
    | some id =>
      if id = site.registry.airId ∧ site.air = .ignoreAir then .airSkipped
      else .write x.val y.val z.val id

/-- The bucket of a fate other than a write. -/
def Fate.count (report : PlacementReport) : Fate → PlacementReport
  | outsideTemplate => { report with blocksOutsideTemplate := report.blocksOutsideTemplate + 1 }
  | outside => { report with blocksOutside := report.blocksOutside + 1 }
  | outOfWorld => { report with blocksOutOfWorld := report.blocksOutOfWorld + 1 }
  | airSkipped => { report with blocksAirSkipped := report.blocksAirSkipped + 1 }
  | write .. => report

/-- One turn of the loop by the block's fate. -/
theorem visit_eq (site : Site) (report : PlacementReport) (chunk : Chunk) (block : StructureBlock) :
    visit site (report, chunk) block = match site.fate block with
      | .write x y z id => match chunk.setBlock x y z id site.registry with
        | .ok (some _, chunk) => ({ report with blocksWritten := report.blocksWritten + 1 }, chunk)
        | .ok (none, chunk) => (report, chunk)
        | .error _ => (report, chunk)
      | fate => (fate.count report, chunk) := by
  unfold visit Site.fate
  dsimp only
  split
  · rfl
  cases worldPos block.pos site.origin with
  | none => rfl
  | some world =>
    obtain ⟨x, y, z⟩ := world
    dsimp only
    split
    · rfl
    split
    · rfl
    cases site.structure_.palette[block.state]? with
    | none => rfl
    | some id =>
      dsimp only
      split <;> rfl

/-- Where a block lands, if that is in the area. -/
theorem fate_write {site : Site} {block : StructureBlock} {x y z id : Int}
    (h : site.fate block = .write x y z id) :
    site.area.containsHorizontal x z ∧ site.area.containsVertical y := by
  unfold Site.fate at h
  split at h
  · cases h
  split at h
  · cases h
  split at h
  · cases h
  next hx =>
  split at h
  · cases h
  next hy =>
  split at h
  · cases h
  split at h
  · cases h
  · cases h
    exact ⟨by simpa using hx, by simpa using hy⟩

/-- The state a block gives to the cell of a position. -/
def Site.hits (site : Site) (x y z : Int) (block : StructureBlock) : Option Int :=
  match site.fate block with
  | .write x' y' z' id => if Chunk.SameCell x' y' z' x y z then some id else none
  | _ => none

/-- The area of the loop has the chunk's heights. -/
def Site.Over (site : Site) (chunk : Chunk) : Prop :=
  site.area.minY = chunk.minY ∧ site.area.maxY = chunk.maxY

/-- What a turn of the loop leaves, and how it is counted. -/
structure Visited (site : Site) (block : StructureBlock) (before after : PlacementReport × Chunk) :
    Prop where
  pos : after.2.pos = before.2.pos
  low : after.2.minSectionY = before.2.minSectionY
  sections : after.2.sections.length = before.2.sections.length
  refused : after.1.refused = before.1.refused
  cells : ∀ x y z, after.2.idAt x y z = (site.hits x y z block).or (before.2.idAt x y z)
  counted : (after.1.accounted = before.1.accounted ∧ ∃ x y z id, site.fate block = .write x y z id ∧
      before.2.idAt x y z = some id) ∨
    (after.1.accounted = before.1.accounted + 1 ∧ ∀ x y z id, site.fate block = .write x y z id →
      before.2.idAt x y z ≠ some id)

theorem visit_spec {site : Site} {report : PlacementReport} {chunk : Chunk} (hover : site.Over chunk)
    (block : StructureBlock) : Visited site block (report, chunk) (visit site (report, chunk) block) := by
  rw [visit_eq]
  -- a block that is not written is counted, and nothing else happens
  have hskip (fate : Fate) (hfate : site.fate block = fate)
      (hnone : ∀ x y z id, fate ≠ .write x y z id)
      (hcount : (fate.count report).accounted = report.accounted + 1)
      (hrefused : (fate.count report).refused = report.refused) :
      Visited site block (report, chunk) (fate.count report, chunk) := by
    refine ⟨rfl, rfl, rfl, hrefused, fun x y z => ?_, .inr ⟨hcount, fun x y z id h => ?_⟩⟩
    · have hhits : site.hits x y z block = none := by
        rw [Site.hits, hfate]
        cases fate with
        | write x' y' z' id => exact absurd rfl (hnone x' y' z' id)
        | _ => rfl
      rw [hhits]
      rfl
    · exact absurd (hfate.symm.trans h) (hnone x y z id)
  cases hfate : site.fate block with
  | write x y z id =>
    obtain ⟨-, hy⟩ := fate_write hfate
    have hrange := of_decide_eq_true hy
    rw [hover.1, hover.2] at hrange
    obtain ⟨⟨change, chunk'⟩, hset⟩ := Chunk.setBlock_ok (x := x) (z := z) hrange.1 hrange.2
      id site.registry
    obtain ⟨hpos, hlow, hsections, hcells⟩ := Chunk.setBlock_spec hset
    have hhits (x' y' z' : Int) : chunk'.idAt x' y' z' =
        (site.hits x' y' z' block).or (chunk.idAt x' y' z') := by
      rw [hcells, Site.hits, hfate]
      by_cases hcell : Chunk.SameCell x y z x' y' z'
      · simp only [if_pos hcell, Option.some_or]
      · simp only [if_neg hcell, Option.none_or]
    simp only [hset]
    cases change with
    | none =>
      obtain ⟨rfl, hsame⟩ := Chunk.setBlock_same hset
      exact ⟨rfl, rfl, rfl, rfl, hhits, .inl ⟨rfl, x, y, z, id, hfate, hsame⟩⟩
    | some change =>
      obtain ⟨previous, hprevious, hne, -⟩ := Chunk.setBlock_changed hset
      refine ⟨hpos, hlow, hsections, rfl, hhits, .inr ⟨?_, fun x' y' z' id' h => ?_⟩⟩
      · simp only [PlacementReport.accounted]
        omega
      · cases hfate.symm.trans h
        rw [hprevious]
        exact fun heq => hne (Option.some.inj heq)
  | outsideTemplate =>
    exact hskip _ hfate nofun (by simp only [Fate.count, PlacementReport.accounted]; omega) rfl
  | outside =>
    exact hskip _ hfate nofun (by simp only [Fate.count, PlacementReport.accounted]; omega) rfl
  | outOfWorld =>
    exact hskip _ hfate nofun (by simp only [Fate.count, PlacementReport.accounted]; omega) rfl
  | airSkipped =>
    exact hskip _ hfate nofun (by simp only [Fate.count, PlacementReport.accounted]; omega) rfl

/-! ## The loop -/

def Site.visitAll (site : Site) (state : PlacementReport × Chunk) (blocks : List StructureBlock) :
    PlacementReport × Chunk := blocks.foldl (visit site) state

/-- The blocks that are to be written to a cell that holds their state when they are visited. -/
def Site.heldAlready (site : Site) : PlacementReport × Chunk → List StructureBlock → Nat
  | _, [] => 0
  | state, block :: blocks =>
    (match site.fate block with
      | .write x y z id => if state.2.idAt x y z = some id then 1 else 0
      | _ => 0) + site.heldAlready (visit site state block) blocks

variable {site : Site} {state : PlacementReport × Chunk}

theorem Visited.over {block : StructureBlock} {before after : PlacementReport × Chunk}
    (h : Visited site block before after) (hover : site.Over before.2) : site.Over after.2 := by
  unfold Site.Over Chunk.minY Chunk.maxY at hover ⊢
  rw [h.low, h.sections]
  exact hover

/-- What the whole loop leaves: every cell as the last block that hits it. -/
theorem visitAll_spec (hover : site.Over state.2) (blocks : List StructureBlock) :
    let final := site.visitAll state blocks
    site.Over final.2 ∧ final.2.pos = state.2.pos ∧ final.2.minSectionY = state.2.minSectionY ∧
      final.2.sections.length = state.2.sections.length ∧ final.1.refused = state.1.refused ∧
      ∀ x y z, final.2.idAt x y z =
        (blocks.filterMap (site.hits x y z)).getLast?.or (state.2.idAt x y z) := by
  intro final
  subst final
  induction blocks using List.reverseRecOn with
  | nil => exact ⟨hover, rfl, rfl, rfl, rfl, fun _ _ _ => rfl⟩
  | append_singleton blocks block ih =>
    obtain ⟨hthen, hpos, hlow, hsections, hrefused, hcells⟩ := ih
    have hvisit : Visited site block (site.visitAll state blocks)
        (visit site (site.visitAll state blocks) block) := visit_spec hthen block
    have hsplit : site.visitAll state (blocks ++ [block]) =
        visit site (site.visitAll state blocks) block := by
      rw [Site.visitAll, List.foldl_append]
      rfl
    rw [hsplit]
    refine ⟨hvisit.over hthen, hvisit.pos.trans hpos, hvisit.low.trans hlow,
      hvisit.sections.trans hsections, hvisit.refused.trans hrefused, fun x y z => ?_⟩
    rw [hvisit.cells, hcells, List.filterMap_append]
    cases hhits : site.hits x y z block with
    | none => simp [hhits]
    | some id => simp [hhits]

/-- Every block is counted once, or its cell held its state when it was visited. -/
theorem visitAll_accounted (hover : site.Over state.2) (blocks : List StructureBlock) :
    (site.visitAll state blocks).1.accounted + site.heldAlready state blocks =
      state.1.accounted + blocks.length := by
  induction blocks generalizing state with
  | nil => rfl
  | cons block blocks ih =>
    have hvisit : Visited site block state (visit site state block) := visit_spec hover block
    have hrest := ih (hvisit.over hover)
    change (site.visitAll (visit site state block) blocks).1.accounted + (_ + _) = _
    rw [List.length_cons]
    rcases hvisit.counted with ⟨hsame, x, y, z, id, hfate, hheld⟩ | ⟨hmore, hnot⟩
    · rw [hfate]
      dsimp only
      rw [if_pos hheld]
      omega
    · have hzero : (match site.fate block with
          | .write x y z id => if state.2.idAt x y z = some id then 1 else 0
          | _ => 0) = 0 := by
        cases hfate : site.fate block with
        | write x y z id => exact if_neg (hnot x y z id hfate)
        | _ => rfl
      rw [hzero]
      omega

/-! ## Where a block lands -/

/-- The world position of a block, when that is one. -/
def Lands (origin : Triple) (block : StructureBlock) (world : Triple) : Prop :=
  world.1.val = block.pos.1.val + origin.1.val ∧
    world.2.1.val = block.pos.2.1.val + origin.2.1.val ∧
    world.2.2.val = block.pos.2.2.val + origin.2.2.val

def ChunkArea.Contains (area : ChunkArea) (world : Triple) : Prop :=
  area.containsHorizontal world.1.val world.2.2.val ∧ area.containsVertical world.2.1.val

/-- A block that lands at a position of the area. -/
def LandsInside (area : ChunkArea) (origin : Triple) (block : StructureBlock) : Prop :=
  ∃ world, Lands origin block world ∧ area.Contains world

theorem worldPos_eq_some {pos origin world : Triple} {state : Nat} :
    worldPos pos origin = some world ↔ Lands origin ⟨pos, state⟩ world := by
  obtain ⟨wx, wy, wz⟩ := world
  constructor
  · intro h
    obtain ⟨x, hx, h⟩ := Option.bind_eq_some_iff.mp h
    obtain ⟨y, hy, h⟩ := Option.bind_eq_some_iff.mp h
    obtain ⟨z, hz, h⟩ := Option.bind_eq_some_iff.mp h
    cases h
    exact ⟨I32.checkedAdd_eq_some hx, I32.checkedAdd_eq_some hy, I32.checkedAdd_eq_some hz⟩
  · rintro ⟨hx, hy, hz⟩
    simp only [worldPos, I32.checkedAdd_of_val hx, I32.checkedAdd_of_val hy,
      I32.checkedAdd_of_val hz]
    rfl

theorem Lands.unique {origin : Triple} {block : StructureBlock} {world world' : Triple}
    (h : Lands origin block world) (h' : Lands origin block world') : world = world' :=
  Prod.ext (Subtype.ext (h.1.trans h'.1.symm)) (Prod.ext (Subtype.ext (h.2.1.trans h'.2.1.symm))
    (Subtype.ext (h.2.2.trans h'.2.2.symm)))

/-- The blocks of the template that are written, with where and what. -/
def Site.Writes (site : Site) (block : StructureBlock) (world : Triple) (id : Int) : Prop :=
  inside site.structure_.size block.pos ∧ Lands site.origin block world ∧
    site.area.Contains world ∧ site.structure_.palette[block.state]? = some id ∧
    ¬(id = site.registry.airId ∧ site.air = .ignoreAir)

theorem fate_write_iff {block : StructureBlock} {world : Triple} {id : Int} :
    site.fate block = .write world.1.val world.2.1.val world.2.2.val id ↔
      site.Writes block world id := by
  unfold Site.fate Site.Writes ChunkArea.Contains
  rw [← @worldPos_eq_some _ _ _ block.state]
  by_cases hinside : inside site.structure_.size block.pos
  · simp only [hinside, Bool.not_true, Bool.false_eq_true, if_false, true_and]
    cases hworld : worldPos block.pos site.origin with
    | none => simp
    | some landed =>
      obtain ⟨x, y, z⟩ := landed
      dsimp only
      have hsame : (x.val = world.1.val ∧ y.val = world.2.1.val ∧ z.val = world.2.2.val) ↔
          (x, y, z) = world := by
        simp only [Prod.ext_iff, Subtype.ext_iff]
      by_cases hx : site.area.containsHorizontal x.val z.val
      · by_cases hy : site.area.containsVertical y.val
        · simp only [hx, hy, Bool.not_true, Bool.false_eq_true, if_false, Option.some.injEq]
          cases site.structure_.palette[block.state]? with
          | none => simp
          | some id' =>
            dsimp only
            split
            · next hskip =>
              refine iff_of_false nofun ?_
              rintro ⟨-, -, hid, hnot⟩
              cases hid
              exact hnot hskip
            · next hskip =>
              simp only [Fate.write.injEq, Option.some.injEq]
              constructor
              · rintro ⟨hx', hy', hz', rfl⟩
                obtain rfl := hsame.mp ⟨hx', hy', hz'⟩
                exact ⟨rfl, ⟨hx, hy⟩, rfl, hskip⟩
              · rintro ⟨rfl, -, rfl, -⟩
                exact ⟨rfl, rfl, rfl, rfl⟩
        · simp only [hx, hy, Bool.not_true, Bool.not_false, Bool.false_eq_true, if_false, if_true]
          refine iff_of_false nofun ?_
          rintro ⟨hw, ⟨-, hv⟩, -⟩
          cases hw
          exact hy hv
      · simp only [hx, Bool.not_false, if_true]
        refine iff_of_false nofun ?_
        rintro ⟨hw, ⟨hh, -⟩, -⟩
        cases hw
        exact hx hh
  · simp [hinside]

theorem blocksOutsideAt_pos_iff {s : ResolvedStructure} {origin : Triple} {area : ChunkArea} :
    0 < s.blocksOutsideAt origin area ↔
      ∃ block ∈ s.blocks, inside s.size block.pos ∧ ¬LandsInside area origin block := by
  rw [ResolvedStructure.blocksOutsideAt, List.countP_pos_iff]
  refine exists_congr fun block => and_congr_right fun _ => ?_
  rw [Bool.and_eq_true]
  refine and_congr_right fun _ => ?_
  cases hworld : worldPos block.pos origin with
  | none =>
    refine iff_of_true rfl ?_
    rintro ⟨world, hlands, -⟩
    rw [worldPos_eq_some.mpr hlands] at hworld
    cases hworld
  | some world =>
    have hlands : Lands origin block world := worldPos_eq_some.mp hworld
    have hinside : LandsInside area origin block ↔ area.Contains world := by
      constructor
      · rintro ⟨world', hlands', harea⟩
        rwa [hlands.unique hlands']
      · exact fun harea => ⟨world, hlands, harea⟩
    rw [hinside, ChunkArea.Contains, not_and_or]
    simp

/-! ## Cells and positions -/

theorem saturated_columns {i : Int} (h : -2 ^ 27 ≤ i ∧ i < 2 ^ 27 - 1) :
    (I32.clamp (i * 16)).val = i * 16 ∧
      ((I32.clamp (i * 16)).saturatingAdd ChunkArea.SECTION_WIDTH).val = i * 16 + 16 := by
  have hmin : (I32.clamp (i * 16)).val = i * 16 := I32.clamp_of_mem (by omega) (by omega)
  refine ⟨hmin, ?_⟩
  rw [I32.saturatingAdd_val, hmin]
  change max _ (min (i * 16 + 16) _) = _
  omega

/-- The box of a chunk is its sixteen columns each way, unless its positions leave `i32` or end
with the last one. -/
theorem area_columns {chunk : Chunk} (hx : -2 ^ 27 ≤ chunk.pos.x ∧ chunk.pos.x < 2 ^ 27 - 1)
    (hz : -2 ^ 27 ≤ chunk.pos.z ∧ chunk.pos.z < 2 ^ 27 - 1) (x z : Int) :
    (ChunkArea.of chunk).containsHorizontal x z ↔ x / 16 = chunk.pos.x ∧ z / 16 = chunk.pos.z := by
  obtain ⟨hminX, hmaxX⟩ := saturated_columns hx
  obtain ⟨hminZ, hmaxZ⟩ := saturated_columns hz
  rw [ChunkArea.containsHorizontal, decide_eq_true_iff]
  change ((I32.clamp (chunk.pos.x * 16)).val ≤ x ∧
    x < ((I32.clamp (chunk.pos.x * 16)).saturatingAdd ChunkArea.SECTION_WIDTH).val) ∧
    ((I32.clamp (chunk.pos.z * 16)).val ≤ z ∧
    z < ((I32.clamp (chunk.pos.z * 16)).saturatingAdd ChunkArea.SECTION_WIDTH).val) ↔ _
  omega

theorem area_width (chunk : Chunk) :
    (ChunkArea.of chunk).maxX.val ≤ (ChunkArea.of chunk).minX.val + 16 ∧
      (ChunkArea.of chunk).maxZ.val ≤ (ChunkArea.of chunk).minZ.val + 16 := by
  have hx := (ChunkArea.of chunk).minX.property
  have hz := (ChunkArea.of chunk).minZ.property
  have hmaxX : (ChunkArea.of chunk).maxX.val =
      max (-2 ^ 31) (min ((ChunkArea.of chunk).minX.val + 16) (2 ^ 31 - 1)) := rfl
  have hmaxZ : (ChunkArea.of chunk).maxZ.val =
      max (-2 ^ 31) (min ((ChunkArea.of chunk).minZ.val + 16) (2 ^ 31 - 1)) := rfl
  omega

/-- Inside the area no two positions share a cell. -/
theorem same_cell {chunk : Chunk} {world world' : Triple} (h : (ChunkArea.of chunk).Contains world)
    (h' : (ChunkArea.of chunk).Contains world')
    (hcell : Chunk.SameCell world.1.val world.2.1.val world.2.2.val world'.1.val world'.2.1.val
      world'.2.2.val) : world = world' := by
  obtain ⟨hwidthX, hwidthZ⟩ := area_width chunk
  have hin := of_decide_eq_true h.1
  have hin' := of_decide_eq_true h'.1
  obtain ⟨hx, hy, hz⟩ := hcell
  refine Prod.ext (Subtype.ext ?_) (Prod.ext (Subtype.ext hy.symm) (Subtype.ext ?_)) <;> omega

/-- What is written lands at a position of its own. -/
theorem fate_world {site : Site} {block : StructureBlock} {x y z id : Int}
    (h : site.fate block = .write x y z id) :
    ∃ world : Triple, x = world.1.val ∧ y = world.2.1.val ∧ z = world.2.2.val ∧
      site.Writes block world id := by
  have hworld : ∃ world : Triple, x = world.1.val ∧ y = world.2.1.val ∧ z = world.2.2.val := by
    unfold Site.fate at h
    split at h
    · cases h
    split at h
    · cases h
    next a b c _ =>
    split at h
    · cases h
    split at h
    · cases h
    split at h
    · cases h
    split at h
    · cases h
    · cases h
      exact ⟨(a, b, c), rfl, rfl, rfl⟩
  obtain ⟨world, rfl, rfl, rfl⟩ := hworld
  exact ⟨world, rfl, rfl, rfl, fate_write_iff.mp h⟩

theorem hits_eq_some {chunk : Chunk} {site : Site} (harea : site.area = .of chunk) {world : Triple}
    (hworld : site.area.Contains world) {block : StructureBlock} {id : Int} :
    site.hits world.1.val world.2.1.val world.2.2.val block = some id ↔ site.Writes block world id := by
  constructor
  · intro h
    unfold Site.hits at h
    split at h
    · next x y z id' hfate =>
      split at h
      · next hcell =>
        cases h
        obtain ⟨landed, rfl, rfl, rfl, hwrites⟩ := fate_world hfate
        have harea' := hwrites.2.2.1
        rw [harea] at hworld harea'
        rwa [← same_cell harea' hworld hcell]
      · cases h
    · cases h
  · intro h
    rw [Site.hits, fate_write_iff.mpr h]
    exact if_pos ⟨rfl, rfl, rfl⟩

/-- A cell that no position of the area has is not written. -/
theorem hits_outside {site : Site} {x y z : Int}
    (h : ∀ world, site.area.Contains world →
      ¬Chunk.SameCell world.1.val world.2.1.val world.2.2.val x y z) (block : StructureBlock) :
    site.hits x y z block = none := by
  unfold Site.hits
  split
  · next x' y' z' id hfate =>
    obtain ⟨landed, rfl, rfl, rfl, hwrites⟩ := fate_world hfate
    exact if_neg (h landed hwrites.2.2.1)
  · rfl

/-- The last block in file order that is written to a position. -/
theorem getLast?_hits {f : StructureBlock → Option Int} {blocks before after : List StructureBlock}
    {block : StructureBlock} {id : Int} (hsplit : blocks = before ++ block :: after)
    (hblock : f block = some id) (hafter : ∀ b ∈ after, f b = none) :
    (blocks.filterMap f).getLast? = some id := by
  have hnone : after.filterMap f = [] := List.filterMap_eq_nil_iff.mpr hafter
  rw [hsplit, List.filterMap_append, List.filterMap_cons_some hblock, hnone]
  simp

/-- Placing is exact: a structure that would leave the chunk's box is refused whole under
`SingleChunk`; otherwise every cell holds the last state written to it, and every block is
counted or found its state there. -/
theorem place_exact (structure_ : ResolvedStructure) (chunk : Chunk) (origin : Triple)
    (air : AirPolicy) (crossChunk : CrossChunk) (registry : BlockRegistry) (name : String) :
    let area := ChunkArea.of chunk
    let site : Site := ⟨structure_, area, origin, air, registry⟩
    let result := place structure_ chunk origin air crossChunk registry name
    let leaves := ∃ block ∈ structure_.blocks, inside structure_.size block.pos ∧
      ¬LandsInside area origin block
    (result.1.refused.isSome ↔ crossChunk = .singleChunk ∧ leaves) ∧
    (crossChunk = .singleChunk ∧ leaves → result.2 = chunk) ∧
    (¬(crossChunk = .singleChunk ∧ leaves) →
      result.2.pos = chunk.pos ∧ result.2.minSectionY = chunk.minSectionY ∧
      result.2.sections.length = chunk.sections.length ∧
      (∀ world, area.Contains world →
        (∀ before block after id, structure_.blocks = before ++ block :: after →
          site.Writes block world id → (∀ b ∈ after, ∀ id', ¬site.Writes b world id') →
          result.2.idAt world.1.val world.2.1.val world.2.2.val = some id) ∧
        ((∀ b ∈ structure_.blocks, ∀ id, ¬site.Writes b world id) →
          result.2.idAt world.1.val world.2.1.val world.2.2.val =
            chunk.idAt world.1.val world.2.1.val world.2.2.val)) ∧
      (∀ x y z, (∀ world, area.Contains world →
          ¬Chunk.SameCell world.1.val world.2.1.val world.2.2.val x y z) →
        result.2.idAt x y z = chunk.idAt x y z) ∧
      result.1.accounted + site.heldAlready (.empty, chunk) structure_.blocks =
        structure_.blocks.length) ∧
    (-2 ^ 27 ≤ chunk.pos.x ∧ chunk.pos.x < 2 ^ 27 - 1 →
      -2 ^ 27 ≤ chunk.pos.z ∧ chunk.pos.z < 2 ^ 27 - 1 → ∀ x z,
        (area.containsHorizontal x z ↔ x / 16 = chunk.pos.x ∧ z / 16 = chunk.pos.z)) := by
  intro area site result leaves
  have hleaves : 0 < structure_.blocksOutsideAt origin area ↔ leaves := blocksOutsideAt_pos_iff
  have hover : site.Over (PlacementReport.empty, chunk).2 := ⟨rfl, rfl⟩
  obtain ⟨-, hpos, hlow, hsections, hrefused, hcells⟩ := visitAll_spec hover structure_.blocks
  have haccounted := visitAll_accounted hover structure_.blocks
  rw [show (PlacementReport.empty, chunk).1.accounted = 0 from rfl, Nat.zero_add] at haccounted
  by_cases hsingle : crossChunk = .singleChunk ∧ leaves
  · have hresult : result = (.refuse name (doesNotFit structure_ origin
        (structure_.blocksOutsideAt origin area)), chunk) :=
      if_pos ⟨hsingle.1, hleaves.mpr hsingle.2⟩
    refine ⟨iff_of_true ?_ hsingle, fun _ => ?_, fun h => absurd hsingle h, area_columns⟩
    · rw [hresult]; rfl
    · rw [hresult]
  · have hresult : result = site.visitAll (.empty, chunk) structure_.blocks :=
      if_neg fun h => hsingle ⟨h.1, hleaves.mp h.2⟩
    rw [hresult]
    refine ⟨iff_of_false ?_ hsingle, fun h => absurd h hsingle, fun _ => ⟨hpos, hlow, hsections,
      fun world hworld => ⟨?_, ?_⟩, ?_, haccounted⟩, area_columns⟩
    · rw [hrefused]; nofun
    · intro before block after id hsplit hwrites hafter
      have hlast := getLast?_hits hsplit ((hits_eq_some rfl hworld).mpr hwrites) fun b hb => by
        refine Option.eq_none_iff_forall_ne_some.mpr fun id' hid' => hafter b hb id' ?_
        exact (hits_eq_some rfl hworld).mp hid'
      rw [hcells, hlast]
      rfl
    · intro hnone
      have hempty : structure_.blocks.filterMap
          (site.hits world.1.val world.2.1.val world.2.2.val) = [] := by
        refine List.filterMap_eq_nil_iff.mpr fun b hb =>
          Option.eq_none_iff_forall_ne_some.mpr fun id hid => hnone b hb id ?_
        exact (hits_eq_some rfl hworld).mp hid
      rw [hcells, hempty]
      rfl
    · intro x y z hout
      have hempty : structure_.blocks.filterMap (site.hits x y z) = [] :=
        List.filterMap_eq_nil_iff.mpr fun b _ => hits_outside hout b
      rw [hcells, hempty]
      rfl

end Apoptosis.L2.Worldgen
