import Apoptosis.L1Encoding.NbtTag
import Apoptosis.L2Registry.Blocks
import Apoptosis.L2Storage.Keys
import Apoptosis.ServerError
/-!
# The runtime chunk (`world/src/chunk.rs`)

Sections in a row, found by their distance from the lowest: a section's own `y`
is a label that reading and writing blocks never looks at.

* `index_inj`: a local cell has a place of its own.
* `setBlock_spec`: what a write changes, and that it changes nothing else.
-/
namespace Apoptosis.L2.Terrain
open Apoptosis.Core Apoptosis.L1.Nbt Apoptosis.L2.Registry Apoptosis.L2.Storage

/-- mirrors crates/world/src/chunk.rs:32-50 (`Section`); every constructor fills all the cells -/
structure Section where
  y : Int
  blocks : List Int
  nonEmptyBlockCount : Int
  blockLight : Option (List UInt8)
  skyLight : Option (List UInt8)
  size : blocks.length = 4096
  deriving DecidableEq

namespace Section

/-- mirrors crates/world/src/chunk.rs:50-58 (`Section::air`) -/
def air (y airId : Int) : Section :=
  ⟨y, List.replicate 4096 airId, 0, none, none, List.length_replicate⟩

/-- mirrors crates/world/src/chunk.rs:62-64 (`Section::index`) -/
def index (localX localY localZ : Int) : Nat := (localX + localZ * 16 + localY * 256).toNat

/-- mirrors crates/world/src/chunk.rs:73-82 (`Section::get`) -/
def get (s : Section) (localX localY localZ : Int) : Option Int :=
  if (0 ≤ localX ∧ localX < 16) ∧ (0 ≤ localY ∧ localY < 16) ∧ (0 ≤ localZ ∧ localZ < 16) then
    s.blocks[index localX localY localZ]?
  else none

end Section

/-- mirrors crates/world/src/chunk.rs:87-111 (`Chunk`) -/
structure Chunk where
  pos : ChunkPos
  sections : List Section
  minSectionY : Int
  status : String
  dataVersion : BitVec 32
  lastUpdate : Int
  inhabitedTime : Int
  lightCorrect : Bool
  dirty : Bool
  extra : List (String × NbtTag)

namespace Chunk

/-- `i8` arithmetic that wraps. -/
def wrap8 (i : Int) : Int := (i + 128) % 256 - 128

/-- mirrors crates/world/src/chunk.rs:114-138 (`Chunk::air`) -/
def air (pos : ChunkPos) (minSectionY : Int) (sectionCount : Nat) (registry : BlockRegistry) : Chunk where
  pos := pos
  sections := (List.range sectionCount).map fun offset =>
    Section.air (wrap8 (minSectionY + wrap8 offset)) registry.airId
  minSectionY := minSectionY
  status := "minecraft:full"
  dataVersion := 4790
  lastUpdate := 0
  inhabitedTime := 0
  lightCorrect := false
  dirty := true
  extra := []

/-- mirrors crates/world/src/chunk.rs:147-155 (`max_y`, `min_y`) -/
def maxY (chunk : Chunk) : Int := (chunk.minSectionY + chunk.sections.length) * 16

def minY (chunk : Chunk) : Int := chunk.minSectionY * 16

/-- mirrors crates/world/src/chunk.rs:153-159 (`Chunk::section_index_for`) -/
def sectionIndexFor (chunk : Chunk) (blockY : Int) : Option Nat :=
  let offset := blockY / 16 - chunk.minSectionY
  if 0 ≤ offset ∧ offset.toNat < chunk.sections.length then some offset.toNat else none

/-- mirrors crates/world/src/chunk.rs:167-177 (`Chunk::get_block`) -/
def getBlock (chunk : Chunk) (blockX blockY blockZ : Int) : Int :=
  match chunk.sectionIndexFor blockY with
  | none => 0
  | some index => match chunk.sections[index]? with
    | none => 0
    | some s => (s.get (blockX % 16) (blockY % 16) (blockZ % 16)).getD 0

def outsideError (chunk : Chunk) (blockY : Int) : ServerError :=
  .invalidAction ("y=" ++ toString blockY ++ " is outside chunk (" ++ toString chunk.pos.x ++ ", " ++
    toString chunk.pos.z ++ ") which spans " ++ toString chunk.minY ++ ".." ++
    toString (chunk.maxY - 1))

/-- The section after a write, with the cells that hold a block counted again. -/
def writeSection (s : Section) (registry : BlockRegistry) (slot : Nat) (previous id : Int) : Section where
  y := s.y
  blocks := s.blocks.set slot id
  nonEmptyBlockCount := match registry.isEmpty previous, registry.isEmpty id with
    | true, false => s.nonEmptyBlockCount + 1
    | false, true => s.nonEmptyBlockCount - 1
    | _, _ => s.nonEmptyBlockCount
  blockLight := s.blockLight
  skyLight := s.skyLight
  size := by rw [List.length_set, s.size]

/-- mirrors crates/world/src/chunk.rs:189-225 (`Chunk::set_block`): the ids before and after, if the
write changed anything -/
def setBlock (chunk : Chunk) (blockX blockY blockZ id : Int) (registry : BlockRegistry) :
    ServerResult (Option (Int × Int) × Chunk) :=
  match chunk.sectionIndexFor blockY with
  | none => .error (chunk.outsideError blockY)
  | some index => match chunk.sections[index]? with
    | none => .error (chunk.outsideError blockY)
    | some s =>
      let slot := Section.index (blockX % 16) (blockY % 16) (blockZ % 16)
      let previous := s.blocks.getD slot 0
      if previous = id then .ok (none, chunk)
      else .ok (some (previous, id), { chunk with
        sections := chunk.sections.set index (writeSection s registry slot previous id)
        dirty := true })

/-! ## Reading and writing -/

/-- The ids of a row of sections at a height, with no section as none. -/
def idAt (chunk : Chunk) (blockX blockY blockZ : Int) : Option Int :=
  (chunk.sectionIndexFor blockY).bind fun index => (chunk.sections[index]?).bind fun s =>
    s.blocks[Section.index (blockX % 16) (blockY % 16) (blockZ % 16)]?

theorem index_lt {x y z : Int} (hx : 0 ≤ x ∧ x < 16) (hy : 0 ≤ y ∧ y < 16) (hz : 0 ≤ z ∧ z < 16) :
    Section.index x y z < 4096 := by
  unfold Section.index
  omega

theorem index_inj {x y z x' y' z' : Int} (hx : 0 ≤ x ∧ x < 16) (hy : 0 ≤ y ∧ y < 16)
    (hz : 0 ≤ z ∧ z < 16) (hx' : 0 ≤ x' ∧ x' < 16) (hy' : 0 ≤ y' ∧ y' < 16) (hz' : 0 ≤ z' ∧ z' < 16)
    (h : Section.index x y z = Section.index x' y' z') : x = x' ∧ y = y' ∧ z = z' := by
  unfold Section.index at h
  omega

theorem mod_range (i : Int) : 0 ≤ i % 16 ∧ i % 16 < 16 := by omega

theorem getBlock_eq (chunk : Chunk) (x y z : Int) : chunk.getBlock x y z = (chunk.idAt x y z).getD 0 := by
  unfold getBlock idAt
  cases chunk.sectionIndexFor y with
  | none => rfl
  | some index =>
    cases hs : chunk.sections[index]? with
    | none => simp [hs]
    | some s => simp [hs, Section.get, mod_range]

/-- Two heights are of one section and one level in it exactly when they are the same. -/
theorem sectionIndexFor_inj {chunk : Chunk} {y y' : Int} {index : Nat}
    (h : chunk.sectionIndexFor y = some index) (h' : chunk.sectionIndexFor y' = some index)
    (hlevel : y % 16 = y' % 16) : y = y' := by
  unfold sectionIndexFor at h h'
  dsimp only at h h'
  split at h
  · split at h'
    · have heq := (Option.some.inj h).trans (Option.some.inj h').symm
      omega
    · exact nomatch h'
  · exact nomatch h

/-- The cells a write leaves as they were: all but one, in every sixteenth column. -/
def SameCell (x y z x' y' z' : Int) : Prop := x' % 16 = x % 16 ∧ y' = y ∧ z' % 16 = z % 16

instance (x y z x' y' z' : Int) : Decidable (SameCell x y z x' y' z') :=
  inferInstanceAs (Decidable (_ ∧ _ ∧ _))

theorem idAt_set {chunk chunk' : Chunk} {y : Int} {index : Nat} {s s' : Section} (x z id : Int)
    (hindex : chunk.sectionIndexFor y = some index) (hs : chunk.sections[index]? = some s)
    (hlow : chunk'.minSectionY = chunk.minSectionY) (hsections : chunk'.sections = chunk.sections.set index s')
    (hblocks : s'.blocks = s.blocks.set (Section.index (x % 16) (y % 16) (z % 16)) id) (x' y' z' : Int) :
    chunk'.idAt x' y' z' = if SameCell x y z x' y' z' then some id else chunk.idAt x' y' z' := by
  have hfor : chunk'.sectionIndexFor y' = chunk.sectionIndexFor y' := by
    simp only [sectionIndexFor, hlow, hsections, List.length_set]
  have hlen : index < chunk.sections.length := (List.getElem?_eq_some_iff.mp hs).1
  have hslot := index_lt (mod_range x) (mod_range y) (mod_range z)
  unfold idAt
  rw [hfor]
  cases hindex' : chunk.sectionIndexFor y' with
  | none =>
    have hne : y' ≠ y := fun heq => by simp [heq, hindex] at hindex'
    simp [SameCell, hne]
  | some index' =>
    simp only [Option.bind_some, hsections]
    by_cases hsection : index' = index
    · subst hsection
      rw [List.getElem?_set_self hlen, hs, Option.bind_some, Option.bind_some, hblocks]
      by_cases hcell : SameCell x y z x' y' z'
      · obtain ⟨hx, hy, hz⟩ := hcell
        rw [if_pos ⟨hx, hy, hz⟩, hx, hy, hz, List.getElem?_set_self (by rw [s.size]; exact hslot)]
      · rw [if_neg hcell, List.getElem?_set_ne]
        intro heq
        obtain ⟨hx, hy, hz⟩ := index_inj (mod_range x) (mod_range y) (mod_range z) (mod_range x')
          (mod_range y') (mod_range z') heq
        exact hcell ⟨hx.symm, (sectionIndexFor_inj hindex hindex' hy).symm, hz.symm⟩
    · have hne : y' ≠ y := fun heq => by
        rw [heq, hindex] at hindex'
        exact hsection (Option.some.inj hindex').symm
      rw [List.getElem?_set_ne (Ne.symm hsection), if_neg (fun hcell => hne hcell.2.1)]

/-- A write that goes through writes its cell and no other, and moves no section. -/
theorem setBlock_spec {chunk chunk' : Chunk} {x y z id : Int} {registry : BlockRegistry}
    {change : Option (Int × Int)} (h : chunk.setBlock x y z id registry = .ok (change, chunk')) :
    chunk'.pos = chunk.pos ∧ chunk'.minSectionY = chunk.minSectionY ∧
      chunk'.sections.length = chunk.sections.length ∧ ∀ x' y' z', chunk'.idAt x' y' z' =
        if SameCell x y z x' y' z' then some id else chunk.idAt x' y' z' := by
  unfold setBlock at h
  split at h
  · exact nomatch h
  next index hindex =>
  split at h
  · exact nomatch h
  next s hs =>
  dsimp only at h
  split at h
  · next hsame =>
    cases h
    refine ⟨rfl, rfl, rfl, fun x' y' z' => ?_⟩
    split
    · next hcell =>
      obtain ⟨hx, hy, hz⟩ := hcell
      have hslot := index_lt (mod_range x) (mod_range y) (mod_range z)
      rw [← s.size] at hslot
      simp only [idAt, hx, hy, hz, hindex, hs, Option.bind_some]
      rw [List.getElem?_eq_getElem hslot, ← hsame]
      simp [hslot]
    · rfl
  · cases h
    exact ⟨rfl, rfl, List.length_set, idAt_set x z id hindex hs rfl rfl rfl⟩

theorem setBlock_isOk {chunk : Chunk} {x y z : Int} (h : chunk.idAt x y z ≠ none) (id : Int)
    (registry : BlockRegistry) : ∃ outcome, chunk.setBlock x y z id registry = .ok outcome := by
  unfold idAt at h
  unfold setBlock
  cases hindex : chunk.sectionIndexFor y with
  | none => exact absurd (by rw [hindex, Option.bind_none]) h
  | some index =>
    cases hs : chunk.sections[index]? with
    | none => exact absurd (by rw [hindex, Option.bind_some, hs, Option.bind_none]) h
    | some s =>
      dsimp only
      rw [hs]
      dsimp only
      split <;> exact ⟨_, rfl⟩

/-- A write that reports no change has made none. -/
theorem setBlock_unchanged {chunk chunk' : Chunk} {x y z id : Int} {registry : BlockRegistry}
    (h : chunk.setBlock x y z id registry = .ok (none, chunk')) : chunk' = chunk := by
  unfold setBlock at h
  split at h
  · exact nomatch h
  split at h
  · exact nomatch h
  dsimp only at h
  split at h
  · cases h
    rfl
  · exact nomatch h

end Chunk
end Apoptosis.L2.Terrain
