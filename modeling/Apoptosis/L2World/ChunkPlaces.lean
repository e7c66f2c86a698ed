import Apoptosis.Core.Runs
import Apoptosis.L2World.ChunkDisk
/-!
# Where the sections of a chunk stand

A section is read where it stands in the row, whatever height it names. The two
are one when the row has no gap and no height twice.

* `fromChunkData_idAt`: what is read of a chunk that was loaded.
* `placed_iff`: it is read where it was stored just when every section is in its place.
* `kept_iff`: storing and loading again keeps a chunk just when its ids are states.
* `placed_and_kept_iff`: both, for every chunk that is loaded and then written to.
-/
namespace Apoptosis.L2.Terrain
open Apoptosis.Core Apoptosis.L1.Nbt Apoptosis.L1.Packing Apoptosis.L2.Registry Apoptosis.L2.Storage

/-- The section that stands at a height. -/
def ChunkData.standing (data : ChunkData) (height : Int) : Option SectionData :=
  if 0 ≤ height - data.lowest then data.sections[(height - data.lowest).toNat]? else none

variable {registry : BlockRegistry} {data : ChunkData} {chunk : Chunk}

/-! ## Loaded chunks -/

theorem fromChunkData_spec (h : Chunk.fromChunkData data registry = .ok chunk) :
    chunk.minSectionY = data.lowest ∧ data.sections ≠ [] ∧
      List.Forall₂ (fun s made => sectionOf registry data.pos s = .ok made) data.sections chunk.sections := by
  obtain ⟨sections, hsections, h⟩ := Framing.bind_ok h
  split at h
  · exact nomatch h
  · rename_i hne
    cases h
    exact ⟨rfl, hne, Fallible.mapM_ok_iff.mp hsections⟩

theorem fromChunkData_counted (h : Chunk.fromChunkData data registry = .ok chunk) :
    ∀ s ∈ chunk.sections, s.Counted registry := by
  obtain ⟨-, -, hall⟩ := fromChunkData_spec h
  intro s hs
  obtain ⟨i, hi, rfl⟩ := List.mem_iff_getElem.mp hs
  exact (sectionOf_spec (hall.get (by rwa [hall.length_eq]) hi)).2.1

/-- A loaded chunk answers with the section that stands at the height. -/
theorem fromChunkData_idAt (h : Chunk.fromChunkData data registry = .ok chunk) (x y z : Int) :
    chunk.idAt x y z = (data.standing (y / 16)).bind fun s =>
      blockId registry s (Section.index (x % 16) (y % 16) (z % 16)) := by
  obtain ⟨hlow, -, hall⟩ := fromChunkData_spec h
  have hlength := hall.length_eq
  unfold Chunk.idAt Chunk.sectionIndexFor ChunkData.standing
  rw [hlow]
  dsimp only
  by_cases hpos : 0 ≤ y / 16 - data.lowest
  · by_cases hlt : (y / 16 - data.lowest).toNat < chunk.sections.length
    · rw [if_pos ⟨hpos, hlt⟩, if_pos hpos, Option.bind_some, List.getElem?_eq_getElem hlt,
        List.getElem?_eq_getElem (by omega), Option.bind_some, Option.bind_some]
      have hmade := hall.get (i := (y / 16 - data.lowest).toNat) (by omega) hlt
      exact (sectionOf_spec hmade).2.2 _
    · rw [if_neg fun hin => hlt hin.2, if_pos hpos, List.getElem?_eq_none (by omega)]
      rfl
  · rw [if_neg fun hin => hpos hin.1, if_neg hpos]
    rfl

/-- Every cell of a section of a loaded chunk has an id. -/
theorem blockId_isSome (h : Chunk.fromChunkData data registry = .ok chunk) {s : SectionData}
    (hs : s ∈ data.sections) {slot : Nat} (hslot : slot < 4096) : (blockId registry s slot).isSome := by
  obtain ⟨-, -, hall⟩ := fromChunkData_spec h
  obtain ⟨i, hi, rfl⟩ := List.mem_iff_getElem.mp hs
  have hi' : i < chunk.sections.length := hall.length_eq ▸ hi
  have hmade := hall.get hi hi'
  have hslots : chunk.sections[i].blocks[slot]? = blockId registry data.sections[i] slot :=
    (sectionOf_spec hmade).2.2 slot
  rw [← hslots, List.getElem?_eq_getElem (by rw [Section.size]; exact hslot)]
  rfl

theorem fromChunkData_isOk (hne : data.sections ≠ [])
    (h : ∀ s ∈ data.sections, ∀ slot < 4096, (blockId registry s slot).isSome) :
    ∃ chunk, Chunk.fromChunkData data registry = .ok chunk := by
  obtain ⟨sections, hsections⟩ := Fallible.mapM_isOk fun s hs =>
    @sectionOf_isOk registry data.pos s (h s hs)
  unfold Chunk.fromChunkData
  rw [hsections]
  change ∃ chunk, (if data.sections = [] then _ else _) = _
  rw [if_neg hne]
  exact ⟨_, rfl⟩

/-! ## Places -/

/-- Every cell of every section is read at the height the section names, and air at the other heights. -/
structure PlacedAsStored (registry : BlockRegistry) (data : ChunkData) (chunk : Chunk) : Prop where
  stored : ∀ s ∈ data.sections, ∀ x z localY : Int, 0 ≤ localY → localY < 16 →
    blockId registry s (Section.index (x % 16) localY (z % 16)) =
      some (chunk.getBlock x (16 * s.y.toInt + localY) z)
  absent : ∀ height : Int, (∀ s ∈ data.sections, s.y.toInt ≠ height) → ∀ x z localY : Int, 0 ≤ localY →
    localY < 16 → chunk.getBlock x (16 * height + localY) z = registry.airId

def AllAir (registry : BlockRegistry) (s : SectionData) : Prop :=
  ∀ slot < 4096, blockId registry s slot = some registry.airId

/-- Each section stands where its height says. A section out of its place holds the blocks of the one
that stands there, or air past the ends of the row; one that stands at a height no section names is air. -/
structure InPlace (registry : BlockRegistry) (data : ChunkData) : Prop where
  moved : ∀ (i : Nat) (s : SectionData), data.sections[i]? = some s → s.y.toInt ≠ data.lowest + i →
    match data.standing s.y.toInt with
    | some t => ∀ slot < 4096, blockId registry s slot = blockId registry t slot
    | none => AllAir registry s
  displaced : ∀ (i : Nat) (s : SectionData), data.sections[i]? = some s →
    (∀ t ∈ data.sections, t.y.toInt ≠ data.lowest + i) → AllAir registry s

theorem standing_place {i : Nat} {s : SectionData} (hs : data.sections[i]? = some s) :
    data.standing (data.lowest + i) = some s := by
  rw [ChunkData.standing, if_pos (by omega), show (data.lowest + i - data.lowest).toNat = i by omega, hs]

theorem standing_mem {height : Int} {s : SectionData} (hs : data.standing height = some s) :
    ∃ i : Nat, data.sections[i]? = some s ∧ height = data.lowest + i := by
  obtain ⟨hpos, hs⟩ := Option.ite_none_right_eq_some.mp hs
  exact ⟨_, hs, by omega⟩

/-- The cell of a section, of a place in its list. -/
theorem index_of_slot {slot : Nat} (h : slot < 4096) : ∃ x y z : Int, x % 16 = x ∧ z % 16 = z ∧ 0 ≤ y ∧
    y < 16 ∧ Section.index x y z = slot := by
  refine ⟨(slot % 16 : Nat), (slot / 256 : Nat), (slot / 16 % 16 : Nat), by omega, by omega, by omega, by omega, ?_⟩
  unfold Section.index
  omega

theorem getBlock_standing (h : Chunk.fromChunkData data registry = .ok chunk) (height x z : Int) {y : Int}
    (hy : 0 ≤ y) (hy' : y < 16) : chunk.getBlock x (16 * height + y) z =
      ((data.standing height).bind fun s =>
        blockId registry s (Section.index (x % 16) y (z % 16))).getD 0 := by
  rw [Chunk.getBlock_eq, fromChunkData_idAt h, show (16 * height + y) / 16 = height by omega,
    show (16 * height + y) % 16 = y by omega]

theorem placed_iff (hair : registry.airId = 0) (h : Chunk.fromChunkData data registry = .ok chunk) :
    PlacedAsStored registry data chunk ↔ InPlace registry data := by
  have hin (x z : Int) {y : Int} (hy : 0 ≤ y) (hy' : y < 16) : Section.index (x % 16) y (z % 16) < 4096 :=
    Chunk.index_lt (Chunk.mod_range x) ⟨hy, hy'⟩ (Chunk.mod_range z)
  constructor
  · intro hp
    constructor
    · intro i s hs _
      have hmem := List.mem_of_getElem? hs
      -- what the cell of a slot reads at the height the section names
      have hread (slot : Nat) (hslot : slot < 4096) : blockId registry s slot =
          some (((data.standing s.y.toInt).bind fun t => blockId registry t slot).getD 0) := by
        obtain ⟨x, y, z, hx, hz, hy, hy', hindex⟩ := index_of_slot hslot
        have hstored := hp.stored s hmem x z y hy hy'
        rwa [getBlock_standing h _ _ _ hy hy', hx, hz, hindex] at hstored
      cases hat : data.standing s.y.toInt with
      | none =>
        intro slot hslot
        rw [hread slot hslot, hat, hair]
        rfl
      | some t =>
        intro slot hslot
        obtain ⟨j, hj, -⟩ := standing_mem hat
        obtain ⟨id, hid⟩ := Option.isSome_iff_exists.mp (blockId_isSome h (List.mem_of_getElem? hj) hslot)
        rw [hread slot hslot, hat, Option.bind_some, hid]
        rfl
    · intro i s hs habsent slot hslot
      obtain ⟨x, y, z, hx, hz, hy, hy', hindex⟩ := index_of_slot hslot
      have hread := hp.absent (data.lowest + i) habsent x z y hy hy'
      rw [getBlock_standing h _ _ _ hy hy', standing_place hs, Option.bind_some, hx, hz, hindex] at hread
      obtain ⟨id, hid⟩ := Option.isSome_iff_exists.mp (blockId_isSome h (List.mem_of_getElem? hs) hslot)
      rw [hid, Option.getD_some] at hread
      rw [hid, hread]
  · intro hp
    constructor
    · intro s hs x z y hy hy'
      obtain ⟨i, hi, heq⟩ := List.mem_iff_getElem.mp hs
      have hat : data.sections[i]? = some s := by rw [List.getElem?_eq_getElem hi, heq]
      have hslot := hin x z hy hy'
      obtain ⟨id, hid⟩ := Option.isSome_iff_exists.mp (blockId_isSome h hs hslot)
      rw [getBlock_standing h _ _ _ hy hy']
      by_cases hplace : s.y.toInt = data.lowest + i
      · rw [hplace, standing_place hat, Option.bind_some, hid, Option.getD_some]
      · have hmoved := hp.moved i s hat hplace
        cases hstanding : data.standing s.y.toInt with
        | none =>
          rw [hstanding] at hmoved
          rw [hmoved _ hslot, hair]
          rfl
        | some t =>
          rw [hstanding] at hmoved
          rw [Option.bind_some, ← hmoved _ hslot, hid, Option.getD_some]
    · intro height habsent x z y hy hy'
      rw [getBlock_standing h _ _ _ hy hy']
      cases hstanding : data.standing height with
      | none => exact hair.symm
      | some s =>
        obtain ⟨i, hi, rfl⟩ := standing_mem hstanding
        rw [Option.bind_some, hp.displaced i s hi habsent _ (hin x z hy hy'), Option.getD_some]

/-! ## Writing, storing and loading again -/

/-- The writes of a list, one after another, each of which goes through. -/
def Chunk.setBlocks (registry : BlockRegistry) (chunk : Chunk) (edits : List (Int × Int × Int × Int)) :
    ServerResult Chunk :=
  edits.foldlM (fun chunk edit => do
    let (_, written) ← chunk.setBlock edit.1 edit.2.1 edit.2.2.1 edit.2.2.2 registry
    return written) chunk

/-- What loading makes and writing keeps: counts that count, sections, and a height of 8 bits. -/
structure Chunk.Sound (registry : BlockRegistry) (chunk : Chunk) : Prop where
  counted : ∀ s ∈ chunk.sections, s.Counted registry
  sections : chunk.sections ≠ []
  lowest : -128 ≤ chunk.minSectionY ∧ chunk.minSectionY < 128

theorem lowest_range (data : ChunkData) : -128 ≤ data.lowest ∧ data.lowest < 128 := by
  have hbyte (y : BitVec 8) : -128 ≤ y.toInt ∧ y.toInt < 128 := ⟨BitVec.le_toInt y, BitVec.toInt_lt⟩
  unfold ChunkData.lowest
  split
  · exact hbyte _
  · cases data.sections.head? with
    | none => simp
    | some s => exact hbyte s.y

theorem fromChunkData_sound (h : Chunk.fromChunkData data registry = .ok chunk) : chunk.Sound registry := by
  obtain ⟨hlow, hne, hall⟩ := fromChunkData_spec h
  refine ⟨fromChunkData_counted h, fun hnil => hne ?_, hlow ▸ lowest_range data⟩
  rw [hnil] at hall
  exact List.forall₂_nil_right_iff.mp hall

theorem writeSection_counted {s : Section} (hs : s.Counted registry) {slot : Nat} {previous : Int}
    (hprevious : s.blocks[slot]? = some previous) (id : Int) :
    (Chunk.writeSection s registry slot previous id).Counted registry := by
  obtain ⟨hlt, heq⟩ := List.getElem?_eq_some_iff.mp hprevious
  have hcount := List.countP_set (p := (!registry.isEmpty ·)) (a := id) hlt
  have hpos : registry.isEmpty previous = false → 0 < s.blocks.countP (!registry.isEmpty ·) := fun hfull =>
    List.countP_pos_iff.mpr ⟨previous, List.mem_of_getElem? hprevious, by rw [hfull]; rfl⟩
  unfold Section.Counted at hs ⊢
  unfold Chunk.writeSection
  dsimp only
  rw [hcount, heq, hs]
  cases hp : registry.isEmpty previous <;> cases hid : registry.isEmpty id
  · have := hpos hp
    simp
    omega
  · have := hpos hp
    simp
    omega
  · simp
  · simp

theorem setBlock_sound (h : chunk.Sound registry) {x y z id : Int} {change : Option (Int × Int)}
    {written : Chunk} (hset : chunk.setBlock x y z id registry = .ok (change, written)) :
    written.Sound registry := by
  obtain ⟨-, hlow, hlength, -⟩ := Chunk.setBlock_spec hset
  refine ⟨?_, fun hnil => h.sections ?_, hlow ▸ h.lowest⟩
  · unfold Chunk.setBlock at hset
    split at hset
    · exact nomatch hset
    split at hset
    · exact nomatch hset
    rename_i index _ s hs
    dsimp only at hset
    split at hset
    · cases hset
      exact h.counted
    · cases hset
      intro s' hs'
      rcases List.mem_or_eq_of_mem_set hs' with hold | rfl
      · exact h.counted s' hold
      · have hslot := Chunk.index_lt (Chunk.mod_range x) (Chunk.mod_range y) (Chunk.mod_range z)
        rw [← s.size] at hslot
        refine writeSection_counted (h.counted s (List.mem_of_getElem? hs)) ?_ id
        rw [List.getD_eq_getElem?_getD, List.getElem?_eq_getElem hslot, Option.getD_some]
  · rw [hnil] at hlength
    exact List.length_eq_zero_iff.mp hlength.symm

theorem setBlocks_sound (edits : List (Int × Int × Int × Int)) {final : Chunk} (h : chunk.Sound registry)
    (hedits : chunk.setBlocks registry edits = .ok final) : final.Sound registry := by
  induction edits generalizing chunk with
  | nil =>
    cases hedits
    exact h
  | cons edit edits ih =>
    rw [Chunk.setBlocks, List.foldlM_cons] at hedits
    obtain ⟨next, hnext, hrest⟩ := Framing.bind_ok hedits
    obtain ⟨⟨change, written⟩, hset, heq⟩ := Framing.bind_ok hnext
    cases heq
    exact ih (setBlock_sound h hset) hrest

/-- Stored and loaded again, every block is where it was, and the counts count. -/
def Kept (registry : BlockRegistry) (chunk : Chunk) : Prop :=
  ∃ data again, chunk.toChunkData registry = .ok data ∧ Chunk.fromChunkData data registry = .ok again ∧
    (∀ x y z, again.getBlock x y z = chunk.getBlock x y z) ∧ ∀ s ∈ again.sections, s.Counted registry

/-- Every id in the chunk is a state of the block table. -/
def Registered (registry : BlockRegistry) (chunk : Chunk) : Prop :=
  ∀ s ∈ chunk.sections, ∀ id ∈ s.blocks, (stateRefOf registry id).isSome

theorem toChunkData_spec (h : chunk.toChunkData registry = .ok data) :
    data.minSectionY = BitVec.ofInt 32 chunk.minSectionY ∧
      List.Forall₂ (fun s made => sectionData registry chunk.pos s = .ok made) chunk.sections data.sections := by
  obtain ⟨sections, hsections, h⟩ := Framing.bind_ok h
  cases h
  exact ⟨rfl, Fallible.mapM_ok_iff.mp hsections⟩

theorem toChunkData_registered (h : chunk.toChunkData registry = .ok data) : Registered registry chunk := by
  obtain ⟨-, hall⟩ := toChunkData_spec h
  intro s hs id hid
  obtain ⟨i, hi, rfl⟩ := List.mem_iff_getElem.mp hs
  have hmade := hall.get hi (hall.length_eq ▸ hi)
  obtain ⟨slot, hslot, rfl⟩ := List.mem_iff_getElem.mp hid
  obtain ⟨state, hstate, -⟩ := (sectionData_spec hmade).2 slot _ (List.getElem?_eq_getElem hslot)
  rw [hstate]
  rfl

theorem toChunkData_lowest (h : chunk.toChunkData registry = .ok data)
    (hlow : -128 ≤ chunk.minSectionY ∧ chunk.minSectionY < 128) : data.lowest = chunk.minSectionY := by
  obtain ⟨hmin, -⟩ := toChunkData_spec h
  have hint : data.minSectionY.toInt = chunk.minSectionY := by
    rw [hmin, BitVec.toInt_ofInt, Int.bmod_eq_of_le_mul_two] <;> omega
  have hbyte : (BitVec.ofInt 8 chunk.minSectionY).toInt = chunk.minSectionY := by
    rw [BitVec.toInt_ofInt, Int.bmod_eq_of_le_mul_two] <;> omega
  rw [ChunkData.lowest, hint, tryFrom, if_pos ⟨by omega, by omega⟩]
  exact hbyte

/-- What is stored of a place of a section reads back as its id. -/
theorem sectionData_blockId (hback : ∀ id state, stateRefOf registry id = some state →
      stateIdOf registry state = some id) {pos : ChunkPos} {s : Section} {made : SectionData}
    (h : sectionData registry pos s = .ok made) (slot : Nat) : blockId registry made slot = s.blocks[slot]? := by
  by_cases hslot : slot < s.blocks.length
  · obtain ⟨state, hstate, hget⟩ := (sectionData_spec h).2 slot _ (List.getElem?_eq_getElem hslot)
    rw [blockId, hget, Option.bind_some, hback _ _ hstate, List.getElem?_eq_getElem hslot]
  · have hpast : made.blockStates.get slot = none := by
      rw [PalettedArray.get, if_pos]
      rw [made.blockEntries]
      rw [s.size] at hslot
      exact Nat.le_of_not_lt hslot
    rw [blockId, hpast, List.getElem?_eq_none (Nat.le_of_not_lt hslot)]
    rfl

theorem kept_iff (hback : ∀ id state, stateRefOf registry id = some state →
      stateIdOf registry state = some id) (hsound : chunk.Sound registry) :
    Kept registry chunk ↔ Registered registry chunk := by
  constructor
  · intro ⟨data, _, hdata, _⟩
    exact toChunkData_registered hdata
  · intro hregistered
    obtain ⟨sections, hsections⟩ := Fallible.mapM_isOk fun s hs =>
      @sectionData_isOk registry chunk.pos s (hregistered s hs)
    obtain ⟨data, hdata⟩ : ∃ data, chunk.toChunkData registry = .ok data :=
      ⟨_, by rw [Chunk.toChunkData, hsections]; rfl⟩
    obtain ⟨-, hall⟩ := toChunkData_spec hdata
    have hne : data.sections ≠ [] := by
      intro hnil
      rw [hnil] at hall
      exact hsound.sections (List.forall₂_nil_right_iff.mp hall)
    have hids : ∀ s ∈ data.sections, ∀ slot < 4096, (blockId registry s slot).isSome := by
      intro s hs slot hslot
      obtain ⟨i, hi, rfl⟩ := List.mem_iff_getElem.mp hs
      have hi' : i < chunk.sections.length := hall.length_eq ▸ hi
      have hmade : sectionData registry chunk.pos chunk.sections[i] = .ok data.sections[i] := hall.get hi' hi
      rw [sectionData_blockId hback hmade, List.getElem?_eq_getElem (by rw [Section.size]; exact hslot)]
      rfl
    obtain ⟨again, hagain⟩ := fromChunkData_isOk hne hids
    refine ⟨data, again, hdata, hagain, fun x y z => ?_, fromChunkData_counted hagain⟩
    rw [Chunk.getBlock_eq, Chunk.getBlock_eq, fromChunkData_idAt hagain]
    congr 1
    unfold ChunkData.standing Chunk.idAt Chunk.sectionIndexFor
    rw [toChunkData_lowest hdata hsound.lowest]
    dsimp only
    have hlength := hall.length_eq
    by_cases hpos : 0 ≤ y / 16 - chunk.minSectionY
    · by_cases hlt : (y / 16 - chunk.minSectionY).toNat < chunk.sections.length
      · have hlt' : (y / 16 - chunk.minSectionY).toNat < data.sections.length := by omega
        rw [if_pos hpos, if_pos ⟨hpos, hlt⟩, Option.bind_some, List.getElem?_eq_getElem hlt,
          List.getElem?_eq_getElem hlt', Option.bind_some, Option.bind_some]
        exact sectionData_blockId hback (hall.get hlt hlt') _
      · rw [if_pos hpos, if_neg fun hin => hlt hin.2, List.getElem?_eq_none (by omega)]
        rfl
    · rw [if_neg hpos, if_neg fun hin => hpos hin.1]
      rfl

/-- A chunk that is loaded is placed as it was stored, and after any writes is kept with its counts,
just when every section is in its place and every id that is left is a state of the block table. -/
theorem placed_and_kept_iff (hback : ∀ id state, stateRefOf registry id = some state →
      stateIdOf registry state = some id) (hair : registry.airId = 0)
    (hchunk : Chunk.fromChunkData data registry = .ok chunk) (edits : List (Int × Int × Int × Int)) {final : Chunk}
    (hedits : chunk.setBlocks registry edits = .ok final) :
    (PlacedAsStored registry data chunk ∧ Kept registry final ∧ ∀ s ∈ final.sections, s.Counted registry) ↔
      (InPlace registry data ∧ Registered registry final) := by
  have hsound := setBlocks_sound edits (fromChunkData_sound hchunk) hedits
  rw [placed_iff hair hchunk, kept_iff hback hsound]
  exact and_congr_right fun _ => and_iff_left hsound.counted

/-! ## A row with a gap -/

/-- Air and stone. -/
def stoneTable : BlockRegistry where
  byName name :=
    if name = "minecraft:air".toList then some ⟨0, 0, 1, []⟩
    else if name = "minecraft:stone".toList then some ⟨1, 1, 1, []⟩ else none
  byId := ["minecraft:air".toList, "minecraft:stone".toList]
  airId := 0
  emptyIds := [0]

def stoneSection (y : BitVec 8) : SectionData where
  y := y
  blockStates := .single ⟨"minecraft:stone", []⟩ BLOCK_ENTRIES BLOCK_MIN_BITS
  biomes := .single "minecraft:plains" BIOME_ENTRIES BIOME_MIN_BITS
  blockLight := none
  skyLight := none
  blockEntries := rfl

/-- A chunk of sections of stone, at the heights given. -/
def stoneChunk (low : BitVec 32) (heights : List (BitVec 8)) : ChunkData where
  pos := ⟨0, 0⟩
  dataVersion := DATA_VERSION_26_1_2
  status := "minecraft:full"
  minSectionY := low
  lastUpdate := 0
  inhabitedTime := 0
  lightCorrect := false
  sections := heights.map stoneSection
  heightmaps := []
  blockEntities := []
  entities := []
  blockTicks := []
  fluidTicks := []
  postProcessing := []
  structures := none
  extra := []

def stoneNbt (y : BitVec 8) : NbtTag :=
  .compound [("Y", .byte y),
    ("block_states", .compound [("palette", .list [.compound [("Name", .string "minecraft:stone")]])])]

theorem stoneTable_inverse (id : Int) (state : BlockState) (h : stateRefOf stoneTable id = some state) :
    stateIdOf stoneTable state = some id := by
  simp only [stateRefOf, Option.bind_eq_bind, Option.bind_eq_some_iff] at h
  obtain ⟨name, hname, properties, hproperties, hstate⟩ := h
  have hid : id = 0 ∨ id = 1 := by
    unfold BlockRegistry.blockName at hname
    split at hname
    · exact nomatch hname
    · obtain ⟨hlt, -⟩ := List.getElem?_eq_some_iff.mp hname
      simp only [stoneTable, List.length_cons, List.length_nil] at hlt
      omega
  rcases hid with rfl | rfl
  · cases hname
    cases hproperties
    cases hstate
    decide
  · cases hname
    cases hproperties
    cases hstate
    decide

theorem stoneSection_id {y : BitVec 8} {slot : Nat} (h : slot < 4096) :
    blockId stoneTable (stoneSection y) slot = some 1 := by
  have hget : (stoneSection y).blockStates.get slot = some ⟨"minecraft:stone", []⟩ := by
    rw [PalettedArray.get, if_neg]
    · rfl
    · exact Nat.not_le_of_lt h
  rw [blockId, hget]
  decide

theorem stoneChunk_isOk (low : BitVec 32) {heights : List (BitVec 8)} (hne : heights ≠ []) :
    ∃ chunk, Chunk.fromChunkData (stoneChunk low heights) stoneTable = .ok chunk := by
  refine fromChunkData_isOk (fun hnil => hne (List.map_eq_nil_iff.mp hnil)) fun s hs slot hslot => ?_
  obtain ⟨y, -, rfl⟩ := List.mem_map.mp hs
  rw [stoneSection_id hslot]
  rfl

theorem placed_and_kept_stone : ∃ chunk, Chunk.fromChunkData (stoneChunk (-1) [-1, 0]) stoneTable = .ok chunk ∧
    chunk.setBlocks stoneTable [] = .ok chunk ∧ PlacedAsStored stoneTable (stoneChunk (-1) [-1, 0]) chunk ∧
    Kept stoneTable chunk ∧ ∀ s ∈ chunk.sections, s.Counted stoneTable := by
  obtain ⟨chunk, hchunk⟩ := stoneChunk_isOk (-1) (List.cons_ne_nil (-1) [0])
  refine ⟨chunk, hchunk, rfl, (placed_and_kept_iff stoneTable_inverse rfl hchunk [] rfl).mpr ⟨⟨?_, ?_⟩, ?_⟩⟩
  · intro i s hs hne
    rcases i with _ | _ | i
    · cases hs
      exact absurd rfl hne
    · cases hs
      exact absurd rfl hne
    · exact nomatch hs
  · intro i s hs habsent
    rcases i with _ | _ | i
    · exact absurd rfl (habsent (stoneSection (-1)) (.head _))
    · exact absurd rfl (habsent (stoneSection 0) (.tail _ (.head _)))
    · exact nomatch hs
  · intro s hs id hid
    obtain ⟨-, -, hall⟩ := fromChunkData_spec hchunk
    obtain ⟨i, hi, rfl⟩ := List.mem_iff_getElem.mp hs
    have hi' : i < (stoneChunk (-1) [-1, 0]).sections.length := by rwa [hall.length_eq]
    obtain ⟨slot, hslot, rfl⟩ := List.mem_iff_getElem.mp hid
    have hmade := (sectionOf_spec (hall.get hi' hi)).2.2 slot
    rw [List.get_eq_getElem, List.get_eq_getElem] at hmade
    obtain ⟨y, -, hy⟩ := List.mem_map.mp (List.getElem_mem hi')
    rw [← hy, stoneSection_id (by rwa [Section.size] at hslot), List.getElem?_eq_getElem hslot] at hmade
    rw [Option.some.inj hmade]
    decide

/-- Stone at the heights 0 and 2: the upper section is read one section down, where nothing is stored. -/
theorem gap_shifts_section : ∃ chunk,
    ChunkData.fromNbt (.compound [("sections", .list [stoneNbt 0, stoneNbt 2])]) = .ok (stoneChunk 0 [0, 2]) ∧
    Chunk.fromChunkData (stoneChunk 0 [0, 2]) stoneTable = .ok chunk ∧
    chunk.getBlock 0 32 0 = 0 ∧ chunk.getBlock 0 16 0 = 1 ∧
    ¬ PlacedAsStored stoneTable (stoneChunk 0 [0, 2]) chunk := by
  obtain ⟨chunk, hchunk⟩ := stoneChunk_isOk 0 (List.cons_ne_nil 0 [2])
  have hupper : chunk.getBlock 0 32 0 = 0 := by
    have hread := getBlock_standing hchunk 2 0 0 (Int.le_refl 0) (by decide)
    exact hread
  have hbetween : chunk.getBlock 0 16 0 = 1 := by
    have hread := getBlock_standing hchunk 1 0 0 (Int.le_refl 0) (by decide)
    have hstanding : (stoneChunk 0 [0, 2]).standing 1 = some (stoneSection 2) := rfl
    rw [hstanding, Option.bind_some, stoneSection_id (by decide)] at hread
    exact hread
  refine ⟨chunk, ?_, hchunk, hupper, hbetween, fun hp => ?_⟩
  · have hsections : [stoneNbt 0, stoneNbt 2].mapM SectionData.fromNbt = .ok [stoneSection 0, stoneSection 2] := by
      rfl
    have hsorted : [stoneSection 0, stoneSection 2].mergeSort (fun a b => a.y.toInt ≤ b.y.toInt) =
        [stoneSection 0, stoneSection 2] := List.mergeSort_of_pairwise (by decide)
    have hget : NbtTag.getList (.compound [("sections", .list [stoneNbt 0, stoneNbt 2])]) "sections" =
        some [stoneNbt 0, stoneNbt 2] := by rfl
    unfold ChunkData.fromNbt
    rw [if_neg (by decide), hget]
    dsimp only
    rw [hsections]
    change Except.ok _ = _
    rw [hsorted]
    rfl
  · have hair := hp.absent 1 (by decide) 0 0 0 (by decide) (by decide)
    rw [show (16 * 1 + 0 : Int) = 16 from rfl, hbetween] at hair
    exact nomatch hair

end Apoptosis.L2.Terrain
