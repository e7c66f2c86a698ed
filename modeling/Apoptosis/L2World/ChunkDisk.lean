import Apoptosis.Core.Fallible
import Apoptosis.L2World.Chunk
import Apoptosis.L2World.ChunkData
/-!
# Chunks to and from disk (`persistence/src/chunk.rs`, `world/src/chunk.rs`)

The runtime chunk finds a section by its place in the row, counted from the
lowest; the stored one carries its height with it. The two agree when every
section stands where its height says.

* `sectionOf_spec`, `sectionOf_isOk`: a section that is loaded.
* `sectionData_spec`: a section that is stored.
-/
namespace Apoptosis.L2.Terrain
open Apoptosis.Core Apoptosis.L1.Nbt Apoptosis.L1.Packing Apoptosis.L2.Registry Apoptosis.L2.Storage

/-! ## The stored chunk -/

/-- mirrors crates/persistence/src/chunk.rs:426-437 (`SectionData`); the blocks are always 4096 -/
structure SectionData where
  y : BitVec 8
  blockStates : PalettedContainer BlockState
  biomes : PalettedContainer String
  blockLight : Option (List UInt8)
  skyLight : Option (List UInt8)
  blockEntries : blockStates.entries = BLOCK_ENTRIES

def LIGHT_BYTES : Nat := 2048

/-- mirrors crates/persistence/src/chunk.rs:536-552 (`decode_palette`) -/
def decodePalette {T : Type} (container : NbtTag) (entries minBits : Nat) (what : String)
    (decode : NbtTag → ServerResult T) : ServerResult (PalettedContainer T) :=
  match container.getList "palette" with
  | none => .error (.corruptData (what ++ " has no palette list"))
  | some items => do
    let palette ← items.mapM decode
    PalettedContainer.fromParts palette (container.getLongArray "data") entries minBits

theorem decodePalette_entries {T : Type} {container : NbtTag} {entries minBits : Nat} {what : String}
    {decode : NbtTag → ServerResult T} {c : PalettedContainer T}
    (h : decodePalette container entries minBits what decode = .ok c) : c.entries = entries := by
  unfold decodePalette at h
  split at h
  · exact nomatch h
  · obtain ⟨palette, -, h⟩ := Framing.bind_ok h
    exact PalettedContainer.fromParts_entries h

/-- mirrors crates/persistence/src/chunk.rs:554-565 (`decode_light`) -/
def decodeLight (tag : NbtTag) (key : String) (y : BitVec 8) : ServerResult (Option (List UInt8)) :=
  match tag.getByteArray key with
  | none => .ok none
  | some bytes =>
    if bytes.length ≠ LIGHT_BYTES then
      .error (.corruptData ("chunk section Y=" ++ toString y.toInt ++ " " ++ key ++ " has " ++
        toString bytes.length ++ " bytes, expected 2048"))
    else .ok (some bytes)

def biomeFromNbt : NbtTag → ServerResult String
  | .string value => .ok value
  | other => .error (.corruptData ("biome palette entry is " ++ other.typeName ++ ", expected String"))

/-- mirrors crates/persistence/src/chunk.rs:455-497 (`SectionData::from_nbt`) -/
def SectionData.fromNbt (tag : NbtTag) : ServerResult SectionData :=
  match tag.getI8 "Y" with
  | none => .error (.corruptData "chunk section has no Y")
  | some y => match tag.getCompound "block_states" with
    | none => .error (.corruptData ("chunk section at Y=" ++ toString y.toInt ++ " has no block_states"))
    | some blockStates =>
      match hblocks : decodePalette blockStates BLOCK_ENTRIES BLOCK_MIN_BITS "block_states"
          BlockState.fromNbt with
      | .error e => .error e
      | .ok blocks => do
        let biomes ← match tag.getCompound "biomes" with
          | some biomeTag => decodePalette biomeTag BIOME_ENTRIES BIOME_MIN_BITS "biomes" biomeFromNbt
          | none => .ok (.single "minecraft:plains" BIOME_ENTRIES BIOME_MIN_BITS)
        let blockLight ← decodeLight tag "BlockLight" y
        let skyLight ← decodeLight tag "SkyLight" y
        return ⟨y, blocks, biomes, blockLight, skyLight, decodePalette_entries hblocks⟩

/-- The palette and the words of a container, each palette entry encoded. -/
def containerFields {T : Type} (encode : T → NbtTag) (c : PalettedContainer T) : List (String × Option NbtTag) := [
  ("palette", some (.list (c.parts.1.map encode))),
  ("data", c.parts.2.map .longArray)]

def SectionData.fields (s : SectionData) : List (String × Option NbtTag) := [
  ("Y", some (.byte s.y)),
  ("block_states", some (.compound (present (containerFields BlockState.toNbt s.blockStates)))),
  ("biomes", some (.compound (present (containerFields .string s.biomes)))),
  ("BlockLight", s.blockLight.map .byteArray),
  ("SkyLight", s.skyLight.map .byteArray)]

/-- mirrors crates/persistence/src/chunk.rs:499-533 (`SectionData::to_nbt`) -/
def SectionData.toNbt (s : SectionData) : NbtTag := .compound (present s.fields)

/-- mirrors crates/persistence/src/chunk.rs:569-603 (`ChunkData`) -/
structure ChunkData where
  pos : ChunkPos
  dataVersion : BitVec 32
  status : String
  minSectionY : BitVec 32
  lastUpdate : Int
  inhabitedTime : Int
  lightCorrect : Bool
  sections : List SectionData
  heightmaps : List (String × List (BitVec 64))
  blockEntities : List NbtTag
  entities : List NbtTag
  blockTicks : List NbtTag
  fluidTicks : List NbtTag
  postProcessing : List (List (BitVec 16))
  structures : Option NbtTag
  extra : List (String × NbtTag)

def KNOWN_CHUNK_FIELDS : List String :=
  ["DataVersion", "xPos", "zPos", "yPos", "Status", "LastUpdate", "InhabitedTime", "isLightOn", "sections",
    "Heightmaps", "block_entities", "entities", "block_ticks", "fluid_ticks", "PostProcessing", "structures"]

def DATA_VERSION_26_1_2 : BitVec 32 := 4790

/-- mirrors crates/persistence/src/chunk.rs:871-878 (`compound_list`) -/
def compoundList (root : NbtTag) (key : String) : List NbtTag :=
  ((root.getList key).getD []).filter (·.entries.isSome)

/-- mirrors crates/persistence/src/chunk.rs:880-893 (`post_processing`) -/
def postProcessing (root : NbtTag) : List (List (BitVec 16)) :=
  ((root.getList "PostProcessing").getD []).map fun
    | .list positions => (positions.filterMap NbtTag.asI64).filterMap (tryFrom 16)
    | _ => []

/-- mirrors crates/persistence/src/chunk.rs:691-766 (`ChunkData::from_nbt`) -/
def ChunkData.fromNbt (root : NbtTag) : ServerResult ChunkData :=
  if (root.getCompound "Level").isSome || root.contains "Blocks" then
    .error (.corruptData ("chunk uses the pre-1.18 layout (Level/Blocks); this build only reads " ++
      "1.21.9..=26.1.2 chunks"))
  else match root.getList "sections" with
  | none => .error (.corruptData "chunk has no sections list")
  | some sectionsNbt => do
    let unsorted ← sectionsNbt.mapM SectionData.fromNbt
    let sections := unsorted.mergeSort fun a b => a.y.toInt ≤ b.y.toInt
    return {
      pos := ⟨((root.getI32 "xPos").getD 0).toInt, ((root.getI32 "zPos").getD 0).toInt⟩
      dataVersion := (root.getI32 "DataVersion").getD DATA_VERSION_26_1_2
      status := (root.getStr "Status").getD "minecraft:full"
      minSectionY := ((root.getI32 "yPos").or (sections.head?.map (·.y.signExtend 32))).getD 0
      lastUpdate := (root.getI64 "LastUpdate").getD 0
      inhabitedTime := (root.getI64 "InhabitedTime").getD 0
      lightCorrect := (root.getBool "isLightOn").getD false
      sections
      heightmaps := (((root.getCompound "Heightmaps").bind NbtTag.entries).getD []).filterMap fun
        | (name, .longArray values) => some (name, values)
        | _ => none
      blockEntities := compoundList root "block_entities"
      entities := compoundList root "entities"
      blockTicks := compoundList root "block_ticks"
      fluidTicks := compoundList root "fluid_ticks"
      postProcessing := Terrain.postProcessing root
      structures := root.get "structures"
      extra := (root.entries.getD []).filter (·.1 ∉ KNOWN_CHUNK_FIELDS) }

/-- The fields the schema names, as `to_nbt` puts them. -/
def ChunkData.fields (c : ChunkData) : List (String × Option NbtTag) := [
  ("DataVersion", some (.int c.dataVersion)),
  ("xPos", some (.int (.ofInt 32 c.pos.x))),
  ("zPos", some (.int (.ofInt 32 c.pos.z))),
  ("yPos", some (.int c.minSectionY)),
  ("Status", some (.string c.status)),
  ("LastUpdate", some (.long (.ofInt 64 c.lastUpdate))),
  ("InhabitedTime", some (.long (.ofInt 64 c.inhabitedTime))),
  ("sections", some (.list (c.sections.map SectionData.toNbt))),
  ("Heightmaps", if c.heightmaps = [] then none
    else some (.compound (c.heightmaps.map fun h => (h.1, .longArray h.2)))),
  ("structures", c.structures),
  ("block_entities", some (.list c.blockEntities)),
  ("entities", some (.list c.entities)),
  ("block_ticks", some (.list c.blockTicks)),
  ("fluid_ticks", some (.list c.fluidTicks)),
  ("PostProcessing", some (.list (c.postProcessing.map fun positions => .list (positions.map .short)))),
  ("isLightOn", if c.lightCorrect then some (.byte 1) else none)]

/-- mirrors crates/persistence/src/chunk.rs:770-830 (`ChunkData::to_nbt`) -/
def ChunkData.toNbt (c : ChunkData) : NbtTag := .compound (present c.fields ++ c.extra)

/-! ## Loading -/

/-- `BlockRegistry::state_id` of a stored state. -/
def stateIdOf (registry : BlockRegistry) (state : BlockState) : Option Int :=
  registry.stateId state.name.toList (state.properties.map fun p => (p.1.toList, p.2.toList))

/-- mirrors crates/registry/src/blocks.rs:498-504 (`BlockRegistry::state_ref_of`) -/
def stateRefOf (registry : BlockRegistry) (id : Int) : Option BlockState := do
  let name ← registry.blockName id
  let properties ← registry.propertiesOf id
  return ⟨.ofList name, properties.map fun p => (.ofList p.1, .ofList p.2)⟩

def slotError (pos : ChunkPos) (y : Int) (slot : Nat) (found : String) : ServerError :=
  .corruptData ("chunk (" ++ toString pos.x ++ ", " ++ toString pos.z ++ ") section y=" ++ toString y ++
    " slot " ++ toString slot ++ " " ++ found)

/-- mirrors crates/world/src/chunk.rs:393-401 (`decorate`) -/
def decorate (pos : ChunkPos) (sectionY : Int) : ServerError → ServerError
  | .corruptData message => .corruptData ("chunk (" ++ toString pos.x ++ ", " ++ toString pos.z ++
      ") section y=" ++ toString sectionY ++ ": " ++ message)
  | other => other

/-- The id of a stored state, by its place. -/
def slotId (registry : BlockRegistry) (pos : ChunkPos) (y : Int) (entry : BlockState × Nat) : ServerResult Int :=
  match stateIdOf registry entry.1 with
  | none => .error (slotError pos y entry.2 ("names " ++ entry.1.name))
  | some id => .ok id

theorem slotIds_length {registry : BlockRegistry} {pos : ChunkPos} {s : SectionData}
    {states : List BlockState} {blocks : List Int} (hstates : s.blockStates.toValues = .ok states)
    (hblocks : states.zipIdx.mapM (slotId registry pos s.y.toInt) = .ok blocks) : blocks.length = 4096 := by
  obtain ⟨values, hvalues, hlength⟩ := s.blockStates.toValues_isOk
  rw [hvalues] at hstates
  cases hstates
  rw [(Fallible.mapM_zipIdx_ok hblocks).1, hlength, s.blockEntries]
  rfl

/-- The runtime form of one section. -/
def sectionOf (registry : BlockRegistry) (pos : ChunkPos) (s : SectionData) : ServerResult Section :=
  match hstates : s.blockStates.toValues with
  | .error e => .error (decorate pos s.y.toInt e)
  | .ok states => match hblocks : states.zipIdx.mapM (slotId registry pos s.y.toInt) with
    | .error e => .error e
    | .ok blocks => .ok ⟨s.y.toInt, blocks, blocks.countP (!registry.isEmpty ·), s.blockLight, s.skyLight,
        slotIds_length hstates hblocks⟩

/-- `i8::try_from(min_section_y)`, and the first section's height where that fails. -/
def ChunkData.lowest (data : ChunkData) : Int :=
  match tryFrom 8 data.minSectionY.toInt with
  | some y => y.toInt
  | none => (data.sections.head?.map (·.y.toInt)).getD 0

/-- mirrors crates/world/src/chunk.rs:244-292 (`Chunk::from_chunk_data`) -/
def Chunk.fromChunkData (data : ChunkData) (registry : BlockRegistry) : ServerResult Chunk := do
  let sections ← data.sections.mapM (sectionOf registry data.pos)
  if data.sections = [] then
    .error (.corruptData ("chunk (" ++ toString data.pos.x ++ ", " ++ toString data.pos.z ++
      ") has no sections"))
  else return {
    pos := data.pos
    sections
    minSectionY := data.lowest
    status := data.status
    dataVersion := data.dataVersion
    lastUpdate := data.lastUpdate
    inhabitedTime := data.inhabitedTime
    lightCorrect := data.lightCorrect
    dirty := false
    extra := data.extra }

/-- The id of the state stored at a place of a section. -/
def blockId (registry : BlockRegistry) (s : SectionData) (slot : Nat) : Option Int :=
  (s.blockStates.get slot).bind (stateIdOf registry)

def Section.Counted (registry : BlockRegistry) (s : Section) : Prop :=
  s.nonEmptyBlockCount = s.blocks.countP (!registry.isEmpty ·)

section
variable {registry : BlockRegistry} {pos : ChunkPos} {s : SectionData}

theorem sectionOf_spec {made : Section} (h : sectionOf registry pos s = .ok made) :
    made.y = s.y.toInt ∧ made.Counted registry ∧ ∀ slot, made.blocks[slot]? = blockId registry s slot := by
  unfold sectionOf at h
  split at h
  · exact nomatch h
  rename_i states hstates
  split at h
  · exact nomatch h
  rename_i blocks hblocks
  cases h
  refine ⟨rfl, rfl, fun slot => ?_⟩
  obtain ⟨hlength, hslots⟩ := Fallible.mapM_zipIdx_ok hblocks
  rw [blockId, PalettedContainer.toValues_get hstates]
  cases hstate : states[slot]? with
  | none =>
    rw [Option.bind_none]
    exact List.getElem?_eq_none (by rw [hlength]; exact List.getElem?_eq_none_iff.mp hstate)
  | some state =>
    obtain ⟨id, hid, hok⟩ := hslots slot state hstate
    rw [hid, Option.bind_some]
    unfold slotId at hok
    split at hok
    · exact nomatch hok
    · rename_i id' hid'
      rw [hid', Except.ok.inj hok]

theorem sectionOf_isOk (h : ∀ slot < 4096, (blockId registry s slot).isSome) :
    ∃ made, sectionOf registry pos s = .ok made := by
  obtain ⟨states, hstates, hlength⟩ := s.blockStates.toValues_isOk
  have hslots : ∀ entry ∈ states.zipIdx, ∃ id, slotId registry pos s.y.toInt entry = .ok id := by
    intro entry hentry
    have hlookup := List.getElem?_eq_some_iff.mpr
      ⟨(List.mem_zipIdx' hentry).1, (List.mem_zipIdx' hentry).2.symm⟩
    have hid := h entry.2 (by
      have hlt := (List.mem_zipIdx' hentry).1
      rw [hlength, s.blockEntries] at hlt
      exact hlt)
    rw [blockId, PalettedContainer.toValues_get hstates, hlookup, Option.bind_some] at hid
    obtain ⟨id, hid⟩ := Option.isSome_iff_exists.mp hid
    exact ⟨id, by rw [slotId, hid]⟩
  obtain ⟨blocks, hblocks⟩ := Fallible.mapM_isOk hslots
  unfold sectionOf
  split
  · rename_i e he
    rw [hstates] at he
    exact nomatch he
  rename_i states' hstates'
  rw [hstates] at hstates'
  cases hstates'
  split
  · rename_i e he
    rw [hblocks] at he
    exact nomatch he
  · exact ⟨_, rfl⟩

end

/-! ## Storing -/

def slotRef (registry : BlockRegistry) (pos : ChunkPos) (y : Int) (entry : Int × Nat) : ServerResult BlockState :=
  match stateRefOf registry entry.1 with
  | none => .error (slotError pos y entry.2 ("holds id " ++ toString entry.1))
  | some state => .ok state

/-- The stored form of one section, with the biome of plains. -/
def sectionData (registry : BlockRegistry) (pos : ChunkPos) (s : Section) : ServerResult SectionData :=
  match s.blocks.zipIdx.mapM (slotRef registry pos s.y) with
  | .error e => .error e
  | .ok states => match hstates : PalettedContainer.fromValues states BLOCK_ENTRIES BLOCK_MIN_BITS with
    | .error e => .error e
    | .ok blockStates => .ok ⟨BitVec.ofInt 8 s.y, blockStates,
        .single "minecraft:plains" BIOME_ENTRIES BIOME_MIN_BITS, s.blockLight, s.skyLight,
        PalettedContainer.fromValues_entries hstates⟩

theorem sectionData_spec {registry : BlockRegistry} {pos : ChunkPos} {s : Section} {made : SectionData}
    (h : sectionData registry pos s = .ok made) : made.y = BitVec.ofInt 8 s.y ∧
      ∀ slot id, s.blocks[slot]? = some id →
        ∃ state, stateRefOf registry id = some state ∧ made.blockStates.get slot = some state := by
  unfold sectionData at h
  split at h
  · exact nomatch h
  rename_i states hstates
  split at h
  · exact nomatch h
  rename_i blockStates hblocks
  cases h
  refine ⟨rfl, fun slot id hid => ?_⟩
  obtain ⟨hlength, hslots⟩ := Fallible.mapM_zipIdx_ok hstates
  obtain ⟨state, hstate, hok⟩ := hslots slot id hid
  have hcount : states.length = BLOCK_ENTRIES := hlength.trans s.size
  obtain ⟨c, hc, hvalues⟩ := PalettedContainer.fromValues_spec hcount (by decide) (by decide)
    (show 1 ≤ BLOCK_MIN_BITS ∧ BLOCK_MIN_BITS ≤ MAX_BITS by decide)
  rw [hblocks] at hc
  cases hc
  refine ⟨state, ?_, (PalettedContainer.toValues_get hvalues slot).trans hstate⟩
  unfold slotRef at hok
  split at hok
  · exact nomatch hok
  · rename_i found hfound
    rw [hfound, Except.ok.inj hok]

theorem sectionData_isOk {registry : BlockRegistry} {pos : ChunkPos} {s : Section}
    (h : ∀ id ∈ s.blocks, (stateRefOf registry id).isSome) : ∃ made, sectionData registry pos s = .ok made := by
  have hslots : ∀ entry ∈ s.blocks.zipIdx, ∃ state, slotRef registry pos s.y entry = .ok state := by
    intro entry hentry
    obtain ⟨state, hstate⟩ := Option.isSome_iff_exists.mp (h entry.1 (List.fst_mem_of_mem_zipIdx hentry))
    exact ⟨state, by rw [slotRef, hstate]⟩
  obtain ⟨states, hstates⟩ := Fallible.mapM_isOk hslots
  have hcount : states.length = BLOCK_ENTRIES := (Fallible.mapM_zipIdx_ok hstates).1.trans s.size
  obtain ⟨c, hc, -⟩ := PalettedContainer.fromValues_spec hcount (by decide) (by decide)
    (show 1 ≤ BLOCK_MIN_BITS ∧ BLOCK_MIN_BITS ≤ MAX_BITS by decide)
  unfold sectionData
  rw [hstates]
  dsimp only
  split
  · rename_i e he
    rw [hc] at he
    exact nomatch he
  · exact ⟨_, rfl⟩

/-- Above the highest block of a column. -/
def Chunk.columnHeight (chunk : Chunk) (worldX worldZ : Int) : Int :=
  match (List.range (chunk.maxY - chunk.minY).toNat).reverse.find? fun d =>
    chunk.getBlock worldX (chunk.minY + d) worldZ ≠ 0 with
  | some d => chunk.minY + d + 1
  | none => chunk.minY

/-- mirrors crates/world/src/chunk.rs:364-386 (`Chunk::heightmap_long_array`): 9 bits a column, which
the packer takes -/
def Chunk.heightmapLongArray (chunk : Chunk) : List (BitVec 64) :=
  let values := (List.range 256).map fun i : Nat =>
    (chunk.columnHeight (chunk.pos.x * 16 + (i % 16 : Nat)) (chunk.pos.z * 16 + (i / 16 : Nat)) % 2 ^ 32).toNat
  match pack values 9 with
  | .ok longs => longs
  | .error _ => []

/-- mirrors crates/world/src/chunk.rs:300-352 (`Chunk::to_chunk_data`) -/
def Chunk.toChunkData (chunk : Chunk) (registry : BlockRegistry) : ServerResult ChunkData := do
  let sections ← chunk.sections.mapM (sectionData registry chunk.pos)
  return {
    pos := chunk.pos
    dataVersion := chunk.dataVersion
    status := chunk.status
    minSectionY := BitVec.ofInt 32 chunk.minSectionY
    lastUpdate := chunk.lastUpdate
    inhabitedTime := chunk.inhabitedTime
    lightCorrect := chunk.lightCorrect
    sections
    heightmaps := [("WORLD_SURFACE", chunk.heightmapLongArray)]
    blockEntities := []
    entities := []
    blockTicks := []
    fluidTicks := []
    postProcessing := []
    structures := none
    extra := chunk.extra }

end Apoptosis.L2.Terrain
