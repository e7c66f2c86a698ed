import Apoptosis.L2World.ChunkDisk
/-!
# The chunk schema both ways (`persistence/src/chunk.rs`)

`to_nbt` and `from_nbt` are written by hand, field by field. What the one
writes the other reads, and what `from_nbt` makes of any tag it accepts is
among what `to_nbt` keeps.

* `fromParts_parts`, `SectionData.fromNbt_toNbt`: a container and a section.
* `ChunkData.fromNbt_toNbt`: a chunk.
* `ChunkData.fromNbt_regular`: what is decoded is regular.
* `chunk_roundTrip`: both directions.
-/
namespace Apoptosis.L2.Terrain
open Apoptosis.Core Apoptosis.L1.Nbt Apoptosis.L1.Packing Apoptosis.L2.Storage

variable {T : Type}

/-! ## Block states and containers -/

theorem BlockState.fromNbt_toNbt (s : BlockState) : BlockState.fromNbt s.toNbt = .ok s := by
  have hnodup : (s.fields.map (·.1)).Nodup := by simp [fields]
  have hname := NbtTag.getStr_of_string (get_field hnodup (.head _))
  have hproperties := get_field hnodup (.tail _ (.head _))
  change s.toNbt.getStr "Name" = _ at hname
  change s.toNbt.get "Properties" = _ at hproperties
  unfold fromNbt
  rw [hname]
  dsimp only
  have hback : ((s.properties.map fun p => (p.1, NbtTag.string p.2)).mapM propertyFromNbt : ServerResult _) =
      .ok s.properties := Fallible.mapM_map_back fun _ _ => rfl
  by_cases hempty : s.properties = []
  · rw [if_pos hempty] at hproperties
    rw [NbtTag.getCompound_of_none hproperties]
    obtain ⟨name, properties⟩ := s
    cases hempty
    rfl
  · rw [if_neg hempty] at hproperties
    rw [NbtTag.getCompound_of_compound hproperties]
    dsimp only [Option.bind_some, NbtTag.entries, Option.getD_some]
    rw [hback]
    rfl

namespace PalettedContainer

/-- As `from_parts` makes it. -/
structure WellFormed (c : PalettedContainer T) (size width : Nat) : Prop where
  entries : c.entries = size
  minBits : c.minBits = width
  palette : c.palette.length ≤ size
  bits : c.bits = if c.data = none then 0 else bitsFor c.palette.length width

theorem eq_of_fields {c d : PalettedContainer T} (hpalette : c.palette = d.palette) (hdata : c.data = d.data)
    (hbits : c.bits = d.bits) (hentries : c.entries = d.entries) (hmin : c.minBits = d.minBits) : c = d := by
  obtain ⟨⟨palette, data, bits, entries, minBits, _⟩, _⟩ := c
  obtain ⟨⟨palette', data', bits', entries', minBits', _⟩, _⟩ := d
  cases hpalette
  cases hdata
  cases hbits
  cases hentries
  cases hmin
  rfl

theorem wellFormed_of_fromParts {palette : List T} {data : Option (List (BitVec 64))} {entries minBits : Nat}
    {c : PalettedContainer T} (h : fromParts palette data entries minBits = .ok c) : c.WellFormed entries minBits := by
  obtain ⟨hpalette, hdata, hentries, hmin, hlength, hbits⟩ := fromParts_ok h
  exact ⟨hentries, hmin, hpalette ▸ hlength, by rw [hbits, hdata, hpalette]⟩

theorem single_wellFormed (value : T) {entries minBits : Nat} (h : 0 < entries) :
    (single value entries minBits).WellFormed entries minBits := ⟨rfl, rfl, h, rfl⟩

/-- A container is what `from_parts` makes of its parts. -/
theorem fromParts_parts {c : PalettedContainer T} {entries minBits : Nat} (h : c.WellFormed entries minBits) :
    fromParts c.parts.1 c.parts.2 entries minBits = .ok c := by
  have hsome : ∃ d, fromParts c.palette c.data entries minBits = .ok d := by
    cases hdata : c.data with
    | none =>
      unfold fromParts
      rw [dif_neg c.nonempty, if_neg (Nat.not_lt.mpr h.palette)]
      exact ⟨_, rfl⟩
    | some longs =>
      obtain ⟨indices, hindices, hinside⟩ := c.inside longs hdata
      have hbits := h.bits
      rw [hdata, if_neg (Option.some_ne_none longs)] at hbits
      rw [hbits, h.entries] at hindices
      obtain ⟨d, hd, -⟩ := fromParts_isOk c.nonempty h.palette hindices hinside
      exact ⟨d, hd⟩
  obtain ⟨d, hd⟩ := hsome
  obtain ⟨hpalette, hdata, hentries, hmin, -, hbits⟩ := fromParts_ok hd
  refine hd.trans (congrArg Except.ok (eq_of_fields hpalette hdata ?_ ?_ ?_))
  · rw [hbits, h.bits]
  · rw [hentries, h.entries]
  · rw [hmin, h.minBits]

end PalettedContainer

theorem decodePalette_back {encode : T → NbtTag} {decode : NbtTag → ServerResult T}
    (hback : ∀ v, decode (encode v) = .ok v) {c : PalettedContainer T} {entries minBits : Nat}
    (h : c.WellFormed entries minBits) (what : String) :
    decodePalette (.compound (present (containerFields encode c))) entries minBits what decode = .ok c := by
  have hnodup : ((containerFields encode c).map (·.1)).Nodup := by simp [containerFields]
  unfold decodePalette
  rw [NbtTag.getList_of_list (get_field hnodup (.head _))]
  dsimp only
  rw [NbtTag.getLongArray_of_map (get_field hnodup (.tail _ (.head _))),
    Fallible.mapM_map_back fun v _ => hback v]
  exact PalettedContainer.fromParts_parts h

theorem decodePalette_wellFormed {container : NbtTag} {entries minBits : Nat} {what : String}
    {decode : NbtTag → ServerResult T} {c : PalettedContainer T}
    (h : decodePalette container entries minBits what decode = .ok c) : c.WellFormed entries minBits := by
  unfold decodePalette at h
  split at h
  · exact nomatch h
  · obtain ⟨palette, -, h⟩ := Framing.bind_ok h
    exact PalettedContainer.wellFormed_of_fromParts h

/-! ## Sections -/

namespace SectionData

structure WellFormed (s : SectionData) : Prop where
  blockStates : s.blockStates.WellFormed BLOCK_ENTRIES BLOCK_MIN_BITS
  biomes : s.biomes.WellFormed BIOME_ENTRIES BIOME_MIN_BITS
  blockLight : ∀ bytes, s.blockLight = some bytes → bytes.length = LIGHT_BYTES
  skyLight : ∀ bytes, s.skyLight = some bytes → bytes.length = LIGHT_BYTES

theorem decodeLight_back {tag : NbtTag} {key : String} {light : Option (List UInt8)}
    (hget : tag.getByteArray key = light) (hlight : ∀ bytes, light = some bytes → bytes.length = LIGHT_BYTES)
    (y : BitVec 8) : decodeLight tag key y = .ok light := by
  unfold decodeLight
  rw [hget]
  cases light with
  | none => rfl
  | some bytes =>
    dsimp only
    rw [if_neg (not_not.mpr (hlight bytes rfl))]

theorem decodeLight_length {tag : NbtTag} {key : String} {y : BitVec 8} {light : Option (List UInt8)}
    (h : decodeLight tag key y = .ok light) : ∀ bytes, light = some bytes → bytes.length = LIGHT_BYTES := by
  unfold decodeLight at h
  intro bytes hbytes
  split at h
  · rw [← Except.ok.inj h] at hbytes
    exact nomatch hbytes
  · split at h
    · exact nomatch h
    · rename_i hlength
      rw [← Except.ok.inj h] at hbytes
      exact Option.some.inj hbytes ▸ not_not.mp hlength

theorem fromNbt_toNbt {s : SectionData} (h : s.WellFormed) : fromNbt s.toNbt = .ok s := by
  have hnodup : (s.fields.map (·.1)).Nodup := by simp [fields]
  have hget : ∀ {name value}, (name, value) ∈ s.fields → s.toNbt.get name = value := get_field hnodup
  have hy := NbtTag.getI8_of_byte (hget (.head _))
  have hblocks := NbtTag.getCompound_of_compound (hget (.tail _ (.head _)))
  have hbiomes := NbtTag.getCompound_of_compound (hget (.tail _ (.tail _ (.head _))))
  have hblockLight := NbtTag.getByteArray_of_map (hget (.tail _ (.tail _ (.tail _ (.head _)))))
  have hskyLight := NbtTag.getByteArray_of_map (hget (.tail _ (.tail _ (.tail _ (.tail _ (.head _))))))
  have hblocksBack := decodePalette_back BlockState.fromNbt_toNbt h.blockStates "block_states"
  have hbiomesBack := @decodePalette_back _ .string biomeFromNbt (fun _ => rfl) _ _ _ h.biomes "biomes"
  unfold fromNbt
  rw [hy]
  dsimp only
  rw [hblocks]
  dsimp only
  split
  · rename_i e he
    exact nomatch he.symm.trans hblocksBack
  · rename_i blocks hfound
    cases hfound.symm.trans hblocksBack
    rw [hbiomes]
    dsimp only
    rw [hbiomesBack, decodeLight_back hblockLight h.blockLight, decodeLight_back hskyLight h.skyLight]
    rfl

theorem fromNbt_wellFormed {tag : NbtTag} {s : SectionData} (h : fromNbt tag = .ok s) : s.WellFormed := by
  unfold fromNbt at h
  split at h
  · exact nomatch h
  split at h
  · exact nomatch h
  split at h
  · exact nomatch h
  rename_i blocks hblocks
  dsimp only at h
  split at h
  · obtain ⟨biomes, hbiomes, h⟩ := Framing.bind_ok h
    obtain ⟨blockLight, hblockLight, h⟩ := Framing.bind_ok h
    obtain ⟨skyLight, hskyLight, h⟩ := Framing.bind_ok h
    cases h
    exact ⟨decodePalette_wellFormed hblocks, decodePalette_wellFormed hbiomes, decodeLight_length hblockLight,
      decodeLight_length hskyLight⟩
  · obtain ⟨biomes, hbiomes, h⟩ := Framing.bind_ok h
    obtain ⟨blockLight, hblockLight, h⟩ := Framing.bind_ok h
    obtain ⟨skyLight, hskyLight, h⟩ := Framing.bind_ok h
    cases hbiomes
    cases h
    exact ⟨decodePalette_wellFormed hblocks, PalettedContainer.single_wellFormed _ (by decide),
      decodeLight_length hblockLight, decodeLight_length hskyLight⟩

end SectionData

/-! ## Chunks -/

namespace ChunkData

/-- What `from_nbt` can answer: the machine integers, the sections in order, lists of compounds, and
nothing interpreted among the rest. -/
structure Regular (c : ChunkData) : Prop where
  x : -2 ^ 31 ≤ c.pos.x ∧ c.pos.x < 2 ^ 31
  z : -2 ^ 31 ≤ c.pos.z ∧ c.pos.z < 2 ^ 31
  lastUpdate : -2 ^ 63 ≤ c.lastUpdate ∧ c.lastUpdate < 2 ^ 63
  inhabitedTime : -2 ^ 63 ≤ c.inhabitedTime ∧ c.inhabitedTime < 2 ^ 63
  sorted : c.sections.Pairwise fun a b => a.y.toInt ≤ b.y.toInt
  sections : ∀ s ∈ c.sections, s.WellFormed
  compounds : ∀ tags ∈ [c.blockEntities, c.entities, c.blockTicks, c.fluidTicks], ∀ t ∈ tags, t.entries.isSome
  extra : ∀ entry ∈ c.extra, entry.1 ∉ KNOWN_CHUNK_FIELDS

/-- Regular, and the rest has no name of the old layout. -/
structure WellFormed (c : ChunkData) : Prop extends c.Regular where
  modern : ∀ entry ∈ c.extra, entry.1 ≠ "Level" ∧ entry.1 ≠ "Blocks"

theorem fields_nodup (c : ChunkData) : (c.fields.map (·.1)).Nodup := by
  simp [fields]

theorem mem_known {c : ChunkData} {name : String} (h : name ∈ c.fields.map (·.1)) : name ∈ KNOWN_CHUNK_FIELDS := by
  revert h
  simp only [fields, List.map_cons, List.map_nil]
  revert name
  decide

/-- A field of the schema is found as it was put. -/
theorem get_toNbt {c : ChunkData} (h : c.Regular) {name : String} {value : Option NbtTag} (i : Nat)
    (hi : c.fields[i]? = some (name, value)) : c.toNbt.get name = value := by
  have hmem := List.mem_of_getElem? hi
  refine get_present c.fields_nodup hmem fun entry hentry hname => ?_
  exact h.extra entry hentry (hname ▸ mem_known (List.mem_map_of_mem hmem))

theorem get_extra {c : ChunkData} {name : String} (h : name ∉ KNOWN_CHUNK_FIELDS) :
    c.toNbt.get name = (NbtTag.compound c.extra).get name :=
  get_rest fun hmem => h (mem_known hmem)

theorem extra_back {c : ChunkData} (h : c.Regular) :
    (c.toNbt.entries.getD []).filter (·.1 ∉ KNOWN_CHUNK_FIELDS) = c.extra := by
  unfold toNbt
  dsimp only [NbtTag.entries, Option.getD_some]
  rw [List.filter_append, List.filter_eq_nil_iff.mpr, List.nil_append, List.filter_eq_self.mpr]
  · exact fun entry hentry => decide_eq_true (h.extra entry hentry)
  · intro entry hentry
    simpa using mem_known (name_of_mem_present hentry)

theorem compoundList_back {root : NbtTag} {key : String} {tags : List NbtTag}
    (hget : root.get key = some (.list tags)) (h : ∀ t ∈ tags, t.entries.isSome) : compoundList root key = tags := by
  rw [compoundList, NbtTag.getList_of_list hget, Option.getD_some, List.filter_eq_self.mpr h]

theorem heightmaps_back {root : NbtTag} {heightmaps : List (String × List (BitVec 64))}
    (hget : root.get "Heightmaps" = if heightmaps = [] then none
      else some (.compound (heightmaps.map fun h => (h.1, .longArray h.2))))
    {f : String × NbtTag → Option (String × List (BitVec 64))}
    (hf : ∀ name values, f (name, .longArray values) = some (name, values)) :
    (((root.getCompound "Heightmaps").bind NbtTag.entries).getD []).filterMap f = heightmaps := by
  by_cases hempty : heightmaps = []
  · rw [if_pos hempty] at hget
    rw [NbtTag.getCompound_of_none hget, hempty]
    rfl
  · rw [if_neg hempty] at hget
    rw [NbtTag.getCompound_of_compound hget]
    dsimp only [Option.bind_some, NbtTag.entries, Option.getD_some]
    rw [List.filterMap_map]
    exact (List.filterMap_congr fun h _ => hf h.1 h.2).trans List.filterMap_some

theorem postProcessing_back {root : NbtTag} {positions : List (List (BitVec 16))}
    (hget : root.get "PostProcessing" = some (.list (positions.map fun p => .list (p.map .short)))) :
    Terrain.postProcessing root = positions := by
  rw [Terrain.postProcessing, NbtTag.getList_of_list hget, Option.getD_some, List.map_map]
  refine (List.map_congr_left fun p _ => ?_).trans (List.map_id positions)
  dsimp only [Function.comp_apply, id_eq]
  rw [List.filterMap_map, List.filterMap_filterMap]
  refine (List.filterMap_congr fun v _ => ?_).trans List.filterMap_some
  exact tryFrom_toInt v

theorem lightCorrect_back {root : NbtTag} {on : Bool}
    (hget : root.get "isLightOn" = if on then some (.byte 1) else none) :
    (root.getBool "isLightOn").getD false = on := by
  rw [NbtTag.getBool, NbtTag.getI8, NbtTag.getI64, hget]
  cases on <;> rfl

theorem toInt_ofInt_of_range {w : Nat} {value : Int} (h : -2 ^ (w - 1) ≤ value ∧ value < 2 ^ (w - 1))
    (hw : 0 < w) : (BitVec.ofInt w value).toInt = value := by
  rw [BitVec.toInt_ofInt_eq_self hw h.1 h.2]

/-- A regular chunk is read back as it was written, unless the rest looks like the old layout. -/
theorem fromNbt_toNbt {c : ChunkData} (h : c.Regular)
    (hlevel : (NbtTag.compound c.extra).getCompound "Level" = none)
    (hblocks : (NbtTag.compound c.extra).get "Blocks" = none) : fromNbt c.toNbt = .ok c := by
  have hold : ¬ ((c.toNbt.getCompound "Level").isSome || c.toNbt.contains "Blocks") = true := by
    rw [NbtTag.contains, get_extra (by decide), hblocks]
    rw [NbtTag.getCompound, ← get_extra (by decide)] at hlevel
    rw [NbtTag.getCompound, hlevel]
    decide
  have hx : ((c.toNbt.getI32 "xPos").getD 0).toInt = c.pos.x := by
    rw [NbtTag.getI32_of_int (get_toNbt h 1 rfl)]
    exact toInt_ofInt_of_range h.x (by decide)
  have hz : ((c.toNbt.getI32 "zPos").getD 0).toInt = c.pos.z := by
    rw [NbtTag.getI32_of_int (get_toNbt h 2 rfl)]
    exact toInt_ofInt_of_range h.z (by decide)
  have hlastUpdate : (c.toNbt.getI64 "LastUpdate").getD 0 = c.lastUpdate := by
    rw [NbtTag.getI64_of_long (get_toNbt h 5 rfl)]
    exact toInt_ofInt_of_range h.lastUpdate (by decide)
  have hinhabited : (c.toNbt.getI64 "InhabitedTime").getD 0 = c.inhabitedTime := by
    rw [NbtTag.getI64_of_long (get_toNbt h 6 rfl)]
    exact toInt_ofInt_of_range h.inhabitedTime (by decide)
  have hcompounds := h.compounds
  simp only [List.forall_mem_cons] at hcompounds
  obtain ⟨hblockEntities, hentities, hblockTicks, hfluidTicks, -⟩ := hcompounds
  unfold fromNbt
  rw [if_neg hold, NbtTag.getList_of_list (get_toNbt h 7 rfl)]
  dsimp only
  rw [Fallible.mapM_map_back fun s hs => SectionData.fromNbt_toNbt (h.sections s hs)]
  refine congrArg Except.ok ?_
  rw [hx, hz, hlastUpdate, hinhabited, List.mergeSort_of_pairwise (by simpa using h.sorted),
    NbtTag.getI32_of_int (get_toNbt h 0 rfl), NbtTag.getI32_of_int (get_toNbt h 3 rfl),
    NbtTag.getStr_of_string (get_toNbt h 4 rfl), heightmaps_back (get_toNbt h 8 rfl), get_toNbt h 9 rfl,
    compoundList_back (get_toNbt h 10 rfl) hblockEntities, compoundList_back (get_toNbt h 11 rfl) hentities,
    compoundList_back (get_toNbt h 12 rfl) hblockTicks, compoundList_back (get_toNbt h 13 rfl) hfluidTicks,
    postProcessing_back (get_toNbt h 14 rfl), lightCorrect_back (get_toNbt h 15 rfl), extra_back h]
  · rfl
  · exact fun _ _ => rfl

theorem asI64_range (t : NbtTag) {value : Int} (h : t.asI64 = some value) : -2 ^ 63 ≤ value ∧ value < 2 ^ 63 := by
  have hrange : ∀ {w : Nat} (v : BitVec w), w ≤ 64 → -2 ^ 63 ≤ v.toInt ∧ v.toInt < 2 ^ 63 := by
    intro w v hw
    have hlo := BitVec.le_toInt v
    have hhi := @BitVec.toInt_lt w v
    have hpow : (2 : Int) ^ (w - 1) ≤ 2 ^ 63 := pow_le_pow_right₀ (by decide) (by omega)
    omega
  cases t <;> first | exact Option.some.inj h ▸ hrange _ (by decide) | exact nomatch h

theorem getI64_range (t : NbtTag) (name : String) :
    -2 ^ 63 ≤ (t.getI64 name).getD 0 ∧ (t.getI64 name).getD 0 < 2 ^ 63 := by
  cases hvalue : t.getI64 name with
  | none => decide
  | some value =>
    obtain ⟨found, -, hfound⟩ := Option.bind_eq_some_iff.mp hvalue
    exact asI64_range found hfound

theorem compoundList_compounds (root : NbtTag) (key : String) : ∀ t ∈ compoundList root key, t.entries.isSome :=
  fun _ h => (List.mem_filter.mp h).2

theorem sections_sorted (sections : List SectionData) :
    (sections.mergeSort fun a b => a.y.toInt ≤ b.y.toInt).Pairwise fun a b => a.y.toInt ≤ b.y.toInt := by
  have hsorted := @List.pairwise_mergeSort _ (fun a b : SectionData => decide (a.y.toInt ≤ b.y.toInt))
    (fun a b c hab hbc => by simp only [decide_eq_true_eq] at *; omega)
    (fun a b => by simp only [Bool.or_eq_true, decide_eq_true_eq]; omega) sections
  simpa using hsorted

/-- What is decoded is regular. -/
theorem fromNbt_regular {root : NbtTag} {c : ChunkData} (h : fromNbt root = .ok c) : c.Regular := by
  unfold fromNbt at h
  split at h
  · exact nomatch h
  split at h
  · exact nomatch h
  obtain ⟨unsorted, hsections, h⟩ := Framing.bind_ok h
  cases h
  exact {
    x := ⟨BitVec.le_toInt _, BitVec.toInt_lt⟩
    z := ⟨BitVec.le_toInt _, BitVec.toInt_lt⟩
    lastUpdate := getI64_range root _
    inhabitedTime := getI64_range root _
    sorted := sections_sorted unsorted
    sections := by
      intro s hs
      obtain ⟨tag, -, htag⟩ := Fallible.exists_of_mapM hsections s (List.mem_mergeSort.mp hs)
      exact SectionData.fromNbt_wellFormed htag
    compounds := by
      simp only [List.forall_mem_cons]
      exact ⟨compoundList_compounds root _, compoundList_compounds root _, compoundList_compounds root _,
        compoundList_compounds root _, fun _ hnil => nomatch hnil⟩
    extra := fun entry hentry => of_decide_eq_true (List.mem_filter.mp hentry).2 }

/-- What is decoded keeps no trace of the old layout. -/
theorem fromNbt_modern {root : NbtTag} {c : ChunkData} (h : fromNbt root = .ok c) :
    (NbtTag.compound c.extra).getCompound "Level" = none ∧ (NbtTag.compound c.extra).get "Blocks" = none := by
  have hextra : ∀ name, name ∉ KNOWN_CHUNK_FIELDS → (NbtTag.compound c.extra).get name = root.get name := by
    intro name hname
    unfold fromNbt at h
    split at h
    · exact nomatch h
    split at h
    · exact nomatch h
    obtain ⟨unsorted, -, h⟩ := Framing.bind_ok h
    cases h
    have hother : ∀ entry ∈ root.entries.getD [], entry.1 = name → decide (entry.1 ∉ KNOWN_CHUNK_FIELDS) :=
      fun entry _ heq => decide_eq_true (by rw [heq]; exact hname)
    exact (get_filter hother).trans (get_entries root name)
  unfold fromNbt at h
  split at h
  · exact nomatch h
  rename_i hold
  rw [Bool.or_eq_true, not_or] at hold
  constructor
  · rw [NbtTag.getCompound, hextra "Level" (by decide)]
    exact Option.not_isSome_iff_eq_none.mp hold.1
  · rw [hextra "Blocks" (by decide)]
    exact Option.not_isSome_iff_eq_none.mp hold.2

end ChunkData

/-- mirrors crates/persistence/src/chunk.rs:445-453 (`SectionData::filled`) -/
def SectionData.filled (y : BitVec 8) (block : BlockState) (biome : String) : SectionData where
  y := y
  blockStates := .single block BLOCK_ENTRIES BLOCK_MIN_BITS
  biomes := .single biome BIOME_ENTRIES BIOME_MIN_BITS
  blockLight := none
  skyLight := none
  blockEntries := rfl

/-- mirrors crates/persistence/src/chunk.rs:627-655 (`ChunkData::empty`) -/
def ChunkData.empty (pos : ChunkPos) (minSectionY : BitVec 8) (sectionCount : Nat) : ChunkData where
  pos := pos
  dataVersion := DATA_VERSION_26_1_2
  status := "minecraft:full"
  minSectionY := minSectionY.signExtend 32
  lastUpdate := 0
  inhabitedTime := 0
  lightCorrect := false
  sections := (List.range sectionCount).map fun index =>
    .filled (minSectionY + BitVec.ofNat 8 index) ⟨"minecraft:air", []⟩ "minecraft:plains"
  heightmaps := []
  blockEntities := []
  entities := []
  blockTicks := []
  fluidTicks := []
  postProcessing := []
  structures := none
  extra := []

theorem SectionData.filled_wellFormed (y : BitVec 8) (block : BlockState) (biome : String) :
    (filled y block biome).WellFormed where
  blockStates := PalettedContainer.single_wellFormed block (by decide)
  biomes := PalettedContainer.single_wellFormed biome (by decide)
  blockLight := fun _ h => nomatch h
  skyLight := fun _ h => nomatch h

/-- An empty chunk whose heights do not wrap around. -/
theorem ChunkData.empty_wellFormed {pos : ChunkPos} {minSectionY : BitVec 8} {sectionCount : Nat}
    (hx : -2 ^ 31 ≤ pos.x ∧ pos.x < 2 ^ 31) (hz : -2 ^ 31 ≤ pos.z ∧ pos.z < 2 ^ 31)
    (hheight : minSectionY.toInt + sectionCount ≤ 128) : (empty pos minSectionY sectionCount).WellFormed where
  x := hx
  z := hz
  lastUpdate := by simp [empty]
  inhabitedTime := by simp [empty]
  sorted := by
    have hat : ∀ index < sectionCount,
        (minSectionY + BitVec.ofNat 8 index).toInt = minSectionY.toInt + index := by
      intro index hindex
      have hlo := BitVec.le_toInt minSectionY
      have hhi := @BitVec.toInt_lt 8 minSectionY
      rw [BitVec.toInt_add, BitVec.toInt_ofNat', Int.bmod_def, Int.bmod_def]
      omega
    refine List.pairwise_map.mpr (List.Pairwise.imp_of_mem ?_ List.pairwise_lt_range)
    intro a b ha hb hlt
    dsimp only [SectionData.filled]
    rw [hat a (List.mem_range.mp ha), hat b (List.mem_range.mp hb)]
    omega
  sections := by
    intro s hs
    obtain ⟨index, -, rfl⟩ := List.mem_map.mp hs
    exact SectionData.filled_wellFormed _ _ _
  compounds := by simp [empty]
  extra := fun _ h => nomatch h
  modern := fun _ h => nomatch h

/-- Writing a well formed chunk and reading it gives the chunk, and what any tag is read as is read again
from what it is written as. -/
theorem chunk_roundTrip : (∀ c : ChunkData, c.WellFormed → ChunkData.fromNbt c.toNbt = .ok c) ∧
    ∀ root c, ChunkData.fromNbt root = .ok c → ChunkData.fromNbt c.toNbt = .ok c := by
  constructor
  · intro c h
    refine ChunkData.fromNbt_toNbt h.toRegular (NbtTag.getCompound_of_none ?_) ?_
    · exact get_eq_none fun entry hentry => (h.modern entry hentry).1
    · exact get_eq_none fun entry hentry => (h.modern entry hentry).2
  · intro root c h
    obtain ⟨hlevel, hblocks⟩ := ChunkData.fromNbt_modern h
    exact ChunkData.fromNbt_toNbt (ChunkData.fromNbt_regular h) hlevel hblocks

theorem emptyOverworld_roundTrip : ∃ c, ChunkData.fromNbt (ChunkData.empty ⟨3, -5⟩ (-4) 24).toNbt = .ok c ∧
    ChunkData.fromNbt c.toNbt = .ok c :=
  ⟨_, chunk_roundTrip.1 _ (ChunkData.empty_wellFormed (by decide) (by decide) (by decide)),
    chunk_roundTrip.2 _ _ (chunk_roundTrip.1 _ (ChunkData.empty_wellFormed (by decide) (by decide) (by decide)))⟩

end Apoptosis.L2.Terrain
