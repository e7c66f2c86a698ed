import Apoptosis.L2World.ChunkPlaces
/-!
# What saving a chunk leaves alone (`world/src/chunk.rs`)

A chunk is loaded, written to and stored again. The runtime form carries the
light, the times and the entries no schema names; scheduled ticks,
post-processing and structures it has no field for.

* `setBlocks_frame`: what the writes leave as it was.
* `saved_iff`: when what is stored agrees with what was loaded.
* `structures_erased`: a chunk that loses its structures.
-/
namespace Apoptosis.L2.Terrain
open Apoptosis.Core Apoptosis.L1.Nbt Apoptosis.L1.Packing Apoptosis.L2.Registry Apoptosis.L2.Storage

variable {registry : BlockRegistry}

/-! ## Writing -/

/-- Of a section's position in the row and a slot in it. -/
abbrev Places := Nat → Nat → Prop

/-- What the writes that spare the places leave as it was. -/
structure Frame (spared : Places) (chunk final : Chunk) : Prop where
  pos : final.pos = chunk.pos
  minSectionY : final.minSectionY = chunk.minSectionY
  status : final.status = chunk.status
  dataVersion : final.dataVersion = chunk.dataVersion
  lastUpdate : final.lastUpdate = chunk.lastUpdate
  inhabitedTime : final.inhabitedTime = chunk.inhabitedTime
  lightCorrect : final.lightCorrect = chunk.lightCorrect
  extra : final.extra = chunk.extra
  count : final.sections.length = chunk.sections.length
  sections : ∀ i s s', chunk.sections[i]? = some s → final.sections[i]? = some s' →
    s'.y = s.y ∧ s'.blockLight = s.blockLight ∧ s'.skyLight = s.skyLight ∧
      ∀ slot, spared i slot → s'.blocks[slot]? = s.blocks[slot]?

namespace Frame

theorem refl (spared : Places) (chunk : Chunk) : Frame spared chunk chunk where
  pos := rfl
  minSectionY := rfl
  status := rfl
  dataVersion := rfl
  lastUpdate := rfl
  inhabitedTime := rfl
  lightCorrect := rfl
  extra := rfl
  count := rfl
  sections i s s' hs hs' := by
    obtain rfl : s = s' := Option.some.inj (hs.symm.trans hs')
    exact ⟨rfl, rfl, rfl, fun _ _ => rfl⟩

theorem trans {spared : Places} {a b c : Chunk} (h : Frame spared a b) (h' : Frame spared b c) : Frame spared a c where
  pos := h'.pos.trans h.pos
  minSectionY := h'.minSectionY.trans h.minSectionY
  status := h'.status.trans h.status
  dataVersion := h'.dataVersion.trans h.dataVersion
  lastUpdate := h'.lastUpdate.trans h.lastUpdate
  inhabitedTime := h'.inhabitedTime.trans h.inhabitedTime
  lightCorrect := h'.lightCorrect.trans h.lightCorrect
  extra := h'.extra.trans h.extra
  count := h'.count.trans h.count
  sections i s s' hs hs' := by
    have hlt : i < b.sections.length := by
      rw [h.count]
      exact (List.getElem?_eq_some_iff.mp hs).1
    obtain ⟨hy, hblock, hsky, hslots⟩ := h.sections i s _ hs (List.getElem?_eq_getElem hlt)
    obtain ⟨hy', hblock', hsky', hslots'⟩ := h'.sections i _ s' (List.getElem?_eq_getElem hlt) hs'
    exact ⟨hy'.trans hy, hblock'.trans hblock, hsky'.trans hsky, fun slot hslot =>
      (hslots' slot hslot).trans (hslots slot hslot)⟩

theorem mono {spared spared' : Places} {chunk final : Chunk} (h : Frame spared chunk final)
    (himp : ∀ i slot, spared' i slot → spared i slot) : Frame spared' chunk final where
  pos := h.pos
  minSectionY := h.minSectionY
  status := h.status
  dataVersion := h.dataVersion
  lastUpdate := h.lastUpdate
  inhabitedTime := h.inhabitedTime
  lightCorrect := h.lightCorrect
  extra := h.extra
  count := h.count
  sections i s s' hs hs' := by
    obtain ⟨hy, hblock, hsky, hslots⟩ := h.sections i s s' hs hs'
    exact ⟨hy, hblock, hsky, fun slot hslot => hslots slot (himp i slot hslot)⟩

end Frame

/-- The place that a write to the chunk goes to. -/
def WritesTo (chunk : Chunk) (edit : Int × Int × Int × Int) (i slot : Nat) : Prop :=
  chunk.sectionIndexFor edit.2.1 = some i ∧
    Section.index (edit.1 % 16) (edit.2.1 % 16) (edit.2.2.1 % 16) = slot

/-- One of the writes goes to the place. -/
def Wrote (chunk : Chunk) (edits : List (Int × Int × Int × Int)) (i slot : Nat) : Prop :=
  ∃ edit ∈ edits, WritesTo chunk edit i slot

theorem setBlock_frame {chunk written : Chunk} {x y z id : Int} {change : Option (Int × Int)}
    (h : chunk.setBlock x y z id registry = .ok (change, written)) :
    Frame (fun i slot => ¬WritesTo chunk (x, y, z, id) i slot) chunk written := by
  unfold Chunk.setBlock at h
  split at h
  · exact nomatch h
  next index hindex =>
  split at h
  · exact nomatch h
  next s hs =>
  dsimp only at h
  split at h
  · cases h
    exact .refl _ _
  · cases h
    refine ⟨rfl, rfl, rfl, rfl, rfl, rfl, rfl, rfl, List.length_set, fun i t t' ht ht' => ?_⟩
    by_cases hi : index = i
    · subst hi
      obtain rfl : s = t := Option.some.inj (hs.symm.trans ht)
      rw [List.getElem?_set_self (List.getElem?_eq_some_iff.mp hs).1] at ht'
      obtain rfl := Option.some.inj ht'
      refine ⟨rfl, rfl, rfl, fun slot hslot => List.getElem?_set_ne fun heq => hslot ⟨hindex, heq⟩⟩
    · dsimp only at ht'
      rw [List.getElem?_set_ne hi, ht] at ht'
      obtain rfl := Option.some.inj ht'
      exact ⟨rfl, rfl, rfl, fun _ _ => rfl⟩

theorem writesTo_congr {chunk written : Chunk} (hlow : written.minSectionY = chunk.minSectionY)
    (hcount : written.sections.length = chunk.sections.length) (edit : Int × Int × Int × Int) (i slot : Nat) :
    WritesTo written edit i slot ↔ WritesTo chunk edit i slot := by
  have hfor : written.sectionIndexFor edit.2.1 = chunk.sectionIndexFor edit.2.1 := by
    simp only [Chunk.sectionIndexFor, hlow, hcount]
  rw [WritesTo, WritesTo, hfor]

/-- The writes spare every place that none of them goes to. -/
theorem setBlocks_frame (edits : List (Int × Int × Int × Int)) {chunk final : Chunk}
    (h : chunk.setBlocks registry edits = .ok final) : Frame (fun i slot => ¬Wrote chunk edits i slot) chunk final := by
  induction edits generalizing chunk with
  | nil =>
    cases h
    exact .refl _ _
  | cons edit edits ih =>
    rw [Chunk.setBlocks, List.foldlM_cons] at h
    obtain ⟨next, hnext, hrest⟩ := Framing.bind_ok h
    obtain ⟨⟨change, written⟩, hset, heq⟩ := Framing.bind_ok hnext
    cases heq
    have hhead := setBlock_frame hset
    refine (hhead.mono fun i slot hno hto => hno ⟨edit, .head _, hto⟩).trans ((ih hrest).mono ?_)
    rintro i slot hno ⟨later, hlater, hto⟩
    exact hno ⟨later, .tail _ hlater, (writesTo_congr hhead.minSectionY hhead.count later i slot).mp hto⟩

/-! ## Storing -/

theorem sectionOf_light {pos : ChunkPos} {s : SectionData} {made : Section} (h : sectionOf registry pos s = .ok made) :
    made.blockLight = s.blockLight ∧ made.skyLight = s.skyLight := by
  unfold sectionOf at h
  split at h
  · exact nomatch h
  split at h
  · exact nomatch h
  cases h
  exact ⟨rfl, rfl⟩

theorem sectionData_light {pos : ChunkPos} {s : Section} {made : SectionData}
    (h : sectionData registry pos s = .ok made) : made.blockLight = s.blockLight ∧ made.skyLight = s.skyLight := by
  unfold sectionData at h
  split at h
  · exact nomatch h
  split at h
  · exact nomatch h
  cases h
  exact ⟨rfl, rfl⟩

/-- What was stored agrees with what was loaded, at the places that were spared. -/
structure Agrees (registry : BlockRegistry) (spared : Places) (data out : ChunkData) : Prop where
  status : out.status = data.status
  dataVersion : out.dataVersion = data.dataVersion
  lastUpdate : out.lastUpdate = data.lastUpdate
  inhabitedTime : out.inhabitedTime = data.inhabitedTime
  structures : out.structures = data.structures
  blockTicks : out.blockTicks = data.blockTicks
  fluidTicks : out.fluidTicks = data.fluidTicks
  postProcessing : out.postProcessing = data.postProcessing
  extra : out.extra = data.extra
  count : out.sections.length = data.sections.length
  sections : ∀ i s s', data.sections[i]? = some s → out.sections[i]? = some s' →
    s'.y = s.y ∧ s'.blockLight = s.blockLight ∧ s'.skyLight = s.skyLight ∧
      ∀ slot < 4096, spared i slot → blockId registry s' slot = blockId registry s slot

/-- What the runtime chunk has no field for. -/
structure Bare (data : ChunkData) : Prop where
  structures : data.structures = none
  blockTicks : data.blockTicks = []
  fluidTicks : data.fluidTicks = []
  postProcessing : data.postProcessing = []

/-- The states at the spared places are ones that the table gives back. -/
def Stable (registry : BlockRegistry) (spared : Places) (data : ChunkData) : Prop :=
  ∀ (i : Nat) (s : SectionData), data.sections[i]? = some s → ∀ slot < 4096, spared i slot →
    (blockId registry s slot).bind (fun id => (stateRefOf registry id).bind (stateIdOf registry)) =
      blockId registry s slot

theorem toChunkData_isOk {chunk : Chunk} (h : Registered registry chunk) :
    ∃ out, chunk.toChunkData registry = .ok out := by
  obtain ⟨sections, hsections⟩ := Fallible.mapM_isOk fun s hs => @sectionData_isOk registry chunk.pos s (h s hs)
  exact ⟨_, by rw [Chunk.toChunkData, hsections]; rfl⟩

/-- A stored place holds the state of its id. -/
theorem sectionData_stored {pos : ChunkPos} {s : Section} {made : SectionData}
    (h : sectionData registry pos s = .ok made) {slot : Nat} (hslot : slot < 4096) :
    blockId registry made slot =
      (s.blocks[slot]?).bind fun id => (stateRefOf registry id).bind (stateIdOf registry) := by
  have hlt : slot < s.blocks.length := s.size.symm ▸ hslot
  obtain ⟨state, hstate, hget⟩ := (sectionData_spec h).2 slot _ (List.getElem?_eq_getElem hlt)
  rw [blockId, hget, List.getElem?_eq_getElem hlt, Option.bind_some, Option.bind_some, hstate, Option.bind_some]

section

variable {data : ChunkData} {chunk final : Chunk}

/-- Section by section, what is loaded, written to and stored: the states of the places that were spared
are looked up and written out again. -/
theorem saved_section {out : ChunkData} (h : Chunk.fromChunkData data registry = .ok chunk) {spared : Places}
    (hframe : Frame spared chunk final) (hout : final.toChunkData registry = .ok out) :
    out.sections.length = data.sections.length ∧
    ∀ i s s', data.sections[i]? = some s → out.sections[i]? = some s' →
      s'.y = s.y ∧ s'.blockLight = s.blockLight ∧ s'.skyLight = s.skyLight ∧
        ∀ slot < 4096, spared i slot → blockId registry s' slot =
          (blockId registry s slot).bind fun id => (stateRefOf registry id).bind (stateIdOf registry) := by
  obtain ⟨-, -, hload⟩ := fromChunkData_spec h
  obtain ⟨-, hstore⟩ := toChunkData_spec hout
  have hload' := hload.length_eq
  have hstore' := hstore.length_eq
  have hcount := hframe.count
  refine ⟨by omega, fun i s s' hs hs' => ?_⟩
  obtain ⟨hi, rfl⟩ := List.getElem?_eq_some_iff.mp hs
  obtain ⟨hi', rfl⟩ := List.getElem?_eq_some_iff.mp hs'
  have hmade := hload.get hi (by omega)
  have hdata := hstore.get (i := i) (by omega) hi'
  rw [List.get_eq_getElem, List.get_eq_getElem] at hmade hdata
  obtain ⟨hy, hblock, hsky, hslots⟩ := hframe.sections i _ _
    (List.getElem?_eq_getElem (by omega)) (List.getElem?_eq_getElem (by omega))
  obtain ⟨hymade, -, hmadeslots⟩ := sectionOf_spec hmade
  obtain ⟨hydata, -⟩ := sectionData_spec hdata
  obtain ⟨hblockmade, hskymade⟩ := sectionOf_light hmade
  obtain ⟨hblockdata, hskydata⟩ := sectionData_light hdata
  refine ⟨?_, ?_, ?_, fun slot hslot hspared => ?_⟩
  · rw [hydata, hy, hymade, BitVec.ofInt_toInt]
  · rw [hblockdata, hblock, hblockmade]
  · rw [hskydata, hsky, hskymade]
  · rw [sectionData_stored hdata hslot, hslots slot hspared, hmadeslots slot]

/-- A chunk that was loaded, written to and stored agrees with what was loaded
exactly when it had nothing that the runtime chunk has no field for, every id
it holds is in the table, and the table gives back the states that were spared. -/
theorem saved_iff (h : Chunk.fromChunkData data registry = .ok chunk) (edits : List (Int × Int × Int × Int))
    (hedits : chunk.setBlocks registry edits = .ok final) :
    (∃ out, final.toChunkData registry = .ok out ∧
      Agrees registry (fun i slot => ¬Wrote chunk edits i slot) data out) ↔
    Bare data ∧ Registered registry final ∧ Stable registry (fun i slot => ¬Wrote chunk edits i slot) data := by
  have hframe := setBlocks_frame edits hedits
  obtain ⟨sections, hsections, hdata⟩ := Framing.bind_ok h
  split at hdata
  · exact nomatch hdata
  cases hdata
  constructor
  · rintro ⟨out, hout, hagrees⟩
    obtain ⟨-, hsaved⟩ := saved_section h hframe hout
    refine ⟨?_, toChunkData_registered hout, fun i s hs slot hslot hspared => ?_⟩
    · obtain ⟨stored, hstored, heq⟩ := Framing.bind_ok hout
      cases heq
      exact ⟨hagrees.structures.symm, hagrees.blockTicks.symm, hagrees.fluidTicks.symm, hagrees.postProcessing.symm⟩
    · have hi : i < out.sections.length := by
        rw [hagrees.count]
        exact (List.getElem?_eq_some_iff.mp hs).1
      have hs' := List.getElem?_eq_getElem hi
      rw [← (hsaved i s _ hs hs').2.2.2 slot hslot hspared]
      exact (hagrees.sections i s _ hs hs').2.2.2 slot hslot hspared
  · rintro ⟨hbare, hregistered, hstable⟩
    obtain ⟨out, hout⟩ := toChunkData_isOk hregistered
    obtain ⟨hcount, hsaved⟩ := saved_section h hframe hout
    refine ⟨out, hout, ?_⟩
    obtain ⟨stored, hstored, heq⟩ := Framing.bind_ok hout
    cases heq
    refine ⟨hframe.status, hframe.dataVersion, hframe.lastUpdate, hframe.inhabitedTime, hbare.structures.symm,
      hbare.blockTicks.symm, hbare.fluidTicks.symm, hbare.postProcessing.symm, hframe.extra, hcount, ?_⟩
    intro i s s' hs hs'
    obtain ⟨hy, hblock, hsky, hslots⟩ := hsaved i s s' hs hs'
    exact ⟨hy, hblock, hsky, fun slot hslot hspared =>
      (hslots slot hslot hspared).trans (hstable i s hs slot hslot hspared)⟩

end

/-! ## Ids of the table -/

theorem setBlocks_registered (edits : List (Int × Int × Int × Int)) {chunk final : Chunk}
    (h : chunk.setBlocks registry edits = .ok final) (hchunk : Registered registry chunk)
    (hids : ∀ edit ∈ edits, (stateRefOf registry edit.2.2.2).isSome) : Registered registry final := by
  induction edits generalizing chunk with
  | nil =>
    cases h
    exact hchunk
  | cons edit edits ih =>
    rw [Chunk.setBlocks, List.foldlM_cons] at h
    obtain ⟨next, hnext, hrest⟩ := Framing.bind_ok h
    obtain ⟨⟨change, written⟩, hset, heq⟩ := Framing.bind_ok hnext
    cases heq
    refine ih hrest ?_ fun later hlater => hids later (.tail _ hlater)
    unfold Chunk.setBlock at hset
    split at hset
    · cases hset
    split at hset
    · cases hset
    next s hs =>
    dsimp only at hset
    split at hset
    · cases hset
      exact hchunk
    · cases hset
      intro t ht id hid
      rcases List.mem_or_eq_of_mem_set ht with hold | rfl
      · exact hchunk t hold id hid
      · rcases List.mem_or_eq_of_mem_set hid with hold | rfl
        · exact hchunk s (List.mem_of_getElem? hs) id hold
        · exact hids edit (.head _)

/-- A loaded chunk whose states the table gives back holds ids of the table. -/
theorem fromChunkData_registered {data : ChunkData} {chunk : Chunk}
    (h : Chunk.fromChunkData data registry = .ok chunk) (hstable : Stable registry (fun _ _ => True) data) :
    Registered registry chunk := by
  obtain ⟨-, -, hall⟩ := fromChunkData_spec h
  intro s hs id hid
  obtain ⟨i, hi, rfl⟩ := List.mem_iff_getElem.mp hs
  obtain ⟨slot, hslot, rfl⟩ := List.mem_iff_getElem.mp hid
  have hi' : i < data.sections.length := hall.length_eq ▸ hi
  have hmade := (sectionOf_spec (hall.get hi' hi)).2.2 slot
  rw [List.get_eq_getElem, List.get_eq_getElem, List.getElem?_eq_getElem hslot] at hmade
  have hback := hstable i _ (List.getElem?_eq_getElem hi') slot (by rwa [Section.size] at hslot) trivial
  rw [← hmade, Option.bind_some] at hback
  exact Option.isSome_iff_exists.mpr ((Option.bind_eq_some_iff.mp hback).imp fun _ => And.left)

/-! ## Structures -/

theorem stoneChunk_stable (low : BitVec 32) (heights : List (BitVec 8)) (spared : Places) :
    Stable stoneTable spared (stoneChunk low heights) := by
  intro i s hs slot hslot _
  obtain ⟨y, -, rfl⟩ := List.mem_map.mp (List.mem_of_getElem? hs)
  rw [stoneSection_id hslot]
  decide

/-- A section of stone, and a block of it to take away. -/
theorem stoneChunk_written {data : ChunkData} (hsections : data.sections = [stoneSection 0])
    (hlow : data.minSectionY = 0) {chunk : Chunk} (h : Chunk.fromChunkData data stoneTable = .ok chunk) :
    ∃ final, chunk.setBlocks stoneTable [(1, 2, 3, 0)] = .ok final := by
  have hid : chunk.idAt 1 2 3 ≠ none := by
    have hstanding : data.standing (2 / 16) = some (stoneSection 0) := by
      rw [ChunkData.standing, ChunkData.lowest, hlow, hsections]
      rfl
    rw [fromChunkData_idAt h, hstanding, Option.bind_some, stoneSection_id (by decide)]
    exact Option.some_ne_none 1
  obtain ⟨⟨change, final⟩, hset⟩ := Chunk.setBlock_isOk hid 0 stoneTable
  exact ⟨final, by rw [Chunk.setBlocks, List.foldlM_cons, hset]; rfl⟩

theorem saved_iff_stone : ∃ chunk final out, Chunk.fromChunkData (stoneChunk 0 [0]) stoneTable = .ok chunk ∧
    chunk.setBlocks stoneTable [(1, 2, 3, 0)] = .ok final ∧ final.toChunkData stoneTable = .ok out ∧
    Agrees stoneTable (fun i slot => ¬Wrote chunk [(1, 2, 3, 0)] i slot) (stoneChunk 0 [0]) out := by
  obtain ⟨chunk, hchunk⟩ := stoneChunk_isOk 0 (List.cons_ne_nil 0 [])
  obtain ⟨final, hfinal⟩ := stoneChunk_written rfl rfl hchunk
  have hregistered : Registered stoneTable final :=
    setBlocks_registered _ hfinal (fromChunkData_registered hchunk (stoneChunk_stable _ _ _))
      (List.forall_mem_singleton.mpr (by decide))
  obtain ⟨out, hout⟩ := (saved_iff hchunk _ hfinal).mpr ⟨⟨rfl, rfl, rfl, rfl⟩, hregistered, stoneChunk_stable _ _ _⟩
  exact ⟨chunk, final, out, hchunk, hfinal, hout⟩

/-- A chunk that lists a structure has none once it is stored again. -/
theorem structures_erased : ∃ chunk final,
    Chunk.fromChunkData { stoneChunk 0 [0] with structures := some (.compound []) } stoneTable = .ok chunk ∧
    chunk.setBlocks stoneTable [(1, 2, 3, 0)] = .ok final ∧
    ¬∃ out, final.toChunkData stoneTable = .ok out ∧
      Agrees stoneTable (fun i slot => ¬Wrote chunk [(1, 2, 3, 0)] i slot)
        { stoneChunk 0 [0] with structures := some (.compound []) } out := by
  obtain ⟨chunk, hchunk⟩ := stoneChunk_isOk 0 (List.cons_ne_nil 0 [])
  obtain ⟨final, hfinal⟩ := stoneChunk_written rfl rfl hchunk
  refine ⟨chunk, final, hchunk, hfinal, ?_⟩
  rintro ⟨out, hout, hagrees⟩
  obtain ⟨stored, -, heq⟩ := Framing.bind_ok hout
  cases heq
  exact nomatch hagrees.structures

end Apoptosis.L2.Terrain
