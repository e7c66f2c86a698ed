import Apoptosis.Core.Settle
import Apoptosis.L2Redstone.Propagate
/-!
# Dust among air and redstone blocks

In a world of air, wire and redstone blocks a wire takes the full level beside
a block and else one less than the strongest wire beside it.

* `exists_wirePower`, `wireState_spec`: the states of a wire and its powers.
* `wireLevel_eq`: the level a wire takes.
-/
namespace Apoptosis.L2.Redstone
open Apoptosis.Core Apoptosis.L2.Registry BlockView EmitterTable

/-! ## The wire of the registry -/

def AIR : Text := "minecraft:air".toList

def wireSides : List Text := ["up".toList, "side".toList, "none".toList]

/-- mirrors crates/test-support/fixtures/registry/blocks.tsv:214 -/
def wireAxes : List (Text × List Text) :=
  [("east".toList, wireSides), ("north".toList, wireSides),
    ("power".toList, (List.range 16).map (Nat.toDigits 10)), ("south".toList, wireSides),
    ("west".toList, wireSides)]

/-- A consistent table with the wire of the fixture. -/
structure WireRegistry (registry : BlockRegistry) : Prop where
  consistent : registry.Consistent
  wire : ∃ entry, registry.byName REDSTONE_WIRE = some entry ∧ entry.axes = wireAxes

theorem parse_power : ∀ power < 16, parseUnsigned 255 (Nat.toDigits 10 power) = some power := by decide

theorem wireProperties_keys (power : PowerLevel) :
    (wireProperties power).map Prod.fst = wireAxes.map Prod.fst := rfl

theorem wireProperties_sorted (power : PowerLevel) :
    (wireProperties power).reverse.Pairwise fun a b => toLex b ≤ toLex a := by
  revert power
  decide

variable {table : EmitterTable}

/-- The power an assignment of the wire's axes gives. -/
theorem power_of_assigns {entry : BlockEntry} (haxes : entry.axes = wireAxes) (hp : entry.Proper)
    {properties : Properties} (h : entry.Assigns properties) : ∃ power : PowerLevel,
      (property properties "power".toList).bind (fun value => (parseUnsigned 255 value).map PowerLevel.fromRaw) =
        some power ∧ ∀ value, ("power".toList, value) ∈ properties → value = Nat.toDigits 10 power.val := by
  have hkeys : (properties.map Prod.fst).Nodup := h.keys.nodup_iff.mpr hp.names
  have haxis : ("power".toList, (List.range 16).map (Nat.toDigits 10)) ∈ entry.axes := by
    rw [haxes]
    simp [wireAxes]
  obtain ⟨⟨key, value⟩, hmem, hkey⟩ := List.mem_map.mp
    (h.keys.symm.subset (List.mem_map_of_mem haxis : "power".toList ∈ entry.axes.map Prod.fst))
  dsimp only at hkey
  subst hkey
  have hvalue := h.values _ haxis value hmem
  obtain ⟨n, hn, rfl⟩ := List.mem_map.mp hvalue
  have hlt : n < 16 := List.mem_range.mp hn
  refine ⟨⟨n, hlt⟩, ?_, fun value' hmem' => ?_⟩
  · rw [property, BlockEntry.find_of_mem hkeys hmem]
    simp only [Option.map_some, Option.bind_some, parse_power n hlt, Option.some.injEq]
    exact PowerLevel.fromRaw_val ⟨n, hlt⟩
  · have hpair := List.inj_on_of_nodup_map hkeys hmem hmem' rfl
    exact (Prod.mk.inj hpair).2.symm

theorem wirePower_eq (id : Int) : table.wirePower id = (table.registry.propertiesOf id).bind fun properties =>
    (property properties "power".toList).bind fun value => (parseUnsigned 255 value).map PowerLevel.fromRaw :=
  rfl

theorem exists_wirePower (h : WireRegistry table.registry) {id : Int}
    (hname : table.registry.blockName id = some REDSTONE_WIRE) : ∃ power, table.wirePower id = some power := by
  obtain ⟨entry, hentry, haxes⟩ := h.wire
  obtain ⟨owner, howner, hfirst, hlast⟩ := h.consistent.owner id _ hname
  obtain rfl : owner = entry := Option.some.inj (howner.symm.trans hentry)
  obtain ⟨properties, hproperties⟩ : ∃ properties, table.registry.propertiesOf id = some properties := by
    simp only [BlockRegistry.propertiesOf, hname, hentry]
    rw [if_neg (by omega), BlockEntry.propertiesOf, if_neg (by omega)]
    exact ⟨_, rfl⟩
  obtain ⟨power, hpower, -⟩ := power_of_assigns haxes (h.consistent.proper _ _ hentry)
    (BlockRegistry.propertiesOf_assigns h.consistent hname hentry hproperties)
  exact ⟨power, by rw [wirePower_eq, hproperties, Option.bind_some, hpower]⟩

/-- The wire has a state of every power, which reads back. -/
theorem wireState_spec (h : WireRegistry table.registry) (power : PowerLevel) : ∃ id,
    table.wireState power = some id ∧ table.registry.blockName id = some REDSTONE_WIRE ∧
      table.wirePower id = some power := by
  obtain ⟨entry, hentry, haxes⟩ := h.wire
  have hkeys : (wireProperties power).reverse.map Prod.fst =
      (wireAxes.map Prod.fst).reverse := by rw [List.map_reverse, wireProperties_keys]
  have hassigns : entry.Assigns (wireProperties power).reverse := by
    refine ⟨wireProperties_sorted power, ?_, ?_⟩
    · rw [hkeys, haxes]
      exact List.reverse_perm _
    · rw [haxes]
      simp only [wireAxes, wireProperties, List.mem_reverse, List.mem_cons, List.not_mem_nil, or_false]
      have hside : "side".toList ∈ wireSides := by decide
      have hlevel : Nat.toDigits 10 power.val ∈ (List.range 16).map (Nat.toDigits 10) :=
        List.mem_map_of_mem (List.mem_range.mpr power.isLt)
      rintro axis (rfl | rfl | rfl | rfl | rfl) v hv <;> simp at hv
      · exact hv ▸ hside
      · exact hv ▸ hside
      · exact hv ▸ hlevel
      · exact hv ▸ hside
      · exact hv ▸ hside
  have hne : wireProperties power ≠ [] := fun h => by cases h
  have hne' : (wireProperties power).reverse ≠ [] := by simpa using hne
  obtain ⟨id, hid, hname, hproperties⟩ := BlockRegistry.stateId_spec h.consistent hentry hne' hassigns
  refine ⟨id, ?_, hname, ?_⟩
  · rw [← hid, wireState]
    have hperm := entry.indexOf_perm (by rw [wireProperties_keys]; decide)
      (List.reverse_perm (wireProperties power)).symm
    simp only [BlockRegistry.stateId, hentry, if_neg hne, if_neg hne', hperm]
  · obtain ⟨power', hpower, hvalue⟩ := power_of_assigns haxes (h.consistent.proper _ _ hentry) hassigns
    have hdigits := hvalue (Nat.toDigits 10 power.val) (by simp [wireProperties])
    have hparsed := congrArg (parseUnsigned 255) hdigits
    rw [parse_power _ power.isLt, parse_power _ power'.isLt] at hparsed
    rw [wirePower_eq, hproperties, Option.bind_some, hpower, Fin.ext (Option.some.inj hparsed)]

/-! ## The roles -/

theorem classify_wire {id : Int} {power : PowerLevel}
    (hname : table.registry.blockName id = some REDSTONE_WIRE) (hpower : table.wirePower id = some power) :
    table.classify id = .wire power := by
  simp only [classify, hname, if_true, hpower]

theorem sourceForName_air : sourceForName AIR = none := by decide +kernel

theorem classify_air {id : Int} (hname : table.registry.blockName id = some AIR) :
    table.classify id = .passive := by
  simp only [classify, hname, sourceForName_air]
  rfl

theorem isConductive_air {id : Int} (hname : table.registry.blockName id = some AIR) :
    table.isConductive id = false := by
  have hsolid : isSolidOrUnknown table.registry id = false := by
    unfold isSolidOrUnknown
    split
    · rfl
    · rw [hname]
      rfl
  simp only [isConductive, classify_air hname, hsolid]

theorem classify_block {id : Int} (hname : table.registry.blockName id = some REDSTONE_BLOCK) :
    table.classify id = .emitter .redstoneBlock := by
  simp only [classify, hname]
  rfl

theorem emittedForId_block {id : Int} (hname : table.registry.blockName id = some REDSTONE_BLOCK)
    (inputs : BlockInputs) : (table.emittedForId id inputs).effective = .MAX := by
  have hnone : table.componentOf id = none := by
    unfold componentOf
    rw [classify_block hname]
    cases table.registry.propertiesOf id <;> rfl
  simp only [emittedForId, classify_block hname, hnone]
  rfl

/-! ## What a wire reads -/

section View

variable {V : Type} [BlockView V] {world : V}

/-- The block at a position. -/
def blockAt (table : EmitterTable) (world : V) (pos : BlockPos) : Option Text :=
  (getState world pos).bind table.registry.blockName

def IsWire (table : EmitterTable) (world : V) (pos : BlockPos) : Prop :=
  blockAt table world pos = some REDSTONE_WIRE

def TouchesBlock (table : EmitterTable) (world : V) (pos : BlockPos) : Prop :=
  ∃ neighbour ∈ NeighbourSet.of pos, blockAt table world neighbour = some REDSTONE_BLOCK

instance : DecidablePred (IsWire table world) := fun pos =>
  inferInstanceAs (Decidable (blockAt table world pos = some REDSTONE_WIRE))

instance : DecidablePred (TouchesBlock table world) := fun pos =>
  inferInstanceAs (Decidable (∃ neighbour ∈ NeighbourSet.of pos,
    blockAt table world neighbour = some REDSTONE_BLOCK))

/-- The power a state stores, none for what is no wire. -/
def storedPower (table : EmitterTable) (state : Option Int) : Nat :=
  match state.map table.classify with
  | some (.wire stored) => stored.val
  | _ => 0

/-- Every loaded state is air, wire or a redstone block. -/
def DustWorld (table : EmitterTable) (world : V) : Prop :=
  ∀ pos id, getState world pos = some id → table.registry.blockName id = some AIR ∨
    table.registry.blockName id = some REDSTONE_WIRE ∨ table.registry.blockName id = some REDSTONE_BLOCK

/-- What a wire takes from one face. -/
def faceLevel (face : EmitterOutput × Bool) : Nat :=
  if face.2 then face.1.effective.val - 1 else face.1.effective.val

theorem le_emitted_wire (stored : PowerLevel) (faces : List (EmitterOutput × Bool)) {v : Nat} (hv : 0 < v) :
    v ≤ (emitted (.wire stored) ⟨faces.map Prod.fst, faces.map Prod.snd⟩).effective.val ↔
      ∃ face ∈ faces, v ≤ faceLevel face := by
  have hfold : ∀ (best : PowerLevel), v ≤ ((faces.foldl (fun best face =>
      let level := face.1.effective
      let level := if face.2 then level.saturatingSub WIRE_ATTENUATION_PER_BLOCK else level
      max best level) best).val) ↔ v ≤ best.val ∨ ∃ face ∈ faces, v ≤ faceLevel face := by
    induction faces with
    | nil => simp
    | cons face rest ih =>
      intro best
      rw [List.foldl_cons, ih, PowerLevel.max_val, le_max_iff]
      simp only [List.mem_cons, exists_eq_or_imp, faceLevel]
      cases face.2 <;> simp [PowerLevel.saturatingSub, WIRE_ATTENUATION_PER_BLOCK, or_assoc]
  have hzip : (faces.map Prod.fst).zip (faces.map Prod.snd) = faces := (List.zip_of_prod rfl rfl).symm
  simp only [emitted, hzip]
  rw [EmitterOutput.effective_of, PowerState.effective_weakOnly, hfold]
  simp only [PowerLevel.ZERO_val]
  constructor
  · rintro (h | h)
    · omega
    · exact h
  · exact .inr

/-- What a face cites, and so what a wire takes from it. -/
theorem faceLevel_cite (hr : WireRegistry table.registry) (hdust : DustWorld table world)
    (solid : BlockPos → Option (PowerLevel × Bool)) (index : Nat) (neighbour : BlockPos) :
    faceLevel (cite world table true solid index neighbour) =
      if blockAt table world neighbour = some REDSTONE_BLOCK then 15
      else storedPower table (getState world neighbour) - 1 := by
  unfold cite blockAt storedPower
  cases hid : getState world neighbour with
  | none => rfl
  | some id =>
    simp only [Option.bind_some, Option.map_some]
    rcases hdust neighbour id hid with hname | hname | hname
    · rw [classify_air hname, isConductive_air hname, hname]
      rfl
    · obtain ⟨power, hpower⟩ := exists_wirePower hr hname
      have hne : some REDSTONE_WIRE ≠ some REDSTONE_BLOCK := by decide
      simp only [classify_wire hname hpower, hname, if_neg hne, faceLevel, if_true,
        EmitterOutput.effective_of, PowerState.effective_weakOnly]
    · simp only [classify_block hname, hname, if_true, faceLevel]
      simp [emittedForId_block hname]

/-- The level a wire takes at a position. -/
def wireLevel (world : V) (table : EmitterTable) (pos : BlockPos) : PowerLevel :=
  (emitted (.wire .ZERO) (gatherInputs world table pos true)).effective

theorem le_wireLevel (hr : WireRegistry table.registry) (hdust : DustWorld table world) (pos : BlockPos)
    {v : Nat} (hv : 0 < v) : v ≤ (wireLevel world table pos).val ↔
      (TouchesBlock table world pos ∧ v ≤ 15) ∨
        ∃ neighbour ∈ NeighbourSet.of pos, v + 1 ≤ storedPower table (getState world neighbour) := by
  rw [wireLevel, gatherInputs, gatherInputsInner, le_emitted_wire _ _ hv]
  have hface : ∀ index neighbour, v ≤ faceLevel (cite world table true
      (fun n => solidPower world table n (some pos)) index neighbour) ↔
        (blockAt table world neighbour = some REDSTONE_BLOCK ∧ v ≤ 15) ∨
          (v + 1 ≤ storedPower table (getState world neighbour)) := by
    intro index neighbour
    rw [faceLevel_cite hr hdust]
    by_cases hblock : blockAt table world neighbour = some REDSTONE_BLOCK
    · have hnot : storedPower table (getState world neighbour) = 0 := by
        obtain ⟨id, hid, hname⟩ := Option.bind_eq_some_iff.mp hblock
        rw [hid, storedPower, Option.map_some, classify_block hname]
      simp only [hblock, if_true, true_and, hnot]
      omega
    · rw [if_neg hblock]
      simp only [hblock, false_and, false_or]
      omega
  constructor
  · intro ⟨face, hmem, hle⟩
    obtain ⟨⟨neighbour, index⟩, hindex, rfl⟩ := List.mem_map.mp hmem
    have hneighbour : neighbour ∈ NeighbourSet.of pos := List.fst_mem_of_mem_zipIdx hindex
    rcases (hface index neighbour).mp hle with h | h
    · exact .inl ⟨⟨neighbour, hneighbour, h.1⟩, h.2⟩
    · exact .inr ⟨neighbour, hneighbour, h⟩
  · intro h
    obtain ⟨neighbour, hneighbour, hor⟩ : ∃ neighbour ∈ NeighbourSet.of pos,
        (blockAt table world neighbour = some REDSTONE_BLOCK ∧ v ≤ 15) ∨
          (v + 1 ≤ storedPower table (getState world neighbour)) := by
      rcases h with ⟨⟨neighbour, hneighbour, hblock⟩, hle⟩ | ⟨neighbour, hneighbour, hle⟩
      · exact ⟨neighbour, hneighbour, .inl ⟨hblock, hle⟩⟩
      · exact ⟨neighbour, hneighbour, .inr hle⟩
    obtain ⟨index, hindex⟩ := List.mem_iff_getElem?.mp hneighbour
    have hmem : (neighbour, index) ∈ (NeighbourSet.of pos).zipIdx := List.mem_zipIdx_iff_getElem?.mpr hindex
    exact ⟨_, List.mem_map_of_mem hmem, (hface index neighbour).mpr hor⟩

end View

/-! ## A small table -/

/-- Air, the wire and the redstone block. -/
def dustTable : EmitterTable where
  registry := {
    byName := fun name =>
      if name = AIR then some ⟨0, 0, 1, []⟩
      else if name = REDSTONE_WIRE then some ⟨1, 1161, 1296, wireAxes⟩
      else if name = REDSTONE_BLOCK then some ⟨1297, 1297, 1, []⟩ else none
    byId := AIR :: (List.replicate 1296 REDSTONE_WIRE ++ [REDSTONE_BLOCK])
    airId := 0
    emptyIds := [0] }

theorem dustTable_name (id : Int) : dustTable.registry.blockName id =
    if id = 0 then some AIR else if 1 ≤ id ∧ id ≤ 1296 then some REDSTONE_WIRE
    else if id = 1297 then some REDSTONE_BLOCK else none := by
  unfold BlockRegistry.blockName
  by_cases hneg : id < 0
  · rw [if_pos hneg, if_neg (by omega), if_neg (by omega), if_neg (by omega)]
  rw [if_neg hneg]
  obtain ⟨n, rfl⟩ := Int.eq_ofNat_of_zero_le (not_lt.mp hneg)
  rw [Int.toNat_natCast]
  cases n with
  | zero => rfl
  | succ n =>
    rw [if_neg (by omega)]
    change (List.replicate 1296 REDSTONE_WIRE ++ [REDSTONE_BLOCK])[n]? = _
    by_cases hwire : n < 1296
    · rw [List.getElem?_append_left (by rw [List.length_replicate]; exact hwire), List.getElem?_replicate,
        if_pos hwire, if_pos (by omega)]
    · rw [if_neg (by omega), List.getElem?_append_right (by rw [List.length_replicate]; omega),
        List.length_replicate]
      by_cases hblock : n = 1296
      · rw [if_pos (by omega), hblock]
        rfl
      · rw [if_neg (by omega), List.getElem?_eq_none]
        rw [List.length_singleton]
        omega

theorem dustTable_entry {name : Text} {entry : BlockEntry}
    (h : dustTable.registry.byName name = some entry) :
    (name = AIR ∧ entry = ⟨0, 0, 1, []⟩) ∨ (name = REDSTONE_WIRE ∧ entry = ⟨1, 1161, 1296, wireAxes⟩) ∨
      (name = REDSTONE_BLOCK ∧ entry = ⟨1297, 1297, 1, []⟩) := by
  simp only [dustTable] at h
  split at h
  · next hname => exact .inl ⟨hname, (Option.some.inj h).symm⟩
  split at h
  · next hname => exact .inr (.inl ⟨hname, (Option.some.inj h).symm⟩)
  split at h
  · next hname => exact .inr (.inr ⟨hname, (Option.some.inj h).symm⟩)
  · exact nomatch h

theorem dustTable_wire : WireRegistry dustTable.registry := by
  refine ⟨⟨?_, ?_, ?_⟩, ⟨1, 1161, 1296, wireAxes⟩, rfl, rfl⟩
  · intro id name h
    rw [dustTable_name] at h
    split at h
    · next hid =>
      obtain rfl := Option.some.inj h
      exact ⟨⟨0, 0, 1, []⟩, rfl, by dsimp only; omega, by dsimp only; omega⟩
    split at h
    · next hid =>
      obtain rfl := Option.some.inj h
      exact ⟨⟨1, 1161, 1296, wireAxes⟩, rfl, by dsimp only; omega, by dsimp only; omega⟩
    split at h
    · next hid =>
      obtain rfl := Option.some.inj h
      exact ⟨⟨1297, 1297, 1, []⟩, rfl, by dsimp only; omega, by dsimp only; omega⟩
    · exact nomatch h
  · intro name entry h j hj
    rw [dustTable_name]
    obtain ⟨rfl, rfl⟩ | ⟨rfl, rfl⟩ | ⟨rfl, rfl⟩ := dustTable_entry h
    · dsimp only at hj ⊢
      exact ⟨le_rfl, by rw [if_pos (by omega)]⟩
    · dsimp only at hj ⊢
      exact ⟨by omega, by rw [if_neg (by omega), if_pos (by omega)]⟩
    · dsimp only at hj ⊢
      exact ⟨by omega, by rw [if_neg (by omega), if_neg (by omega), if_pos (by omega)]⟩
  · intro name entry h
    obtain ⟨rfl, rfl⟩ | ⟨rfl, rfl⟩ | ⟨rfl, rfl⟩ := dustTable_entry h
    · exact ⟨by decide, by decide, by decide⟩
    · exact ⟨by decide, by decide, by decide⟩
    · exact ⟨by decide, by decide, by decide⟩

end Apoptosis.L2.Redstone
