import Apoptosis.Core.Framing
import Apoptosis.L1Encoding.NbtFields
import Apoptosis.L1Encoding.Packing
import Apoptosis.L2Storage.Keys
import Mathlib.Data.List.Sort
/-!
# The chunk on disk (`persistence/src/chunk.rs`)

A section names its height itself, and keeps its blocks as a palette and packed
indices into it.

* `toValues_get`: what `get` answers is what `to_values` lists.
* `fromValues_spec`: a container made of values gives them back.
-/
namespace Apoptosis.L2.Terrain
open Apoptosis.Core Apoptosis.L1.Nbt Apoptosis.L1.Packing Apoptosis.L2.Storage

/-- mirrors crates/persistence/src/chunk.rs:79-85 (`BlockState`) -/
structure BlockState where
  name : String
  properties : List (String × String)
  deriving DecidableEq, Repr

def quoted (s : String) : String := "\"" ++ s ++ "\""

namespace BlockState

def propertyFromNbt (entry : String × NbtTag) : ServerResult (String × String) :=
  match entry.2 with
  | .string text => .ok (entry.1, text)
  | other => .error (.corruptData ("block state property " ++ quoted entry.1 ++ " is " ++
      other.typeName ++ ", expected String"))

/-- mirrors crates/persistence/src/chunk.rs:98-121 (`BlockState::from_nbt`) -/
def fromNbt (tag : NbtTag) : ServerResult BlockState :=
  match tag.getStr "Name" with
  | none => .error (.corruptData "palette entry has no Name")
  | some name => do
    let properties ← (((tag.getCompound "Properties").bind NbtTag.entries).getD []).mapM propertyFromNbt
    return ⟨name, properties⟩

def fields (s : BlockState) : List (String × Option NbtTag) := [
  ("Name", some (.string s.name)),
  ("Properties", if s.properties = [] then none
    else some (.compound (s.properties.map fun p => (p.1, .string p.2))))]

/-- mirrors crates/persistence/src/chunk.rs:125-141 (`BlockState::to_nbt`) -/
def toNbt (s : BlockState) : NbtTag := .compound (present s.fields)

end BlockState

/-! ## Palettes -/

/-- The width of the array is 0 where there is none.
mirrors crates/persistence/src/chunk.rs:150-160 (`PalettedContainer`) -/
structure PalettedArray (T : Type) where
  palette : List T
  data : Option (List (BitVec 64))
  bits : Nat
  entries : Nat
  minBits : Nat
  nonempty : palette ≠ []

/-- As a constructor makes it: every index is one of the palette's. -/
structure PalettedContainer (T : Type) extends PalettedArray T where
  inside : ∀ longs, data = some longs →
    ∃ values, unpack longs bits entries = .ok values ∧ ∀ v ∈ values, v < palette.length

namespace PalettedContainer

variable {T : Type}

/-- mirrors crates/persistence/src/chunk.rs:162-170 (`PalettedContainer::single`) -/
def single (value : T) (entries minBits : Nat) : PalettedContainer T where
  palette := [value]
  data := none
  bits := 0
  entries := entries
  minBits := minBits
  nonempty := List.cons_ne_nil value []
  inside := fun _ h => nomatch h

/-- mirrors crates/persistence/src/chunk.rs:183-219 (`PalettedContainer::from_parts`) -/
def fromParts (palette : List T) (data : Option (List (BitVec 64))) (entries minBits : Nat) :
    ServerResult (PalettedContainer T) :=
  if hempty : palette = [] then .error (.corruptData "paletted container has an empty palette")
  else if entries < palette.length then
    .error (.corruptData ("paletted container has " ++ toString entries ++ " entries but a palette of " ++
      toString palette.length))
  else
    let bits := bitsFor palette.length minBits
    match data with
    | none => .ok ⟨⟨palette, none, 0, entries, minBits, hempty⟩, fun _ h => nomatch h⟩
    | some longs => match hvalues : unpack longs bits entries with
      | .error e => .error e
      | .ok values => match hbad : values.find? (palette.length ≤ ·) with
        | some bad => .error (.corruptData ("paletted container index " ++ toString bad ++
            " is outside a palette of " ++ toString palette.length))
        | none => .ok ⟨⟨palette, some longs, bits, entries, minBits, hempty⟩, fun _ h =>
            ⟨values, Option.some.inj h ▸ hvalues, fun v hv => by simpa using List.find?_eq_none.mp hbad v hv⟩⟩

/-- The distinct values in the order they appear, and each value's place among them. -/
def paletteLoop [DecidableEq T] : List T → List T → List Nat → List T × List Nat
  | [], palette, indices => (palette, indices)
  | value :: values, palette, indices =>
    match palette.idxOf? value with
    | some found => paletteLoop values palette (indices ++ [found])
    | none => paletteLoop values (palette ++ [value]) (indices ++ [palette.length])

/-- mirrors crates/persistence/src/chunk.rs:232-266 (`PalettedContainer::from_values`) -/
def fromValues [DecidableEq T] (values : List T) (entries minBits : Nat) :
    ServerResult (PalettedContainer T) :=
  if values = [] then .error (.corruptData "paletted container needs at least one value")
  else if values.length ≠ entries then
    .error (.corruptData ("paletted container got " ++ toString values.length ++ " values for a " ++
      toString entries ++ "-entry container"))
  else match paletteLoop values [] [] with
    | ([only], _) => .ok (single only entries minBits)
    | (palette, indices) => do
      let data ← pack indices (bitsFor palette.length minBits)
      fromParts palette (some data) entries minBits

end PalettedContainer

namespace PalettedArray

variable {T : Type}

/-- mirrors crates/persistence/src/chunk.rs:298-314 (`PalettedContainer::get`) -/
def get (c : PalettedArray T) (index : Nat) : Option T :=
  if c.entries ≤ index then none
  else match c.data with
    | none => c.palette[0]?
    | some data =>
      if data.length ≤ index / valuesPerLong c.bits then none else c.palette[valueAt data c.bits index]?

/-- mirrors crates/persistence/src/chunk.rs:382-391 (`PalettedContainer::to_values`) -/
def toValues (c : PalettedArray T) : ServerResult (List T) :=
  match c.data with
  | none => .ok (List.replicate c.entries (c.palette.head c.nonempty))
  | some data => do
    let indices ← unpack data c.bits c.entries
    -- no index is past the palette
    return indices.map fun index => c.palette.getD index (c.palette.head c.nonempty)

/-- The array with the value in its palette, and the value's place there. -/
def learn [DecidableEq T] (c : PalettedArray T) (value : T) : PalettedArray T × Nat :=
  match c.palette.idxOf? value with
  | some found => (c, found)
  | none => ({ c with palette := c.palette ++ [value], nonempty := by simp }, c.palette.length)

/-- The words `set` writes into, and their width. -/
def materialise (c : PalettedArray T) : ServerResult (List (BitVec 64)) × Nat :=
  let targetBits := bitsFor c.palette.length c.minBits
  match c.data with
  | none => (.ok (List.replicate (longsNeeded c.entries targetBits) 0), targetBits)
  | some data =>
    if targetBits = c.bits then (.ok data, c.bits)
    else match unpack data c.bits c.entries with
      | .error e => (.error e, c.bits)
      | .ok values => (pack values targetBits, targetBits)

/-- An error leaves the array without its words.
mirrors crates/persistence/src/chunk.rs:331-375 (`PalettedContainer::set`) -/
def set [DecidableEq T] (c : PalettedArray T) (index : Nat) (value : T) : ServerResult Unit × PalettedArray T :=
  if c.entries ≤ index then (.ok (), c)
  else
    let learned := (c.learn value).1
    let (words, bits) := learned.materialise
    match words with
    | .error e => (.error e, { learned with data := none, bits := bits })
    | .ok data =>
      let resized := data ++ List.replicate (longsNeeded c.entries bits - data.length) 0
      (.ok (), { learned with data := some (overwrite bits index (c.learn value).2 resized), bits := bits })

/-- mirrors crates/persistence/src/chunk.rs:395-397 (`PalettedContainer::parts`) -/
def parts (c : PalettedArray T) : List T × Option (List (BitVec 64)) := (c.palette, c.data)

/-- The index into the palette at each place. -/
def indices (c : PalettedArray T) : ServerResult (List Nat) :=
  match c.data with
  | none => .ok (List.replicate c.entries 0)
  | some data => unpack data c.bits c.entries

/-- mirrors crates/persistence/src/chunk.rs:407-421 (`PalettedContainer::repack`) -/
def repack (c : PalettedArray T) : ServerResult Unit × PalettedArray T :=
  if c.palette.length ≤ 1 then (.ok (), { c with data := none, bits := 0 })
  else
    let targetBits := bitsFor c.palette.length c.minBits
    match c.indices with
    | .error e => (.error e, c)
    | .ok values => match pack values targetBits with
      | .error e => (.error e, { c with bits := targetBits })
      | .ok data => (.ok (), { c with data := some data, bits := targetBits })

end PalettedArray

namespace PalettedContainer

variable {T : Type}

/-! ## Reading what was written -/

theorem toValues_isOk (c : PalettedContainer T) :
    ∃ values, c.toValues = .ok values ∧ values.length = c.entries := by
  unfold PalettedArray.toValues
  cases hdata : c.data with
  | none => exact ⟨_, rfl, List.length_replicate⟩
  | some data =>
    obtain ⟨indices, hindices, -⟩ := c.inside data hdata
    dsimp only
    rw [hindices]
    exact ⟨_, rfl, by rw [List.length_map, (unpack_lt hindices).1]⟩

/-- `get` answers what `to_values` lists. -/
theorem toValues_get {c : PalettedContainer T} {values : List T} (h : c.toValues = .ok values) (index : Nat) :
    c.get index = values[index]? := by
  unfold PalettedArray.toValues at h
  unfold PalettedArray.get
  cases hdata : c.data with
  | none =>
    rw [hdata] at h
    cases h
    split
    · rw [List.getElem?_replicate, if_neg (by omega)]
    · rw [List.getElem?_replicate, if_pos (by omega), ← List.head?_eq_getElem?, List.head?_eq_some_head]
  | some data =>
    rw [hdata] at h
    obtain ⟨indices, hindices, hinside⟩ := c.inside data hdata
    dsimp only at h ⊢
    rw [hindices] at h
    cases h
    obtain ⟨hlength, -⟩ := unpack_lt hindices
    rw [List.getElem?_map]
    split
    · rw [List.getElem?_eq_none (by omega)]
      rfl
    · have hlt : index < indices.length := by omega
      unfold unpack at hindices
      split at hindices
      · exact nomatch hindices
      split at hindices
      · exact nomatch hindices
      · rename_i hbits hlong
        have hpos : 0 < valuesPerLong c.bits := by
          refine valuesPerLong_pos (not_not.mp hbits).1 ?_
          have hmax := (not_not.mp hbits).2
          unfold MAX_BITS at hmax
          omega
        have hwords := le_longsNeeded_mul hpos c.entries
        have hslot : index / valuesPerLong c.bits < data.length := by
          refine (Nat.div_lt_iff_lt_mul hpos).mpr ?_
          have := Nat.mul_le_mul_right (valuesPerLong c.bits) (Nat.le_of_not_lt hlong)
          omega
        have hvalue : indices[index]? = some (valueAt data c.bits index) := by
          rw [← Except.ok.inj hindices, List.getElem?_map, List.getElem?_range (by omega)]
          rfl
        have hin := hinside _ (List.mem_of_getElem? hvalue)
        rw [if_neg (by omega), hvalue, Option.map_some, List.getElem?_eq_getElem hin,
          List.getD_eq_getElem?_getD, List.getElem?_eq_getElem hin]
        rfl

theorem paletteLoop_spec [DecidableEq T] (values : List T) {done palette : List T} {indices : List Nat}
    (h : (indices.map fun i => palette[i]?) = done.map some) :
    ((paletteLoop values palette indices).2.map fun i => (paletteLoop values palette indices).1[i]?) =
        (done ++ values).map some ∧
      (paletteLoop values palette indices).1.length ≤ palette.length + values.length ∧
      (palette ≠ [] ∨ values ≠ [] → (paletteLoop values palette indices).1 ≠ []) := by
  induction values generalizing done palette indices with
  | nil =>
    rw [List.append_nil]
    exact ⟨h, le_rfl, fun hne => hne.resolve_right fun hno => hno rfl⟩
  | cons value values ih =>
    unfold paletteLoop
    cases hfound : palette.idxOf? value with
    | some found =>
      dsimp only
      have hvalue : palette[found]? = some value := by
        obtain ⟨hlt, heq, -⟩ := List.idxOf?_eq_some_iff.mp hfound
        rw [List.getElem?_eq_getElem hlt, heq]
      obtain ⟨hmap, hlength, hne⟩ := @ih (done ++ [value]) palette (indices ++ [found])
        (by simp [h, hvalue])
      refine ⟨by simpa using hmap, by simp; omega, fun _ => hne (.inl ?_)⟩
      intro hnil
      rw [hnil] at hvalue
      exact nomatch hvalue
    | none =>
      dsimp only
      have hold : (indices.map fun i => (palette ++ [value])[i]?) = done.map some := by
        rw [← h]
        refine List.map_congr_left fun i hi => ?_
        have hmem : palette[i]? ∈ done.map some := h ▸ List.mem_map_of_mem hi
        obtain ⟨v, -, hv⟩ := List.mem_map.mp hmem
        obtain ⟨hlt, -⟩ := List.getElem?_eq_some_iff.mp hv.symm
        exact List.getElem?_append_left hlt
      obtain ⟨hmap, hlength, hne⟩ := @ih (done ++ [value]) (palette ++ [value])
        (indices ++ [palette.length]) (by simp [hold])
      refine ⟨by simpa using hmap, ?_, fun _ => hne (.inl (by simp))⟩
      simp only [List.length_append, List.length_cons, List.length_nil] at hlength ⊢
      omega

theorem fromParts_ok {palette : List T} {data : Option (List (BitVec 64))} {entries minBits : Nat}
    {c : PalettedContainer T} (h : fromParts palette data entries minBits = .ok c) :
    c.palette = palette ∧ c.data = data ∧ c.entries = entries ∧ c.minBits = minBits ∧
      palette.length ≤ entries ∧ c.bits = if data = none then 0 else bitsFor palette.length minBits := by
  unfold fromParts at h
  split at h
  · exact nomatch h
  split at h
  · exact nomatch h
  rename_i hle
  dsimp only at h
  cases data with
  | none =>
    cases h
    exact ⟨rfl, rfl, rfl, rfl, Nat.le_of_not_lt hle, rfl⟩
  | some longs =>
    dsimp only at h
    split at h
    · exact nomatch h
    · split at h
      · exact nomatch h
      · cases h
        exact ⟨rfl, rfl, rfl, rfl, Nat.le_of_not_lt hle, rfl⟩

theorem fromParts_entries {palette : List T} {data : Option (List (BitVec 64))} {entries minBits : Nat}
    {c : PalettedContainer T} (h : fromParts palette data entries minBits = .ok c) : c.entries = entries :=
  (fromParts_ok h).2.2.1

theorem fromParts_isOk {palette : List T} {longs : List (BitVec 64)} {entries minBits : Nat} {values : List Nat}
    (hpalette : palette ≠ []) (hentries : palette.length ≤ entries)
    (hvalues : unpack longs (bitsFor palette.length minBits) entries = .ok values)
    (hinside : ∀ v ∈ values, v < palette.length) : ∃ c, fromParts palette (some longs) entries minBits = .ok c ∧
      c.palette = palette ∧ c.data = some longs ∧ c.bits = bitsFor palette.length minBits ∧
      c.entries = entries := by
  unfold fromParts
  rw [dif_neg hpalette, if_neg (by omega)]
  dsimp only
  split
  · rename_i e he
    rw [hvalues] at he
    exact nomatch he
  · rename_i found hfound
    rw [hvalues] at hfound
    cases hfound
    split
    · rename_i bad hbad
      have hlt := hinside bad (List.mem_of_find?_eq_some hbad)
      have hle := List.find?_some hbad
      simp only [decide_eq_true_eq] at hle
      omega
    · exact ⟨_, rfl, rfl, rfl, rfl, rfl⟩

theorem toValues_eq {c : PalettedContainer T} {longs : List (BitVec 64)} {indices : List Nat} {values : List T}
    (hdata : c.data = some longs) (hindices : unpack longs c.bits c.entries = .ok indices)
    (hvalues : (indices.map fun i => c.palette[i]?) = values.map some) : c.toValues = .ok values := by
  unfold PalettedArray.toValues
  rw [hdata]
  dsimp only
  rw [hindices]
  refine congrArg Except.ok (List.map_injective_iff.mpr (Option.some_injective T) ?_)
  rw [← hvalues, List.map_map]
  refine List.map_congr_left fun i hi => ?_
  have hmem : c.palette[i]? ∈ values.map some := hvalues ▸ List.mem_map_of_mem hi
  obtain ⟨v, -, hv⟩ := List.mem_map.mp hmem
  rw [Function.comp_apply, List.getD_eq_getElem?_getD, ← hv, Option.getD_some]

/-- A container made of as many values as it has entries gives them back. -/
theorem fromValues_spec [DecidableEq T] {values : List T} {entries minBits : Nat} (hlength : values.length = entries)
    (hpos : 0 < entries) (hentries : entries ≤ 2 ^ 32) (hmin : 1 ≤ minBits ∧ minBits ≤ MAX_BITS) :
    ∃ c, fromValues values entries minBits = .ok c ∧ c.toValues = .ok values := by
  have hne : values ≠ [] := List.ne_nil_of_length_pos (by omega)
  obtain ⟨hmap, hsmall, hpalette⟩ := @paletteLoop_spec T _ values [] [] [] rfl
  replace hpalette := hpalette (.inr hne)
  unfold fromValues
  rw [if_neg hne, if_neg (not_not.mpr hlength)]
  rw [List.nil_append] at hmap
  split
  · rename_i only indices hloop
    rw [hloop] at hmap
    refine ⟨_, rfl, ?_⟩
    unfold PalettedArray.toValues
    refine congrArg Except.ok (List.eq_replicate_iff.mpr ⟨hlength, fun v hv => ?_⟩).symm
    have hmem : some v ∈ indices.map fun i => [only][i]? := hmap ▸ List.mem_map_of_mem hv
    obtain ⟨i, -, hi⟩ := List.mem_map.mp hmem
    exact List.mem_singleton.mp (List.mem_of_getElem? hi)
  · rename_i palette indices _ hloop
    rw [hloop] at hmap hsmall hpalette
    dsimp only at hmap hsmall hpalette
    rw [List.length_nil, Nat.zero_add] at hsmall
    have hcount : indices.length = entries := by
      have hlengths := congrArg List.length hmap
      rw [List.length_map, List.length_map] at hlengths
      exact hlengths.trans hlength
    have hinside : ∀ i ∈ indices, i < palette.length := by
      intro i hi
      have hmem : palette[i]? ∈ values.map some := hmap ▸ List.mem_map_of_mem hi
      obtain ⟨v, -, hv⟩ := List.mem_map.mp hmem
      exact (List.getElem?_eq_some_iff.mp hv.symm).1
    have hlo : 1 ≤ bitsFor palette.length minBits := hmin.1.trans (min_le_bitsFor _ _)
    have hhi : bitsFor palette.length minBits ≤ MAX_BITS := bitsFor_le hmin.2 (by unfold MAX_BITS; omega)
    obtain ⟨longs, hpack, hunpack⟩ := unpack_pack hlo hhi fun i hi => le_bitsFor (hinside i hi)
    rw [hcount] at hunpack
    obtain ⟨c, hc, hcp, hcd, hcb, hce⟩ := fromParts_isOk hpalette (by omega) hunpack hinside
    refine ⟨c, ?_, toValues_eq hcd (by rw [hcb, hce]; exact hunpack) (by rw [hcp]; exact hmap)⟩
    rw [hpack]
    exact hc

theorem fromValues_entries [DecidableEq T] {values : List T} {entries minBits : Nat} {c : PalettedContainer T}
    (h : fromValues values entries minBits = .ok c) : c.entries = entries := by
  unfold fromValues at h
  split at h
  · exact nomatch h
  split at h
  · exact nomatch h
  split at h
  · cases h
    rfl
  · obtain ⟨data, -, h⟩ := Framing.bind_ok h
    exact fromParts_entries h

end PalettedContainer
end Apoptosis.L2.Terrain
