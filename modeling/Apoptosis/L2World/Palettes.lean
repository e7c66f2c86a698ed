import Apoptosis.L2World.ChunkData
import Mathlib.Data.Finset.Card
/-!
# A palette over its history (`persistence/src/chunk.rs`)

A set teaches the palette a value it did not know. Nothing makes it forget one,
and what reads a container back refuses a palette longer than the container.

* `Holds`: the words of an array, at the width of its palette, name its values.
* `Holds.set`, `Holds.repack`: an edit replaces one value, or none.
* `palette_edited`: how long a palette is after a run of edits.
* `container_storable_iff`: a container is read back as what was set in it
  exactly when it has no fewer entries than its palette ever learnt.
-/
namespace Apoptosis.L2.Terrain
open Apoptosis.Core Apoptosis.L1.Nbt Apoptosis.L1.Packing Apoptosis.L2.Storage

variable {T : Type}

namespace PalettedArray

/-- The words, at the width they have, name the values. -/
def Names (c : PalettedArray T) (values : List T) : Prop :=
  ∃ indices, c.indices = .ok indices ∧ (indices.map fun i => c.palette[i]?) = values.map some

structure Holds (c : PalettedArray T) (values : List T) : Prop where
  names : c.Names values
  width : ∀ longs, c.data = some longs → c.bits = bitsFor c.palette.length c.minBits

/-- The indices of a palette this long fit the width `pack` allows. -/
structure Fits (c : PalettedArray T) : Prop where
  one_le : 1 ≤ c.minBits
  min_le : c.minBits ≤ MAX_BITS
  palette : c.palette.length ≤ 2 ^ MAX_BITS

theorem index_lt {palette values : List T} {indices : List Nat}
    (h : (indices.map fun i => palette[i]?) = values.map some) : ∀ i ∈ indices, i < palette.length := by
  intro i hi
  have hmem : palette[i]? ∈ values.map some := h ▸ List.mem_map_of_mem hi
  obtain ⟨v, -, hv⟩ := List.mem_map.mp hmem
  exact (List.getElem?_eq_some_iff.mp hv.symm).1

theorem map_append {palette values : List T} {indices : List Nat}
    (h : (indices.map fun i => palette[i]?) = values.map some) (more : List T) :
    (indices.map fun i => (palette ++ more)[i]?) = values.map some := by
  rw [← h]
  exact List.map_congr_left fun i hi => List.getElem?_append_left (index_lt h i hi)

namespace Names

variable {c : PalettedArray T} {values : List T}

theorem inside (h : c.Names values) : ∀ longs, c.data = some longs →
    ∃ indices, unpack longs c.bits c.entries = .ok indices ∧ ∀ v ∈ indices, v < c.palette.length := by
  intro longs hdata
  obtain ⟨indices, hindices, hmap⟩ := h
  rw [PalettedArray.indices, hdata] at hindices
  exact ⟨indices, hindices, index_lt hmap⟩

theorem toValues (h : c.Names values) : c.toValues = .ok values := by
  have hinside := h.inside
  obtain ⟨indices, hindices, hmap⟩ := h
  cases hdata : c.data with
  | none =>
    rw [PalettedArray.indices, hdata] at hindices
    rw [PalettedArray.toValues, hdata]
    refine congrArg Except.ok (List.map_injective_iff.mpr (Option.some_injective T) ?_)
    rw [← hmap, ← Except.ok.inj hindices, List.map_replicate, List.map_replicate, ← List.head?_eq_getElem?,
      List.head?_eq_some_head c.nonempty]
  | some longs =>
    rw [PalettedArray.indices, hdata] at hindices
    exact @PalettedContainer.toValues_eq T ⟨c, hinside⟩ longs indices values hdata hindices hmap

theorem get (h : c.Names values) (index : Nat) : c.get index = values[index]? :=
  @PalettedContainer.toValues_get T ⟨c, h.inside⟩ values h.toValues index

end Names

theorem indices_length {c : PalettedArray T} {indices : List Nat} (h : c.indices = .ok indices) :
    indices.length = c.entries := by
  unfold PalettedArray.indices at h
  split at h
  · rw [← Except.ok.inj h, List.length_replicate]
  · exact (unpack_lt h).1

theorem names_of_toValues {c : PalettedContainer T} {values : List T} (h : c.toValues = .ok values) :
    c.Names values := by
  unfold PalettedArray.toValues at h
  cases hdata : c.data with
  | none =>
    rw [hdata] at h
    refine ⟨List.replicate c.entries 0, by rw [PalettedArray.indices, hdata], ?_⟩
    rw [← Except.ok.inj h, List.map_replicate, List.map_replicate, ← List.head?_eq_getElem?,
      List.head?_eq_some_head c.nonempty]
  | some longs =>
    obtain ⟨indices, hindices, hinside⟩ := c.inside longs hdata
    rw [hdata] at h
    dsimp only at h
    rw [hindices] at h
    refine ⟨indices, by rw [PalettedArray.indices, hdata]; exact hindices, ?_⟩
    rw [← Except.ok.inj h, List.map_map]
    refine List.map_congr_left fun i hi => ?_
    rw [Function.comp_apply, List.getD_eq_getElem?_getD, List.getElem?_eq_getElem (hinside i hi),
      Option.getD_some]

/-- What is read back from the parts of an array. -/
theorem Holds.reloads {c : PalettedArray T} {values : List T} (h : c.Holds values)
    (hfits : c.palette.length ≤ c.entries) :
    ∃ again, PalettedContainer.fromParts c.parts.1 c.parts.2 c.entries c.minBits = .ok again ∧
      again.toValues = .ok values := by
  have hlisted := h.names.toValues
  unfold parts
  cases hdata : c.data with
  | none =>
    rw [PalettedArray.toValues, hdata] at hlisted
    unfold PalettedContainer.fromParts
    rw [dif_neg c.nonempty, if_neg (Nat.not_lt.mpr hfits)]
    exact ⟨_, rfl, hlisted⟩
  | some longs =>
    obtain ⟨indices, hindices, hmap⟩ := h.names
    rw [PalettedArray.indices, hdata] at hindices
    rw [h.width longs hdata] at hindices
    obtain ⟨again, hagain, hpalette, hwords, hbits, hentries⟩ :=
      PalettedContainer.fromParts_isOk c.nonempty hfits hindices (index_lt hmap)
    exact ⟨again, hagain, PalettedContainer.toValues_eq hwords (by rw [hbits, hentries]; exact hindices)
      (by rw [hpalette]; exact hmap)⟩

theorem Fits.width {c : PalettedArray T} (h : c.Fits) : 1 ≤ bitsFor c.palette.length c.minBits ∧
    bitsFor c.palette.length c.minBits ≤ MAX_BITS :=
  ⟨h.one_le.trans (min_le_bitsFor _ _), bitsFor_le h.min_le h.palette⟩

/-- The array takes the width of its palette and still names its values. -/
theorem materialise_spec {c : PalettedArray T} {values : List T} (hfits : c.Fits) (h : c.Names values) :
    ∃ data indices, c.materialise = (.ok data, bitsFor c.palette.length c.minBits) ∧
      unpack data (bitsFor c.palette.length c.minBits) c.entries = .ok indices ∧
      (indices.map fun i => c.palette[i]?) = values.map some := by
  obtain ⟨hlo, hhi⟩ := hfits.width
  obtain ⟨indices, hindices, hmap⟩ := h
  unfold materialise
  cases hdata : c.data with
  | none =>
    rw [PalettedArray.indices, hdata] at hindices
    rw [← Except.ok.inj hindices] at hmap
    exact ⟨_, _, rfl, unpack_zeros hlo hhi c.entries, hmap⟩
  | some longs =>
    have hlength := indices_length hindices
    rw [PalettedArray.indices, hdata] at hindices
    by_cases hsame : bitsFor c.palette.length c.minBits = c.bits
    · refine ⟨longs, indices, ?_, by rw [hsame]; exact hindices, hmap⟩
      dsimp only
      rw [if_pos hsame, hsame]
    · obtain ⟨data, hpack, hunpack⟩ := unpack_pack hlo hhi fun i hi => le_bitsFor (index_lt hmap i hi)
      rw [hlength] at hunpack
      refine ⟨data, indices, ?_, hunpack, hmap⟩
      dsimp only at hindices ⊢
      rw [if_neg hsame, hindices]
      dsimp only
      rw [hpack]

section
variable [DecidableEq T]

theorem learn_palette (c : PalettedArray T) (value : T) :
    (c.learn value).1.palette = if value ∈ c.palette then c.palette else c.palette ++ [value] := by
  unfold learn
  cases hfound : c.palette.idxOf? value with
  | some found =>
    obtain ⟨hlt, heq, -⟩ := List.idxOf?_eq_some_iff.mp hfound
    rw [if_pos (heq ▸ List.getElem_mem hlt)]
  | none => rw [if_neg (List.idxOf?_eq_none_iff.mp hfound)]

theorem learn_place (c : PalettedArray T) (value : T) :
    (c.learn value).1.palette[(c.learn value).2]? = some value := by
  unfold learn
  cases hfound : c.palette.idxOf? value with
  | some found =>
    obtain ⟨hlt, heq, -⟩ := List.idxOf?_eq_some_iff.mp hfound
    exact List.getElem?_eq_some_iff.mpr ⟨hlt, heq⟩
  | none => exact List.getElem?_concat_length

theorem learn_rest (c : PalettedArray T) (value : T) : (c.learn value).1.entries = c.entries ∧
    (c.learn value).1.minBits = c.minBits := by
  unfold learn
  split <;> exact ⟨rfl, rfl⟩

theorem Names.learn {c : PalettedArray T} {values : List T} (h : c.Names values) (value : T) :
    (c.learn value).1.Names values := by
  obtain ⟨indices, hindices, hmap⟩ := h
  unfold PalettedArray.learn
  split
  · exact ⟨indices, hindices, hmap⟩
  · exact ⟨indices, hindices, map_append hmap [value]⟩

/-- A set replaces the value at its index. -/
theorem Holds.set {c : PalettedArray T} {values : List T} (h : c.Holds values) (index : Nat) (value : T)
    (hindex : index < c.entries) (hfits : (c.learn value).1.Fits) :
    (c.set index value).1 = .ok () ∧ (c.set index value).2.Holds (values.set index value) := by
  obtain ⟨data, indices, hwords, hindices, hmap⟩ := materialise_spec hfits (h.names.learn value)
  have hplace := c.learn_place value
  obtain ⟨hlt, -⟩ := List.getElem?_eq_some_iff.mp hplace
  rw [(c.learn_rest value).1] at hindices
  have hlong : longsNeeded c.entries (bitsFor (c.learn value).1.palette.length (c.learn value).1.minBits)
      - data.length = 0 := by
    unfold unpack at hindices
    split at hindices
    · exact nomatch hindices
    split at hindices
    · exact nomatch hindices
    · omega
  unfold PalettedArray.set
  rw [if_neg (by omega)]
  dsimp only
  rw [hwords]
  dsimp only
  rw [hlong, List.replicate_zero, List.append_nil]
  refine ⟨rfl, ⟨?_, fun _ _ => rfl⟩⟩
  refine ⟨indices.set index (c.learn value).2, ?_, ?_⟩
  · rw [PalettedArray.indices]
    dsimp only
    rw [(c.learn_rest value).1]
    exact unpack_overwrite hindices hindex (le_bitsFor hlt)
  dsimp only
  rw [List.map_set, List.map_set, hmap, hplace]

end

/-- A repack keeps the values. -/
theorem Holds.repack {c : PalettedArray T} {values : List T} (h : c.Holds values) (hfits : c.Fits) :
    c.repack.1 = .ok () ∧ c.repack.2.Holds values := by
  obtain ⟨indices, hindices, hmap⟩ := h.names
  have hlength := indices_length hindices
  unfold PalettedArray.repack
  by_cases hsingle : c.palette.length ≤ 1
  · rw [if_pos hsingle]
    refine ⟨rfl, ⟨⟨List.replicate c.entries 0, rfl, ?_⟩, fun _ hnone => nomatch hnone⟩⟩
    have hzero : indices = List.replicate c.entries 0 := by
      refine List.eq_replicate_iff.mpr ⟨hlength, fun i hi => ?_⟩
      have := index_lt hmap i hi
      omega
    rw [← hzero]
    exact hmap
  · obtain ⟨hlo, hhi⟩ := hfits.width
    obtain ⟨data, hpack, hunpack⟩ := unpack_pack hlo hhi fun i hi => le_bitsFor (index_lt hmap i hi)
    rw [hlength] at hunpack
    rw [if_neg hsingle]
    dsimp only
    rw [hindices]
    dsimp only
    rw [hpack]
    exact ⟨rfl, ⟨⟨indices, hunpack, hmap⟩, fun _ _ => rfl⟩⟩

end PalettedArray

/-! ## Runs of edits -/

inductive Edit (T : Type)
  | set (index : Nat) (value : T)
  | repack
  deriving DecidableEq, Repr

namespace PalettedArray

variable [DecidableEq T]

def edit (c : PalettedArray T) : Edit T → PalettedArray T
  | .set index value => (c.set index value).2
  | .repack => c.repack.2

def edited (c : PalettedArray T) (edits : List (Edit T)) : PalettedArray T := edits.foldl edit c

end PalettedArray

/-- What an array of values is after an edit. -/
def Edit.apply (values : List T) : Edit T → List T
  | .set index value => values.set index value
  | .repack => values

/-- The value set last at each index, or the first one. -/
def lastSet (values : List T) (edits : List (Edit T)) : List T := edits.foldl Edit.apply values

/-- The values a run sets inside the container. -/
def written (entries : Nat) (edits : List (Edit T)) : List T :=
  edits.filterMap fun
    | .set index value => if index < entries then some value else none
    | .repack => none

theorem written_set (entries index : Nat) (value : T) (edits : List (Edit T)) :
    written entries (.set index value :: edits) =
      if index < entries then value :: written entries edits else written entries edits := by
  unfold written
  split <;> simp [*]

theorem card_fresh [DecidableEq T] {value : T} {palette : List T} (hnew : value ∉ palette) (sets : Finset T) :
    (insert value sets \ palette.toFinset).card = (sets \ (palette ++ [value]).toFinset).card + 1 := by
  have herase : sets \ (palette ++ [value]).toFinset = (insert value sets \ palette.toFinset).erase value := by
    ext v
    simp only [List.toFinset_append, Finset.mem_sdiff, Finset.mem_union, List.mem_toFinset, List.mem_singleton,
      Finset.mem_erase, Finset.mem_insert]
    tauto
  rw [herase, Finset.card_erase_add_one]
  exact Finset.mem_sdiff.mpr ⟨Finset.mem_insert_self value sets, fun h => hnew (List.mem_toFinset.mp h)⟩

namespace PalettedArray

variable [DecidableEq T]

theorem edit_rest (c : PalettedArray T) (e : Edit T) :
    (c.edit e).entries = c.entries ∧ (c.edit e).minBits = c.minBits := by
  cases e with
  | set index value =>
    unfold edit PalettedArray.set
    dsimp only
    split
    · exact ⟨rfl, rfl⟩
    · split <;> exact c.learn_rest value
  | repack =>
    unfold edit PalettedArray.repack
    dsimp only
    split
    · exact ⟨rfl, rfl⟩
    · split
      · exact ⟨rfl, rfl⟩
      · split <;> exact ⟨rfl, rfl⟩

theorem edited_rest (c : PalettedArray T) (edits : List (Edit T)) :
    (c.edited edits).entries = c.entries ∧ (c.edited edits).minBits = c.minBits := by
  induction edits generalizing c with
  | nil => exact ⟨rfl, rfl⟩
  | cons e edits ih =>
    obtain ⟨hentries, hmin⟩ := ih (c.edit e)
    exact ⟨hentries.trans (c.edit_rest e).1, hmin.trans (c.edit_rest e).2⟩

/-- An edit teaches the palette what it sets, whether or not the set succeeds. -/
theorem palette_edit (c : PalettedArray T) (e : Edit T) : (c.edit e).palette = match e with
    | .set index value => if index < c.entries then (c.learn value).1.palette else c.palette
    | .repack => c.palette := by
  cases e with
  | set index value =>
    unfold edit PalettedArray.set
    dsimp only
    by_cases hindex : index < c.entries
    · rw [if_neg (by omega), if_pos hindex]
      split <;> rfl
    · rw [if_pos (by omega), if_neg hindex]
  | repack =>
    unfold edit PalettedArray.repack
    dsimp only
    split
    · rfl
    · split
      · rfl
      · split <;> rfl

/-- The palette grows by the values set that it did not have. -/
theorem palette_edited (c : PalettedArray T) (edits : List (Edit T)) : (c.edited edits).palette.length =
    c.palette.length + ((written c.entries edits).toFinset \ c.palette.toFinset).card := by
  induction edits generalizing c with
  | nil => simp [edited, written]
  | cons e edits ih =>
    have hnext := ih (c.edit e)
    rw [(c.edit_rest e).1, palette_edit] at hnext
    refine hnext.trans ?_
    cases e with
    | repack => rfl
    | set index value =>
      dsimp only
      rw [written_set]
      by_cases hindex : index < c.entries
      · rw [if_pos hindex, if_pos hindex, learn_palette, List.toFinset_cons]
        by_cases hknown : value ∈ c.palette
        · rw [if_pos hknown, Finset.insert_sdiff_of_mem _ (List.mem_toFinset.mpr hknown)]
        · rw [if_neg hknown, card_fresh hknown, List.length_append, List.length_singleton]
          omega
      · rw [if_neg hindex, if_neg hindex]

theorem palette_le_edited (c : PalettedArray T) (edits : List (Edit T)) :
    c.palette.length ≤ (c.edited edits).palette.length := by
  rw [palette_edited]
  omega

/-- An edit replaces what it sets, as long as the palette then fits. -/
theorem Holds.edit {c : PalettedArray T} {values : List T} (h : c.Holds values) (e : Edit T)
    (hmin : 1 ≤ c.minBits ∧ c.minBits ≤ MAX_BITS) (hpalette : (c.edit e).palette.length ≤ 2 ^ MAX_BITS) :
    (c.edit e).Holds (e.apply values) := by
  cases e with
  | repack =>
    rw [palette_edit] at hpalette
    exact (h.repack ⟨hmin.1, hmin.2, hpalette⟩).2
  | set index value =>
    rw [palette_edit] at hpalette
    dsimp only at hpalette
    by_cases hindex : index < c.entries
    · rw [if_pos hindex] at hpalette
      rw [← (c.learn_rest value).2] at hmin
      exact (h.set index value hindex ⟨hmin.1, hmin.2, hpalette⟩).2
    · have hsame : values.set index value = values := by
        obtain ⟨indices, hindices, hmap⟩ := h.names
        have hlength := congrArg List.length hmap
        rw [List.length_map, List.length_map, indices_length hindices] at hlength
        exact List.set_eq_of_length_le (by omega)
      unfold PalettedArray.edit PalettedArray.set Edit.apply
      dsimp only
      rw [if_pos (by omega), hsame]
      exact h

theorem Holds.edited {c : PalettedArray T} {values : List T} (h : c.Holds values)
    (hmin : 1 ≤ c.minBits ∧ c.minBits ≤ MAX_BITS) (edits : List (Edit T))
    (hpalette : (c.edited edits).palette.length ≤ 2 ^ MAX_BITS) :
    (c.edited edits).Holds (lastSet values edits) := by
  induction edits generalizing c values with
  | nil => exact h
  | cons e edits ih =>
    have hstep := h.edit e hmin (((c.edit e).palette_le_edited edits).trans hpalette)
    rw [← (c.edit_rest e).2] at hmin
    exact ih hstep hmin hpalette

end PalettedArray

/-! ## Containers of a chunk -/

inductive ContainerKind
  | blocks
  | biomes
  deriving DecidableEq, Repr

def ContainerKind.entries : ContainerKind → Nat
  | blocks => BLOCK_ENTRIES
  | biomes => BIOME_ENTRIES

def ContainerKind.minBits : ContainerKind → Nat
  | blocks => BLOCK_MIN_BITS
  | biomes => BIOME_MIN_BITS

/-- A constructor made the container, and these are its first values. -/
inductive Made [DecidableEq T] (kind : ContainerKind) : PalettedContainer T → List T → Prop
  | single (value : T) :
    Made kind (PalettedContainer.single value kind.entries kind.minBits) (List.replicate kind.entries value)
  | fromValues {c : PalettedContainer T} {values : List T}
    (h : PalettedContainer.fromValues values kind.entries kind.minBits = .ok c) : Made kind c values
  | fromParts {c : PalettedContainer T} {palette values : List T} {data : Option (List (BitVec 64))}
    (h : PalettedContainer.fromParts palette data kind.entries kind.minBits = .ok c)
    (hvalues : c.toValues = .ok values) : Made kind c values

/-- A faithful array of the values, which a chunk saved with it reads back. -/
structure Storable (kind : ContainerKind) (c : PalettedArray T) (values : List T) : Prop where
  get : ∀ index, c.get index = values[index]?
  toValues : c.toValues = .ok values
  reloads : ∃ again, PalettedContainer.fromParts c.parts.1 c.parts.2 kind.entries kind.minBits = .ok again ∧
    again.toValues = .ok values

theorem ContainerKind.bounds (kind : ContainerKind) :
    (1 ≤ kind.minBits ∧ kind.minBits ≤ MAX_BITS) ∧ 0 < kind.entries ∧ kind.entries ≤ 2 ^ MAX_BITS := by
  cases kind <;> decide

theorem width_of_fromParts {c : PalettedContainer T} {palette : List T} {data : Option (List (BitVec 64))}
    {entries minBits : Nat} (h : PalettedContainer.fromParts palette data entries minBits = .ok c) :
    ∀ longs, c.data = some longs → c.bits = bitsFor c.palette.length c.minBits := by
  obtain ⟨hpalette, hdata, -, hmin, -, hbits⟩ := PalettedContainer.fromParts_ok h
  intro longs hlongs
  rw [hbits, if_neg (by rw [← hdata, hlongs]; exact Option.some_ne_none longs), hpalette, hmin]

variable [DecidableEq T] {kind : ContainerKind} {c : PalettedContainer T} {values : List T}

/-- A container starts with the values it was made of. -/
theorem Made.start (h : Made kind c values) :
    c.Holds values ∧ c.entries = kind.entries ∧ c.minBits = kind.minBits := by
  cases h with
  | single value => exact ⟨⟨PalettedArray.names_of_toValues rfl, fun _ hnone => nomatch hnone⟩, rfl, rfl⟩
  | fromParts h hvalues =>
    obtain ⟨-, -, hentries, hmin, -⟩ := PalettedContainer.fromParts_ok h
    exact ⟨⟨PalettedArray.names_of_toValues hvalues, width_of_fromParts h⟩, hentries, hmin⟩
  | fromValues h =>
    obtain ⟨hmin, hpos, hmax⟩ := kind.bounds
    have hparts := h
    unfold PalettedContainer.fromValues at hparts
    split at hparts
    · exact nomatch hparts
    split at hparts
    · exact nomatch hparts
    rename_i _ hlength
    obtain ⟨made, hmade, hvalues⟩ := PalettedContainer.fromValues_spec (not_not.mp hlength) hpos hmax hmin
    cases h.symm.trans hmade
    have hnames := PalettedArray.names_of_toValues hvalues
    split at hparts
    · cases hparts
      exact ⟨⟨hnames, fun _ hnone => nomatch hnone⟩, rfl, rfl⟩
    · obtain ⟨data, -, hparts⟩ := Framing.bind_ok hparts
      obtain ⟨-, -, hentries, hmin, -⟩ := PalettedContainer.fromParts_ok hparts
      exact ⟨⟨hnames, width_of_fromParts hparts⟩, hentries, hmin⟩

/-- After any run of edits a container answers what was set in it, and can be saved and loaded, exactly
when the palette it had and the values set in it make no more than it has entries. -/
theorem container_storable_iff (hmade : Made kind c values) (edits : List (Edit T)) :
    Storable kind (c.edited edits) (lastSet values edits) ↔
      c.palette.length + ((written kind.entries edits).toFinset \ c.palette.toFinset).card ≤ kind.entries := by
  obtain ⟨hholds, hentries, hmin⟩ := hmade.start
  obtain ⟨hbits, -, hmax⟩ := kind.bounds
  rw [← hentries, ← PalettedArray.palette_edited]
  constructor
  · intro hstorable
    obtain ⟨again, hagain, -⟩ := hstorable.reloads
    obtain ⟨-, -, -, -, hlength, -⟩ := PalettedContainer.fromParts_ok hagain
    exact hentries ▸ hlength
  · intro hle
    rw [← hmin] at hbits
    have hend := hholds.edited hbits edits (hle.trans (hentries ▸ hmax))
    obtain ⟨hedited, hminimum⟩ := c.edited_rest edits
    have hreloads := hend.reloads (hedited ▸ hle)
    rw [hedited, hminimum, hentries, hmin] at hreloads
    exact ⟨hend.names.get, hend.names.toValues, hreloads⟩

/-- One block set and the container repacked. -/
theorem oneBlock_storable : Storable ContainerKind.blocks
    ((PalettedContainer.single 0 BLOCK_ENTRIES BLOCK_MIN_BITS).edited [.set 5 7, .repack])
    (lastSet (List.replicate BLOCK_ENTRIES 0) [.set 5 7, .repack]) :=
  (container_storable_iff (.single 0) [.set 5 7, .repack]).mpr (by decide)

/-- One biome cell goes through 64 values more, and its container has 65 in its palette for 64 entries. -/
theorem restlessBiome_not_storable : ¬ ∀ edits : List (Edit Nat), Storable ContainerKind.biomes
    ((PalettedContainer.single 0 BIOME_ENTRIES BIOME_MIN_BITS).edited edits)
    (lastSet (List.replicate BIOME_ENTRIES 0) edits) := by
  intro hall
  have hlength := (container_storable_iff (.single 0) ((List.range 65).map (Edit.set 0))).mp (hall _)
  revert hlength
  decide +kernel

end Apoptosis.L2.Terrain
