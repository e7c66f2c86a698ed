import Apoptosis.Core.MixedRadix
import Mathlib.Data.Char
import Mathlib.Data.List.Lex
import Mathlib.Data.List.Sort
import Mathlib.Data.Prod.Lex
/-!
# Block states (`registry/src/blocks.rs`)

A block's states are the assignments of values to its axes, numbered in mixed
radix with the last axis fastest.

* `assigns_indexOf`: every assignment of a proper entry has its place, and the
  place gives the assignment back.
* `propertiesOf_assigns`: every place in the range gives an assignment.
* `stateId_spec`: what a name and an assignment resolve to reads back as them.
-/
namespace Apoptosis.L2.Registry
open Apoptosis.Core

abbrev Text := List Char
abbrev Properties := List (Text × Text)

/-- mirrors crates/registry/src/blocks.rs:60-72 (`BlockEntry`) -/
structure BlockEntry where
  firstStateId : Int
  defaultStateId : Int
  stateCount : Nat
  axes : List (Text × List Text)
  deriving DecidableEq, Repr

namespace BlockEntry

/-- The loop of `index_of`, over the axes from the last. -/
def indexLoop (properties : Properties) : List (Text × List Text) → Nat → Nat → Option (Nat × Nat)
  | [], index, stride => some (index, stride)
  | (name, values) :: rest, index, stride => do
    let value ← (properties.find? (·.1 = name)).map (·.2)
    let position ← values.idxOf? value
    indexLoop properties rest (index + position * stride) (stride * values.length)

/-- mirrors crates/registry/src/blocks.rs:88-115 (`BlockEntry::index_of`) -/
def indexOf (entry : BlockEntry) (properties : Properties) : Option Nat :=
  if entry.axes = [] then (if properties = [] then some 0 else none)
  else match indexLoop properties entry.axes.reverse 0 1 with
    | none => none
    | some (index, stride) =>
      if stride ≠ entry.stateCount then none
      else if properties.any (fun p => !entry.axes.any (·.1 = p.1)) then none
      else some index

/-- The loop of `properties_of`, over the axes from the last. -/
def decodeLoop : List (Text × List Text) → Nat → Properties
  | [], _ => []
  | (name, values) :: rest, remaining =>
    (name, values.getD (remaining % values.length) []) :: decodeLoop rest (remaining / values.length)

/-- `out.sort()`: by key, then by value. -/
def sortProperties (properties : Properties) : Properties :=
  properties.insertionSort fun a b => toLex a ≤ toLex b

/-- mirrors crates/registry/src/blocks.rs:118-133 (`BlockEntry::properties_of`) -/
def propertiesOf (entry : BlockEntry) (offset : Nat) : Option Properties :=
  if entry.stateCount ≤ offset then none
  else some (sortProperties (decodeLoop entry.axes.reverse offset)).reverse

end BlockEntry

/-- mirrors crates/registry/src/blocks.rs:172-195 (`BlockRegistry`), without the mining tables. The
ids of `by_id` are its positions. -/
structure BlockRegistry where
  byName : Text → Option BlockEntry
  byId : List Text
  airId : Int
  /-- Air, cave air and void air. -/
  emptyIds : List Int

namespace BlockRegistry

/-- mirrors crates/registry/src/blocks.rs:370-372 (`BlockRegistry::is_empty`) -/
def isEmpty (registry : BlockRegistry) (id : Int) : Bool := id ∈ registry.emptyIds

/-- mirrors crates/registry/src/blocks.rs:414-419 (`BlockRegistry::default_state`) -/
def defaultState (registry : BlockRegistry) (name : Text) : Option Int :=
  (registry.byName name).map BlockEntry.defaultStateId

/-- mirrors crates/registry/src/blocks.rs:430-443 (`BlockRegistry::state_id`) -/
def stateId (registry : BlockRegistry) (name : Text) (properties : Properties) : Option Int :=
  match registry.byName name with
  | none => none
  | some entry =>
    if properties = [] then some entry.defaultStateId
    else (entry.indexOf properties).map (entry.firstStateId + ·)

/-- mirrors crates/registry/src/blocks.rs:468-474 (`BlockRegistry::block_name`) -/
def blockName (registry : BlockRegistry) (id : Int) : Option Text :=
  if id < 0 then none else registry.byId[id.toNat]?

/-- mirrors crates/registry/src/blocks.rs:482-491 (`BlockRegistry::properties_of`) -/
def propertiesOf (registry : BlockRegistry) (id : Int) : Option Properties :=
  match registry.blockName id with
  | none => none
  | some name => match registry.byName name with
    | none => none
    | some entry =>
      if id < entry.firstStateId then none else entry.propertiesOf (id - entry.firstStateId).toNat

end BlockRegistry

/-! ## Assignments and their places -/

namespace BlockEntry

/-- Axes of distinct names, with distinct values. -/
structure Proper (entry : BlockEntry) : Prop where
  names : (entry.axes.map Prod.fst).Nodup
  values : ∀ axis ∈ entry.axes, axis.2.Nodup ∧ axis.2 ≠ []
  count : entry.stateCount = (entry.axes.map (·.2.length)).prod

/-- One value for each axis, in the order `properties_of` lists them. -/
structure Assigns (entry : BlockEntry) (properties : Properties) : Prop where
  sorted : properties.Pairwise fun a b => toLex b ≤ toLex a
  keys : (properties.map Prod.fst).Perm (entry.axes.map Prod.fst)
  values : ∀ axis ∈ entry.axes, ∀ v, (axis.1, v) ∈ properties → v ∈ axis.2

theorem find_of_mem {properties : Properties} (h : (properties.map Prod.fst).Nodup) {key value : Text}
    (hmem : (key, value) ∈ properties) : properties.find? (·.1 = key) = some (key, value) := by
  induction properties with
  | nil => exact nomatch hmem
  | cons p rest ih =>
    rw [List.map_cons, List.nodup_cons] at h
    rcases List.mem_cons.mp hmem with rfl | hmem
    · simp
    · have hne : p.1 ≠ key := fun heq => h.1 (heq ▸ List.mem_map_of_mem hmem)
      rw [List.find?_cons_of_neg (by simpa using hne), ih h.2 hmem]

/-- The digits of an assignment over these axes. -/
abbrev Digits (properties : Properties) (ds : List Nat) (axes : List (Text × List Text)) : Prop :=
  List.Forall₂ (fun d axis => d < axis.2.length ∧ (axis.1, axis.2.getD d []) ∈ properties) ds axes

theorem Digits.within {properties : Properties} {ds : List Nat} {axes : List (Text × List Text)}
    (h : Digits properties ds axes) : MixedRadix.Within ds (axes.map (·.2.length)) := by
  induction h with
  | nil => exact .nil
  | cons hd _ ih => exact .cons hd.1 ih

theorem indexLoop_eq {properties : Properties} (hkeys : (properties.map Prod.fst).Nodup)
    {axes : List (Text × List Text)}
    (haxes : ∀ axis ∈ axes, ∃ v ∈ axis.2, (axis.1, v) ∈ properties) :
    ∃ ds, Digits properties ds axes ∧ ∀ index stride, indexLoop properties axes index stride =
      some (index + MixedRadix.ofDigits (axes.map (·.2.length)) ds * stride,
        stride * (axes.map (·.2.length)).prod) := by
  induction axes with
  | nil => exact ⟨[], .nil, fun index stride => by simp [indexLoop, MixedRadix.ofDigits]⟩
  | cons axis rest ih =>
    obtain ⟨name, values⟩ := axis
    obtain ⟨v, hv, hmem⟩ := haxes (name, values) (.head _)
    obtain ⟨ds, hds, hloop⟩ := ih fun axis haxis => haxes axis (.tail _ haxis)
    obtain ⟨position, hposition⟩ : ∃ position, values.idxOf? v = some position := by
      rw [← Option.isSome_iff_exists, Option.isSome_iff_ne_none]
      exact fun hnone => List.idxOf?_eq_none_iff.mp hnone hv
    obtain ⟨hlt, hget, -⟩ := List.idxOf?_eq_some_iff.mp hposition
    have hgetD : values.getD position [] = v := by simp [hlt, hget]
    have hdigit : (name, values.getD position []) ∈ properties := by
      rw [hgetD]
      exact hmem
    refine ⟨position :: ds, .cons ⟨hlt, hdigit⟩ hds, fun index stride => ?_⟩
    simp only [indexLoop, find_of_mem hkeys hmem, Option.map_some, hposition, Option.bind_eq_bind,
      Option.bind_some, hloop, List.map_cons, MixedRadix.ofDigits, List.prod_cons]
    congr 2
    · ring
    · ring

theorem find_perm {properties properties' : Properties} (hkeys : (properties.map Prod.fst).Nodup)
    (hperm : properties.Perm properties') (key : Text) :
    properties.find? (·.1 = key) = properties'.find? (·.1 = key) := by
  cases hfind : properties.find? (·.1 = key) with
  | none =>
    refine Eq.symm (List.find?_eq_none.mpr fun p hp => ?_)
    exact List.find?_eq_none.mp hfind p (hperm.mem_iff.mpr hp)
  | some p =>
    have hkey : p.1 = key := by simpa using List.find?_some hfind
    subst hkey
    exact (find_of_mem ((hperm.map Prod.fst).nodup_iff.mp hkeys)
      (hperm.subset (List.mem_of_find?_eq_some hfind))).symm

theorem indexLoop_congr {properties properties' : Properties}
    (h : ∀ key, properties.find? (·.1 = key) = properties'.find? (·.1 = key))
    (axes : List (Text × List Text)) (index stride : Nat) :
    indexLoop properties axes index stride = indexLoop properties' axes index stride := by
  induction axes generalizing index stride with
  | nil => rfl
  | cons axis rest ih =>
    obtain ⟨name, values⟩ := axis
    simp only [indexLoop, h name, ih]

/-- The order in which an assignment is written does not matter. -/
theorem indexOf_perm (entry : BlockEntry) {properties properties' : Properties}
    (hkeys : (properties.map Prod.fst).Nodup) (hperm : properties.Perm properties') :
    entry.indexOf properties = entry.indexOf properties' := by
  have hloop := indexLoop_congr (find_perm hkeys hperm) entry.axes.reverse 0 1
  have hempty : properties = [] ↔ properties' = [] := by
    rw [← List.length_eq_zero_iff, ← List.length_eq_zero_iff, hperm.length_eq]
  have hany : properties.any (fun p => !entry.axes.any (·.1 = p.1)) =
      properties'.any (fun p => !entry.axes.any (·.1 = p.1)) := hperm.any_eq
  simp only [indexOf, hempty, hloop, hany]

theorem decodeLoop_eq (axes : List (Text × List Text)) (n : Nat) : decodeLoop axes n =
    List.zipWith (fun axis d => (axis.1, axis.2.getD d [])) axes
      (MixedRadix.digits (axes.map (·.2.length)) n) := by
  induction axes generalizing n with
  | nil => rfl
  | cons axis rest ih => simp [decodeLoop, MixedRadix.digits, ih]

theorem decodeLoop_keys (axes : List (Text × List Text)) (n : Nat) :
    (decodeLoop axes n).map Prod.fst = axes.map Prod.fst := by
  induction axes generalizing n with
  | nil => rfl
  | cons axis rest ih => simp [decodeLoop, ih]

theorem decodeLoop_values {axes : List (Text × List Text)} (h : ∀ axis ∈ axes, axis.2 ≠ []) (n : Nat)
    {p : Text × Text} (hp : p ∈ decodeLoop axes n) : ∃ axis ∈ axes, axis.1 = p.1 ∧ p.2 ∈ axis.2 := by
  induction axes generalizing n with
  | nil => exact nomatch hp
  | cons axis rest ih =>
    rcases List.mem_cons.mp hp with rfl | hp
    · have hlt : n % axis.2.length < axis.2.length :=
        Nat.mod_lt n (List.length_pos_iff.mpr (h axis (.head _)))
      exact ⟨axis, .head _, rfl, by simp [hlt]⟩
    · obtain ⟨found, hfound, hvalue⟩ := ih (fun a ha => h a (.tail _ ha)) _ hp
      exact ⟨found, .tail _ hfound, hvalue⟩

theorem zipWith_mem {properties : Properties} {ds : List Nat} {axes : List (Text × List Text)}
    (h : Digits properties ds axes) {p : Text × Text}
    (hp : p ∈ List.zipWith (fun axis d => (axis.1, axis.2.getD d [])) axes ds) : p ∈ properties := by
  induction h with
  | nil => exact nomatch hp
  | cons hd _ ih =>
    rcases List.mem_cons.mp hp with rfl | hp
    · exact hd.2
    · exact ih hp

theorem sortProperties_perm (properties : Properties) :
    (sortProperties properties).Perm properties := List.perm_insertionSort _ _

theorem sortProperties_sorted (properties : Properties) :
    (sortProperties properties).Pairwise fun a b => toLex a ≤ toLex b :=
  List.pairwise_insertionSort (r := fun a b => toLex a ≤ toLex b) properties

theorem sortProperties_reverse {properties decoded : Properties}
    (hsorted : properties.Pairwise fun a b => toLex b ≤ toLex a) (hperm : decoded.Perm properties) :
    (sortProperties decoded).reverse = properties := by
  have heq : sortProperties decoded = properties.reverse := by
    refine List.Perm.eq_of_pairwise (fun a b _ _ h h' => toLex.injective (le_antisymm h h'))
      (sortProperties_sorted decoded) (List.pairwise_reverse.mpr hsorted) ?_
    exact ((sortProperties_perm decoded).trans hperm).trans (List.reverse_perm _).symm
  rw [heq, List.reverse_reverse]

theorem assigns_indexOf {entry : BlockEntry} (hp : entry.Proper) {properties : Properties}
    (ha : entry.Assigns properties) : ∃ j < entry.stateCount,
      entry.indexOf properties = some j ∧ entry.propertiesOf j = some properties := by
  have hkeys : (properties.map Prod.fst).Nodup := ha.keys.nodup_iff.mpr hp.names
  have hprod : (entry.axes.reverse.map (·.2.length)).prod = entry.stateCount := by
    rw [hp.count, List.map_reverse, List.prod_reverse]
  have hfound : ∀ axis ∈ entry.axes.reverse, ∃ v ∈ axis.2, (axis.1, v) ∈ properties := by
    intro axis haxis
    have hmem := List.mem_reverse.mp haxis
    obtain ⟨p, hv, hkey⟩ := List.mem_map.mp
      (ha.keys.symm.subset (List.mem_map_of_mem hmem : axis.1 ∈ entry.axes.map Prod.fst))
    have hpair : (axis.1, p.2) ∈ properties := by
      rw [← hkey]
      exact hv
    exact ⟨p.2, ha.values axis hmem p.2 hpair, hpair⟩
  obtain ⟨ds, hds, hloop⟩ := indexLoop_eq hkeys hfound
  set place := MixedRadix.ofDigits (entry.axes.reverse.map (·.2.length)) ds with hplace
  have hlt : place < entry.stateCount := hprod ▸ MixedRadix.ofDigits_lt hds.within
  refine ⟨place, hlt, ?_, ?_⟩
  · have hknown : properties.any (fun p => !entry.axes.any (·.1 = p.1)) = false := by
      rw [List.any_eq_false]
      intro p hmem
      obtain ⟨axis, haxis, hkey⟩ := List.mem_map.mp (ha.keys.subset (List.mem_map_of_mem hmem))
      simpa using ⟨axis.2, by rw [← hkey]; exact haxis⟩
    unfold indexOf
    split
    · next hnone =>
      have hempty : properties = [] := by simpa [hnone] using ha.keys
      rw [if_pos hempty, hplace, hnone]
      rfl
    · simp only [hloop, hprod, one_mul, zero_add, mul_one, ne_eq, not_true_eq_false,
        if_false, hknown, Bool.false_eq_true]
  · have hdecoded : decodeLoop entry.axes.reverse place =
        List.zipWith (fun axis d => (axis.1, axis.2.getD d [])) entry.axes.reverse ds := by
      rw [decodeLoop_eq, MixedRadix.digits_ofDigits hds.within]
    rw [propertiesOf, if_neg (not_le.mpr hlt)]
    refine congrArg some (sortProperties_reverse ha.sorted ?_)
    have hnodup : (decodeLoop entry.axes.reverse place).Nodup := by
      refine List.Nodup.of_map Prod.fst ?_
      rw [decodeLoop_keys, List.map_reverse]
      exact List.nodup_reverse.mpr hp.names
    have hlength : properties.length ≤ (decodeLoop entry.axes.reverse place).length := by
      rw [← List.length_map (f := Prod.fst), ha.keys.length_eq, ← List.length_map (f := Prod.fst),
        decodeLoop_keys, List.map_reverse, List.length_reverse]
    refine (List.subperm_of_subset hnodup fun p hmem => ?_).perm_of_length_le hlength
    exact zipWith_mem hds (hdecoded ▸ hmem)

theorem propertiesOf_assigns {entry : BlockEntry} (hp : entry.Proper) {offset : Nat}
    {properties : Properties} (h : entry.propertiesOf offset = some properties) :
    entry.Assigns properties := by
  unfold propertiesOf at h
  split at h
  · exact nomatch h
  obtain rfl := Option.some.inj h
  set decoded := decodeLoop entry.axes.reverse offset with hdecoded
  have hperm : (sortProperties decoded).reverse.Perm decoded :=
    (List.reverse_perm _).trans (sortProperties_perm decoded)
  refine ⟨?_, ?_, fun axis haxis v hmem => ?_⟩
  · rw [List.pairwise_reverse]
    exact sortProperties_sorted decoded
  · refine (hperm.map Prod.fst).trans ?_
    rw [hdecoded, decodeLoop_keys, List.map_reverse]
    exact List.reverse_perm _
  · obtain ⟨found, hfound, hkey, hvalue⟩ := decodeLoop_values
      (fun a ha => (hp.values a (List.mem_reverse.mp ha)).2) offset (hperm.subset hmem)
    have heq := List.inj_on_of_nodup_map hp.names (List.mem_reverse.mp hfound) haxis hkey
    exact heq ▸ hvalue

end BlockEntry

/-! ## The table -/

namespace BlockRegistry

/-- Every id belongs to the entry of its name. -/
structure Consistent (registry : BlockRegistry) : Prop where
  owner : ∀ id name, registry.blockName id = some name → ∃ entry, registry.byName name = some entry ∧
    entry.firstStateId ≤ id ∧ id < entry.firstStateId + entry.stateCount
  owned : ∀ name entry, registry.byName name = some entry → ∀ j : Nat, j < entry.stateCount →
    0 ≤ entry.firstStateId ∧ registry.blockName (entry.firstStateId + j) = some name
  proper : ∀ name entry, registry.byName name = some entry → entry.Proper

variable {registry : BlockRegistry}

theorem propertiesOf_assigns (hc : registry.Consistent) {id : Int} {name : Text} {entry : BlockEntry}
    {properties : Properties} (hname : registry.blockName id = some name)
    (hentry : registry.byName name = some entry) (h : registry.propertiesOf id = some properties) :
    entry.Assigns properties := by
  simp only [BlockRegistry.propertiesOf, hname, hentry] at h
  split at h
  · exact nomatch h
  · exact BlockEntry.propertiesOf_assigns (hc.proper name entry hentry) h

theorem stateId_spec (hc : registry.Consistent) {name : Text} {entry : BlockEntry}
    {properties : Properties} (hentry : registry.byName name = some entry) (hne : properties ≠ [])
    (ha : entry.Assigns properties) : ∃ id, registry.stateId name properties = some id ∧
      registry.blockName id = some name ∧ registry.propertiesOf id = some properties := by
  obtain ⟨j, hlt, hindex, hback⟩ := BlockEntry.assigns_indexOf (hc.proper name entry hentry) ha
  obtain ⟨hfirst, hname⟩ := hc.owned name entry hentry j hlt
  refine ⟨entry.firstStateId + j, ?_, hname, ?_⟩
  · simp [stateId, hentry, hne, hindex]
  · simp only [BlockRegistry.propertiesOf, hname, hentry]
    rw [if_neg (by omega), show (entry.firstStateId + j - entry.firstStateId).toNat = j by omega, hback]

end BlockRegistry
end Apoptosis.L2.Registry
