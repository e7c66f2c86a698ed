import Apoptosis.L1Encoding.NbtTag
/-!
# Compounds by their fields

A writer puts the fields it has in order, each under a name of its own, and
after them the entries it was given. A reader looks the fields up by name.

* `get_present`: a field is found as it was put, present or not.
* `get_rest`: any other name is looked up among the entries given.
-/
namespace Apoptosis.L1.Nbt

/-- The fields that are there. -/
def present (fields : List (String × Option NbtTag)) : List (String × NbtTag) :=
  fields.filterMap fun field => field.2.map (field.1, ·)

variable {fields : List (String × Option NbtTag)} {rest : List (String × NbtTag)} {name : String}

theorem mem_present {entry : String × NbtTag} : entry ∈ present fields ↔ (entry.1, some entry.2) ∈ fields := by
  unfold present
  rw [List.mem_filterMap]
  constructor
  · intro ⟨⟨key, value⟩, hfield, hentry⟩
    obtain ⟨t, ht, rfl⟩ := Option.map_eq_some_iff.mp hentry
    dsimp only at ht
    exact ht ▸ hfield
  · intro hfield
    exact ⟨_, hfield, rfl⟩

theorem name_of_mem_present {entry : String × NbtTag} (h : entry ∈ present fields) :
    entry.1 ∈ fields.map (·.1) :=
  List.mem_map.mpr ⟨_, mem_present.mp h, rfl⟩

theorem get_append (before after : List (String × NbtTag)) (name : String) :
    (NbtTag.compound (before ++ after)).get name =
      ((NbtTag.compound after).get name).or ((NbtTag.compound before).get name) := by
  rw [NbtTag.get_compound, NbtTag.get_compound, NbtTag.get_compound, List.reverse_append, List.find?_append,
    Option.map_or]

theorem get_eq_none {entries : List (String × NbtTag)} (h : ∀ entry ∈ entries, entry.1 ≠ name) :
    (NbtTag.compound entries).get name = none := by
  rw [NbtTag.get_compound, List.find?_eq_none.mpr, Option.map_none]
  intro entry hentry
  simpa using h entry (List.mem_reverse.mp hentry)

theorem get_of_mem {entries : List (String × NbtTag)} {value : NbtTag} (hmem : (name, value) ∈ entries)
    (hone : ∀ entry ∈ entries, entry.1 = name → entry.2 = value) :
    (NbtTag.compound entries).get name = some value := by
  rw [NbtTag.get_compound]
  cases hfound : entries.reverse.find? (·.1 == name) with
  | none =>
    have hmiss := List.find?_eq_none.mp hfound (name, value) (List.mem_reverse.mpr hmem)
    simp at hmiss
  | some entry =>
    have hname : entry.1 = name := by simpa using List.find?_some hfound
    have hin := List.mem_reverse.mp (List.mem_of_find?_eq_some hfound)
    rw [Option.map_some, hone entry hin hname]

/-- The value a field has, where no two fields have one name. -/
theorem get_present {value : Option NbtTag} (hnodup : (fields.map (·.1)).Nodup) (hmem : (name, value) ∈ fields)
    (hrest : ∀ entry ∈ rest, entry.1 ≠ name) : (NbtTag.compound (present fields ++ rest)).get name = value := by
  rw [get_append, get_eq_none hrest, Option.none_or]
  have hone : ∀ other, (name, other) ∈ fields → other = value := fun other hother =>
    congrArg Prod.snd (List.inj_on_of_nodup_map hnodup hother hmem rfl)
  cases value with
  | none =>
    refine get_eq_none fun entry hentry hname => ?_
    exact nomatch hone (some entry.2) (hname ▸ mem_present.mp hentry)
  | some t =>
    refine get_of_mem (mem_present.mpr hmem) fun entry hentry hname => ?_
    exact Option.some.inj (hone (some entry.2) (hname ▸ mem_present.mp hentry))

theorem get_field {value : Option NbtTag} (hnodup : (fields.map (·.1)).Nodup) (hmem : (name, value) ∈ fields) :
    (NbtTag.compound (present fields)).get name = value := by
  have hfound := @get_present fields [] name value hnodup hmem fun _ h => nomatch h
  rwa [List.append_nil] at hfound

theorem get_rest (h : name ∉ fields.map (·.1)) :
    (NbtTag.compound (present fields ++ rest)).get name = (NbtTag.compound rest).get name := by
  rw [get_append, @get_eq_none name (present fields) fun entry hentry hname =>
    h (hname ▸ name_of_mem_present hentry), Option.or_none]

/-- Entries of other names left out. -/
theorem get_filter {p : String × NbtTag → Bool} {entries : List (String × NbtTag)}
    (h : ∀ entry ∈ entries, entry.1 = name → p entry) :
    (NbtTag.compound (entries.filter p)).get name = (NbtTag.compound entries).get name := by
  rw [NbtTag.get_compound, NbtTag.get_compound, ← List.filter_reverse, List.find?_filter]
  congr 1
  refine List.find?_congr fun entry hentry => ?_
  by_cases hname : entry.1 = name
  · simp [hname, h entry (List.mem_reverse.mp hentry) hname]
  · simp [hname]

theorem get_entries (t : NbtTag) (name : String) : (NbtTag.compound (t.entries.getD [])).get name = t.get name := by
  cases t <;> rfl

/-! ## Typed lookups of what a field holds -/

namespace NbtTag

variable {t : NbtTag}

theorem getI64_of_long {v : BitVec 64} (h : t.get name = some (.long v)) : t.getI64 name = some v.toInt := by
  rw [getI64, h]
  rfl

theorem getI32_of_int {v : BitVec 32} (h : t.get name = some (.int v)) : t.getI32 name = some v := by
  rw [getI32, getI64, h]
  exact tryFrom_toInt v

theorem getI8_of_byte {v : BitVec 8} (h : t.get name = some (.byte v)) : t.getI8 name = some v := by
  rw [getI8, getI64, h]
  exact tryFrom_toInt v

theorem getStr_of_string {v : String} (h : t.get name = some (.string v)) : t.getStr name = some v := by
  rw [getStr, h]

theorem getList_of_list {items : List NbtTag} (h : t.get name = some (.list items)) :
    t.getList name = some items := by
  rw [getList, h]

theorem getCompound_of_compound {entries : List (String × NbtTag)} (h : t.get name = some (.compound entries)) :
    t.getCompound name = some (.compound entries) := by
  rw [getCompound, h]

theorem getCompound_of_none (h : t.get name = none) : t.getCompound name = none := by
  rw [getCompound, h]

theorem getByteArray_of_map {bytes : Option (List UInt8)} (h : t.get name = bytes.map .byteArray) :
    t.getByteArray name = bytes := by
  rw [getByteArray, h]
  cases bytes <;> rfl

theorem getLongArray_of_map {values : Option (List (BitVec 64))} (h : t.get name = values.map .longArray) :
    t.getLongArray name = values := by
  rw [getLongArray, h]
  cases values <;> rfl

end NbtTag

end Apoptosis.L1.Nbt
