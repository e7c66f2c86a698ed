import Apoptosis.L1Encoding.ComponentNbt
import Apoptosis.L2Worldgen.LeafSupport
/-!
# Leaves that are ticked (`server/src/game/growth.rs`)

A ticked leaf measures how far it is from a log. It writes the distance down
when it stores another, and is removed when both are seven. A persistent leaf
does neither.

* `setValue_assigns`, `writeProperty_spec`: a property rewritten within its axis.
* `tickLeaves_spec`: the outcomes of a tick.
* `Aged`, `tick_aged`, `run_aged`: what any run of ticks keeps.
* `leaves_decay`. A persistent leaf need not store its distance: `persistent_keeps_distance`.
-/
namespace Apoptosis.L2.Worldgen
open Apoptosis.Core Apoptosis.L1.Components Apoptosis.L2.Registry Apoptosis.L2.Terrain

/-- mirrors crates/server/src/game/growth.rs:805-811 (`int_property`) -/
def intProperty (properties : Properties) (key : Text) : Option Int :=
  (properties.find? (·.1 = key)).bind fun p => (parseI32 (String.ofList p.2)).map BitVec.toInt

/-- The first entry of a key with another value. -/
def setValue (key value : Text) : Properties → Properties
  | [] => []
  | (k, v) :: rest => if k = key then (k, value) :: rest else (k, v) :: setValue key value rest

/-- mirrors crates/server/src/game/growth.rs:298-328 (`Game::write_property`); the call of
`block_feed` is left out -/
def writeProperty (w : World) (c : Cell) (name key : Text) (value : Nat) : Bool × World :=
  match w.getBlockLoaded c.1 c.2.1 c.2.2 with
  | none => (false, w)
  | some current =>
    let properties := (w.registry.propertiesOf current).getD []
    match properties.find? (·.1 = key) with
    | none => (false, w)
    | some _ =>
      match w.registry.stateId name (setValue key (toString value).toList properties) with
      | none => (false, w)
      | some newId => match w.setBlock c.1 c.2.1 c.2.2 newId with
        | (.error _, w) => (false, w)
        | (.ok _, w) => (true, w)

/-- mirrors crates/server/src/game/growth.rs:876-889 (`leaf_sapling_item`) -/
def leafSaplingItem (leaves : Text) : Option String :=
  let table := [("minecraft:oak_leaves", "minecraft:oak_sapling"),
    ("minecraft:dark_oak_leaves", "minecraft:dark_oak_sapling"),
    ("minecraft:pale_oak_leaves", "minecraft:pale_oak_sapling"),
    ("minecraft:birch_leaves", "minecraft:birch_sapling"),
    ("minecraft:spruce_leaves", "minecraft:spruce_sapling"),
    ("minecraft:jungle_leaves", "minecraft:jungle_sapling"),
    ("minecraft:acacia_leaves", "minecraft:acacia_sapling"),
    ("minecraft:cherry_leaves", "minecraft:cherry_sapling"),
    ("minecraft:mangrove_leaves", "minecraft:mangrove_propagule")]
  (table.find? fun row => row.1.toList = leaves).map Prod.snd

/-- What `next_i32_bounded` answers for the sapling and for the stick. -/
structure Rolls where
  sapling : Nat
  stick : Nat

/-- The items that a removed leaf drops, by name. -/
def leafDrops (name : Text) (rolls : Rolls) : List String :=
  (if rolls.sapling = 0 then (leafSaplingItem name).toList else []) ++
    if rolls.stick = 0 then ["minecraft:stick"] else []

def isPersistent (registry : BlockRegistry) (id : Int) : Bool :=
  (((registry.propertiesOf id).getD []).find? (·.1 = "persistent".toList)).any fun p =>
    p.2 = "true".toList

/-- The distance a leaf stores. -/
def storedDistance (registry : BlockRegistry) (id : Int) : Int :=
  (intProperty ((registry.propertiesOf id).getD []) "distance".toList).getD LEAF_DECAY_DISTANCE

/-- mirrors crates/server/src/game/growth.rs:725-766 (`Game::tick_leaves`), with the drops by name;
`none` where the search for a log does not end. The calls of `block_feed` are left out. -/
def tickLeaves (w : World) (c : Cell) (id : Int) (name : Text) (rolls : Rolls) :
    Option (Bool × World × List String) :=
  if isPersistent w.registry id then some (false, w, [])
  else match leafSupportDistance (cellKind w) c with
  | none => none
  | some distance =>
    if (distance : Int) ≠ storedDistance w.registry id then
      let (written, w) := writeProperty w c name "distance".toList distance
      some (written, w, [])
    else if distance ≠ LEAF_DECAY_DISTANCE then some (false, w, [])
    else match w.setBlock c.1 c.2.1 c.2.2 w.registry.airId with
      | (.error _, w) => some (false, w, [])
      | (.ok _, w) => some (true, w, leafDrops name rolls)

/-- mirrors crates/server/src/game/growth.rs:136-153 (`Game::random_tick_block`), for a sample that is
a leaf; other samples are taken to change nothing -/
def tick (w : World) (c : Cell) (rolls : Rolls) : Option World :=
  match w.getBlockLoaded c.1 c.2.1 c.2.2 with
  | none => some w
  | some id => match w.registry.blockName id with
    | none => some w
    | some name =>
      if "_leaves".toList.isSuffixOf name then
        (tickLeaves w c id name rolls).map fun result => result.2.1
      else some w

def run (w : World) : List (Cell × Rolls) → Option World
  | [] => some w
  | (c, rolls) :: ticks => (tick w c rolls).bind fun w => run w ticks

/-! ## A property rewritten -/

/-- A table in which leaves have a distance of one to seven, and the first state is air. -/
structure LeafTable (registry : BlockRegistry) : Prop where
  consistent : registry.Consistent
  airId : registry.airId = 0
  air : registry.blockName 0 = some "minecraft:air".toList
  distance : ∀ name entry, "_leaves".toList.isSuffixOf name = true →
    registry.byName name = some entry → ∃ axis ∈ entry.axes, axis.1 = "distance".toList ∧
      ∀ d : Nat, 1 ≤ d → d ≤ 7 → (toString d).toList ∈ axis.2

theorem setValue_keys (key value : Text) (properties : Properties) :
    (setValue key value properties).map Prod.fst = properties.map Prod.fst := by
  induction properties with
  | nil => rfl
  | cons p rest ih =>
    rw [setValue]
    split
    · rfl
    · rw [List.map_cons, ih]
      rfl

theorem find_setValue_self {key value : Text} {properties : Properties}
    (h : key ∈ properties.map Prod.fst) :
    (setValue key value properties).find? (·.1 = key) = some (key, value) := by
  induction properties with
  | nil => exact nomatch h
  | cons p rest ih =>
    rw [setValue]
    split
    · next heq => rw [List.find?_cons_of_pos (by simpa using heq), heq]
    · next hne =>
      rw [List.find?_cons_of_neg (by simpa using hne)]
      exact ih ((List.mem_cons.mp h).resolve_left (Ne.symm hne))

theorem find_setValue_of_ne {key key' value : Text} (hne : key' ≠ key) (properties : Properties) :
    (setValue key value properties).find? (·.1 = key') = properties.find? (·.1 = key') := by
  induction properties with
  | nil => rfl
  | cons p rest ih =>
    rw [setValue]
    split
    · next heq =>
      have hskip : p.1 ≠ key' := fun h => hne (h.symm.trans heq)
      rw [List.find?_cons_of_neg (by simpa using hskip),
        List.find?_cons_of_neg (by simpa using hskip)]
    · by_cases heq : p.1 = key'
      · rw [List.find?_cons_of_pos (by simpa using heq), List.find?_cons_of_pos (by simpa using heq)]
      · rw [List.find?_cons_of_neg (by simpa using heq), List.find?_cons_of_neg (by simpa using heq), ih]

theorem mem_setValue {key value : Text} {properties : Properties} {p : Text × Text}
    (h : p ∈ setValue key value properties) : p = (key, value) ∨ p ∈ properties := by
  induction properties with
  | nil => exact nomatch h
  | cons q rest ih =>
    rw [setValue] at h
    split at h
    · next heq =>
      rcases List.mem_cons.mp h with rfl | h
      · exact .inl (by rw [heq])
      · exact .inr (List.mem_cons_of_mem _ h)
    · rcases List.mem_cons.mp h with rfl | h
      · exact .inr (List.mem_cons_self ..)
      · exact (ih h).imp_right (List.mem_cons_of_mem _)

/-- Distinct keys are in order by themselves. -/
theorem sorted_keys {properties : Properties} (hkeys : (properties.map Prod.fst).Nodup) :
    (properties.Pairwise fun a b => toLex b ≤ toLex a) ↔
      (properties.map Prod.fst).Pairwise fun a b => b < a := by
  rw [List.pairwise_map]
  rw [List.Nodup, List.pairwise_map] at hkeys
  constructor
  · intro h
    refine (h.and hkeys).imp fun {a b} ⟨hle, hne⟩ => ?_
    exact (Prod.Lex.toLex_le_toLex.mp hle).resolve_right fun heq => hne heq.1.symm
  · exact fun h => h.imp fun {a b} hlt => Prod.Lex.toLex_le_toLex.mpr (.inl hlt)

/-- A property rewritten within its axis is an assignment still. -/
theorem setValue_assigns {entry : BlockEntry} (hp : entry.Proper) {properties : Properties}
    (ha : entry.Assigns properties) {axis : Text × List Text} (haxis : axis ∈ entry.axes)
    {value : Text} (hvalue : value ∈ axis.2) : entry.Assigns (setValue axis.1 value properties) := by
  have hkeys : (properties.map Prod.fst).Nodup := ha.keys.nodup_iff.mpr hp.names
  refine ⟨?_, (setValue_keys ..).symm ▸ ha.keys, fun axis' haxis' v hmem => ?_⟩
  · rw [sorted_keys (by rw [setValue_keys]; exact hkeys), setValue_keys]
    exact (sorted_keys hkeys).mp ha.sorted
  · by_cases hsame : axis'.1 = axis.1
    · have heq : axis' = axis := List.inj_on_of_nodup_map hp.names haxis' haxis hsame
      subst heq
      have hfind := @find_setValue_self _ value _ (ha.keys.symm.subset
        (List.mem_map_of_mem haxis : axis'.1 ∈ entry.axes.map Prod.fst))
      have hfind' := BlockEntry.find_of_mem (by rw [setValue_keys]; exact hkeys) hmem
      cases hfind.symm.trans hfind'
      exact hvalue
    · refine ha.values axis' haxis' v ((mem_setValue hmem).resolve_left fun heq => hsame ?_)
      exact (Prod.mk.inj heq).1

/-! ## One tick -/

variable {w w' w₀ : World} {c : Cell} {id : Int} {name : Text} {d : Nat}

theorem parse_small : ∀ d : Nat, d ≤ 7 →
    (parseI32 (String.ofList (toString d).toList)).map BitVec.toInt = some (d : Int) := by
  decide +kernel

theorem LeafTable.ne_zero (ht : LeafTable w.registry) (hname : w.registry.blockName id = some name)
    (hleaf : "_leaves".toList.isSuffixOf name = true) : id ≠ 0 := by
  rintro rfl
  cases hname.symm.trans ht.air
  revert hleaf
  decide +kernel

/-- The assignment of a leaf, and the axis of its distance. -/
theorem LeafTable.leaf (ht : LeafTable w.registry) (hname : w.registry.blockName id = some name)
    (hleaf : "_leaves".toList.isSuffixOf name = true) :
    ∃ entry properties, w.registry.byName name = some entry ∧ entry.Proper ∧
      w.registry.propertiesOf id = some properties ∧ entry.Assigns properties ∧
      ∃ axis ∈ entry.axes, axis.1 = "distance".toList ∧
        ∀ d : Nat, 1 ≤ d → d ≤ 7 → (toString d).toList ∈ axis.2 := by
  obtain ⟨entry, hentry, hlow, hhigh⟩ := ht.consistent.owner id name hname
  have hproper := ht.consistent.proper name entry hentry
  have hrange : ¬entry.stateCount ≤ (id - entry.firstStateId).toNat := by omega
  obtain ⟨properties, hproperties⟩ : ∃ properties,
      entry.propertiesOf (id - entry.firstStateId).toNat = some properties :=
    ⟨_, if_neg hrange⟩
  have hfound : w.registry.propertiesOf id = some properties := by
    simp only [BlockRegistry.propertiesOf, hname, hentry]
    rw [if_neg (by omega), hproperties]
  exact ⟨entry, properties, hentry, hproper, hfound,
    BlockRegistry.propertiesOf_assigns ht.consistent hname hentry hfound,
    ht.distance name entry hleaf hentry⟩

/-- A distance is written over the leaf that is there, and nothing else of it. -/
theorem writeProperty_spec (ht : LeafTable w.registry)
    (hid : w.getBlockLoaded c.1 c.2.1 c.2.2 = some id)
    (hname : w.registry.blockName id = some name)
    (hleaf : "_leaves".toList.isSuffixOf name = true) (hd : 1 ≤ d) (hd' : d ≤ 7) :
    ∃ newId w', writeProperty w c name "distance".toList d = (true, w') ∧
      w'.registry = w.registry ∧ w.registry.blockName newId = some name ∧
      isPersistent w.registry newId = isPersistent w.registry id ∧
      storedDistance w.registry newId = d ∧
      ∀ x y z, w'.getBlockLoaded x y z = if (x, y, z) = c then some newId
        else w.getBlockLoaded x y z := by
  obtain ⟨entry, properties, hentry, hproper, hproperties, hassigns, axis, haxis, hkey, hvalues⟩ :=
    ht.leaf hname hleaf
  have hset := setValue_assigns hproper hassigns haxis (hvalues d hd hd')
  rw [hkey] at hset
  have hmem : "distance".toList ∈ properties.map Prod.fst := by
    rw [← hkey]
    exact hassigns.keys.symm.subset (List.mem_map_of_mem haxis)
  have hne : setValue "distance".toList (toString d).toList properties ≠ [] := by
    intro hnil
    have hkeys := setValue_keys "distance".toList (toString d).toList properties
    rw [hnil] at hkeys
    rw [← hkeys] at hmem
    exact nomatch hmem
  obtain ⟨newId, hstate, hnewName, hnewProperties⟩ :=
    BlockRegistry.stateId_spec ht.consistent hentry hne hset
  obtain ⟨⟨change, hok⟩, hregistry, hcells⟩ :=
    World.getBlockLoaded_setBlock hid (ht.ne_zero hname hleaf) newId
  obtain ⟨p, hp⟩ : ∃ p, properties.find? (·.1 = "distance".toList) = some p := by
    rw [← Option.isSome_iff_exists, List.find?_isSome]
    obtain ⟨p, hp, heq⟩ := List.mem_map.mp hmem
    exact ⟨p, hp, decide_eq_true heq⟩
  refine ⟨newId, (w.setBlock c.1 c.2.1 c.2.2 newId).2, ?_, hregistry, hnewName, ?_, ?_, hcells⟩
  · unfold writeProperty
    rw [hid]
    dsimp only
    rw [hproperties, Option.getD_some, hp]
    dsimp only
    rw [hstate]
    dsimp only
    generalize w.setBlock c.1 c.2.1 c.2.2 newId = result at hok ⊢
    obtain ⟨outcome, w'⟩ := result
    cases hok
    rfl
  · unfold isPersistent
    rw [hnewProperties, hproperties, Option.getD_some, Option.getD_some,
      find_setValue_of_ne (by decide)]
  · unfold storedDistance intProperty
    rw [hnewProperties, Option.getD_some, find_setValue_self hmem, Option.bind_some,
      parse_small d hd', Option.getD_some]

/-- The outcomes of a leaf's tick, by its distance from a log cut at seven. -/
theorem tickLeaves_spec (ht : LeafTable w.registry)
    (hid : w.getBlockLoaded c.1 c.2.1 c.2.2 = some id)
    (hname : w.registry.blockName id = some name)
    (hleaf : "_leaves".toList.isSuffixOf name = true) (hkind : cellKind w c = some false)
    (rolls : Rolls) :
    ∃ (d : Nat) (result : Bool × World × List String), (d : ℕ∞) = min 7 (support (cellKind w) c) ∧
      tickLeaves w c id name rolls = some result ∧ result.2.1.registry = w.registry ∧
      ((result.2.1 = w ∧ (isPersistent w.registry id = true ∨
          storedDistance w.registry id = d ∧ d ≠ 7)) ∨
        (∃ newId, isPersistent w.registry id = false ∧ w.registry.blockName newId = some name ∧
          isPersistent w.registry newId = false ∧ storedDistance w.registry newId = d ∧
          ∀ x y z, result.2.1.getBlockLoaded x y z =
            if (x, y, z) = c then some newId else w.getBlockLoaded x y z) ∨
        (isPersistent w.registry id = false ∧ d = 7 ∧ ∀ x y z, result.2.1.getBlockLoaded x y z =
          if (x, y, z) = c then some 0 else w.getBlockLoaded x y z)) := by
  obtain ⟨d, hdistance, hd⟩ := leafSupportDistance_spec (cellKind w) c
  have hd7 : d ≤ 7 := by exact_mod_cast hd.le.trans (min_le_left ..)
  have hd1 : 1 ≤ d := by
    by_contra hzero
    have hnear : support (cellKind w) c ≤ (0 : Nat) := by
      rw [show d = 0 by omega] at hd
      rcases min_choice (7 : ℕ∞) (support (cellKind w) c) with h | h
      · exact absurd (hd.trans h) (by decide)
      · exact (hd.trans h).ge
    obtain ⟨m, hm, hpath⟩ := support_le_iff.mp hnear
    cases Nat.le_zero.mp hm
    cases hpath with
    | log hlog => exact nomatch hkind.symm.trans hlog
  unfold tickLeaves
  by_cases hpersistent : isPersistent w.registry id = true
  · rw [if_pos hpersistent]
    exact ⟨d, _, hd, rfl, rfl, .inl ⟨rfl, .inl hpersistent⟩⟩
  rw [if_neg hpersistent, hdistance]
  dsimp only
  have hpersistent' : isPersistent w.registry id = false := by simpa using hpersistent
  by_cases hstored : (d : Int) ≠ storedDistance w.registry id
  · obtain ⟨newId, w', hwritten, hregistry, hnewName, hnewPersistent, hnewStored, hcells⟩ :=
      writeProperty_spec ht hid hname hleaf hd1 hd7
    rw [if_pos hstored, hwritten]
    exact ⟨d, _, hd, rfl, hregistry, .inr (.inl ⟨newId, hpersistent', hnewName,
      hnewPersistent.trans hpersistent', hnewStored, hcells⟩)⟩
  rw [if_neg hstored]
  by_cases hsupported : d ≠ LEAF_DECAY_DISTANCE
  · rw [if_pos hsupported]
    exact ⟨d, _, hd, rfl, rfl, .inl ⟨rfl, .inr ⟨(not_not.mp hstored).symm, hsupported⟩⟩⟩
  rw [if_neg hsupported, ht.airId]
  obtain ⟨⟨change, hok⟩, hregistry, hcells⟩ :=
    World.getBlockLoaded_setBlock hid (ht.ne_zero hname hleaf) 0
  generalize w.setBlock c.1 c.2.1 c.2.2 0 = set at hok hregistry hcells ⊢
  obtain ⟨outcome, w'⟩ := set
  cases hok
  exact ⟨d, _, hd, rfl, hregistry, .inr (.inr ⟨hpersistent', not_not.mp hsupported, hcells⟩)⟩

/-! ## Runs of ticks -/

def persistentAt (w : World) (c : Cell) : Bool :=
  (w.getBlockLoaded c.1 c.2.1 c.2.2).any (isPersistent w.registry)

def storedAt (w : World) (c : Cell) : Option Int :=
  (w.getBlockLoaded c.1 c.2.1 c.2.2).map (storedDistance w.registry)

/-- What ticks since a world keep of it. -/
structure Aged (w₀ w : World) (ticked : List Cell) : Prop where
  registry : w.registry = w₀.registry
  decayed : ∀ c, cellKind w c = cellKind w₀ c ∨ cellKind w₀ c = some false ∧ cellKind w c = none ∧
    7 ≤ support (cellKind w₀) c ∧ persistentAt w₀ c = false
  persistent : ∀ c, cellKind w c = some false → persistentAt w c = persistentAt w₀ c
  stored : ∀ c ∈ ticked, cellKind w₀ c = some false → support (cellKind w₀) c < 7 →
    persistentAt w₀ c = false →
    ∃ d : Nat, storedAt w c = some (d : Int) ∧ (d : ℕ∞) = support (cellKind w₀) c
  others : ∀ c, cellKind w₀ c ≠ some false →
    w.getBlockLoaded c.1 c.2.1 c.2.2 = w₀.getBlockLoaded c.1 c.2.1 c.2.2

theorem not_log_of_leaves (h : "_leaves".toList.isSuffixOf name = true) :
    "_log".toList.isSuffixOf name = false := by
  rw [Bool.eq_false_iff]
  intro hlog
  have hleaves := List.isSuffixOf_iff_suffix.mp h
  rcases List.suffix_or_suffix_of_suffix hleaves (List.isSuffixOf_iff_suffix.mp hlog) with hsub | hsub
  · exact absurd hsub (by decide +kernel)
  · exact absurd hsub (by decide +kernel)

theorem cellKind_of_leaves (hid : w.getBlockLoaded c.1 c.2.1 c.2.2 = some id)
    (hname : w.registry.blockName id = some name)
    (hleaf : "_leaves".toList.isSuffixOf name = true) : cellKind w c = some false := by
  unfold cellKind
  simp only [hid, hname, Option.bind_eq_bind, Option.bind_some]
  rw [if_neg (by rw [not_log_of_leaves hleaf]; exact Bool.false_ne_true), if_pos hleaf]

theorem cellKind_eq_leaves (h : cellKind w c = some false) : ∃ id name,
    w.getBlockLoaded c.1 c.2.1 c.2.2 = some id ∧ w.registry.blockName id = some name ∧
      "_leaves".toList.isSuffixOf name = true := by
  unfold cellKind at h
  simp only [Option.bind_eq_bind, Option.bind_eq_some_iff] at h
  obtain ⟨id, hid, name, hname, h⟩ := h
  split at h
  · exact nomatch h
  split at h
  · next hleaf => exact ⟨id, name, hid, hname, hleaf⟩
  · exact nomatch h

theorem cellKind_congr (hregistry : w'.registry = w.registry)
    (h : w'.getBlockLoaded c.1 c.2.1 c.2.2 = w.getBlockLoaded c.1 c.2.1 c.2.2) :
    cellKind w' c = cellKind w c := by
  unfold cellKind
  rw [hregistry, h]

theorem Aged.refl (w : World) : Aged w w [] :=
  ⟨rfl, fun _ => .inl rfl, fun _ _ => rfl, nofun, fun _ _ => rfl⟩

theorem Aged.support_eq {ticked : List Cell} (h : Aged w₀ w ticked)
    (hc : support (cellKind w₀) c < 7) : support (cellKind w) c = support (cellKind w₀) c :=
  Decayed.support_eq (fun c => (h.decayed c).imp_right fun h => ⟨h.1, h.2.1, h.2.2.1⟩) hc

/-- A leaf that is there was there from the start. -/
theorem Aged.leaf {ticked : List Cell} (h : Aged w₀ w ticked) (hc : cellKind w c = some false) :
    cellKind w₀ c = some false := by
  rcases h.decayed c with heq | ⟨-, hnone, -⟩
  · exact heq ▸ hc
  · cases hc.symm.trans hnone

/-- A tick that changes no block. -/
theorem Aged.kept {ticked : List Cell} (h : Aged w₀ w ticked)
    (hc : cellKind w₀ c = some false → support (cellKind w₀) c < 7 → persistentAt w₀ c = false →
      ∃ d : Nat, storedAt w c = some (d : Int) ∧ (d : ℕ∞) = support (cellKind w₀) c) :
    Aged w₀ w (c :: ticked) := by
  refine ⟨h.registry, h.decayed, h.persistent, fun c' hc' => ?_, h.others⟩
  rcases List.mem_cons.mp hc' with rfl | hc'
  · exact hc
  · exact h.stored c' hc'

/-- A tick of a leaf that changes the leaf alone. -/
theorem Aged.change {ticked : List Cell} {newId : Int} (h : Aged w₀ w ticked)
    (hregistry : w'.registry = w.registry) (hleaf : cellKind w c = some false)
    (hcells : ∀ x y z, w'.getBlockLoaded x y z =
      if (x, y, z) = c then some newId else w.getBlockLoaded x y z)
    (hkind : cellKind w' c = some false ∧ isPersistent w.registry newId = persistentAt w c ∨
      cellKind w' c = none ∧ 7 ≤ support (cellKind w₀) c ∧ persistentAt w₀ c = false)
    (hstored : support (cellKind w₀) c < 7 → ∃ d : Nat, storedDistance w.registry newId = d ∧
      (d : ℕ∞) = support (cellKind w₀) c) :
    Aged w₀ w' (c :: ticked) := by
  have hself : w'.getBlockLoaded c.1 c.2.1 c.2.2 = some newId := by rw [hcells, if_pos rfl]
  have hother {c' : Cell} (hne : c' ≠ c) :
      w'.getBlockLoaded c'.1 c'.2.1 c'.2.2 = w.getBlockLoaded c'.1 c'.2.1 c'.2.2 := by
    rw [hcells, if_neg hne]
  refine ⟨hregistry.trans h.registry, fun c' => ?_, fun c' hc' => ?_, fun c' hmem hc' hnear hnot => ?_,
    fun c' hc' => ?_⟩
  · by_cases hne : c' = c
    · subst hne
      rcases hkind with ⟨hkind, -⟩ | ⟨hkind, hfar, hnot⟩
      · exact .inl (hkind.trans (h.leaf hleaf).symm)
      · exact .inr ⟨h.leaf hleaf, hkind, hfar, hnot⟩
    · rw [cellKind_congr hregistry (hother hne)]
      exact h.decayed c'
  · by_cases hne : c' = c
    · subst hne
      rcases hkind with ⟨-, hsame⟩ | ⟨hkind, -⟩
      · rw [← h.persistent c' hleaf, ← hsame, persistentAt, hself, hregistry]
        rfl
      · cases hc'.symm.trans hkind
    · rw [← h.persistent c' ((cellKind_congr hregistry (hother hne)) ▸ hc'), persistentAt,
        hother hne, hregistry]
      rfl
  · by_cases hne : c' = c
    · subst hne
      obtain ⟨d, hd, hsupport⟩ := hstored hnear
      exact ⟨d, by rw [storedAt, hself, hregistry, Option.map_some, hd], hsupport⟩
    · obtain ⟨d, hd, hsupport⟩ := h.stored c' ((List.mem_cons.mp hmem).resolve_left hne) hc' hnear hnot
      exact ⟨d, by rw [← hd, storedAt, storedAt, hother hne, hregistry], hsupport⟩
  · have hne : c' ≠ c := by
      rintro rfl
      exact hc' (h.leaf hleaf)
    rw [hother hne]
    exact h.others c' hc'

/-- One tick goes through and keeps what the ticks before it kept. -/
theorem tick_aged {ticked : List Cell} (ht : LeafTable w₀.registry) (h : Aged w₀ w ticked)
    (c : Cell) (rolls : Rolls) : ∃ w', tick w c rolls = some w' ∧ Aged w₀ w' (c :: ticked) := by
  by_cases hkind : cellKind w c = some false
  case neg =>
    refine ⟨w, ?_, h.kept fun hleaf hnear _ => ?_⟩
    · unfold tick
      split
      · rfl
      split
      · rfl
      split
      · next _ id hid _ name hname hleaf => exact absurd (cellKind_of_leaves hid hname hleaf) hkind
      · rfl
    · rcases h.decayed c with heq | ⟨-, -, hfar, -⟩
      · exact absurd (heq.trans hleaf) hkind
      · exact absurd hnear (not_lt.mpr hfar)
  obtain ⟨id, name, hid, hname, hleaf⟩ := cellKind_eq_leaves hkind
  have ht' : LeafTable w.registry := h.registry ▸ ht
  obtain ⟨d, result, hd, hresult, hregistry, houtcome⟩ :=
    tickLeaves_spec ht' hid hname hleaf hkind rolls
  have hpersistent : persistentAt w c = isPersistent w.registry id := by
    rw [persistentAt, hid]
    rfl
  -- the distance of a leaf with support is the one it had from the start
  have hnear (hlt : support (cellKind w₀) c < 7) : (d : ℕ∞) = support (cellKind w₀) c := by
    have heq := h.support_eq hlt
    rw [hd, heq, min_eq_right hlt.le]
  refine ⟨result.2.1, ?_, ?_⟩
  · unfold tick
    rw [hid]
    dsimp only
    rw [hname]
    dsimp only
    rw [if_pos hleaf, hresult, Option.map_some]
  rcases houtcome with ⟨hsame, hkept⟩ | ⟨newId, hnot, hnewName, hnewNot, hnewStored, hcells⟩ |
    ⟨hnot, hseven, hcells⟩
  · rw [hsame]
    refine h.kept fun _ hlt hnot => ?_
    rcases hkept with hyes | ⟨hstored, -⟩
    · rw [← h.persistent c hkind, hpersistent, hyes] at hnot
      exact nomatch hnot
    · exact ⟨d, by rw [storedAt, hid, Option.map_some, hstored], hnear hlt⟩
  · refine h.change hregistry hkind hcells (.inl ⟨?_, ?_⟩) fun hlt => ⟨d, hnewStored, hnear hlt⟩
    · refine @cellKind_of_leaves _ _ newId name ?_ (hregistry ▸ hnewName) hleaf
      rw [hcells, if_pos rfl]
    · rw [hnewNot, hpersistent, hnot]
  · have hfar : 7 ≤ support (cellKind w₀) c := by
      refine le_of_not_gt fun hlt => ?_
      have := hnear hlt
      rw [hseven] at this
      exact absurd (this ▸ hlt) (by decide)
    refine h.change hregistry hkind hcells (.inr ⟨?_, hfar, ?_⟩) fun hlt =>
      absurd hlt (not_lt.mpr hfar)
    · unfold cellKind
      simp only [hcells, hregistry, ht'.air, Option.bind_eq_bind, Option.bind_some, if_true]
      decide +kernel
    · rw [← h.persistent c hkind, hpersistent, hnot]

theorem run_aged {ticked : List Cell} (ht : LeafTable w₀.registry) (h : Aged w₀ w ticked)
    (ticks : List (Cell × Rolls)) : ∃ w', run w ticks = some w' ∧
      Aged w₀ w' ((ticks.map Prod.fst).reverse ++ ticked) := by
  induction ticks generalizing w ticked with
  | nil => exact ⟨w, rfl, h⟩
  | cons event ticks ih =>
    obtain ⟨c, rolls⟩ := event
    obtain ⟨next, hnext, haged⟩ := tick_aged ht h c rolls
    obtain ⟨w', hrun, hlast⟩ := ih haged
    refine ⟨w', by rw [run, hnext]; exact hrun, ?_⟩
    simpa using hlast

/-- Only leaves that are not persistent and seven steps or more from a log go; every leaf with
support stays, at its distance, and stores it once it was ticked unless it is persistent. -/
theorem leaves_decay (ht : LeafTable w.registry) :
    (∀ c, ∃ d : Nat, leafSupportDistance (cellKind w) c = some d ∧
      (d : ℕ∞) = min 7 (support (cellKind w) c)) ∧
    ∀ ticks, ∃ w', run w ticks = some w' ∧ ∀ c, cellKind w c = some false →
      (cellKind w' c ≠ some false → persistentAt w c = false ∧ 7 ≤ support (cellKind w) c) ∧
      (support (cellKind w) c < 7 → cellKind w' c = some false ∧
        support (cellKind w') c = support (cellKind w) c ∧
        (c ∈ ticks.map Prod.fst → persistentAt w c = false →
          ∃ d : Nat, storedAt w' c = some (d : Int) ∧ (d : ℕ∞) = support (cellKind w) c)) := by
  refine ⟨leafSupportDistance_spec _, fun ticks => ?_⟩
  obtain ⟨w', hrun, haged⟩ := run_aged ht (Aged.refl w) ticks
  rw [List.append_nil] at haged
  refine ⟨w', hrun, fun c hleaf => ⟨fun hgone => ?_, fun hnear => ⟨?_, haged.support_eq hnear, ?_⟩⟩⟩
  · rcases haged.decayed c with heq | ⟨-, -, hfar, hnot⟩
    · exact absurd (heq.trans hleaf) hgone
    · exact ⟨hnot, hfar⟩
  · rcases haged.decayed c with heq | ⟨-, -, hfar, -⟩
    · exact heq.trans hleaf
    · exact absurd hnear (not_lt.mpr hfar)
  · exact fun hticked hnot => haged.stored c (List.mem_reverse.mpr hticked) hleaf hnear hnot

/-! ## A persistent leaf -/

/-- Oak leaves of every distance, persistent and not. -/
def oakLeavesEntry : BlockEntry := ⟨2, 15, 14,
  [("distance".toList, ["1".toList, "2".toList, "3".toList, "4".toList, "5".toList, "6".toList,
    "7".toList]), ("persistent".toList, ["true".toList, "false".toList])]⟩

def twigRegistry : BlockRegistry where
  byName name :=
    if name = "minecraft:air".toList then some ⟨0, 0, 1, []⟩
    else if name = "minecraft:oak_log".toList then some ⟨1, 1, 1, []⟩
    else if name = "minecraft:oak_leaves".toList then some oakLeavesEntry
    else none
  byId := "minecraft:air".toList :: "minecraft:oak_log".toList ::
    List.replicate 14 "minecraft:oak_leaves".toList
  airId := 0
  emptyIds := [0]

/-- A log at 8, 0, 8, and a leaf beside it that is persistent and stores seven. -/
def twig : World where
  registry := twigRegistry
  chunks := fun pos => if pos = ⟨0, 0⟩ then some {
    pos := ⟨0, 0⟩
    sections := [⟨0, ((List.replicate 4096 0).set 136 1).set 137 14, 2, none, none,
      by rw [List.length_set, List.length_set, List.length_replicate]⟩]
    minSectionY := 0
    status := "minecraft:full"
    dataVersion := 4790
    lastUpdate := 0
    inhabitedTime := 0
    lightCorrect := false
    dirty := true
    extra := [] } else none
  light := fun _ => none
  changes := []
  minSectionY := 0
  sectionCount := 1

theorem twigRegistry_byName {name : Text} {entry : BlockEntry}
    (h : twigRegistry.byName name = some entry) :
    name = "minecraft:air".toList ∧ entry = ⟨0, 0, 1, []⟩ ∨
      name = "minecraft:oak_log".toList ∧ entry = ⟨1, 1, 1, []⟩ ∨
      name = "minecraft:oak_leaves".toList ∧ entry = oakLeavesEntry := by
  unfold twigRegistry at h
  dsimp only at h
  split at h
  · next hname => exact .inl ⟨hname, (Option.some.inj h).symm⟩
  split at h
  · next hname => exact .inr (.inl ⟨hname, (Option.some.inj h).symm⟩)
  split at h
  · next hname => exact .inr (.inr ⟨hname, (Option.some.inj h).symm⟩)
  · exact nomatch h

theorem twig_leafTable : LeafTable twigRegistry := by
  refine ⟨⟨fun id name h => ?_, fun name entry h j hj => ?_, fun name entry h => ?_⟩, rfl,
    by decide +kernel, fun name entry hleaf h => ?_⟩
  · -- every state is in the range of its block
    have hall : ∀ n : Nat, n < 16 → ∃ name, twigRegistry.byId[n]? = some name ∧ ∃ entry,
        twigRegistry.byName name = some entry ∧ entry.firstStateId ≤ (n : Int) ∧
          (n : Int) < entry.firstStateId + entry.stateCount := by
      intro n hn
      rcases Nat.lt_or_ge n 2 with hlow | hhigh
      · interval_cases n
        · exact ⟨_, rfl, _, rfl, by decide⟩
        · exact ⟨_, rfl, _, rfl, by decide⟩
      · refine ⟨"minecraft:oak_leaves".toList, ?_, oakLeavesEntry, rfl, ?_⟩
        · obtain ⟨m, rfl⟩ : ∃ m, n = m + 2 := ⟨n - 2, by omega⟩
          exact List.getElem?_replicate_of_lt (by omega)
        · simp only [oakLeavesEntry]
          omega
    unfold BlockRegistry.blockName at h
    split at h
    · exact nomatch h
    next hpos =>
    have hlt : id.toNat < 16 := (List.getElem?_eq_some_iff.mp h).1
    obtain ⟨name', hname', entry, hentry, hrange⟩ := hall id.toNat hlt
    cases hname'.symm.trans h
    exact ⟨entry, hentry, by omega⟩
  · rcases twigRegistry_byName h with ⟨rfl, rfl⟩ | ⟨rfl, rfl⟩ | ⟨rfl, rfl⟩
    · obtain rfl : j = 0 := by simpa using hj
      exact ⟨le_rfl, by decide +kernel⟩
    · obtain rfl : j = 0 := by simpa using hj
      exact ⟨by decide, by decide +kernel⟩
    · have hj' : j < 14 := hj
      refine ⟨by decide, ?_⟩
      unfold BlockRegistry.blockName
      rw [if_neg (by simp only [oakLeavesEntry]; omega),
        show (oakLeavesEntry.firstStateId + (j : Int)).toNat = j + 2 by simp only [oakLeavesEntry]; omega]
      exact List.getElem?_replicate_of_lt hj'
  · rcases twigRegistry_byName h with ⟨-, rfl⟩ | ⟨-, rfl⟩ | ⟨-, rfl⟩
    · exact ⟨by decide, by decide, by decide⟩
    · exact ⟨by decide, by decide, by decide⟩
    · exact ⟨by decide +kernel, by decide +kernel, by decide⟩
  · rcases twigRegistry_byName h with ⟨rfl, -⟩ | ⟨rfl, -⟩ | ⟨-, rfl⟩
    · exact absurd hleaf (by decide +kernel)
    · exact absurd hleaf (by decide +kernel)
    · refine ⟨_, List.mem_cons_self .., rfl, fun d hd hd' => ?_⟩
      interval_cases d <;> decide +kernel

theorem leaves_decay_twig : LeafTable twig.registry ∧
    ∃ w', run twig [((9, 0, 8), ⟨1, 1⟩)] = some w' ∧
      (support (cellKind twig) (9, 0, 8) < 7 → cellKind w' (9, 0, 8) = some false) := by
  obtain ⟨w', hrun, hcells⟩ := (leaves_decay (w := twig) twig_leafTable).2 [((9, 0, 8), ⟨1, 1⟩)]
  exact ⟨twig_leafTable, w', hrun, fun h => ((hcells (9, 0, 8) (by decide +kernel)).2 h).1⟩

/-- A persistent leaf beside a log stores seven after its tick. -/
theorem persistent_keeps_distance : LeafTable twig.registry ∧
    cellKind twig (9, 0, 8) = some false ∧ support (cellKind twig) (9, 0, 8) ≤ 1 ∧
    ∃ w', run twig [((9, 0, 8), ⟨1, 1⟩)] = some w' ∧ storedAt w' (9, 0, 8) = some 7 := by
  have hid : twig.getBlockLoaded 9 0 8 = some 14 := by decide +kernel
  have hname : twig.registry.blockName 14 = some "minecraft:oak_leaves".toList := by decide +kernel
  refine ⟨twig_leafTable, by decide +kernel, ?_, twig, ?_, by decide +kernel⟩
  · refine support_le_of_path (n := 1) (.leaf (b := (8, 0, 8)) (by decide +kernel) ?_
      (.log (by decide +kernel)))
    unfold Region.FaceAdjacent
    decide
  · have htick : tick twig (9, 0, 8) ⟨1, 1⟩ = some twig := by
      unfold tick
      dsimp only
      rw [hid]
      dsimp only
      rw [hname]
      dsimp only
      rw [if_pos (by decide +kernel), tickLeaves, if_pos (by decide +kernel)]
      rfl
    rw [run, htick]
    rfl

end Apoptosis.L2.Worldgen
