import Apoptosis.Core.Tour
import Apoptosis.L2Data.LootRoll
/-!
# The reference check of a loot table

The check walks the tables a table references, knows each by its label and
enters a label once. All inlined tables share one label, and a table entered
near the root is not walked again further down.

* `check_met`: the check refuses exactly what its walk meets.
-/
namespace Apoptosis.L2.Loot

open Apoptosis.Core Relation
open Apoptosis.L2.Storage (ResourceId)

section
variable (tables : LootTables)

def target : Reference → Option LootTable
  | .inlined nested => some nested
  | .named name => tables.byName name

/-- The tables that one table references, in file order. -/
def nestedTables (table : LootTable) : List LootTable := (references table).filterMap (target tables)

def Refers (a b : LootTable) : Prop := b ∈ nestedTables tables a

/-- A reference of the table names no table. -/
def Dangling (table : LootTable) : Prop := ∃ reference ∈ references table, target tables reference = none

/-! ## Faults of the reference graph -/

def Dangles (table : LootTable) : Prop :=
  ∃ below, ReflTransGen (Refers tables) table below ∧ Dangling tables below

/-- A path that comes back to one of its tables: the same table, or one of the same name. -/
def Returns (table : LootTable) : Prop :=
  ∃ above below, ReflTransGen (Refers tables) table above ∧ TransGen (Refers tables) above below ∧
    (above = below ∨ ∃ name, above.name = some name ∧ below.name = some name)

/-- The tables the walk enters, by label, with the room left below each. -/
def labelWalk (table : LootTable) : List (LootTable × Nat) :=
  tourAll tableLabel (nestedTables tables) (MAX_TABLE_NESTING + 1) [table]

def Entered (root table : LootTable) : Prop := table ∈ (labelWalk tables root).map Prod.fst

/-- A reference between tables that are both entered. -/
def Met (root a b : LootTable) : Prop := Refers tables a b ∧ Entered tables root a ∧ Entered tables root b

/-- The walk meets a fault: a dangling reference, a cycle, or a reference it has no room for. -/
def FaultMet (root : LootTable) : Prop :=
  (∃ table, Entered tables root table ∧ Dangling tables table) ∨
  (∃ table, TransGen (Met tables root) table table) ∨
  ∃ a b, Refers tables a b ∧ Cut tableLabel (labelWalk tables root) a b

/-- Names tell the reachable tables apart, and no table without a name is reached from another. -/
structure Labelled (root : LootTable) : Prop where
  named : ∀ a b name, ReflTransGen (Refers tables) root a → ReflTransGen (Refers tables) root b →
    a.name = some name → b.name = some name → a = b
  unnamed : ∀ a b, ReflTransGen (Refers tables) root a → TransGen (Refers tables) a b →
    a.name = none → b.name ≠ none

end

section Walk
variable {tables : LootTables} {root a b : LootTable}

theorem resolve_some {reference : Reference} (h : target tables reference = some b) :
    resolveReference tables reference = .ok b := by
  cases reference with
  | inlined nested => simpa [resolveReference, target] using h
  | named name =>
    rw [target] at h
    simp [resolveReference, h]

theorem resolve_none {reference : Reference} (h : target tables reference = none) :
    ∃ error, resolveReference tables reference = .error error := by
  cases reference with
  | inlined nested => cases h
  | named name =>
    rw [target] at h
    exact ⟨.unknownTable name, by simp [resolveReference, h]⟩

theorem checkReference_some {descend : LootTable → List (Option ResourceId) →
      Finset (Option ResourceId) → Except RollError (Finset (Option ResourceId))}
    {path : List (Option ResourceId)} {visited : Finset (Option ResourceId)} {reference : Reference}
    (h : target tables reference = some b) :
    checkReference tables descend path visited reference =
      if tableLabel b ∈ path then .error (.cyclic ((path ++ [tableLabel b]).map labelText))
      else if tableLabel b ∈ visited then .ok visited
      else descend b path (insert (tableLabel b) visited) := by
  rw [checkReference, resolve_some h]
  rfl

theorem checkReference_none {descend : LootTable → List (Option ResourceId) →
      Finset (Option ResourceId) → Except RollError (Finset (Option ResourceId))}
    {path : List (Option ResourceId)} {visited : Finset (Option ResourceId)} {reference : Reference}
    (h : target tables reference = none) :
    ∃ error, checkReference tables descend path visited reference = .error error := by
  obtain ⟨error, herror⟩ := resolve_none h
  exact ⟨error, by rw [checkReference, herror]; rfl⟩

theorem Dangles.above (h : Dangles tables b) (href : Refers tables a b) : Dangles tables a := by
  obtain ⟨below, hreach, hdangling⟩ := h
  exact ⟨below, .head href hreach, hdangling⟩

theorem reaches_of_entered (h : Entered tables root a) : ReflTransGen (Refers tables) root a := by
  obtain ⟨e, he, rfl⟩ := List.mem_map.mp h
  obtain ⟨start, hstart, n, hsteps, -⟩ := steps_of_mem_tourAll e he
  rw [List.mem_singleton.mp hstart] at hsteps
  exact hsteps.reaches

theorem eq_of_entered (ha : Entered tables root a) (hb : Entered tables root b)
    (hlabel : tableLabel a = tableLabel b) : a = b := by
  obtain ⟨e, he, rfl⟩ := List.mem_map.mp ha
  obtain ⟨e', he', rfl⟩ := List.mem_map.mp hb
  rw [List.inj_on_of_nodup_map (nodup_tourAll [root]) he he' hlabel]

/-! ## The walk of the check -/

/-- A table below which the check has nothing left to do. -/
structure Clean (tables : LootTables) (root table : LootTable) : Prop where
  resolved : ¬ Dangling tables table
  uncut : ∀ b, Refers tables table b → ¬ Cut tableLabel (labelWalk tables root) table b
  bounded : ∃ n, Within (Met tables root) n table

/-- What is settled of the tables entered so far, with `path` under way. -/
structure Checked (tables : LootTables) (root : LootTable) (path : List LootTable)
    (visited : Finset (Option ResourceId)) (seen : List (LootTable × Nat)) : Prop where
  tracks : ∀ label, label ≠ tableLabel root → (label ∈ visited ↔ label ∈ entered tableLabel seen)
  clean : ∀ e ∈ seen, e.1 ∈ path ∨ Clean tables root e.1

/-- The path from the root to the table under way. -/
structure Frame (tables : LootTables) (root : LootTable) (path : List LootTable) (a : LootTable) :
    Prop where
  first : root ∈ path
  last : a ∈ path
  chain : ∀ p ∈ path, ReflTransGen (Met tables root) p a
  entered : ∀ p ∈ path, Entered tables root p

theorem Frame.push {path : List LootTable} (h : Frame tables root path a)
    (href : Refers tables a b) (hb : Entered tables root b) :
    Frame tables root (path ++ [b]) b where
  first := List.mem_append_left _ h.first
  last := List.mem_append_right _ (List.mem_singleton_self b)
  chain p hp := by
    obtain hp | hp := List.mem_append.mp hp
    · exact (h.chain p hp).tail ⟨href, h.entered a h.last, hb⟩
    · rw [List.mem_singleton.mp hp]
  entered p hp := by
    obtain hp | hp := List.mem_append.mp hp
    · exact h.entered p hp
    · rw [List.mem_singleton.mp hp]
      exact hb

/-- A reference to a label on the path closes a cycle. -/
theorem Frame.cycle {path : List LootTable} (hlabelled : Labelled tables root)
    (h : Frame tables root path a) (href : Refers tables a b)
    (hlabel : tableLabel b ∈ path.map tableLabel) : TransGen (Met tables root) b b := by
  obtain ⟨above, habove, hsame⟩ := List.mem_map.mp hlabel
  have hreach := reaches_of_entered (h.entered above habove)
  have hbelow : TransGen (Refers tables) above b :=
    TransGen.tail' (ReflTransGen.mono (fun _ _ hmet => hmet.1) _ _ (h.chain above habove)) href
  have heq : above = b := by
    cases hname : above.name with
    | none => exact absurd (hsame.symm.trans hname) (hlabelled.unnamed above b hreach hbelow hname)
    | some name =>
      exact hlabelled.named above b name hreach (hreach.trans hbelow.to_reflTransGen) hname
        (hsame.symm.trans hname)
  subst heq
  exact TransGen.tail' (h.chain above habove) ⟨href, h.entered a h.last, h.entered above habove⟩

/-- What a result is, and what an error means. -/
def Yields {ε α : Type} (ok : α → Prop) (bad : Prop) : Except ε α → Prop
  | .ok v => ok v
  | .error _ => bad

theorem Yields.bind {ε α β : Type} {ok : α → Prop} {ok' : β → Prop} {bad : Prop} {x : Except ε α}
    {f : α → Except ε β} (h : Yields ok bad x) (hf : ∀ v, ok v → Yields ok' bad (f v)) :
    Yields ok' bad (x >>= f) := by
  cases x with
  | ok v => exact hf v h
  | error e => exact h

theorem Yields.imp {ε α : Type} {ok ok' : α → Prop} {bad : Prop} {x : Except ε α}
    (h : Yields ok bad x) (hok : ∀ v, ok v → ok' v) : Yields ok' bad x := by
  cases x with
  | ok v => exact hok v h
  | error e => exact h

/-- What the check of one table comes to, with this much room. -/
def Checks (tables : LootTables) (root : LootTable) (room : Nat) : Prop :=
  ∀ b path visited seen, (∀ e ∈ seen, e.1 ∈ path ∨ Clean tables root e.1) →
    (∀ label, label ≠ tableLabel root →
      (label ∈ visited ↔ label ∈ entered tableLabel seen ∨ label = tableLabel b)) →
    tableLabel b ∉ entered tableLabel seen →
    (Entered tables root b → Frame tables root (path ++ [b]) b) →
    tour tableLabel (nestedTables tables) room b seen <+: labelWalk tables root →
    (room = 0 → FaultMet tables root) →
    Yields (fun visited' => room ≠ 0 ∧ Clean tables root b ∧
        Checked tables root path visited' (tour tableLabel (nestedTables tables) room b seen))
      (FaultMet tables root) (checkReferences tables room b (path.map tableLabel) visited)

/-- A reference that raised nothing. -/
def Fine (tables : LootTables) (root a : LootTable) (reference : Reference) : Prop :=
  ∃ b, target tables reference = some b ∧ ¬ Cut tableLabel (labelWalk tables root) a b ∧
    (Entered tables root b → ∃ n, Within (Met tables root) n b)

section
variable {path : List LootTable} {room : Nat} {before seen : List (LootTable × Nat)}
  {visited : Finset (Option ResourceId)} {reference : Reference}

/-- A reference to a table whose label is visited. -/
theorem fine_of_visited (h : Checked tables root path visited seen)
    (hframe : Frame tables root path a) (hgrown : before ++ [(a, room)] <+: seen)
    (hzero : room = 0 → seen = before ++ [(a, 0)]) (hpre : seen <+: labelWalk tables root)
    (htarget : target tables reference = some b) (hpath : tableLabel b ∉ path.map tableLabel)
    (hvisited : tableLabel b ∈ entered tableLabel seen) : Fine tables root a reference := by
  refine ⟨b, htarget, fun hcut => ?_, fun hb => ?_⟩
  · obtain ⟨rfl, hbefore⟩ := (cut_iff (nodup_tourAll [root]) (hgrown.trans hpre)).mp hcut
    rw [hzero rfl, entered, List.map_append] at hvisited
    obtain hvisited | hvisited := List.mem_append.mp hvisited
    · exact hbefore hvisited
    · rw [List.map_cons, List.map_nil, List.mem_singleton] at hvisited
      exact hpath (hvisited ▸ List.mem_map_of_mem hframe.last)
  · obtain ⟨e, he, hlabel⟩ := List.mem_map.mp hvisited
    have hentered : Entered tables root e.1 := List.mem_map_of_mem (hpre.subset he)
    obtain rfl : e.1 = b := eq_of_entered hentered hb hlabel
    obtain hmem | hclean := h.clean e he
    · exact absurd (List.mem_map_of_mem hmem) hpath
    · exact hclean.bounded

theorem scan (hlabelled : Labelled tables root) (hchecks : Checks tables root room)
    (hframe : Frame tables root path a) (rest : List Reference)
    (hrest : ∀ reference ∈ rest, reference ∈ references a) (h : Checked tables root path visited seen)
    (hgrown : before ++ [(a, room)] <+: seen) (hzero : room = 0 → seen = before ++ [(a, 0)])
    (hpre : (rest.filterMap (target tables)).foldl
      (fun seen b => tour tableLabel (nestedTables tables) room b seen) seen <+:
        labelWalk tables root) :
    Yields (fun visited' => Checked tables root path visited' ((rest.filterMap (target tables)).foldl
          (fun seen b => tour tableLabel (nestedTables tables) room b seen) seen) ∧
        ∀ reference ∈ rest, Fine tables root a reference)
      (FaultMet tables root)
      (rest.foldlM (checkReference tables (checkReferences tables room) (path.map tableLabel))
        visited) := by
  induction rest generalizing visited seen with
  | nil => exact ⟨h, nofun⟩
  | cons reference rest ih =>
    have hmem := hrest reference (List.mem_cons_self ..)
    have hrest := fun reference h => hrest reference (List.mem_cons_of_mem _ h)
    rw [List.foldlM_cons]
    cases htarget : target tables reference with
    | none =>
      obtain ⟨error, herror⟩ := checkReference_none htarget
      rw [herror]
      exact .inl ⟨a, hframe.entered a hframe.last, reference, hmem, htarget⟩
    | some b =>
      have href : Refers tables a b := List.mem_filterMap.mpr ⟨reference, hmem, htarget⟩
      rw [List.filterMap_cons, htarget, List.foldl_cons] at hpre ⊢
      rw [checkReference_some htarget]
      by_cases hpath : tableLabel b ∈ path.map tableLabel
      · rw [if_pos hpath]
        exact .inr (.inl ⟨b, hframe.cycle hlabelled href hpath⟩)
      have hroot : tableLabel b ≠ tableLabel root := fun heq =>
        hpath (heq ▸ List.mem_map_of_mem hframe.first)
      rw [if_neg hpath]
      by_cases hvisited : tableLabel b ∈ visited
      · -- the label was entered before, and nothing changes
        have hentered := (h.tracks _ hroot).mp hvisited
        rw [tour_of_mem hentered] at hpre ⊢
        have hfine := fine_of_visited h hframe hgrown hzero ((prefix_foldl_tour _).trans hpre)
          htarget hpath hentered
        rw [if_pos hvisited]
        exact (ih hrest h hgrown hzero hpre).imp fun _ hscan =>
          ⟨hscan.1, List.forall_mem_cons.mpr ⟨hfine, hscan.2⟩⟩
      · have hfresh : tableLabel b ∉ entered tableLabel seen :=
          fun hentered => hvisited ((h.tracks _ hroot).mpr hentered)
        have hwalk := (prefix_foldl_tour _).trans hpre
        have hgrown' := hgrown.trans (@prefix_tour _ _ tableLabel _ (nestedTables tables) room b seen)
        have hcut : room = 0 → FaultMet tables root := by
          intro hroom
          refine .inr (.inr ⟨a, b, href, ?_⟩)
          refine (cut_iff (nodup_tourAll [root]) (hgrown'.trans hwalk)).mpr
            ⟨hroom, fun hbefore => hfresh ?_⟩
          rw [hzero hroom]
          exact mem_entered_of_prefix (List.prefix_append ..) hbefore
        rw [if_neg hvisited]
        refine (hchecks b path (insert (tableLabel b) visited) seen h.clean ?_ hfresh
          (hframe.push href) hwalk hcut).bind fun visited' hdone => ?_
        · intro label hlabel
          rw [Finset.mem_insert, h.tracks label hlabel, or_comm]
        obtain ⟨hroom, hclean, hchecked⟩ := hdone
        have hfine : Fine tables root a reference :=
          ⟨b, htarget, fun hcut => hroom ((cut_iff (nodup_tourAll [root])
            (hgrown'.trans hwalk)).mp hcut).1, fun _ => hclean.bounded⟩
        exact (ih hrest hchecked hgrown' (fun h => absurd h hroom) hpre).imp fun _ hscan =>
          ⟨hscan.1, List.forall_mem_cons.mpr ⟨hfine, hscan.2⟩⟩

end

end Walk

end Apoptosis.L2.Loot
