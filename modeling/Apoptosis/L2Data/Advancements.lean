import Apoptosis.Core.Links
import Apoptosis.Core.Named
import Apoptosis.L2Data.LootTable
/-!
# The advancements of a pack (`data/src/advancement.rs`)

Each advancement names its parent. The registry reports what is wrong with the
links: parents that are missing, chains too deep, and cycles, which it finds by
following the links up from every name in turn and colouring what it has seen.

* `mem_cycles`: each cycle, from the place where the lowest name that leads into
  it does so.
* `cycles_exact_iff`: when that place is the lowest name of the cycle.
-/
namespace Apoptosis.L2.Advancements

open Apoptosis.Core Relation
open Apoptosis.L2.Storage (ResourceId)
open scoped Apoptosis.L2.Storage.ResourceId

/-- mirrors crates/data/src/advancement.rs:80 (`MAX_PARENT_DEPTH`) -/
def MAX_PARENT_DEPTH : Nat := 64

/-- mirrors crates/data/src/advancement.rs:254-277 (`Advancement`), with the names of its criteria -/
structure Advancement where
  name : ResourceId
  parent : Option ResourceId
  criterionNames : List String
  requirements : List (List String)

namespace Advancement

/-- mirrors crates/data/src/advancement.rs:312-320 (`effective_requirements`) -/
def effectiveRequirements (advancement : Advancement) : List (List String) :=
  if advancement.requirements.isEmpty then [advancement.criterionNames]
  else advancement.requirements

/-- mirrors crates/data/src/advancement.rs:327-334 (`undefined_requirements`) -/
def undefinedRequirements (advancement : Advancement) : List String :=
  advancement.requirements.flatten.filter fun name => !advancement.criterionNames.contains name

/-- mirrors crates/data/src/advancement.rs:346-357 (`unreferenced_criteria`) -/
def unreferencedCriteria (advancement : Advancement) : List String :=
  advancement.criterionNames.filter fun name =>
    !advancement.effectiveRequirements.flatten.contains name

end Advancement

/-- mirrors crates/data/src/advancement.rs:397-446 (`AdvancementProblem`) -/
inductive AdvancementProblem
  | missingParent (source missing : ResourceId)
  | cycle (path : List ResourceId)
  | duplicate (name : ResourceId)
  | undefinedRequirement (name : ResourceId) (criterion : String)
  | unreferencedCriterion (name : ResourceId) (criterion : String)
  | tooDeep (place : ResourceId) (limit : Nat)
  deriving DecidableEq

namespace AdvancementProblem

/-- The order the source derives: by variant, then by fields. -/
def rank : AdvancementProblem → Nat ×ₗ List ResourceId ×ₗ String ×ₗ Nat
  | .missingParent source missing => toLex (0, toLex ([source, missing], toLex ("", 0)))
  | .cycle path => toLex (1, toLex (path, toLex ("", 0)))
  | .duplicate name => toLex (2, toLex ([name], toLex ("", 0)))
  | .undefinedRequirement name criterion => toLex (3, toLex ([name], toLex (criterion, 0)))
  | .unreferencedCriterion name criterion => toLex (4, toLex ([name], toLex (criterion, 0)))
  | .tooDeep place limit => toLex (5, toLex ([place], toLex ("", limit)))

theorem rank_injective : Function.Injective rank := by
  intro p p' h
  cases p <;> cases p' <;> simp_all [rank]

instance : LinearOrder AdvancementProblem := LinearOrder.lift' rank rank_injective

end AdvancementProblem

/-- mirrors crates/data/src/advancement.rs:560-569 (`AdvancementRegistry`), without the index of the
children -/
structure AdvancementRegistry where
  advancements : Named Advancement.name
  duplicates : List ResourceId

/-- mirrors crates/data/src/advancement.rs:371-393 (`Chain`) -/
inductive Chain
  | rooted (depth : Nat)
  | missingParent (place : ResourceId)
  | cyclic
  | tooDeep (place : ResourceId) (limit : Nat)

/-- mirrors crates/data/src/advancement.rs:885 (`cycles`, a node of the current path) -/
def ON_PATH : UInt8 := 1

/-- mirrors crates/data/src/advancement.rs:885 (`cycles`, a node that is finished) -/
def FINISHED : UInt8 := 2

abbrev Colours := OrdMap ResourceId UInt8

namespace AdvancementRegistry

/-- mirrors crates/data/src/advancement.rs:573-575 (`AdvancementRegistry::new`) -/
def new : AdvancementRegistry := ⟨.empty, []⟩

variable (registry : AdvancementRegistry)

/-- mirrors crates/data/src/advancement.rs:652-656 (`by_name`) -/
abbrev byName (name : ResourceId) : Option Advancement := registry.advancements.get? name

/-- mirrors crates/data/src/advancement.rs:585-598 (`insert`) -/
def insert (advancement : Advancement) : AdvancementRegistry where
  advancements := registry.advancements.insert advancement
  duplicates :=
    if (registry.advancements.index.get? advancement.name).isSome ∧
        advancement.name ∉ registry.duplicates then registry.duplicates ++ [advancement.name]
    else registry.duplicates

/-- mirrors crates/data/src/advancement.rs:601-606 (`insert_all`) -/
def insertAll (advancements : List Advancement) : AdvancementRegistry :=
  advancements.foldl insert registry

/-- Every name, ascending. -/
def names : List ResourceId := registry.advancements.index.entries.map Prod.fst

/-- mirrors crates/data/src/advancement.rs:755-781 (`chain_of`, the loop), with the links it may
still follow -/
def chainFrom : Nat → List ResourceId → Advancement → Chain
  | room, seen, current =>
    if current.name ∈ seen then .cyclic
    else
      match current.parent with
      | none => .rooted (MAX_PARENT_DEPTH - room)
      | some parent =>
        match room with
        | 0 => .tooDeep current.name MAX_PARENT_DEPTH
        | room + 1 =>
          match registry.byName parent with
          | none => .missingParent parent
          | some next => chainFrom room (seen ++ [current.name]) next

/-- mirrors crates/data/src/advancement.rs:747-782 (`chain_of`) -/
def chainOf (name : ResourceId) : Chain :=
  match registry.byName name with
  | none => .missingParent name
  | some start => registry.chainFrom (MAX_PARENT_DEPTH - 1) [] start

/-! ## Cycles -/

/-- The parent a loaded advancement names. -/
def parentLink (name : ResourceId) : Option ResourceId := (registry.byName name).bind Advancement.parent

/-- The advancements the walk has not coloured. -/
def uncoloured (colour : Colours) : List Advancement :=
  registry.advancements.items.filter fun advancement => (colour.get? advancement.name).isNone

variable {registry} in
theorem uncoloured_lt {colour : Colours} {node next : ResourceId} (hnode : colour.get? node = none)
    (hnext : registry.parentLink node = some next) :
    (registry.uncoloured (colour.insert node ON_PATH)).length <
      (registry.uncoloured colour).length := by
  obtain ⟨advancement, hfound, -⟩ := Option.bind_eq_some_iff.mp hnext
  obtain ⟨hmem, rfl⟩ := Named.get?_eq_some.mp hfound
  have hsub : (registry.uncoloured (colour.insert advancement.name ON_PATH)).Sublist
      (registry.uncoloured colour) :=
    List.monotone_filter_right _ fun other hother => by
      rw [OrdMap.get?_insert] at hother
      split at hother
      · cases hother
      · exact hother
  refine lt_of_le_of_ne hsub.length_le fun heq => ?_
  have hin : advancement ∈ registry.uncoloured colour := List.mem_filter.mpr ⟨hmem, by rw [hnode]; rfl⟩
  rw [← hsub.eq_of_length heq] at hin
  have hgone := (List.mem_filter.mp hin).2
  rw [OrdMap.get?_insert, if_pos rfl] at hgone
  cases hgone

/-- mirrors crates/data/src/advancement.rs:889-911 (`cycles`, the walk from one name) -/
def walk (colour : Colours) (path : List ResourceId) (node : ResourceId) :
    Colours × List ResourceId × Option (List ResourceId) :=
  match _hnode : colour.get? node with
  | some seen =>
    if seen = ON_PATH then
      (colour, path, (path.idxOf? node).map fun place => path.drop place ++ [node])
    else (colour, path, none)
  | none =>
    match _hnext : registry.parentLink node with
    | none => (colour.insert node ON_PATH, path ++ [node], none)
    | some next => walk (colour.insert node ON_PATH) (path ++ [node]) next
  termination_by (registry.uncoloured colour).length
  decreasing_by exact uncoloured_lt _hnode _hnext

/-! The walk, one line for each of its cases. -/

section
variable {colour : Colours} {path : List ResourceId} {node : ResourceId}

theorem walk_onPath (h : colour.get? node = some ON_PATH) : registry.walk colour path node =
    (colour, path, (path.idxOf? node).map fun place => path.drop place ++ [node]) := by
  rw [walk]
  split
  · next seen hseen =>
    obtain rfl : ON_PATH = seen := Option.some.inj (h.symm.trans hseen)
    rw [if_pos rfl]
  · next hnone => simp [h] at hnone

theorem walk_finished {seen : UInt8} (h : colour.get? node = some seen) (hne : seen ≠ ON_PATH) :
    registry.walk colour path node = (colour, path, none) := by
  rw [walk]
  split
  · next seen' hseen =>
    obtain rfl : seen = seen' := Option.some.inj (h.symm.trans hseen)
    rw [if_neg hne]
  · next hnone => simp [h] at hnone

theorem walk_end (h : colour.get? node = none) (hnext : registry.parentLink node = none) :
    registry.walk colour path node = (colour.insert node ON_PATH, path ++ [node], none) := by
  rw [walk]
  split
  · next seen hseen => simp [h] at hseen
  · split
    · rfl
    · next next hsome => simp [hnext] at hsome

theorem walk_next {next : ResourceId} (h : colour.get? node = none)
    (hnext : registry.parentLink node = some next) : registry.walk colour path node =
      registry.walk (colour.insert node ON_PATH) (path ++ [node]) next := by
  rw [walk]
  split
  · next seen hseen => simp [h] at hseen
  · split
    · next hnone => simp [hnext] at hnone
    · next next' hsome =>
      obtain rfl : next = next' := Option.some.inj (hnext.symm.trans hsome)
      rfl

end

/-- mirrors crates/data/src/advancement.rs:883-916 (`cycles`, one name) -/
def visit (state : Colours × List (List ResourceId)) (start : ResourceId) :
    Colours × List (List ResourceId) :=
  if (state.1.get? start).isSome then state
  else
    let (colour, path, cycle) := registry.walk state.1 [] start
    (path.foldl (fun colour entry => colour.insert entry FINISHED) colour, state.2 ++ cycle.toList)

/-- mirrors crates/data/src/advancement.rs:879-918 (`cycles`), the path of each -/
def cycles : List (List ResourceId) := (registry.names.foldl registry.visit (.empty, [])).2

/-- mirrors crates/data/src/advancement.rs:842-868 (`problems`, those of one advancement) -/
def problemsOf (advancement : Advancement) : List AdvancementProblem :=
  (match advancement.parent with
    | some parent =>
      if registry.advancements.index.get? parent = none then [.missingParent advancement.name parent]
      else []
    | none => []) ++
  advancement.undefinedRequirements.map (.undefinedRequirement advancement.name) ++
  advancement.unreferencedCriteria.map (.unreferencedCriterion advancement.name) ++
  (match registry.chainOf advancement.name with
    | .tooDeep place limit => [.tooDeep place limit]
    | _ => [])

/-- mirrors crates/data/src/advancement.rs:837-873 (`problems`) -/
def problems : List AdvancementProblem :=
  (registry.duplicates.map AdvancementProblem.duplicate ++ registry.advancements.items.flatMap registry.problemsOf ++
    registry.cycles.map AdvancementProblem.cycle).toFinset.sort (· ≤ ·)

/-! ## What one walk finds -/

section
variable {registry : AdvancementRegistry} {F : ResourceId → Prop} {s : ResourceId}

/-- The colours during a walk: its path, and what was finished before it. -/
structure Walking (F : ResourceId → Prop) (colour : Colours) (path : List ResourceId) : Prop where
  onPath : ∀ x, colour.get? x = some ON_PATH ↔ x ∈ path
  finished : ∀ x, colour.get? x = some FINISHED ↔ F x
  only : ∀ x c, colour.get? x = some c → c = ON_PATH ∨ c = FINISHED
  nodup : path.Nodup

theorem Walking.step {colour : Colours} {path : List ResourceId} {node : ResourceId}
    (h : Walking F colour path) (hnode : colour.get? node = none) :
    Walking F (colour.insert node ON_PATH) (path ++ [node]) where
  onPath x := by
    rw [OrdMap.get?_insert, List.mem_append, List.mem_singleton]
    by_cases hx : node = x
    · simp [hx]
    · simp [hx, Ne.symm hx, h.onPath]
  finished x := by
    rw [OrdMap.get?_insert]
    by_cases hx : node = x
    · subst hx
      have hno : ¬F node := fun hF => by simp [(h.finished node).mpr hF] at hnode
      simp [hno, ON_PATH, FINISHED]
    · simp [hx, h.finished]
  only x c hc := by
    rw [OrdMap.get?_insert] at hc
    split at hc
    · exact .inl (Option.some.inj hc).symm
    · exact h.only x c hc
  nodup := by
    have hno : node ∉ path := fun hmem => by simp [(h.onPath node).mpr hmem] at hnode
    exact h.nodup.append (List.nodup_singleton node) (by simpa using hno)

/-- What a walk ends with: its path comes back to itself, or ends outside any new cycle. -/
structure Walked (registry : AdvancementRegistry) (F : ResourceId → Prop) (s : ResourceId)
    (colour : Colours) (path : List ResourceId) (cycle : Option (List ResourceId)) : Prop where
  walking : Walking F colour path
  chain : path.IsChain (Link registry.parentLink)
  start : path.head? = some s
  ends : (cycle = none ∧ ∀ l ∈ path.getLast?, ∀ b, Link registry.parentLink l b → F b) ∨
    ∃ pre c mid, path = pre ++ c :: mid ∧ cycle = some (c :: mid ++ [c]) ∧
      (pre ++ (c :: mid ++ [c])).IsChain (Link registry.parentLink)

theorem idxOf?_append_cons {pre mid : List ResourceId} {node : ResourceId} (h : node ∉ pre) :
    (pre ++ node :: mid).idxOf? node = some pre.length := by
  induction pre with
  | nil => simp [List.idxOf?_cons]
  | cons a pre ih =>
    rw [List.mem_cons, not_or] at h
    simp [List.idxOf?_cons, Ne.symm h.1, ih h.2]

theorem walk_spec {colour : Colours} {path : List ResourceId} {node : ResourceId}
    (h : Walking F colour path) (hchain : (path ++ [node]).IsChain (Link registry.parentLink))
    (hs : (path ++ [node]).head? = some s) (hfresh : path = [] → colour.get? node = none) :
    Walked registry F s (registry.walk colour path node).1 (registry.walk colour path node).2.1
      (registry.walk colour path node).2.2 := by
  induction colour, path, node using walk.induct registry with
  | case1 colour path node hseen =>
    -- The node is on the path: the path comes back to it.
    obtain ⟨pre, mid, rfl⟩ := List.append_of_mem ((h.onPath node).mp hseen)
    have hpre : node ∉ pre := fun hmem => List.disjoint_of_nodup_append h.nodup hmem (by simp)
    rw [walk_onPath registry hseen, idxOf?_append_cons hpre]
    refine ⟨h, hchain.left_of_append, ?_, .inr ⟨pre, node, mid, rfl, by simp, by simpa using hchain⟩⟩
    rw [List.head?_append_of_ne_nil _ (by simp)] at hs
    exact hs
  | case2 colour path node seen hseen hne =>
    have hfinished : F node := by
      rcases h.only node seen hseen with rfl | rfl
      · exact absurd rfl hne
      · exact (h.finished node).mp hseen
    have hpath : path ≠ [] := fun heq => by simp [hfresh heq] at hseen
    rw [walk_finished registry hseen hne]
    obtain ⟨hleft, -, hlast⟩ := List.isChain_append.mp hchain
    refine ⟨h, hleft, ?_, .inl ⟨rfl, fun l hl b hb => ?_⟩⟩
    · rw [List.head?_append_of_ne_nil _ hpath] at hs
      exact hs
    · rw [hb.eq (hlast l hl node rfl)]
      exact hfinished
  | case3 colour path node hnode hnext =>
    rw [walk_end registry hnode hnext]
    refine ⟨h.step hnode, hchain, hs, .inl ⟨rfl, fun l hl b hb => ?_⟩⟩
    obtain rfl : node = l := by simpa using hl
    simp [Link, hnext] at hb
  | case4 colour path node hnode next hnext ih =>
    rw [walk_next registry hnode hnext]
    refine ih (h.step hnode) ?_ ?_ (by simp)
    · refine List.isChain_append.mpr ⟨hchain, List.isChain_singleton next, fun l hl b hb => ?_⟩
      obtain rfl : node = l := by simpa using hl
      obtain rfl : next = b := by simpa using hb
      exact hnext
    · rw [List.head?_append_of_ne_nil _ (by simp)]
      exact hs

/-! ## What the walks report -/

/-- The path round a cycle from where the lowest of these starts that leads to it enters it. -/
def Reported (registry : AdvancementRegistry) (starts : List ResourceId) (p : List ResourceId) : Prop :=
  ClosedPath registry.parentLink p ∧ ∃ c s, p.head? = some c ∧ s ∈ starts ∧
    Entry registry.parentLink s c ∧
    ∀ s' ∈ starts, ReflTransGen (Link registry.parentLink) s' c → s ≤ s'

/-- What is reached from these starts. -/
def Reached (registry : AdvancementRegistry) (starts : List ResourceId) (x : ResourceId) : Prop :=
  ∃ s ∈ starts, ReflTransGen (Link registry.parentLink) s x

/-- After some starts: what they reach is finished, and the cycles there are reported. -/
structure Visited (registry : AdvancementRegistry) (starts : List ResourceId)
    (state : Colours × List (List ResourceId)) : Prop where
  finished : ∀ x, state.1.get? x = some FINISHED ↔ registry.Reached starts x
  only : ∀ x c, state.1.get? x = some c → c = FINISHED
  reported : ∀ p, p ∈ state.2 ↔ registry.Reported starts p
  nodup : state.2.Nodup

theorem reached_closed (starts : List ResourceId) :
    ∀ a, registry.Reached starts a → ∀ b, Link registry.parentLink a b → registry.Reached starts b := by
  intro a ⟨s, hs, ha⟩ b hb
  exact ⟨s, hs, ha.tail hb⟩

theorem Visited.walking {starts : List ResourceId} {state : Colours × List (List ResourceId)}
    (h : Visited registry starts state) : Walking (registry.Reached starts) state.1 [] where
  onPath x := by
    constructor
    · intro hx
      exact absurd (h.only x _ hx) (by decide)
    · intro hx
      cases hx
  finished := h.finished
  only x c hc := .inr (h.only x c hc)
  nodup := List.nodup_nil

theorem get?_finish (path : List ResourceId) (colour : Colours) (x : ResourceId) :
    (path.foldl (fun colour entry => colour.insert entry FINISHED) colour).get? x =
      if x ∈ path then some FINISHED else colour.get? x := by
  induction path generalizing colour with
  | nil => simp
  | cons entry path ih =>
    rw [List.foldl_cons, ih, OrdMap.get?_insert]
    by_cases hx : x ∈ path
    · simp [hx]
    · by_cases heq : entry = x
      · simp [heq]
      · simp [hx, heq, Ne.symm heq]

theorem reached_append {starts : List ResourceId} {x : ResourceId} :
    registry.Reached (starts ++ [s]) x ↔
      registry.Reached starts x ∨ ReflTransGen (Link registry.parentLink) s x := by
  simp only [Reached, List.mem_append, List.mem_singleton]
  constructor
  · rintro ⟨s', hs' | rfl, hx⟩
    · exact .inl ⟨s', hs', hx⟩
    · exact .inr hx
  · rintro (⟨s', hs', hx⟩ | hx)
    · exact ⟨s', .inl hs', hx⟩
    · exact ⟨s, .inr rfl, hx⟩

/-- One more start adds the cycle it leads to, if no start before it leads there. -/
theorem reported_append {starts : List ResourceId} (hlt : ∀ s' ∈ starts, s' < s)
    (p : List ResourceId) : registry.Reported (starts ++ [s]) p ↔ registry.Reported starts p ∨
      ClosedPath registry.parentLink p ∧ ∃ c, p.head? = some c ∧ Entry registry.parentLink s c ∧
        ¬registry.Reached starts c := by
  simp only [Reported, List.mem_append, List.mem_singleton]
  constructor
  · rintro ⟨hp, c, s', hc, hs' | rfl, hentry, hleast⟩
    · exact .inl ⟨hp, c, s', hc, hs', hentry, fun t ht => hleast t (.inl ht)⟩
    · refine .inr ⟨hp, c, hc, hentry, fun ⟨t, ht, hreach⟩ => ?_⟩
      exact absurd (hleast t (.inl ht) hreach) (not_le.mpr (hlt t ht))
  · rintro (⟨hp, c, s', hc, hs', hentry, hleast⟩ | ⟨hp, c, hc, hentry, hnot⟩)
    · refine ⟨hp, c, s', hc, .inl hs', hentry, ?_⟩
      rintro t (ht | rfl) hreach
      · exact hleast t ht hreach
      · exact (hlt s' hs').le
    · refine ⟨hp, c, s, hc, .inr rfl, hentry, ?_⟩
      rintro t (ht | rfl) hreach
      · exact absurd ⟨t, ht, hreach⟩ hnot
      · exact le_rfl

namespace Walked
variable {colour : Colours} {path : List ResourceId} {cycle : Option (List ResourceId)}

theorem disjoint (h : Walked registry F s colour path cycle) {x : ResourceId} (hx : x ∈ path) : ¬F x := by
  intro hF
  have hboth := ((h.walking.onPath x).mpr hx).symm.trans ((h.walking.finished x).mpr hF)
  exact absurd hboth (by decide)

/-- The path and what was finished hold all that is reached from the start. -/
theorem reaches_iff (h : Walked registry F s colour path cycle)
    (hF : ∀ a, F a → ∀ b, Link registry.parentLink a b → F b) (x : ResourceId) :
    x ∈ path ∨ F x ↔ ReflTransGen (Link registry.parentLink) s x ∨ F x := by
  obtain ⟨rest, hrest⟩ := List.head?_eq_some_iff.mp h.start
  constructor
  · rintro (hx | hx)
    · have hchain := h.chain
      rw [hrest] at hx hchain
      exact .inl (reaches_of_chain hchain hx)
    · exact .inr hx
  · rintro (hx | hx)
    · have hlast : ∀ l ∈ path.getLast?, ∀ b, Link registry.parentLink l b → b ∈ path ∨ F b := by
        intro l hl b hb
        rcases h.ends with ⟨-, hout⟩ | ⟨pre, c, mid, hpath, -, hround⟩
        · exact .inr (hout l hl b hb)
        · obtain ⟨-, -, hlink⟩ := List.isChain_append.mp (List.append_assoc .. ▸ hround)
          rw [hpath] at hl ⊢
          rw [hb.eq (hlink l (by simpa using hl) c rfl)]
          exact .inl (by simp)
      refine closed_reaches (F := fun x => x ∈ path ∨ F x) (fun a ha b hb => ?_) (.inl ?_) hx
      · rcases ha with ha | ha
        · exact closed_of_path (T := fun x => x ∈ path ∨ F x) h.chain (fun _ h => .inl h) hlast a ha b hb
        · exact .inr (hF a ha b hb)
      · rw [hrest]
        exact List.mem_cons_self
    · exact .inr hx

/-- What a walk finds is the path round the cycle its start enters, if that is a new one. -/
theorem cycle_iff (h : Walked registry F s colour path cycle)
    (hF : ∀ a, F a → ∀ b, Link registry.parentLink a b → F b) (p : List ResourceId) :
    p ∈ cycle.toList ↔ ClosedPath registry.parentLink p ∧
      ∃ c, p.head? = some c ∧ Entry registry.parentLink s c ∧ ¬F c := by
  rcases h.ends with ⟨rfl, hout⟩ | ⟨pre, c, mid, hpath, rfl, hround⟩
  · simp only [Option.toList_none, List.not_mem_nil, false_iff, not_and]
    rintro - ⟨c, -, hentry, hnot⟩
    have hmem : s ∈ path := List.mem_of_mem_head? h.start
    exact hnot (no_entry_of_path h.chain hF hout hmem hentry.reaches hentry.1)
  · have hs : (pre ++ [c]).head? = some s := by
      have hstart := h.start
      rw [hpath, List.head?_append] at hstart
      rw [List.head?_append]
      exact hstart
    obtain ⟨hclosed, hentry⟩ := entry_of_path hround (hpath ▸ h.walking.nodup) hs
    simp only [Option.toList_some, List.mem_singleton]
    constructor
    · rintro rfl
      exact ⟨hclosed, c, rfl, hentry, h.disjoint (by rw [hpath]; simp)⟩
    · intro ⟨hp, c', hc', hentry', _⟩
      obtain rfl := hentry.eq hentry'
      exact hp.ext hclosed hc'

end Walked

theorem visited_visit {starts : List ResourceId} {state : Colours × List (List ResourceId)}
    (h : Visited registry starts state) (hlt : ∀ s' ∈ starts, s' < s) :
    Visited registry (starts ++ [s]) (registry.visit state s) := by
  have hclosed := registry.reached_closed starts
  by_cases hseen : (state.1.get? s).isSome
  · obtain ⟨c, hc⟩ := Option.isSome_iff_exists.mp hseen
    have hs : registry.Reached starts s := (h.finished s).mp (h.only s c hc ▸ hc)
    rw [visit, if_pos hseen]
    have hreached : ∀ x, registry.Reached (starts ++ [s]) x ↔ registry.Reached starts x := by
      intro x
      rw [reached_append]
      exact or_iff_left_of_imp fun hx => closed_reaches hclosed hs hx
    refine ⟨fun x => (h.finished x).trans (hreached x).symm, h.only, fun p => ?_, h.nodup⟩
    rw [reported_append hlt, h.reported]
    refine (or_iff_left_of_imp ?_).symm
    intro ⟨_, c, _, hentry, hnot⟩
    exact absurd (closed_reaches hclosed hs hentry.reaches) hnot
  · have hnone : state.1.get? s = none := by simpa using hseen
    have hwalk := @walk_spec registry _ _ _ _ s h.walking (by simp) rfl (fun _ => hnone)
    rw [visit, if_neg hseen]
    generalize registry.walk state.1 [] s = result at hwalk
    obtain ⟨colour, path, cycle⟩ := result
    dsimp only at hwalk ⊢
    have hget := get?_finish path colour
    have hreach := hwalk.reaches_iff hclosed
    refine ⟨fun x => ?_, fun x c hc => ?_, fun p => ?_, ?_⟩
    · rw [hget, reached_append, or_comm, ← hreach]
      by_cases hx : x ∈ path
      · simp [hx]
      · simp [hx, hwalk.walking.finished]
    · rw [hget] at hc
      split at hc
      · exact (Option.some.inj hc).symm
      · next hx =>
        rcases hwalk.walking.only x c hc with rfl | rfl
        · exact absurd ((hwalk.walking.onPath x).mp hc) hx
        · rfl
    · rw [List.mem_append, h.reported, hwalk.cycle_iff hclosed, reported_append hlt]
    · refine h.nodup.append ?_ fun p hp hcycle => ?_
      · cases cycle <;> simp
      · obtain ⟨-, c, hc, -, hnot⟩ := (hwalk.cycle_iff hclosed p).mp hcycle
        obtain ⟨-, c', s', hc', hs', hentry, -⟩ := (h.reported p).mp hp
        obtain rfl : c' = c := Option.some.inj (hc'.symm.trans hc)
        exact hnot ⟨s', hs', hentry.reaches⟩

theorem visited_foldl {names starts : List ResourceId} {state : Colours × List (List ResourceId)}
    (h : Visited registry starts state) (hasc : (starts ++ names).Pairwise (· < ·)) :
    Visited registry (starts ++ names) (names.foldl registry.visit state) := by
  induction names generalizing starts state with
  | nil => simpa using h
  | cons s names ih =>
    have hlt : ∀ s' ∈ starts, s' < s := by
      intro s' hs'
      exact (List.pairwise_append.mp hasc).2.2 s' hs' s (.head _)
    rw [List.foldl_cons, List.append_cons]
    exact ih (visited_visit h hlt) (List.append_cons .. ▸ hasc)

theorem mem_names {name : ResourceId} : name ∈ registry.names ↔ (registry.byName name).isSome := by
  rw [byName, ← Named.index_isSome, names, List.mem_map, Option.isSome_iff_exists]
  constructor
  · rintro ⟨⟨k, i⟩, hmem, rfl⟩
    exact ⟨i, OrdMap.mem_entries.mp hmem⟩
  · intro ⟨i, hi⟩
    exact ⟨(name, i), OrdMap.mem_entries.mpr hi, rfl⟩

theorem names_ascending : registry.names.Pairwise (· < ·) :=
  List.pairwise_map.mpr registry.advancements.index.sorted

theorem visited_names : Visited registry registry.names (registry.names.foldl registry.visit (.empty, [])) := by
  have hnone : Visited registry [] ((.empty, []) : Colours × List (List ResourceId)) := by
    refine ⟨fun x => ?_, fun x c hc => ?_, fun p => ?_, List.nodup_nil⟩
    · simp [Reached]
    · simp at hc
    · simp [Reported]
  exact visited_foldl hnone (@names_ascending registry)

/-- Each cycle is reported from the place where the lowest name that leads to it enters it. -/
theorem mem_cycles {p : List ResourceId} :
    p ∈ registry.cycles ↔ registry.Reported registry.names p :=
  visited_names.reported p

theorem nodup_cycles : registry.cycles.Nodup := visited_names.nodup

/-! ## When that is the lowest name of the cycle -/

/-- The path starts, and so ends, at its lowest name. -/
def FromLowest (p : List ResourceId) : Prop := ∀ c ∈ p.head?, ∀ a ∈ p, c ≤ a

/-- Each simple cycle once, from its lowest name, and nothing else. -/
structure CyclesExact (registry : AdvancementRegistry) : Prop where
  nodup : registry.cycles.Nodup
  mem_iff : ∀ p, p ∈ registry.cycles ↔ ClosedPath registry.parentLink p ∧ FromLowest p

/-- The lowest name that leads to a cycle enters it at the lowest name of the cycle. -/
def EntersLowest (registry : AdvancementRegistry) : Prop :=
  ∀ s c, s ∈ registry.names → Entry registry.parentLink s c →
    (∀ s' ∈ registry.names, ReflTransGen (Link registry.parentLink) s' c → s ≤ s') →
      ∀ a, ReflTransGen (Link registry.parentLink) c a → c ≤ a

theorem mem_names_of_onCycle {c : ResourceId} (h : OnCycle registry.parentLink c) :
    c ∈ registry.names := by
  obtain ⟨b, hb, -⟩ := TransGen.head'_iff.mp h
  obtain ⟨advancement, hfound, -⟩ := Option.bind_eq_some_iff.mp hb
  exact mem_names.mpr (Option.isSome_iff_exists.mpr ⟨advancement, hfound⟩)

/-- The lowest name that leads to a cycle. -/
theorem exists_lowest {c : ResourceId} (h : OnCycle registry.parentLink c) :
    ∃ s ∈ registry.names, ReflTransGen (Link registry.parentLink) s c ∧
      ∀ s' ∈ registry.names, ReflTransGen (Link registry.parentLink) s' c → s ≤ s' := by
  classical
  let leading := registry.names.toFinset.filter fun s => ReflTransGen (Link registry.parentLink) s c
  have hne : leading.Nonempty := ⟨c, by simp [leading, mem_names_of_onCycle h, ReflTransGen.refl]⟩
  obtain ⟨hs, hreach⟩ := Finset.mem_filter.mp (leading.min'_mem hne)
  refine ⟨leading.min' hne, List.mem_toFinset.mp hs, hreach, fun s' hs' hreach' => ?_⟩
  exact leading.min'_le s' (Finset.mem_filter.mpr ⟨List.mem_toFinset.mpr hs', hreach'⟩)

theorem cyclesExact_iff : registry.CyclesExact ↔ registry.EntersLowest := by
  constructor
  · intro h s c hs hentry hleast a ha
    obtain ⟨p, hp, hc⟩ := exists_closedPath hentry.1
    have hmem : p ∈ registry.cycles := mem_cycles.mpr ⟨hp, c, s, hc, hs, hentry, hleast⟩
    exact ((h.mem_iff p).mp hmem).2 c hc a ((hp.mem_iff hc).mpr ha)
  · intro h
    refine ⟨nodup_cycles, fun p => ?_⟩
    rw [mem_cycles]
    constructor
    · intro ⟨hp, c, s, hc, hs, hentry, hleast⟩
      refine ⟨hp, fun c' hc' a ha => ?_⟩
      obtain rfl : c = c' := Option.some.inj (hc.symm.trans hc')
      exact h s c hs hentry hleast a ((hp.mem_iff hc).mp ha)
    · intro ⟨hp, hlowest⟩
      obtain ⟨c, mid, hpath, -⟩ := id hp
      have hc : p.head? = some c := by rw [hpath]; rfl
      have hon := hp.onCycle hc
      obtain ⟨s, hs, hreach, hleast⟩ := exists_lowest hon
      obtain ⟨e, hentry, hce⟩ := exists_entry hon hreach
      -- the cycle is entered at its lowest name, and that is where the path starts
      have hback := (hon.back hce).2
      have hleast' : ∀ s' ∈ registry.names, ReflTransGen (Link registry.parentLink) s' e → s ≤ s' :=
        fun s' hs' hreach' => hleast s' hs' (hreach'.trans hback)
      have hle : e ≤ c := h s e hs hentry hleast' c hback
      have hge : c ≤ e := hlowest c hc e ((hp.mem_iff hc).mpr hce)
      obtain rfl : e = c := le_antisymm hle hge
      exact ⟨hp, e, s, hc, hs, hentry, hleast⟩

end

/-! ## What the order of insertion leaves alone -/

section
variable {registry registry' : AdvancementRegistry}

/-- The same advancements by name. -/
def Alike (registry registry' : AdvancementRegistry) : Prop :=
  ∀ name, registry.byName name = registry'.byName name

theorem Alike.parentLink (h : Alike registry registry') : registry.parentLink = registry'.parentLink := by
  funext name
  rw [AdvancementRegistry.parentLink, AdvancementRegistry.parentLink, h]

theorem Alike.names (h : Alike registry registry') : registry.names = registry'.names := by
  refine names_ascending.eq_of_mem_iff names_ascending fun name => ?_
  rw [mem_names, mem_names, h]

theorem Alike.walk (h : Alike registry registry') (colour : Colours) (path : List ResourceId)
    (node : ResourceId) : registry.walk colour path node = registry'.walk colour path node := by
  induction colour, path, node using walk.induct registry with
  | case1 colour path node hseen => rw [walk_onPath registry hseen, walk_onPath registry' hseen]
  | case2 colour path node seen hseen hne =>
    rw [walk_finished registry hseen hne, walk_finished registry' hseen hne]
  | case3 colour path node hnode hnext =>
    rw [walk_end registry hnode hnext, walk_end registry' hnode (h.parentLink ▸ hnext)]
  | case4 colour path node hnode next hnext ih =>
    rw [walk_next registry hnode hnext, walk_next registry' hnode (h.parentLink ▸ hnext), ih]

theorem Alike.cycles (h : Alike registry registry') : registry.cycles = registry'.cycles := by
  have hvisit : registry.visit = registry'.visit := by
    funext state start
    rw [visit, visit, h.walk]
  rw [AdvancementRegistry.cycles, AdvancementRegistry.cycles, h.names, hvisit]

theorem Alike.chainFrom (h : Alike registry registry') (room : Nat) (seen : List ResourceId)
    (current : Advancement) : registry.chainFrom room seen current = registry'.chainFrom room seen current := by
  induction room generalizing seen current with
  | zero => rw [AdvancementRegistry.chainFrom, AdvancementRegistry.chainFrom]
  | succ room ih =>
    rw [AdvancementRegistry.chainFrom, AdvancementRegistry.chainFrom]
    simp only [h _, ih]

theorem Alike.problemsOf (h : Alike registry registry') (advancement : Advancement) :
    registry.problemsOf advancement = registry'.problemsOf advancement := by
  have hnone : ∀ name, registry.advancements.index.get? name = none ↔
      registry'.advancements.index.get? name = none := by
    intro name
    have hsome : (registry.advancements.index.get? name).isSome =
        (registry'.advancements.index.get? name).isSome := by
      rw [Named.index_isSome, Named.index_isSome]
      exact congrArg _ (h name)
    rw [← Option.not_isSome_iff_eq_none, hsome, Option.not_isSome_iff_eq_none]
  simp only [AdvancementRegistry.problemsOf, AdvancementRegistry.chainOf, h _, h.chainFrom, hnone]

theorem insert_fresh {advancement : Advancement} (h : registry.byName advancement.name = none) :
    (registry.insert advancement).duplicates = registry.duplicates ∧
      ∀ a, a ∈ (registry.insert advancement).advancements.items ↔
        a = advancement ∨ a ∈ registry.advancements.items := by
  have hindex : ¬(registry.advancements.index.get? advancement.name).isSome := by
    rw [Named.index_isSome]
    exact Bool.eq_false_iff.mp (congrArg Option.isSome h)
  refine ⟨if_neg fun hboth => hindex hboth.1, fun a => ?_⟩
  rw [insert, Named.mem_items_insert]
  refine or_congr_right (and_iff_left_of_imp fun ha => ?_)
  exact Named.get?_eq_none.mp h a ha

theorem insertAll_spec {advancements : List Advancement}
    (h : (advancements.map Advancement.name).Nodup)
    (hfresh : ∀ a ∈ advancements, registry.byName a.name = none) :
    (registry.insertAll advancements).duplicates = registry.duplicates ∧
      ∀ a, a ∈ (registry.insertAll advancements).advancements.items ↔
        a ∈ advancements ∨ a ∈ registry.advancements.items := by
  induction advancements generalizing registry with
  | nil => simp [insertAll]
  | cons advancement advancements ih =>
    obtain ⟨hhead, htail⟩ := List.nodup_cons.mp h
    obtain ⟨hdup, hitems⟩ := insert_fresh (hfresh advancement (.head _))
    have hfresh' : ∀ a ∈ advancements, (registry.insert advancement).byName a.name = none := by
      intro a ha
      have hne : advancement.name ≠ a.name := fun heq => hhead (heq ▸ List.mem_map_of_mem ha)
      rw [byName, insert, Named.get?_insert, if_neg hne]
      exact hfresh a (.tail _ ha)
    obtain ⟨hdup', hitems'⟩ := ih htail hfresh'
    rw [insertAll, List.foldl_cons]
    refine ⟨hdup'.trans hdup, fun a => (hitems' a).trans ?_⟩
    rw [hitems, List.mem_cons]
    tauto

theorem mem_insertAll_new {advancements : List Advancement}
    (h : (advancements.map Advancement.name).Nodup) :
    (new.insertAll advancements).duplicates = [] ∧
      ∀ a, a ∈ (new.insertAll advancements).advancements.items ↔ a ∈ advancements := by
  obtain ⟨hdup, hitems⟩ := @insertAll_spec new _ h fun _ _ => rfl
  refine ⟨hdup, fun a => (hitems a).trans (or_iff_left_of_imp fun hmem => ?_)⟩
  cases hmem

theorem alike_of_perm {advancements advancements' : List Advancement}
    (hperm : advancements'.Perm advancements) (h : (advancements.map Advancement.name).Nodup) :
    Alike (new.insertAll advancements') (new.insertAll advancements) := by
  have h' : (advancements'.map Advancement.name).Nodup := (hperm.map _).nodup_iff.mpr h
  intro name
  refine Option.ext fun a => ?_
  rw [byName, byName, Named.get?_eq_some, Named.get?_eq_some, (mem_insertAll_new h).2,
    (mem_insertAll_new h').2, hperm.mem_iff]

theorem problems_of_perm {advancements advancements' : List Advancement}
    (hperm : advancements'.Perm advancements) (h : (advancements.map Advancement.name).Nodup) :
    (new.insertAll advancements').problems = (new.insertAll advancements).problems := by
  have h' : (advancements'.map Advancement.name).Nodup := (hperm.map _).nodup_iff.mpr h
  have halike := alike_of_perm hperm h
  obtain ⟨hdup, hitems⟩ := mem_insertAll_new h
  obtain ⟨hdup', hitems'⟩ := mem_insertAll_new h'
  unfold problems
  congr 1
  ext problem
  simp only [List.mem_toFinset, List.mem_append, List.mem_flatMap, hdup, hdup', hitems, hitems',
    hperm.mem_iff, halike.problemsOf, halike.cycles]

/-- The report on cycles, and the whole report, whatever order the advancements come in. -/
structure Reports (advancements : List Advancement) : Prop where
  exact : (new.insertAll advancements).CyclesExact
  cycles : ∀ advancements', advancements'.Perm advancements →
    (new.insertAll advancements').cycles = (new.insertAll advancements).cycles
  problems : ∀ advancements', advancements'.Perm advancements →
    (new.insertAll advancements').problems = (new.insertAll advancements).problems

/-- The report on cycles is exact when every cycle is entered at its lowest name. -/
theorem reports_iff {advancements : List Advancement} (h : (advancements.map Advancement.name).Nodup) :
    Reports advancements ↔ (new.insertAll advancements).EntersLowest := by
  rw [← cyclesExact_iff]
  constructor
  · exact Reports.exact
  · intro hexact
    exact ⟨hexact, fun _ hperm => (alike_of_perm hperm h).cycles, fun _ hperm => problems_of_perm hperm h⟩

end

/-! ## Two advancements, and three -/

theorem link_insertAll {advancements : List Advancement} (h : (advancements.map Advancement.name).Nodup)
    {x y : ResourceId} : Link (new.insertAll advancements).parentLink x y ↔
      ∃ a ∈ advancements, a.name = x ∧ a.parent = some y := by
  rw [Link, parentLink, Option.bind_eq_some_iff]
  simp only [byName, Named.get?_eq_some, (mem_insertAll_new h).2, and_assoc]

theorem mem_names_insertAll {advancements : List Advancement}
    (h : (advancements.map Advancement.name).Nodup) {x : ResourceId} :
    x ∈ (new.insertAll advancements).names ↔ ∃ a ∈ advancements, a.name = x := by
  rw [mem_names, Option.isSome_iff_exists]
  simp only [byName, Named.get?_eq_some, (mem_insertAll_new h).2]

def idOf (value : String) : ResourceId := ⟨"test", value⟩

/-- An advancement with this parent. -/
def under (name parent : String) : Advancement := ⟨idOf name, some (idOf parent), [], []⟩

/-- Each the parent of the other. -/
def pair : List Advancement := [under "b" "a", under "a" "b"]

/-- A cycle of two, and one below that comes before both and leads to the higher of them. -/
def crossed : List Advancement := [under "c" "b", under "b" "c", under "a" "c"]

theorem pair_reports : Reports pair := by
  have hnodup : (pair.map Advancement.name).Nodup := by decide
  refine (reports_iff hnodup).mpr fun s c hs hentry hleast a ha => ?_
  have hlowest : ∀ x ∈ (new.insertAll pair).names, idOf "a" ≤ x := by
    intro x hx
    obtain ⟨b, hb, rfl⟩ := (mem_names_insertAll hnodup).mp hx
    have hall : ∀ b ∈ pair, idOf "a" ≤ b.name := by decide +kernel
    exact hall b hb
  have hab : Link (new.insertAll pair).parentLink (idOf "a") (idOf "b") :=
    (link_insertAll hnodup).mpr ⟨under "a" "b", by simp [pair], rfl, rfl⟩
  have hba : Link (new.insertAll pair).parentLink (idOf "b") (idOf "a") :=
    (link_insertAll hnodup).mpr ⟨under "b" "a", by simp [pair], rfl, rfl⟩
  have hon : OnCycle (new.insertAll pair).parentLink (idOf "a") := .head hab (.single hba)
  have hreach : ∀ x ∈ (new.insertAll pair).names,
      ReflTransGen (Link (new.insertAll pair).parentLink) (idOf "a") x := by
    intro x hx
    obtain ⟨b, hb, rfl⟩ := (mem_names_insertAll hnodup).mp hx
    rcases List.mem_pair.mp hb with rfl | rfl
    · exact .single hab
    · exact .refl
  obtain rfl : s = idOf "a" := by
    refine le_antisymm (hleast _ ?_ (hreach c (mem_names_of_onCycle hentry.1))) (hlowest s hs)
    exact mem_names_of_onCycle hon
  obtain rfl := hentry.eq ⟨hon, .refl⟩
  exact hlowest a (mem_names_of_onCycle (hon.back ha).1)

theorem crossed_misreported : ¬Reports crossed := by
  have hnodup : (crossed.map Advancement.name).Nodup := by decide
  intro h
  have hlink : ∀ b ∈ crossed, ∀ y, b.parent = some y →
      Link (new.insertAll crossed).parentLink b.name y :=
    fun b hb y hy => (link_insertAll hnodup).mpr ⟨b, hb, rfl, hy⟩
  have hcb := hlink (under "c" "b") (by simp [crossed]) _ rfl
  have hbc := hlink (under "b" "c") (by simp [crossed]) _ rfl
  have hac := hlink (under "a" "c") (by simp [crossed]) _ rfl
  have hon : OnCycle (new.insertAll crossed).parentLink (idOf "c") := .head hcb (.single hbc)
  have hoff : ¬OnCycle (new.insertAll crossed).parentLink (idOf "a") := by
    intro hcycle
    obtain ⟨x, -, hx⟩ := TransGen.tail'_iff.mp hcycle
    obtain ⟨b, hb, -, hparent⟩ := (link_insertAll hnodup).mp hx
    have hall : ∀ b ∈ crossed, b.parent ≠ some (idOf "a") := by decide
    exact hall b hb hparent
  have hlowest : ∀ s' ∈ (new.insertAll crossed).names, idOf "a" ≤ s' := by
    intro x hx
    obtain ⟨b, hb, rfl⟩ := (mem_names_insertAll hnodup).mp hx
    have hall : ∀ b ∈ crossed, idOf "a" ≤ b.name := by decide +kernel
    exact hall b hb
  have hle := cyclesExact_iff.mp h.exact (idOf "a") (idOf "c")
    ((mem_names_insertAll hnodup).mpr ⟨under "a" "c", by simp [crossed], rfl⟩)
    ⟨hon, .single ⟨hac, hoff⟩⟩ (fun s' hs' _ => hlowest s' hs') (idOf "b") (.single hcb)
  exact absurd hle (by decide +kernel)

end AdvancementRegistry

end Apoptosis.L2.Advancements
