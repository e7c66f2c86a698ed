import Apoptosis.L2Data.TagClosure
/-!
# Where the depth limit loses ids

A tag within the depth limit should resolve to its closure whatever else is
declared. A visit that comes to it from a longer chain keeps what it found there.

* `resolves_closure_iff_nothing_cut`: the resolution means the closure exactly when every id of
  such a tag is held along references the walk does not cut.
* `resolve_all_truncates`: a chain one longer than the limit empties the tags along it.
-/
namespace Apoptosis.L2.Data

open Apoptosis.Core Relation
open Apoptosis.L2.Storage (ResourceId)

variable {ordered : List (TagKey × TagValue)} {key target : TagKey}

/-- What tag resolution promises. -/
structure ResolvesClosure (ordered : List (TagKey × TagValue)) (contents : RegistryContents)
    (report : TagLoadReport) : Prop where
  closure : ∀ key, Declared ordered key → WithinLimit ordered key →
    ∃ ids, (resolveAll ordered contents report).1.get? key = some ids ∧
      ∀ id, id ∈ ids ↔ ∃ target, ReflTransGen (References ordered) key target ∧
        Holds ordered contents target id
  cycles : ∀ key, TransGen (References ordered) key key →
    Guarded ordered report.problems.length (resolveAll ordered contents report).2.problems key

/-- No id of a tag within the limit lies only beyond references that the walk cuts. -/
def NothingCut (ordered : List (TagKey × TagValue)) (contents : RegistryContents) : Prop :=
  ∀ key, Declared ordered key → WithinLimit ordered key →
    ∀ target, ReflTransGen (References ordered) key target →
      ∀ id, Holds ordered contents target id → KeptHolds ordered contents (walk ordered) key id

theorem WithinLimit.bounded (h : WithinLimit ordered key) : Bounded ordered key :=
  ⟨MAX_TAG_DEPTH, within_iff.mpr h.short⟩

theorem References.declared (h : References ordered key target) : Declared ordered target := by
  simpa using (List.mem_filter.mp h).2

theorem KeptHolds.reaches {contents : RegistryContents} {whole : List (TagKey × Nat)}
    {id : ResourceId} (h : KeptHolds ordered contents whole key id) :
    ∃ target, ReflTransGen (References ordered) key target ∧ Holds ordered contents target id := by
  obtain ⟨target, hreach, hholds⟩ := h
  exact ⟨target, ReflTransGen.mono (fun _ _ hkept => hkept.1) _ _ hreach, hholds⟩

theorem resolveAll_guarded (contents : RegistryContents) (report : TagLoadReport)
    (hcycle : TransGen (References ordered) key key) :
    Guarded ordered report.problems.length (resolveAll ordered contents report).2.problems key := by
  obtain ⟨last, -, hlast⟩ := TransGen.tail'_iff.mp hcycle
  obtain ⟨ids, -, -, hguarded⟩ := resolveAll_spec contents report hlast.declared
  refine hguarded.resolve_left fun hbounded => ?_
  obtain ⟨n, hn⟩ := hbounded
  exact hn.acyclic hcycle

/-- Resolution keeps its promise exactly when nothing is cut. -/
theorem resolves_closure_iff_nothing_cut (ordered : List (TagKey × TagValue))
    (contents : RegistryContents) (report : TagLoadReport) :
    ResolvesClosure ordered contents report ↔ NothingCut ordered contents := by
  constructor
  · intro h key hdeclared hlimit target hreach id hholds
    obtain ⟨ids, hget, hclosure⟩ := h.closure key hdeclared hlimit
    obtain ⟨ids', hget', hkept, -⟩ := resolveAll_spec contents report hdeclared
    obtain rfl : ids = ids' := Option.some.inj (hget.symm.trans hget')
    exact (hkept hlimit.bounded id).mp ((hclosure id).mpr ⟨target, hreach, hholds⟩)
  · intro h
    refine ⟨fun key hdeclared hlimit => ?_, fun key => resolveAll_guarded contents report⟩
    obtain ⟨ids, hget, hkept, -⟩ := resolveAll_spec contents report hdeclared
    refine ⟨ids, hget, fun id => (hkept hlimit.bounded id).trans ⟨KeptHolds.reaches, ?_⟩⟩
    intro hreach
    obtain ⟨target, hreach, hholds⟩ := hreach
    exact h key hdeclared hlimit target hreach id hholds

/-! ## A chain one longer than the limit -/

namespace Chain

def link (i : Nat) : TagKey :=
  ⟨"item", ⟨"minecraft", String.ofList (List.replicate (i + 1) 'a')⟩⟩

def stick : ResourceId := ⟨"minecraft", "stick"⟩

/-- Each tag names the next; the last one lists the id. -/
def file (i : Nat) : TagKey × TagValue :=
  (link i, { entries := if i ≤ MAX_TAG_DEPTH then [.tag (link (i + 1))] else [.id stick] })

def files : List (TagKey × TagValue) := (List.range (MAX_TAG_DEPTH + 2)).map file

theorem replicate_lt (c : Char) {i j : Nat} (h : i < j) : List.replicate i c < List.replicate j c := by
  induction i generalizing j with
  | zero =>
    obtain ⟨j, rfl⟩ := Nat.exists_eq_add_of_lt h
    rw [Nat.zero_add, List.replicate_succ]
    exact List.nil_lt_cons _ _
  | succ i ih =>
    obtain ⟨j, rfl⟩ : ∃ k, j = k + 1 := ⟨j - 1, by omega⟩
    rw [List.replicate_succ, List.replicate_succ, List.cons_lt_cons_iff]
    exact .inr ⟨rfl, ih (by omega)⟩

theorem link_lt {i j : Nat} (h : i < j) : link i < link j := by
  have hvalue : (link i).name.value < (link j).name.value := by
    rw [String.lt_iff]
    simpa only [link, String.toList_ofList] using replicate_lt 'a' (Nat.succ_lt_succ h)
  refine Prod.Lex.toLex_lt_toLex.mpr (.inr ⟨rfl, Prod.Lex.toLex_lt_toLex.mpr (.inr ⟨rfl, hvalue⟩)⟩)

theorem link_injective : Function.Injective link :=
  StrictMono.injective fun _ _ h => link_lt h

theorem keys_files : files.map Prod.fst = (List.range (MAX_TAG_DEPTH + 2)).map link := by
  simp only [files, List.map_map]
  rfl

theorem ascending_files : (files.map Prod.fst).Pairwise (· < ·) := by
  rw [keys_files]
  exact List.pairwise_map.mpr (List.pairwise_lt_range.imp link_lt)

theorem declared_iff {i : Nat} : Declared files (link i) ↔ i ≤ MAX_TAG_DEPTH + 1 := by
  rw [Declared, keys_files, List.mem_map_of_injective link_injective, List.mem_range]
  omega

theorem entries_link {i : Nat} (h : i ≤ MAX_TAG_DEPTH + 1) :
    fileEntries files (link i) = (file i).2.entries := by
  have hmem : file i ∈ files := List.mem_map_of_mem (List.mem_range.mpr (by omega))
  obtain ⟨before, after, hsplit⟩ := List.append_of_mem hmem
  have hnodup := ascending_files.imp ne_of_lt
  rw [hsplit, List.map_append, List.map_cons] at hnodup
  rw [hsplit]
  exact fileEntries_once hnodup

theorem targets_link {i : Nat} (h : i ≤ MAX_TAG_DEPTH) : targets files (link i) = [link (i + 1)] := by
  rw [targets, entries_link (by omega), file, if_pos h, targetsIn_tag rfl,
    if_pos (declared_iff.mpr (by omega))]

theorem targets_last : targets files (link (MAX_TAG_DEPTH + 1)) = [] := by
  rw [targets, entries_link le_rfl, file, if_neg (by omega)]
  rfl

/-- The visit that comes down the chain has no room left at its last but one tag. -/
theorem tour_link {i room : Nat} (h : i + room = MAX_TAG_DEPTH) {seen : List (TagKey × Nat)}
    (hnew : ∀ j, i ≤ j → link j ∉ entered self seen) :
    ∃ before, before ++ [(link MAX_TAG_DEPTH, 0)] <+: tour self (targets files) (room + 1) (link i) seen ∧
      link (MAX_TAG_DEPTH + 1) ∉ entered self before := by
  induction room generalizing i seen with
  | zero =>
    obtain rfl : i = MAX_TAG_DEPTH := h
    refine ⟨seen, ?_, hnew _ (Nat.le_succ _)⟩
    rw [tour_succ (hnew _ le_rfl)]
    exact prefix_foldl_tour _
  | succ room ih =>
    rw [tour_succ (hnew i le_rfl), targets_link (by omega), List.foldl_cons, List.foldl_nil]
    refine ih (by omega) fun j hj => ?_
    have hne : link j ≠ link i := fun heq => by
      have := link_injective heq
      omega
    simpa [hne] using hnew j (by omega)

theorem cut_last : Cut self (walk files) (link MAX_TAG_DEPTH) (link (MAX_TAG_DEPTH + 1)) := by
  have hkeys : (files.map Prod.fst).toFinset.sort (· ≤ ·) =
      link 0 :: (List.range (MAX_TAG_DEPTH + 1)).map (fun i => link (i + 1)) := by
    rw [(List.toFinset_sort _ (ascending_files.imp ne_of_lt)).mpr (ascending_files.imp le_of_lt),
      keys_files, List.range_succ_eq_map, List.map_cons, List.map_map]
    rfl
  obtain ⟨before, hpre, hlast⟩ := @tour_link 0 MAX_TAG_DEPTH (Nat.zero_add _) [] (by simp)
  have hwalk : before ++ [(link MAX_TAG_DEPTH, 0)] <+: walk files := by
    rw [walk, hkeys, tourAll_cons]
    exact hpre.trans (prefix_foldl_tour _)
  exact (cut_iff (nodup_tourAll _) hwalk).mpr ⟨rfl, hlast⟩

end Chain

open Chain in
/-- The last but one tag of the chain names the last one, and resolves to nothing. -/
theorem resolve_all_truncates : ¬ ResolvesClosure files ⟨.empty⟩ {} := by
  intro h
  have href : References files (link MAX_TAG_DEPTH) (link (MAX_TAG_DEPTH + 1)) := by
    rw [References, targets_link le_rfl]
    exact List.mem_singleton_self _
  have hlast : Within (References files) 1 (link MAX_TAG_DEPTH) := by
    intro target htarget next hnext
    rw [References, targets_link le_rfl, List.mem_singleton] at htarget
    subst htarget
    simp [References, targets_last] at hnext
  have hlimit : WithinLimit files (link MAX_TAG_DEPTH) :=
    ⟨fun target hreach => (hlast.reaches hreach).acyclic,
      fun n target hsteps => (within_iff.mp hlast n target hsteps).trans (by decide)⟩
  have hholds : Holds files ⟨.empty⟩ (link (MAX_TAG_DEPTH + 1)) stick := by
    refine ⟨⟨.id stick, ?_, rfl⟩, nofun⟩
    rw [entries_link le_rfl, file, if_neg (by omega)]
    exact List.mem_singleton_self _
  have hdeclared : Declared files (link MAX_TAG_DEPTH) := declared_iff.mpr (Nat.le_succ _)
  obtain ⟨ids, hget, hclosure⟩ := h.closure _ hdeclared hlimit
  obtain ⟨ids', hget', hkept, -⟩ := resolveAll_spec ⟨.empty⟩ {} hdeclared
  obtain rfl : ids = ids' := Option.some.inj (hget.symm.trans hget')
  have hstick := (hkept hlimit.bounded stick).mp ((hclosure stick).mpr ⟨_, .single href, hholds⟩)
  obtain ⟨⟨entry, hentry, hid⟩, -⟩ | ⟨target, htarget, hcut, -⟩ := keptHolds_iff.mp hstick
  · rw [entries_link (Nat.le_succ _), file, if_pos le_rfl] at hentry
    rw [List.mem_singleton.mp hentry] at hid
    cases hid
  · rw [targets_link le_rfl, List.mem_singleton] at htarget
    exact hcut (htarget ▸ cut_last)

end Apoptosis.L2.Data
