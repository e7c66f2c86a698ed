import Apoptosis.Core.Breadth
import Apoptosis.L2World.LightSpread
import Apoptosis.L2World.Collision
import Mathlib.Data.ENat.Lattice
/-!
# How far a leaf is from a log (`server/src/game/growth.rs`)

A search from every log in the cube around a leaf, through leaves, with a
cut-off at seven steps. Nothing bounds it to the cube.

* `reach_of_leafPath`: a path of seven steps at most starts at a log of the cube.
* `leafSupportDistance_spec`: the search ends, and gives the distance cut at seven.
* `Decayed.support_eq`: leaves that go without support take it from no other leaf.
-/
namespace Apoptosis.L2.Worldgen
open Apoptosis.Core Apoptosis.L2.Registry Apoptosis.L2.Terrain

def LEAF_DECAY_DISTANCE : Nat := 7
def LEAF_SUPPORT_RADIUS : Int := 7

/-- mirrors crates/server/src/game/growth.rs:120-127 (`LEAF_STEPS`) -/
def LEAF_STEPS : List Cell :=
  [(1, 0, 0), (-1, 0, 0), (0, 1, 0), (0, -1, 0), (0, 0, 1), (0, 0, -1)]

/-- mirrors crates/server/src/game/growth.rs:823-835 (`cell_kind`): a log, leaves, or anything else -/
def cellKind (w : World) (c : Cell) : Option Bool := do
  let id ← w.getBlockLoaded c.1 c.2.1 c.2.2
  let name ← w.registry.blockName id
  if "_log".toList.isSuffixOf name then some true
  else if "_leaves".toList.isSuffixOf name then some false
  else none

def neighbours (c : Cell) : List Cell :=
  LEAF_STEPS.map fun step => (c.1 + step.1, c.2.1 + step.2.1, c.2.2 + step.2.2)

/-- The logs of the cube, in the order of the loops. -/
def logsAround (kind : Cell → Option Bool) (c : Cell) : List Cell :=
  let offsets := span (-LEAF_SUPPORT_RADIUS) (LEAF_SUPPORT_RADIUS + 1)
  (offsets.flatMap fun dx => offsets.flatMap fun dy => offsets.map fun dz =>
    (c.1 + dx, c.2.1 + dy, c.2.2 + dz)).filter fun cell => kind cell = some true

/-- mirrors crates/server/src/game/growth.rs:820-872 (`leaf_support_distance`); `none` where the
search does not end in the turns that it may need at most -/
def leafSupportDistance (kind : Cell → Option Bool) (c : Cell) : Option Nat :=
  let logs := logsAround kind c
  (Breadth.search (fun next => kind next = some false) neighbours LEAF_DECAY_DISTANCE
    (logs.length * 7 ^ 8) (Breadth.start logs)).map fun s =>
      (s.distance c).getD LEAF_DECAY_DISTANCE

/-! ## Paths to a log -/

/-- A path of so many steps over faces, through leaves, to a log. -/
inductive LeafPath (kind : Cell → Option Bool) : Nat → Cell → Prop
  | log {c : Cell} : kind c = some true → LeafPath kind 0 c
  | leaf {n : Nat} {c b : Cell} : kind c = some false → Region.FaceAdjacent c b →
      LeafPath kind n b → LeafPath kind (n + 1) c

/-- The length of the shortest path, infinite if there is none. -/
noncomputable def support (kind : Cell → Option Bool) (c : Cell) : ℕ∞ :=
  ⨅ (n : Nat) (_ : LeafPath kind n c), (n : ℕ∞)

variable {kind kind' kind'' : Cell → Option Bool} {a b c : Cell} {n : Nat}

theorem support_le_of_path (h : LeafPath kind n c) : support kind c ≤ n := iInf₂_le n h

theorem support_le_iff : support kind c ≤ n ↔ ∃ m ≤ n, LeafPath kind m c := by
  constructor
  · intro h
    by_contra hnone
    push Not at hnone
    have hle : ((n + 1 : Nat) : ℕ∞) ≤ support kind c := by
      refine le_iInf₂ fun m hm => ?_
      have hlt : n < m := Nat.lt_of_not_le fun hle => hnone m hle hm
      exact_mod_cast hlt
    have := hle.trans h
    norm_cast at this
    omega
  · rintro ⟨m, hle, hm⟩
    exact (support_le_of_path hm).trans (by exact_mod_cast hle)

theorem support_lt_iff : support kind c < n ↔ ∃ m < n, LeafPath kind m c := by
  constructor
  · intro h
    obtain ⟨k, hk⟩ := ENat.ne_top_iff_exists.mp (ne_top_of_lt h)
    obtain ⟨m, hle, hm⟩ := support_le_iff.mp hk.ge
    rw [← hk] at h
    norm_cast at h
    exact ⟨m, by omega, hm⟩
  · rintro ⟨m, hlt, hm⟩
    exact (support_le_of_path hm).trans_lt (by exact_mod_cast hlt)

/-! ## The search -/

theorem mem_neighbours : b ∈ neighbours a ↔ Region.FaceAdjacent a b := by
  rw [Region.faceAdjacent_iff, neighbours, List.mem_map]
  exact ⟨fun ⟨step, hstep, h⟩ => ⟨step, hstep, h.symm⟩, fun ⟨step, hstep, h⟩ => ⟨step, hstep, h.symm⟩⟩

theorem faceAdjacent_comm : Region.FaceAdjacent a b ↔ Region.FaceAdjacent b a := by
  unfold Region.FaceAdjacent
  rw [abs_sub_comm b.1, abs_sub_comm b.2.1, abs_sub_comm b.2.2]

theorem mem_logsAround : a ∈ logsAround kind c ↔ kind a = some true ∧
    (c.1 - 7 ≤ a.1 ∧ a.1 ≤ c.1 + 7) ∧ (c.2.1 - 7 ≤ a.2.1 ∧ a.2.1 ≤ c.2.1 + 7) ∧
      (c.2.2 - 7 ≤ a.2.2 ∧ a.2.2 ≤ c.2.2 + 7) := by
  simp only [logsAround, List.mem_filter, List.mem_flatMap, List.mem_map, mem_span,
    LEAF_SUPPORT_RADIUS, decide_eq_true_eq]
  constructor
  · rintro ⟨⟨dx, hdx, dy, hdy, dz, hdz, rfl⟩, hlog⟩
    exact ⟨hlog, by dsimp only; omega⟩
  · rintro ⟨hlog, hx, hy, hz⟩
    refine ⟨⟨a.1 - c.1, by omega, a.2.1 - c.2.1, by omega, a.2.2 - c.2.2, by omega, ?_⟩, hlog⟩
    exact Prod.ext (by dsimp only; omega) (Prod.ext (by dsimp only; omega) (by dsimp only; omega))

/-- Every axis changes by one at most. -/
theorem faceAdjacent_bounds (h : Region.FaceAdjacent a b) : (a.1 - 1 ≤ b.1 ∧ b.1 ≤ a.1 + 1) ∧
    (a.2.1 - 1 ≤ b.2.1 ∧ b.2.1 ≤ a.2.1 + 1) ∧ (a.2.2 - 1 ≤ b.2.2 ∧ b.2.2 ≤ a.2.2 + 1) := by
  obtain ⟨step, hstep, rfl⟩ := Region.faceAdjacent_iff.mp h
  have hsmall : ∀ step ∈ Region.offsets, (-1 ≤ step.1 ∧ step.1 ≤ 1) ∧
      (-1 ≤ step.2.1 ∧ step.2.1 ≤ 1) ∧ (-1 ≤ step.2.2 ∧ step.2.2 ≤ 1) := by decide
  have := hsmall step hstep
  dsimp only
  omega

theorem leafPath_of_reach
    (h : Breadth.Reach (· ∈ logsAround kind c) (fun next => kind next = some false) neighbours n a) :
    LeafPath kind n a := by
  induction h with
  | source hmem => exact .log (mem_logsAround.mp hmem).1
  | step _ hb henter ih =>
    exact .leaf (of_decide_eq_true henter) (faceAdjacent_comm.mp (mem_neighbours.mp hb)) ih

/-- A path starts at a log as near as it is long. -/
theorem reach_of_leafPath (h : LeafPath kind n a)
    (hx : c.1 - 7 + n ≤ a.1 ∧ a.1 + n ≤ c.1 + 7) (hy : c.2.1 - 7 + n ≤ a.2.1 ∧ a.2.1 + n ≤ c.2.1 + 7)
    (hz : c.2.2 - 7 + n ≤ a.2.2 ∧ a.2.2 + n ≤ c.2.2 + 7) :
    Breadth.Reach (· ∈ logsAround kind c) (fun next => kind next = some false) neighbours n a := by
  induction h with
  | log hlog => exact .source (mem_logsAround.mpr ⟨hlog, by omega, by omega, by omega⟩)
  | leaf hleaf hadjacent _ ih =>
    have hnear := faceAdjacent_bounds hadjacent
    push_cast at hx hy hz
    refine .step (ih ⟨by omega, by omega⟩ ⟨by omega, by omega⟩ ⟨by omega, by omega⟩) ?_
      (decide_eq_true hleaf)
    exact mem_neighbours.mpr (faceAdjacent_comm.mp hadjacent)

/-- The search ends, with the length of the shortest path cut at seven. -/
theorem leafSupportDistance_spec (kind : Cell → Option Bool) (c : Cell) :
    ∃ d : Nat, leafSupportDistance kind c = some d ∧ (d : ℕ∞) = min 7 (support kind c) := by
  have hfuel : Breadth.potential 6 LEAF_DECAY_DISTANCE (Breadth.start (logsAround kind c)) ≤
      (logsAround kind c).length * 7 ^ 8 := (Breadth.potential_start ..).le
  obtain ⟨final, hfinal, hinv, hempty⟩ := @Breadth.search_total _ _ (fun next => kind next = some false)
    neighbours _ _ _ 6 _ (fun _ => le_rfl)
    (Breadth.start_invariant (logsAround kind c)) hfuel
  refine ⟨(final.distance c).getD LEAF_DECAY_DISTANCE, ?_, ?_⟩
  · rw [leafSupportDistance, hfinal, Option.map_some]
  -- a path of seven steps at most bounds the distance that was found
  have hfound {m : Nat} (hm : m ≤ 7) (hpath : LeafPath kind m c) :
      ∃ d, final.distance c = some d ∧ d ≤ m :=
    Breadth.exhausted hinv hempty (reach_of_leafPath hpath (by omega) (by omega) (by omega)) hm
  cases hd : final.distance c with
  | none =>
    have hfar : (7 : ℕ∞) ≤ support kind c := by
      refine le_of_not_gt fun hlt => ?_
      obtain ⟨m, hm, hpath⟩ := support_lt_iff.mp (by exact_mod_cast hlt : support kind c < (7 : Nat))
      obtain ⟨d, hd', -⟩ := hfound hm.le hpath
      exact nomatch hd.symm.trans hd'
    rw [min_eq_left hfar]
    rfl
  | some d =>
    obtain ⟨hreach, hlimit⟩ := hinv.sound.reached c d hd
    have hle := support_le_of_path (leafPath_of_reach hreach)
    have hge : (d : ℕ∞) ≤ support kind c := by
      refine le_of_not_gt fun hlt => ?_
      obtain ⟨m, hm, hpath⟩ := support_lt_iff.mp hlt
      obtain ⟨d', hd', hle'⟩ := hfound (hm.le.trans hlimit) hpath
      cases hd.symm.trans hd'
      omega
    have heq := le_antisymm hge hle
    rw [Option.getD_some, ← heq, min_eq_right]
    exact_mod_cast hlimit

/-! ## Leaves that go -/

/-- Only leaves without support are gone. -/
def Decayed (kind kind' : Cell → Option Bool) : Prop :=
  ∀ c, kind' c = kind c ∨ kind c = some false ∧ kind' c = none ∧ 7 ≤ support kind c

theorem Decayed.path (h : Decayed kind kind') (hpath : LeafPath kind' n c) : LeafPath kind n c := by
  induction hpath with
  | @log c hlog =>
    rcases h c with heq | ⟨-, hnone, -⟩
    · exact .log (heq ▸ hlog)
    · cases hlog.symm.trans hnone
  | @leaf n c b hleaf hadjacent _ ih =>
    rcases h c with heq | ⟨-, hnone, -⟩
    · exact .leaf (heq ▸ hleaf) hadjacent ih
    · cases hleaf.symm.trans hnone

/-- A path of less than seven steps stays, since each of its cells has support. -/
theorem Decayed.short (h : Decayed kind kind') (hpath : LeafPath kind n c) (hn : n < 7) :
    LeafPath kind' n c := by
  induction hpath with
  | @log c hlog =>
    rcases h c with heq | ⟨hleaf, -, -⟩
    · exact .log (heq.trans hlog)
    · exact nomatch hlog.symm.trans hleaf
  | @leaf n c b hleaf hadjacent hrest ih =>
    rcases h c with heq | ⟨-, -, hfar⟩
    · exact .leaf (heq.trans hleaf) hadjacent (ih (by omega))
    · have hnear := support_le_of_path (.leaf hleaf hadjacent hrest)
      have := hfar.trans hnear
      norm_cast at this
      omega

theorem Decayed.support_eq (h : Decayed kind kind') (hc : support kind c < 7) :
    support kind' c = support kind c := by
  refine le_antisymm ?_ (le_iInf₂ fun n hn => support_le_of_path (h.path hn))
  obtain ⟨k, hk⟩ := ENat.ne_top_iff_exists.mp (ne_top_of_lt hc)
  obtain ⟨m, hle, hm⟩ := support_le_iff.mp hk.ge
  rw [← hk] at hc ⊢
  have hlt : k < 7 := by exact_mod_cast hc
  exact (support_le_of_path (h.short hm (by omega))).trans (by exact_mod_cast hle)

end Apoptosis.L2.Worldgen
