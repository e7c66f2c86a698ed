import Apoptosis.L2World.Chunk
import Mathlib.Data.Set.Card
/-!
# Writes to the cells of a chunk

What `set_block` reports about the cell it wrote, and which heights it can
write at.

* `idAt_isSome_iff`: the heights of a chunk's cells.
* `setBlock_changed`, `setBlock_same`: the two outcomes of a write.
* `paintAll_spec`: writes to cells of their own, each by what the cell holds.
* `changed_ncard`: how many cells such writes change.
-/
namespace Apoptosis.L2.Terrain.Chunk
open Apoptosis.Core Apoptosis.L2.Registry

variable {chunk chunk' : Chunk} {x y z id : Int} {registry : BlockRegistry}

theorem sectionIndexFor_of_range (hlow : chunk.minY ≤ y) (hhigh : y < chunk.maxY) :
    chunk.sectionIndexFor y = some (y / 16 - chunk.minSectionY).toNat ∧
      (y / 16 - chunk.minSectionY).toNat < chunk.sections.length := by
  unfold minY at hlow
  unfold maxY at hhigh
  unfold sectionIndexFor
  rw [if_pos (by omega)]
  exact ⟨rfl, by omega⟩

theorem range_of_sectionIndexFor {index : Nat} (h : chunk.sectionIndexFor y = some index) :
    chunk.minY ≤ y ∧ y < chunk.maxY := by
  unfold sectionIndexFor at h
  dsimp only at h
  unfold minY maxY
  split at h
  · omega
  · cases h

/-- A chunk has a cell at the heights of its sections, in every column. -/
theorem idAt_isSome_iff : (chunk.idAt x y z).isSome ↔ chunk.minY ≤ y ∧ y < chunk.maxY := by
  constructor
  · intro h
    unfold idAt at h
    cases hindex : chunk.sectionIndexFor y with
    | none => rw [hindex] at h; cases h
    | some index => exact range_of_sectionIndexFor hindex
  · rintro ⟨hlow, hhigh⟩
    obtain ⟨hindex, hlt⟩ := sectionIndexFor_of_range hlow hhigh
    have hslot := index_lt (mod_range x) (mod_range y) (mod_range z)
    rw [idAt, hindex, Option.bind_some, List.getElem?_eq_getElem hlt, Option.bind_some,
      List.getElem?_eq_getElem (by rw [Section.size]; exact hslot)]
    rfl

theorem setBlock_ok (hlow : chunk.minY ≤ y) (hhigh : y < chunk.maxY) (id : Int)
    (registry : BlockRegistry) : ∃ outcome, chunk.setBlock x y z id registry = .ok outcome :=
  setBlock_isOk (Option.isSome_iff_ne_none.mp (idAt_isSome_iff.mpr ⟨hlow, hhigh⟩)) id registry

theorem setBlock_changed {change : Int × Int}
    (h : chunk.setBlock x y z id registry = .ok (some change, chunk')) :
    ∃ previous, chunk.idAt x y z = some previous ∧ previous ≠ id ∧ change = (previous, id) := by
  unfold setBlock at h
  split at h
  · exact nomatch h
  next index hindex =>
  split at h
  · exact nomatch h
  next s hs =>
  dsimp only at h
  split at h
  · exact nomatch h
  · next hne =>
    cases h
    have hslot := index_lt (mod_range x) (mod_range y) (mod_range z)
    rw [← s.size] at hslot
    refine ⟨_, ?_, hne, rfl⟩
    rw [idAt, hindex, Option.bind_some, hs, Option.bind_some, List.getD_eq_getElem?_getD,
      List.getElem?_eq_getElem hslot]
    rfl

theorem setBlock_same (h : chunk.setBlock x y z id registry = .ok (none, chunk')) :
    chunk' = chunk ∧ chunk.idAt x y z = some id := by
  obtain rfl := setBlock_unchanged h
  have hcells := (setBlock_spec h).2.2.2 x y z
  rw [if_pos ⟨rfl, rfl, rfl⟩] at hcells
  exact ⟨rfl, hcells⟩

/-! ## Writes to cells of their own -/

/-- A write that looks at the cell first. -/
structure Paint where
  x : Int
  y : Int
  z : Int
  next : Int → Option Int

namespace Paint

def Covers (p : Paint) (x y z : Int) : Prop := SameCell p.x p.y p.z x y z

instance (p : Paint) (x y z : Int) : Decidable (p.Covers x y z) :=
  inferInstanceAs (Decidable (SameCell ..))

/-- The id a cell holds after the paint. -/
def onto (p : Paint) (id : Int) : Int := (p.next id).getD id

def Changes (p : Paint) (chunk : Chunk) : Prop :=
  ∃ id, chunk.idAt p.x p.y p.z = some id ∧ p.onto id ≠ id

instance (p : Paint) (chunk : Chunk) : Decidable (p.Changes chunk) :=
  match h : chunk.idAt p.x p.y p.z with
  | none => .isFalse fun ⟨_, hid, _⟩ => nomatch h.symm.trans hid
  | some id => decidable_of_iff (p.onto id ≠ id)
      ⟨fun hne => ⟨id, h, hne⟩, fun ⟨id', hid, hne⟩ => by
        rw [h] at hid
        cases hid
        exact hne⟩

end Paint

/-- One paint, and the count of the cells it changed. -/
def paint (registry : BlockRegistry) (state : Nat × Chunk) (p : Paint) : Nat × Chunk :=
  match p.next (state.2.getBlock p.x p.y p.z) with
  | none => state
  | some id => match state.2.setBlock p.x p.y p.z id registry with
    | .ok (some _, chunk) => (state.1 + 1, chunk)
    | .ok (none, chunk) => (state.1, chunk)
    | .error _ => state

/-- Two chunks of one place, with as many sections. -/
structure SameShape (chunk chunk' : Chunk) : Prop where
  pos : chunk'.pos = chunk.pos
  low : chunk'.minSectionY = chunk.minSectionY
  sections : chunk'.sections.length = chunk.sections.length

namespace SameShape

theorem refl (chunk : Chunk) : SameShape chunk chunk := ⟨rfl, rfl, rfl⟩

theorem trans {chunk chunk' chunk'' : Chunk} (h : SameShape chunk chunk')
    (h' : SameShape chunk' chunk'') : SameShape chunk chunk'' :=
  ⟨h'.pos.trans h.pos, h'.low.trans h.low, h'.sections.trans h.sections⟩

theorem minY (h : SameShape chunk chunk') : chunk'.minY = chunk.minY := by
  rw [Chunk.minY, Chunk.minY, h.low]

theorem maxY (h : SameShape chunk chunk') : chunk'.maxY = chunk.maxY := by
  rw [Chunk.maxY, Chunk.maxY, h.low, h.sections]

end SameShape

theorem paint_spec {state : Nat × Chunk} {p : Paint} (hlow : state.2.minY ≤ p.y)
    (hhigh : p.y < state.2.maxY) :
    SameShape state.2 (paint registry state p).2 ∧
      (∀ x y z, (paint registry state p).2.idAt x y z =
        if p.Covers x y z then (state.2.idAt x y z).map p.onto else state.2.idAt x y z) ∧
      (paint registry state p).1 = state.1 + if p.Changes state.2 then 1 else 0 := by
  obtain ⟨old, hold⟩ := Option.isSome_iff_exists.mp
    ((idAt_isSome_iff (x := p.x) (z := p.z)).mpr ⟨hlow, hhigh⟩)
  have hget : state.2.getBlock p.x p.y p.z = old := by rw [getBlock_eq, hold]; rfl
  have hsame {x y z : Int} (hcell : p.Covers x y z) : state.2.idAt x y z = some old := by
    rw [← hold]
    obtain ⟨hx, rfl, hz⟩ := hcell
    simp only [idAt, hx, hz]
  have hchanges : p.Changes state.2 ↔ p.onto old ≠ old := by
    constructor
    · rintro ⟨id, hid, hne⟩
      rw [hold] at hid
      cases hid
      exact hne
    · exact fun hne => ⟨old, hold, hne⟩
  -- a paint that leaves the id leaves the chunk
  have hstay (honto : p.onto old = old) (h : paint registry state p = state) :
      SameShape state.2 (paint registry state p).2 ∧
        (∀ x y z, (paint registry state p).2.idAt x y z =
          if p.Covers x y z then (state.2.idAt x y z).map p.onto else state.2.idAt x y z) ∧
        (paint registry state p).1 = state.1 + if p.Changes state.2 then 1 else 0 := by
    rw [h]
    refine ⟨.refl _, fun x y z => ?_, ?_⟩
    · split
      · next hcell => rw [hsame hcell, Option.map_some, honto]
      · rfl
    · rw [if_neg (by rw [hchanges]; exact fun hne => hne honto), Nat.add_zero]
  cases hnext : p.next old with
  | none =>
    refine hstay (by rw [Paint.onto, hnext]; rfl) ?_
    rw [paint, hget, hnext]
  | some id =>
    have honto : p.onto old = id := by rw [Paint.onto, hnext]; rfl
    obtain ⟨⟨change, chunk'⟩, hset⟩ := setBlock_ok (x := p.x) (z := p.z) hlow hhigh id registry
    cases change with
    | none =>
      obtain ⟨hchunk, hid⟩ := setBlock_same hset
      rw [hold] at hid
      refine hstay (by rw [honto]; exact (Option.some.inj hid).symm) ?_
      rw [paint, hget, hnext]
      dsimp only
      rw [hset, hchunk]
    | some change =>
      obtain ⟨previous, hprevious, hne, -⟩ := setBlock_changed hset
      rw [hold] at hprevious
      cases hprevious
      obtain ⟨hpos, hlow', hsections, hcells⟩ := setBlock_spec hset
      have hpaint : paint registry state p = (state.1 + 1, chunk') := by
        rw [paint, hget, hnext]
        dsimp only
        rw [hset]
      rw [hpaint]
      refine ⟨⟨hpos, hlow', hsections⟩, fun x y z => ?_, ?_⟩
      · by_cases hcell : p.Covers x y z
        · refine ((hcells x y z).trans (if_pos hcell)).trans (Eq.trans ?_ (if_pos hcell).symm)
          rw [hsame hcell, Option.map_some, honto]
        · exact ((hcells x y z).trans (if_neg hcell)).trans (if_neg hcell).symm
      · rw [if_pos (hchanges.mpr (by rw [honto]; exact Ne.symm hne))]

/-- Paints of cells of their own leave every cell as the one that covers it. -/
theorem paintAll_spec {state : Nat × Chunk} {paints : List Paint}
    (hin : ∀ p ∈ paints, state.2.minY ≤ p.y ∧ p.y < state.2.maxY)
    (hapart : paints.Pairwise fun p q => ¬p.Covers q.x q.y q.z) :
    let final := paints.foldl (paint registry) state
    SameShape state.2 final.2 ∧
      (∀ p ∈ paints, ∀ x y z, p.Covers x y z →
        final.2.idAt x y z = (state.2.idAt x y z).map p.onto) ∧
      (∀ x y z, (∀ p ∈ paints, ¬p.Covers x y z) → final.2.idAt x y z = state.2.idAt x y z) ∧
      final.1 = state.1 + paints.countP fun p => p.Changes state.2 := by
  induction paints generalizing state with
  | nil => exact ⟨.refl _, nofun, fun _ _ _ _ => rfl, rfl⟩
  | cons p paints ih =>
    obtain ⟨hp, hapart⟩ := List.pairwise_cons.mp hapart
    obtain ⟨hlow, hhigh⟩ := hin p (List.mem_cons_self ..)
    obtain ⟨hshape, hcells, hcount⟩ := @paint_spec registry _ _ hlow hhigh
    have hrest := @ih (paint registry state p) (fun q hq => by
      rw [hshape.minY, hshape.maxY]
      exact hin q (List.mem_cons_of_mem _ hq)) hapart
    obtain ⟨hshape', hcovered, hfree, hcount'⟩ := hrest
    -- the first paint leaves the cells of the others
    have hothers : ∀ q ∈ paints, ∀ x y z, q.Covers x y z →
        (paint registry state p).2.idAt x y z = state.2.idAt x y z := by
      intro q hq x y z hcell
      rw [hcells, if_neg]
      intro hcell'
      refine hp q hq ⟨?_, ?_, ?_⟩
      · exact hcell.1.symm.trans hcell'.1
      · exact hcell.2.1.symm.trans hcell'.2.1
      · exact hcell.2.2.symm.trans hcell'.2.2
    refine ⟨hshape.trans hshape', ?_, fun x y z hnone => ?_, ?_⟩
    · intro q hq x y z hcell
      rcases List.mem_cons.mp hq with rfl | hq
      · have hlater : ∀ q' ∈ paints, ¬q'.Covers x y z := by
          intro q' hq' hcell'
          refine hp q' hq' ⟨?_, ?_, ?_⟩
          · exact hcell'.1.symm.trans hcell.1
          · exact hcell'.2.1.symm.trans hcell.2.1
          · exact hcell'.2.2.symm.trans hcell.2.2
        exact (hfree x y z hlater).trans ((hcells x y z).trans (if_pos hcell))
      · exact (hcovered q hq x y z hcell).trans (by rw [hothers q hq x y z hcell])
    · have hfirst := hnone p (List.mem_cons_self ..)
      exact (hfree x y z fun q hq => hnone q (List.mem_cons_of_mem _ hq)).trans
        ((hcells x y z).trans (if_neg hfirst))
    · have hsame : paints.countP (fun q => q.Changes (paint registry state p).2) =
          paints.countP fun q => q.Changes state.2 := by
        refine List.countP_congr fun q hq => ?_
        rw [decide_eq_true_iff, decide_eq_true_iff, Paint.Changes, Paint.Changes,
          hothers q hq _ _ _ ⟨rfl, rfl, rfl⟩]
      rw [List.foldl_cons, hcount', hsame, hcount, List.countP_cons]
      simp only [decide_eq_true_eq]
      omega

/-- The cells two chunks differ in, each by its own columns. -/
def changed (chunk chunk' : Chunk) : Set (Int × Int × Int) :=
  {c | (0 ≤ c.1 ∧ c.1 < 16) ∧ (0 ≤ c.2.2 ∧ c.2.2 < 16) ∧
    chunk'.idAt c.1 c.2.1 c.2.2 ≠ chunk.idAt c.1 c.2.1 c.2.2}

namespace Paint

/-- The one cell a paint covers in the chunk's own columns. -/
def cell (p : Paint) : Int × Int × Int := (p.x % 16, p.y, p.z % 16)

theorem covers_cell (p : Paint) : p.Covers p.cell.1 p.cell.2.1 p.cell.2.2 :=
  ⟨Int.emod_emod_of_dvd _ (dvd_refl 16), rfl, Int.emod_emod_of_dvd _ (dvd_refl 16)⟩

theorem Covers.idAt {p : Paint} {x y z : Int} (h : p.Covers x y z) (chunk : Chunk) :
    chunk.idAt x y z = chunk.idAt p.x p.y p.z := by
  obtain ⟨hx, rfl, hz⟩ := h
  simp only [Chunk.idAt, hx, hz]

theorem changes_iff {p : Paint} {chunk : Chunk} :
    p.Changes chunk ↔ (chunk.idAt p.x p.y p.z).map p.onto ≠ chunk.idAt p.x p.y p.z := by
  unfold Changes
  cases chunk.idAt p.x p.y p.z with
  | none => exact ⟨nofun, fun h => absurd rfl h⟩
  | some id =>
    rw [Option.map_some, Ne, Option.some_inj]
    exact ⟨fun ⟨id', hid, hne⟩ => by cases hid; exact hne, fun hne => ⟨id, rfl, hne⟩⟩

end Paint

theorem mem_changed {state : Nat × Chunk} {paints : List Paint}
    (hin : ∀ p ∈ paints, state.2.minY ≤ p.y ∧ p.y < state.2.maxY)
    (hapart : paints.Pairwise fun p q => ¬p.Covers q.x q.y q.z) {c : Int × Int × Int} :
    c ∈ changed state.2 (paints.foldl (paint registry) state).2 ↔
      ∃ p ∈ paints, p.Changes state.2 ∧ p.cell = c := by
  obtain ⟨-, hcovered, hfree, -⟩ := @paintAll_spec registry _ _ hin hapart
  constructor
  · rintro ⟨hx, hz, hne⟩
    by_cases hnone : ∀ p ∈ paints, ¬p.Covers c.1 c.2.1 c.2.2
    · exact absurd (hfree _ _ _ hnone) hne
    · push Not at hnone
      obtain ⟨p, hp, hcell⟩ := hnone
      rw [hcovered p hp _ _ _ hcell, hcell.idAt] at hne
      refine ⟨p, hp, Paint.changes_iff.mpr hne, Prod.ext ?_ (Prod.ext hcell.2.1.symm ?_)⟩
      · exact hcell.1.symm.trans (Int.emod_eq_of_lt hx.1 hx.2)
      · exact hcell.2.2.symm.trans (Int.emod_eq_of_lt hz.1 hz.2)
  · rintro ⟨p, hp, hchanges, rfl⟩
    refine ⟨mod_range _, mod_range _, ?_⟩
    rw [hcovered p hp _ _ _ p.covers_cell, p.covers_cell.idAt]
    exact Paint.changes_iff.mp hchanges

/-- The count of paints of cells of their own is the number of cells that changed. -/
theorem changed_ncard {state : Nat × Chunk} {paints : List Paint}
    (hin : ∀ p ∈ paints, state.2.minY ≤ p.y ∧ p.y < state.2.maxY)
    (hapart : paints.Pairwise fun p q => ¬p.Covers q.x q.y q.z) :
    (changed state.2 (paints.foldl (paint registry) state).2).ncard =
      paints.countP fun p => p.Changes state.2 := by
  have hcells : changed state.2 (paints.foldl (paint registry) state).2 =
      (((paints.filter fun p => p.Changes state.2).map Paint.cell).toFinset : Set _) := by
    ext c
    rw [mem_changed hin hapart, Finset.mem_coe, List.mem_toFinset, List.mem_map]
    simp only [List.mem_filter, decide_eq_true_eq, and_assoc]
  have hnodup : ((paints.filter fun p => p.Changes state.2).map Paint.cell).Nodup := by
    rw [List.Nodup, List.pairwise_map]
    refine (hapart.filter _).imp fun {p q} hcover heq => hcover ?_
    obtain ⟨hx, hyz⟩ := Prod.mk.inj heq
    obtain ⟨hy, hz⟩ := Prod.mk.inj hyz
    exact ⟨hx.symm, hy.symm, hz.symm⟩
  rw [hcells, Set.ncard_coe_finset, List.toFinset_card_of_nodup hnodup, List.length_map,
    List.countP_eq_length_filter]

end Apoptosis.L2.Terrain.Chunk
