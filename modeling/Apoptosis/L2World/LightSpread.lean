import Apoptosis.Core.Flood
import Apoptosis.L2World.Light
/-!
# The light that ends up in a cell

Seeding gives each cell its source, the frontier scan queues whatever could
still brighten a neighbour, and the queue spreads the rest.

* `seed_spec`: what a cell has before anything spreads.
* `le_of_not_darkerNeighbour`, `mem_frontier`: no cell that could spread is left out.
* `spread_flooding`: the queue keeps the flooding invariant and empties it.
* `computeChunkLight_fixedPoint`: the light of a chunk is the greatest that paths bring;
  `computeChunkLight_refuses`: a chunk too high for `i32` has none.
-/
namespace Apoptosis.L2.Terrain

open Apoptosis.Core.Flood

namespace Region
variable (region : Region) (table : LightTable) (blockAt : BlockAt)

/-! ## Cells -/

/-- The cell is one of the region. -/
def Holds (c : Cell) : Prop := region.inside c.1 c.2.1 c.2.2 = true

/-- Two cells share a face. -/
def FaceAdjacent (a b : Cell) : Prop :=
  |b.1 - a.1| + |b.2.1 - a.2.1| + |b.2.2 - a.2.2| = 1

/-- A step inside the region. -/
def Next (a b : Cell) : Prop := region.Holds a ∧ region.Holds b ∧ FaceAdjacent a b

variable {region table blockAt} {a b c : Cell} {light : List UInt8}

theorem holds_iff : region.Holds c ↔
    (region.originX ≤ c.1 ∧ c.1 < region.originX + 18) ∧ (region.minY ≤ c.2.1 ∧ c.2.1 ≤ region.top) ∧
      (region.originZ ≤ c.2.2 ∧ c.2.2 < region.originZ + 18) := inside_iff

theorem faceAdjacent_iff : FaceAdjacent a b ↔
    ∃ offset ∈ offsets, b = (a.1 + offset.1, a.2.1 + offset.2.1, a.2.2 + offset.2.2) := by
  obtain ⟨x, y, z⟩ := a
  obtain ⟨x', y', z'⟩ := b
  simp only [FaceAdjacent, offsets, List.mem_cons, List.not_mem_nil, or_false, exists_eq_or_imp,
    exists_eq_left, Prod.mk.injEq]
  constructor
  · intro h
    rcases abs_cases (x' - x) with hx | hx <;> rcases abs_cases (y' - y) with hy | hy <;>
      rcases abs_cases (z' - z) with hz | hz <;> omega
  · rintro (h | h | h | h | h | h) <;> simp [h]

theorem ne_of_faceAdjacent (h : FaceAdjacent a b) : a ≠ b := by
  rintro rfl
  simp [FaceAdjacent] at h

variable (region) in
/-- The place of a cell in the arrays. -/
def slot (c : Cell) : Nat := region.index c.1 c.2.1 c.2.2

theorem slot_cast (h : region.Holds c) : (region.slot c : Int) =
    c.1 - region.originX + (c.2.2 - region.originZ) * 18 + (c.2.1 - region.minY) * 324 := by
  obtain ⟨hx, hy, hz⟩ := holds_iff.mp h
  unfold slot index
  omega

theorem slot_injective (ha : region.Holds a) (hb : region.Holds b) (h : region.slot a = region.slot b) :
    a = b := by
  have hsa := slot_cast ha
  have hsb := slot_cast hb
  obtain ⟨hx, hy, hz⟩ := holds_iff.mp ha
  obtain ⟨hx', hy', hz'⟩ := holds_iff.mp hb
  have hx : a.1 = b.1 := by omega
  have hz : a.2.2 = b.2.2 := by omega
  have hy : a.2.1 = b.2.1 := by omega
  exact Prod.ext hx (Prod.ext hy hz)

theorem slot_lt (h : region.Holds c) : region.slot c < region.cells := by
  have hs := slot_cast h
  obtain ⟨hx, hy, hz⟩ := holds_iff.mp h
  unfold top at hy
  unfold cells
  omega

variable (region) in
/-- The level of a cell. -/
def level (light : List UInt8) (c : Cell) : Nat := (light.getD (region.slot c) 0).toNat

theorem getD_set (hsize : light.length = region.cells) (hb : region.Holds b) (hc : region.Holds c)
    (value : UInt8) : (light.set (region.slot b) value).getD (region.slot c) 0 =
      if c = b then value else light.getD (region.slot c) 0 := by
  rw [List.getD_eq_getElem?_getD, List.getD_eq_getElem?_getD]
  by_cases hcb : c = b
  · subst hcb
    rw [if_pos rfl, List.getElem?_set_self (hsize ▸ slot_lt hb)]
    rfl
  · have hne : region.slot b ≠ region.slot c := fun h => hcb (slot_injective hb hc h).symm
    rw [if_neg hcb, List.getElem?_set_ne hne]

/-! ## Seeding -/

variable (region table blockAt) in
/-- No block from the cell up to the top stops the light of the sky. -/
def SeesSky (c : Cell) : Prop :=
  ∀ y, c.2.1 ≤ y → y ≤ region.top → table.propagatesSkylightDown (state blockAt c.1 y c.2.2) = true

theorem length_fall (x z : Int) (rest : Nat) (y : Int) (sky : List UInt8) :
    (fall region table blockAt x z rest y sky).length = sky.length := by
  induction rest generalizing y sky with
  | zero => rfl
  | succ rest ih =>
    unfold fall
    split
    · rw [ih, List.length_set]
    · rfl

theorem length_emit (x z : Int) (block : List UInt8) (dy : Nat) :
    (emit region table blockAt x z block dy).length = block.length := by
  unfold emit
  dsimp only
  split
  · rw [List.length_set]
  · rfl

open Classical in
/-- What falls past `y` lights the cells down to the first block that stops it. -/
theorem getD_fall {x z : Int} (hx : region.originX ≤ x ∧ x < region.originX + 18)
    (hz : region.originZ ≤ z ∧ z < region.originZ + 18) (rest : Nat) {y : Int} (hy : y ≤ region.top)
    (hrest : region.minY + rest = y + 1) {sky : List UInt8} (hsize : sky.length = region.cells)
    (hc : region.Holds c) :
    (fall region table blockAt x z rest y sky).getD (region.slot c) 0 =
      if (c.1 = x ∧ c.2.2 = z) ∧ c.2.1 ≤ y ∧ ∀ y', c.2.1 ≤ y' → y' ≤ y →
          table.propagatesSkylightDown (state blockAt x y' z) = true then 15
      else sky.getD (region.slot c) 0 := by
  induction rest generalizing y sky with
  | zero =>
    obtain ⟨-, hlow, -⟩ := holds_iff.mp hc
    rw [fall, if_neg]
    rintro ⟨-, hle, -⟩
    omega
  | succ rest ih =>
    have hhere : region.Holds (x, y, z) := holds_iff.mpr ⟨hx, ⟨by dsimp only; omega, hy⟩, hz⟩
    unfold fall
    split
    · next hpass =>
      have hset := getD_set hsize hhere hc 15
      rw [ih (by omega) (by omega) (by rw [List.length_set, hsize])]
      change (if _ then _ else (sky.set (region.slot (x, y, z)) 15).getD (region.slot c) 0) = _
      rw [hset]
      by_cases hcolumn : c.1 = x ∧ c.2.2 = z
      · by_cases hat : c.2.1 = y
        · have hcell : c = (x, y, z) := Prod.ext hcolumn.1 (Prod.ext hat hcolumn.2)
          rw [if_pos hcell, ite_self, if_pos]
          refine ⟨hcolumn, hat.le, fun y' hlow hhigh => ?_⟩
          obtain rfl : y' = y := by omega
          exact hpass
        · have hcell : c ≠ (x, y, z) := fun h => hat (congrArg (fun p => p.2.1) h)
          rw [if_neg hcell]
          refine if_congr (and_congr_right' ⟨?_, ?_⟩) rfl rfl
          · rintro ⟨hle, hall⟩
            refine ⟨by omega, fun y' hlow hhigh => ?_⟩
            by_cases hyy : y' = y
            · exact hyy ▸ hpass
            · exact hall y' hlow (by omega)
          · rintro ⟨hle, hall⟩
            exact ⟨by omega, fun y' hlow hhigh => hall y' hlow (by omega)⟩
      · have hcell : c ≠ (x, y, z) := fun h => hcolumn ⟨congrArg Prod.fst h, congrArg (fun p => p.2.2) h⟩
        rw [if_neg hcell, if_neg fun h => hcolumn h.1, if_neg fun h => hcolumn h.1]
    · next hstop =>
      rw [if_neg]
      rintro ⟨-, hle, hall⟩
      exact hstop (hall y hle le_rfl)

variable (table blockAt) in
theorem level_emit {x z : Int} (hx : region.originX ≤ x ∧ x < region.originX + 18)
    (hz : region.originZ ≤ z ∧ z < region.originZ + 18) {dy : Nat} (hdy : dy < region.height)
    {block : List UInt8} (hsize : block.length = region.cells) (hc : region.Holds c) :
    region.level (emit region table blockAt x z block dy) c =
      if c = (x, region.minY + dy, z) then
        max (region.level block c) (table.emission (state blockAt c.1 c.2.1 c.2.2)).toNat
      else region.level block c := by
  have hhere : region.Holds (x, region.minY + dy, z) :=
    holds_iff.mpr ⟨hx, ⟨by dsimp only; omega, by unfold top; dsimp only; omega⟩, hz⟩
  unfold emit
  dsimp only
  split
  · next hbright =>
    have hlt : (block.getD (region.index x (region.minY + dy) z) 0).toNat <
        (table.emission (state blockAt x (region.minY + dy) z)).toNat := hbright.2
    change ((block.set (region.slot (x, region.minY + dy, z)) _).getD (region.slot c) 0).toNat = _
    rw [getD_set hsize hhere hc, apply_ite UInt8.toNat]
    refine if_ctx_congr Iff.rfl (fun h => ?_) fun _ => rfl
    subst h
    exact (max_eq_right hlt.le).symm
  · next hdark =>
    split
    · next h =>
      subst h
      refine (max_eq_left ?_).symm
      by_contra hlt
      have hlt' : block.getD (region.index x (region.minY + dy) z) 0 <
          table.emission (state blockAt x (region.minY + dy) z) := not_le.mp hlt
      refine hdark ⟨?_, hlt'⟩
      exact (Nat.zero_le _).trans_lt hlt'
    · rfl

open Classical in
theorem level_fall_top {x z : Int} (hx : region.originX ≤ x ∧ x < region.originX + 18)
    (hz : region.originZ ≤ z ∧ z < region.originZ + 18) {sky : List UInt8}
    (hsize : sky.length = region.cells) (hc : region.Holds c) :
    region.level (fall region table blockAt x z region.height region.top sky) c =
      if (c.1 = x ∧ c.2.2 = z) ∧ region.SeesSky table blockAt c then 15 else region.level sky c := by
  have hheight : region.minY + region.height = region.top + 1 := by
    unfold top
    omega
  unfold level
  rw [getD_fall hx hz _ le_rfl hheight hsize hc, apply_ite UInt8.toNat]
  refine if_congr (and_congr_right fun hcolumn => ?_) rfl rfl
  rw [and_iff_right (holds_iff.mp hc).2.1.2, SeesSky, hcolumn.1, hcolumn.2]

theorem level_emit_column {x z : Int} (hx : region.originX ≤ x ∧ x < region.originX + 18)
    (hz : region.originZ ≤ z ∧ z < region.originZ + 18) {block : List UInt8}
    (hsize : block.length = region.cells) {n : Nat} (hn : n ≤ region.height) :
    ((List.range n).foldl (emit region table blockAt x z) block).length = region.cells ∧
      ∀ c, region.Holds c →
        region.level ((List.range n).foldl (emit region table blockAt x z) block) c =
          if (c.1 = x ∧ c.2.2 = z) ∧ c.2.1 < region.minY + n then
            max (region.level block c) (table.emission (state blockAt c.1 c.2.1 c.2.2)).toNat
          else region.level block c := by
  induction n with
  | zero =>
    refine ⟨hsize, fun c hc => ?_⟩
    obtain ⟨-, hlow, -⟩ := holds_iff.mp hc
    rw [if_neg]
    · rfl
    · rintro ⟨-, hlt⟩
      omega
  | succ n ih =>
    obtain ⟨hlength, hlevel⟩ := ih (by omega)
    rw [List.range_succ, List.foldl_append]
    refine ⟨(length_emit ..).trans hlength, fun c hc => ?_⟩
    have hstep := level_emit table blockAt hx hz (by omega : n < region.height) hlength hc
    rw [List.foldl_cons, List.foldl_nil, hstep, hlevel c hc]
    by_cases hcolumn : c.1 = x ∧ c.2.2 = z
    · by_cases hat : c.2.1 = region.minY + n
      · rw [if_pos (Prod.ext hcolumn.1 (Prod.ext hat hcolumn.2)), if_neg fun h => by omega,
          if_pos ⟨hcolumn, by push_cast; omega⟩]
      · rw [if_neg fun h => hat (congrArg (fun p => p.2.1) h)]
        refine if_congr (and_congr_right' ?_) rfl rfl
        push_cast
        omega
    · rw [if_neg fun h => hcolumn ⟨congrArg Prod.fst h, congrArg (fun p => p.2.2) h⟩,
        if_neg fun h => hcolumn h.1, if_neg fun h => hcolumn h.1]

section
variable (region table blockAt)

open Classical in
/-- What the sky gives a cell. -/
noncomputable def skySource (c : Cell) : Nat := if region.SeesSky table blockAt c then 15 else 0

/-- What its own block gives a cell. -/
def blockSource (c : Cell) : Nat := (table.emission (state blockAt c.1 c.2.1 c.2.2)).toNat

/-- The columns of a list are seeded, the others dark. -/
structure Seeded (columns : List (Int × Int)) (light : List UInt8 × List UInt8) : Prop where
  lengthSky : light.1.length = region.cells
  lengthBlock : light.2.length = region.cells
  sky : ∀ c, region.Holds c → region.level light.1 c =
    if (c.1, c.2.2) ∈ columns then region.skySource table blockAt c else 0
  block : ∀ c, region.Holds c → region.level light.2 c =
    if (c.1, c.2.2) ∈ columns then blockSource table blockAt c else 0

end

theorem seeded_nil :
    Seeded region table blockAt [] (List.replicate region.cells 0, List.replicate region.cells 0) where
  lengthSky := List.length_replicate
  lengthBlock := List.length_replicate
  sky c hc := by simp [level, List.getD_eq_getElem?_getD, slot_lt hc]
  block c hc := by simp [level, List.getD_eq_getElem?_getD, slot_lt hc]

theorem Seeded.column {columns : List (Int × Int)} {light : List UInt8 × List UInt8}
    (h : Seeded region table blockAt columns light) {x z : Int}
    (hx : region.originX ≤ x ∧ x < region.originX + 18)
    (hz : region.originZ ≤ z ∧ z < region.originZ + 18) :
    Seeded region table blockAt (columns ++ [(x, z)])
      (fall region table blockAt x z region.height region.top light.1,
        (List.range region.height).foldl (emit region table blockAt x z) light.2) where
  lengthSky := (length_fall ..).trans h.lengthSky
  lengthBlock := (level_emit_column hx hz h.lengthBlock le_rfl).1
  sky c hc := by
    rw [level_fall_top hx hz h.lengthSky hc, h.sky c hc]
    simp only [List.mem_append, List.mem_singleton, Prod.mk.injEq, skySource]
    by_cases hcolumn : c.1 = x ∧ c.2.2 = z
    · by_cases hsees : region.SeesSky table blockAt c
      · rw [if_pos ⟨hcolumn, hsees⟩, if_pos (.inr hcolumn), if_pos hsees]
      · rw [if_neg fun h => hsees h.2, if_neg hsees, ite_self, ite_self]
    · rw [if_neg fun h => hcolumn h.1]
      simp only [hcolumn, or_false]
  block c hc := by
    have hbelow : c.2.1 < region.minY + region.height := by
      have := (holds_iff.mp hc).2.1.2
      unfold top at this
      omega
    rw [(level_emit_column hx hz h.lengthBlock le_rfl).2 c hc, h.block c hc]
    simp only [List.mem_append, List.mem_singleton, Prod.mk.injEq, hbelow, and_true]
    by_cases hcolumn : c.1 = x ∧ c.2.2 = z
    · have hin : (c.1, c.2.2) ∈ columns ∨ c.1 = x ∧ c.2.2 = z := .inr hcolumn
      rw [if_pos hcolumn, if_pos hin]
      split
      · exact max_self _
      · exact max_eq_right (Nat.zero_le _)
    · rw [if_neg hcolumn]
      simp only [hcolumn, or_false]

theorem Seeded.foldl {columns rest : List (Int × Int)} {light : List UInt8 × List UInt8}
    (h : Seeded region table blockAt columns light) (hrest : ∀ column ∈ rest, column ∈ region.columns) :
    Seeded region table blockAt (columns ++ rest) (rest.foldl (fun light column =>
      (fall region table blockAt column.1 column.2 region.height region.top light.1,
        (List.range region.height).foldl (emit region table blockAt column.1 column.2) light.2)) light) := by
  induction rest generalizing columns light with
  | nil =>
    rw [List.append_nil]
    exact h
  | cons column rest ih =>
    obtain ⟨hx, hz⟩ := mem_columns (hrest column (List.mem_cons_self ..))
    have hnext := ih (h.column hx hz) fun column' h' => hrest column' (List.mem_cons_of_mem _ h')
    rwa [List.append_assoc] at hnext

theorem column_mem (hc : region.Holds c) : (c.1, c.2.2) ∈ region.columns := by
  obtain ⟨hx, -, hz⟩ := holds_iff.mp hc
  simp only [columns, List.mem_flatMap, List.mem_map, List.mem_range, Prod.mk.injEq]
  exact ⟨(c.1 - region.originX).toNat, by omega, (c.2.2 - region.originZ).toNat, by omega,
    by omega, by omega⟩

variable (region table blockAt) in
/-- Before anything spreads every cell has what its source gives it. -/
theorem seed_spec : ((region.seed table blockAt).1.length = region.cells ∧
      ∀ c, region.Holds c → region.level (region.seed table blockAt).1 c =
        region.skySource table blockAt c) ∧
    (region.seed table blockAt).2.length = region.cells ∧
      ∀ c, region.Holds c → region.level (region.seed table blockAt).2 c =
        blockSource table blockAt c := by
  have h : Seeded region table blockAt ([] ++ region.columns) (region.seed table blockAt) :=
    seeded_nil.foldl fun _ h => h
  rw [List.nil_append] at h
  exact ⟨⟨h.lengthSky, fun c hc => (h.sky c hc).trans (if_pos (column_mem hc))⟩,
    h.lengthBlock, fun c hc => (h.block c hc).trans (if_pos (column_mem hc))⟩

/-! ## The frontier -/

theorem slot_add {d : Cell} (hc : region.Holds c) (hd : region.Holds d) : (region.slot d : Int) =
    region.slot c + (d.1 - c.1) + (d.2.2 - c.2.2) * 18 + (d.2.1 - c.2.1) * 324 := by
  rw [slot_cast hc, slot_cast hd]
  ring

/-- Flat strides reach the neighbours of a cell. -/
theorem le_of_not_darkerNeighbour (hsize : light.length = region.cells)
    (h : darkerNeighbour light (region.slot c) = false) {d : Cell} (hnext : region.Next c d) :
    region.level light c ≤ region.level light d := by
  obtain ⟨hc, hd, hface⟩ := hnext
  have hplace := slot_cast hc
  have hslot := slot_add hc hd
  have hlt := hsize ▸ slot_lt hd
  obtain ⟨hx, hy, hz⟩ := holds_iff.mp hc
  obtain ⟨hx', hy', hz'⟩ := holds_iff.mp hd
  have hlevel {i : Nat} (hi : region.slot d = i)
      (h : ¬light.getD i 0 < light.getD (region.slot c) 0) :
      region.level light c ≤ region.level light d := by
    unfold level
    rw [hi]
    exact UInt8.not_lt.mp h
  simp only [darkerNeighbour, Bool.or_eq_false_iff, Bool.and_eq_false_imp, decide_eq_true_eq,
    decide_eq_false_iff_not] at h
  obtain ⟨⟨⟨⟨⟨hdown, hup⟩, heast⟩, hwest⟩, hsouth⟩, hnorth⟩ := h
  obtain ⟨offset, hoffset, heq⟩ := faceAdjacent_iff.mp hface
  have hdx : d.1 = c.1 + offset.1 := congrArg Prod.fst heq
  have hdy : d.2.1 = c.2.1 + offset.2.1 := congrArg (fun p => p.2.1) heq
  have hdz : d.2.2 = c.2.2 + offset.2.2 := congrArg (fun p => p.2.2) heq
  clear heq
  simp only [offsets, List.mem_cons, List.not_mem_nil, or_false] at hoffset
  rcases hoffset with rfl | rfl | rfl | rfl | rfl | rfl <;> dsimp only at hdx hdy hdz
  · exact hlevel (by omega) (heast (by omega))
  · exact hlevel (by omega) (hwest (by omega))
  · exact hlevel (by omega) (hup (by omega))
  · exact hlevel (by omega) (hdown (by omega))
  · exact hlevel (by omega) (hsouth (by omega))
  · exact hlevel (by omega) (hnorth (by omega))

theorem holds_of_mem_frontier (h : c ∈ region.frontier light) : region.Holds c := by
  simp only [frontier, List.mem_flatMap, List.mem_filterMap, List.mem_range, Option.ite_none_right_eq_some,
    Option.some.injEq] at h
  obtain ⟨lz, hlz, lx, hlx, ly, hly, -, rfl⟩ := h
  refine holds_iff.mpr ?_
  unfold top
  dsimp only
  omega

theorem mem_frontier (hc : region.Holds c) (hlit : region.level light c ≠ 0)
    (hdarker : darkerNeighbour light (region.slot c) = true) : c ∈ region.frontier light := by
  have hplace := slot_cast hc
  obtain ⟨hx, hy, hz⟩ := holds_iff.mp hc
  have hcell : (c.1 - region.originX).toNat + (c.2.2 - region.originZ).toNat * 18 +
      (c.2.1 - region.minY).toNat * 324 = region.slot c := by omega
  simp only [frontier, List.mem_flatMap, List.mem_filterMap, List.mem_range, Option.ite_none_right_eq_some,
    Option.some.injEq]
  unfold top at hy
  refine ⟨(c.2.2 - region.originZ).toNat, by omega, (c.1 - region.originX).toNat, by omega,
    (c.2.1 - region.minY).toNat, by omega, ?_, ?_⟩
  · rw [hcell]
    exact ⟨UInt8.pos_iff_ne_zero.mpr fun h => hlit (congrArg UInt8.toNat h), hdarker⟩
  · refine Prod.ext ?_ (Prod.ext ?_ ?_) <;> dsimp only <;> omega

/-! ## Spreading -/

section
variable (table blockAt)

/-- What light loses when it enters a cell. -/
def loss (c : Cell) : Nat := max 1 (table.dampening (state blockAt c.1 c.2.1 c.2.2)).toNat

/-- What is left of the light of a cell when it enters another. Full light of the sky loses nothing
straight down into a block that lets it through. -/
def give (isSky : Bool) (level : Nat) (a b : Cell) : Nat :=
  if isSky = true ∧ b = (a.1, a.2.1 - 1, a.2.2) ∧ level = 15 ∧
      table.propagatesSkylightDown (state blockAt b.1 b.2.1 b.2.2) = true then 15
  else level - loss table blockAt b

end

theorem give_le (isSky : Bool) (level : Nat) (a b : Cell) : give table blockAt isSky level a b ≤ level := by
  unfold give
  split
  · next h => exact h.2.2.1.ge
  · exact Nat.sub_le _ _

theorem give_mono (isSky : Bool) (a b : Cell) {level level' : Nat} (h : level ≤ level')
    (htop : level' ≤ 15) : give table blockAt isSky level a b ≤ give table blockAt isSky level' a b := by
  unfold give
  split
  · next hfull =>
    rw [if_pos ⟨hfull.1, hfull.2.1, by omega, hfull.2.2.2⟩]
  · split
    · omega
    · omega

theorem toNat_max (a b : UInt8) : (max a b).toNat = max a.toNat b.toNat := by
  change (if a ≤ b then b else a).toNat = _
  by_cases h : a ≤ b
  · rw [if_pos h, max_eq_right (UInt8.le_iff_toNat_le.mp h)]
  · rw [if_neg h, max_eq_left (UInt8.le_iff_toNat_le.not.mp h |> not_le.mp |>.le)]

theorem saturatingSub_toNat (a b : UInt8) : (saturatingSub a b).toNat = a.toNat - b.toNat := by
  unfold saturatingSub
  split
  · next h => exact (Nat.sub_eq_zero_of_le h).symm
  · next h => exact UInt8.toNat_sub_of_le _ _ ((UInt8.le_total a b).resolve_left h)

variable (table blockAt) in
theorem candidate_toNat (isSky : Bool) {offset : Cell} (hoffset : offset ∈ offsets) (lit : UInt8)
    (hb : b = (a.1 + offset.1, a.2.1 + offset.2.1, a.2.2 + offset.2.2)) :
    (candidate table isSky offset.2.1 lit (state blockAt b.1 b.2.1 b.2.2)).toNat =
      give table blockAt isSky lit.toNat a b := by
  have hdown : offset.2.1 = -1 ↔ b = (a.1, a.2.1 - 1, a.2.2) := by
    subst hb
    simp only [offsets, List.mem_cons, List.not_mem_nil, or_false] at hoffset
    rw [Prod.mk.injEq, Prod.mk.injEq]
    rcases hoffset with rfl | rfl | rfl | rfl | rfl | rfl <;> dsimp only <;> omega
  have hfull : lit = 15 ↔ lit.toNat = 15 := UInt8.toNat_inj.symm
  unfold candidate give
  simp only [Bool.and_eq_true, decide_eq_true_eq, hdown, hfull, and_assoc]
  split
  · rfl
  · rw [saturatingSub_toNat, toNat_max, loss, max_comm]
    rfl

section
variable (region table blockAt)

/-- A layer on its way: what is queued is pending, and so is the cell whose turn it is. -/
structure Spreading (isSky : Bool) (source : Cell → Nat) (turn : Cell → Prop)
    (acc : List UInt8 × List Cell) : Prop where
  length : acc.1.length = region.cells
  queued : ∀ c ∈ acc.2, region.Holds c
  flooding : Flooding region.Holds region.Next (give table blockAt isSky) source (region.level acc.1)
    fun c => turn c ∨ c ∈ acc.2

/-- What the turn of a cell at this level has done to one of its neighbours. -/
structure Served (isSky : Bool) (lit : Nat) (cell : Cell) (offset : Cell)
    (acc acc' : List UInt8 × List Cell) : Prop where
  same : region.level acc'.1 cell = region.level acc.1 cell
  rises : ∀ c, region.Holds c → region.level acc.1 c ≤ region.level acc'.1 c
  served : ∀ b, b = (cell.1 + offset.1, cell.2.1 + offset.2.1, cell.2.2 + offset.2.2) →
    region.Holds b → give table blockAt isSky lit cell b ≤ region.level acc'.1 b

end

variable {isSky : Bool} {source : Cell → Nat} {cell : Cell} {acc : List UInt8 × List Cell}

theorem level_set (hsize : light.length = region.cells) (hb : region.Holds b) (hc : region.Holds c)
    (value : UInt8) : region.level (light.set (region.slot b) value) c =
      Function.update (region.level light) b value.toNat c := by
  unfold level
  rw [getD_set hsize hb hc, apply_ite UInt8.toNat, Function.update_apply]

theorem Spreading.spreadTo (h : region.Spreading table blockAt isSky source (· = cell) acc)
    (hcell : region.Holds cell) {lit : UInt8} (hlit : region.level acc.1 cell = lit.toNat)
    {offset : Cell} (hoffset : offset ∈ offsets) :
    region.Spreading table blockAt isSky source (· = cell)
        (spreadTo region table blockAt isSky lit cell acc offset) ∧
      region.Served table blockAt isSky lit.toNat cell offset acc
        (spreadTo region table blockAt isSky lit cell acc offset) := by
  obtain ⟨b, hb⟩ : ∃ b : Cell, b = (cell.1 + offset.1, cell.2.1 + offset.2.1, cell.2.2 + offset.2.2) :=
    ⟨_, rfl⟩
  have hface : FaceAdjacent cell b := faceAdjacent_iff.mpr ⟨offset, hoffset, hb⟩
  have hgive := candidate_toNat table blockAt isSky hoffset lit hb
  have hslot : region.index (cell.1 + offset.1) (cell.2.1 + offset.2.1) (cell.2.2 + offset.2.2) =
      region.slot b := by
    rw [hb]
    rfl
  have hstate : state blockAt (cell.1 + offset.1) (cell.2.1 + offset.2.1) (cell.2.2 + offset.2.2) =
      state blockAt b.1 b.2.1 b.2.2 := by
    rw [hb]
  have hinside : region.inside (cell.1 + offset.1) (cell.2.1 + offset.2.1) (cell.2.2 + offset.2.2) = true ↔
      region.Holds b := by
    rw [hb]
    rfl
  unfold Region.spreadTo
  dsimp only
  rw [hslot, hstate, ← hb]
  split
  · next hout =>
    rw [Bool.not_eq_true', ← Bool.not_eq_true, hinside] at hout
    refine ⟨h, rfl, fun _ _ => le_rfl, fun b' hb' hholds => ?_⟩
    rw [hb', ← hb] at hholds
    exact absurd hholds hout
  · next hin =>
    have hholds : region.Holds b := by
      rw [← hinside]
      simpa using hin
    have hnext : region.Next cell b := ⟨hcell, hholds, hface⟩
    have hfound : acc.1[region.slot b]? = some (acc.1.getD (region.slot b) 0) := by
      have hlt : region.slot b < acc.1.length := h.length ▸ slot_lt hholds
      rw [List.getD_eq_getElem?_getD, List.getElem?_eq_getElem hlt]
      rfl
    rw [hfound]
    dsimp only
    split
    · next hlt =>
      have hlt' : region.level acc.1 b < give table blockAt isSky (region.level acc.1 cell) cell b := by
        rw [hlit, ← hgive]
        exact hlt
      have hlevels : ∀ c, region.Holds c →
          region.level (acc.1.set (region.slot b) (candidate table isSky offset.2.1 lit
            (state blockAt b.1 b.2.1 b.2.2))) c = Function.update (region.level acc.1) b
              (give table blockAt isSky (region.level acc.1 cell) cell b) c := by
        intro c hc
        rw [level_set h.length hholds hc, hgive, hlit]
      have hraised : Flooding region.Holds region.Next (give table blockAt isSky) source
          (Function.update (region.level acc.1) b
            (give table blockAt isSky (region.level acc.1 cell) cell b))
          (fun c => c = cell ∨ c ∈ acc.2 ++ [b]) :=
        h.flooding.raise hcell hnext hlt' fun c hc => by simpa [or_assoc] using hc
      refine ⟨⟨?_, ?_, ?_⟩, ?_, ?_, ?_⟩
      · rw [List.length_set, h.length]
      · intro c hc
        rcases List.mem_append.mp hc with hc | hc
        · exact h.queued c hc
        · exact List.mem_singleton.mp hc ▸ hholds
      · exact hraised.congr (fun a b hab => ⟨hab.1, hab.2.1⟩) hlevels
      · rw [hlevels cell hcell, Function.update_of_ne (ne_of_faceAdjacent hface)]
      · intro c hc
        rw [hlevels c hc]
        by_cases hcb : c = b
        · subst hcb
          rw [Function.update_self]
          exact hlt'.le
        · rw [Function.update_of_ne hcb]
      · intro b' hb' _
        rw [hb', ← hb, hlevels b hholds, Function.update_self, hlit]
    · next hdark =>
      refine ⟨h, rfl, fun _ _ => le_rfl, fun b' hb' _ => ?_⟩
      rw [hb', ← hb, ← hgive]
      exact UInt8.not_lt.mp hdark

theorem Served.trans {isSky : Bool} {lit : Nat} {offset : Cell} {acc acc' acc'' : List UInt8 × List Cell}
    (h : region.Served table blockAt isSky lit cell offset acc acc')
    (hsame : region.level acc''.1 cell = region.level acc'.1 cell)
    (hrises : ∀ c, region.Holds c → region.level acc'.1 c ≤ region.level acc''.1 c) :
    region.Served table blockAt isSky lit cell offset acc acc'' where
  same := hsame.trans h.same
  rises c hc := (h.rises c hc).trans (hrises c hc)
  served b hb hholds := (h.served b hb hholds).trans (hrises b hholds)

/-- The turn of a cell serves its neighbours one after the other. -/
theorem Spreading.foldl (hcell : region.Holds cell) {lit : UInt8} {rest : List Cell}
    (hrest : ∀ offset ∈ rest, offset ∈ offsets)
    (h : region.Spreading table blockAt isSky source (· = cell) acc)
    (hlit : region.level acc.1 cell = lit.toNat) :
    region.Spreading table blockAt isSky source (· = cell)
        (rest.foldl (Region.spreadTo region table blockAt isSky lit cell) acc) ∧
      region.level (rest.foldl (Region.spreadTo region table blockAt isSky lit cell) acc).1 cell =
        lit.toNat ∧
      (∀ c, region.Holds c → region.level acc.1 c ≤
        region.level (rest.foldl (Region.spreadTo region table blockAt isSky lit cell) acc).1 c) ∧
      ∀ offset ∈ rest, region.Served table blockAt isSky lit.toNat cell offset acc
        (rest.foldl (Region.spreadTo region table blockAt isSky lit cell) acc) := by
  induction rest generalizing acc with
  | nil => exact ⟨h, hlit, fun _ _ => le_rfl, fun _ hmem => nomatch hmem⟩
  | cons offset rest ih =>
    obtain ⟨hnext, hserved⟩ := h.spreadTo hcell hlit (hrest offset (List.mem_cons_self ..))
    obtain ⟨hend, hlit', hrises, hall⟩ := ih (fun o ho => hrest o (List.mem_cons_of_mem _ ho)) hnext
      (hserved.same.trans hlit)
    refine ⟨hend, hlit', fun c hc => (hserved.rises c hc).trans (hrises c hc), fun o ho => ?_⟩
    rcases List.mem_cons.mp ho with rfl | ho
    · exact hserved.trans (hlit'.trans (hserved.same.trans hlit).symm) hrises
    · have hlater := hall o ho
      exact ⟨hlater.same.trans hserved.same,
        fun c hc => (hserved.rises c hc).trans (hlater.rises c hc), hlater.served⟩

theorem Spreading.settle
    (h : region.Spreading table blockAt isSky source (· = cell) acc)
    (hserved : ∀ b, region.Next cell b →
      give table blockAt isSky (region.level acc.1 cell) cell b ≤ region.level acc.1 b) :
    region.Spreading table blockAt isSky source (fun _ => False) acc where
  length := h.length
  queued := h.queued
  flooding := h.flooding.settle hserved fun _ hc => hc.imp id .inr

/-- Spreading goes on until nothing is queued. -/
theorem spread_flooding {light : List UInt8} {queue : List Cell}
    (h : region.Spreading table blockAt isSky source (fun _ => False) (light, queue)) :
    (region.spread table blockAt isSky light queue).length = region.cells ∧
      Flooding region.Holds region.Next (give table blockAt isSky) source
        (region.level (region.spread table blockAt isSky light queue)) fun _ => False := by
  induction light, queue using spread.induct region table blockAt isSky with
  | case1 light =>
    rw [spread]
    refine ⟨h.length, h.flooding.mono fun c hc => ?_⟩
    rcases hc with hc | hc
    · exact hc
    · cases hc
  | case2 light cell rest lit hdark ih =>
    rw [spread]
    simp only [lit] at hdark
    simp only [hdark, if_true]
    have hlevel : region.level light cell = 0 := congrArg UInt8.toNat hdark
    have hquiet : ∀ b, region.Next cell b →
        give table blockAt isSky (region.level light cell) cell b ≤ region.level light b := fun b _ =>
      (give_le isSky _ cell b).trans (hlevel.le.trans (Nat.zero_le _))
    refine ih ⟨h.length, fun c hc => h.queued c (List.mem_cons_of_mem _ hc),
      h.flooding.settle hquiet fun c hc => ?_⟩
    rcases hc with hc | hc
    · exact hc.elim
    · exact (List.mem_cons.mp hc).imp id .inr
  | case3 light cell rest lit hlit next ih =>
    rw [spread]
    simp only [lit] at hlit
    simp only [hlit, if_false]
    have hcell : region.Holds cell := h.queued cell (List.mem_cons_self ..)
    have hturn : region.Spreading table blockAt isSky source (· = cell) (light, rest) := by
      refine ⟨h.length, fun c hc => h.queued c (List.mem_cons_of_mem _ hc),
        h.flooding.mono fun c hc => ?_⟩
      rcases hc with hc | hc
      · exact hc.elim
      · exact List.mem_cons.mp hc
    obtain ⟨hend, hlevel, -, hserved⟩ := hturn.foldl hcell (fun _ ho => ho) rfl
    refine ih (hend.settle fun b hnext => ?_)
    obtain ⟨offset, hoffset, hb⟩ := faceAdjacent_iff.mp hnext.2.2
    rw [hlevel]
    exact (hserved offset hoffset).served b hb hnext.2.1

variable (table blockAt isSky) in
/-- A layer that is seeded from its sources ends at the greatest level a path brings. -/
theorem layer_isGreatest {light : List UInt8} (hsize : light.length = region.cells)
    (hsource : ∀ c, region.Holds c → region.level light c = source c)
    (htop : ∀ c, region.Holds c → source c ≤ 15) (hc : region.Holds c) :
    IsGreatest {level | Brings region.Holds region.Next (give table blockAt isSky) source c level}
      (region.level (region.spread table blockAt isSky light (region.frontier light)) c) := by
  have hstart : region.Spreading table blockAt isSky source (fun _ => False)
      (light, region.frontier light) := by
    refine ⟨hsize, fun c => holds_of_mem_frontier, fun c hc => (hsource c hc).ge,
      fun c hc => ⟨c, [], hc, .nil c, (hsource c hc).symm⟩, fun a b hnext => ?_⟩
    by_cases hdark : region.level light a = 0
    · exact .inr ((give_le isSky _ a b).trans (hdark.le.trans (Nat.zero_le _)))
    · cases hdarker : darkerNeighbour light (region.slot a) with
      | true => exact .inl (.inr (mem_frontier hnext.1 hdark hdarker))
      | false =>
        exact .inr ((give_le isSky _ a b).trans (le_of_not_darkerNeighbour hsize hdarker hnext))
  obtain ⟨-, hflood⟩ := spread_flooding hstart
  refine hflood.isGreatest (fun a b level hnext hle => give_mono isSky a b hle ?_) hc
  exact (hflood.brought a hnext.1).le (give_le isSky) htop

end Region

/-! ## The chunk's own cells -/

namespace LightArray

theorem low_of_low (b v : UInt8) : ((b &&& (0xF0 : UInt8)) ||| (v &&& (0x0F : UInt8))) &&& (0x0F : UInt8) =
    v &&& (0x0F : UInt8) := by
  rw [← UInt8.toBitVec_inj]
  ext i hi
  simp only [UInt8.toBitVec_and, UInt8.toBitVec_or, BitVec.getElem_and, BitVec.getElem_or]
  interval_cases i <;> simp

theorem high_of_low (b v : UInt8) : ((b &&& (0xF0 : UInt8)) ||| (v &&& (0x0F : UInt8))) >>> (4 : UInt8) =
    b >>> (4 : UInt8) := by
  rw [← UInt8.toBitVec_inj]
  ext i hi
  simp [BitVec.getElem_ushiftRight]
  interval_cases i <;> simp

theorem low_of_high (b v : UInt8) :
    ((b &&& (0x0F : UInt8)) ||| ((v &&& (0x0F : UInt8)) <<< (4 : UInt8))) &&& (0x0F : UInt8) =
      b &&& (0x0F : UInt8) := by
  rw [← UInt8.toBitVec_inj]
  ext i hi
  simp only [UInt8.toBitVec_and, UInt8.toBitVec_or, BitVec.getElem_and, BitVec.getElem_or]
  interval_cases i <;> simp

theorem high_of_high (b v : UInt8) :
    ((b &&& (0x0F : UInt8)) ||| ((v &&& (0x0F : UInt8)) <<< (4 : UInt8))) >>> (4 : UInt8) =
      v &&& (0x0F : UInt8) := by
  rw [← UInt8.toBitVec_inj]
  ext i hi
  simp [BitVec.getElem_ushiftRight]
  interval_cases i <;> simp

theorem and_low {v : UInt8} (h : v.toNat ≤ 15) : v &&& (0x0F : UInt8) = v := by
  rw [← UInt8.toNat_inj, UInt8.toNat_and]
  have hlt : v.toNat < 2 ^ 4 := by omega
  simpa using Nat.and_two_pow_sub_one_of_lt_two_pow hlt

/-- A place in an array. -/
abbrev Place := Int × Int × Int

def Local (p : Place) : Prop := (0 ≤ p.1 ∧ p.1 < 16) ∧ (0 ≤ p.2.1 ∧ p.2.1 < 16) ∧ 0 ≤ p.2.2 ∧ p.2.2 < 16

theorem get_set (a : LightArray) {p q : Place} (hp : Local p) (hq : Local q) {v : UInt8}
    (hv : v.toNat ≤ 15) : (a.set p.1 p.2.1 p.2.2 v).get q.1 q.2.1 q.2.2 =
      if q = p then v else a.get q.1 q.2.1 q.2.2 := by
  have hbyte : index p.1 p.2.1 p.2.2 / 2 < a.bytes.length := by
    rw [a.size]
    unfold index
    obtain ⟨hx, hy, hz⟩ := hp
    omega
  have hiff : q = p ↔ index q.1 q.2.1 q.2.2 = index p.1 p.2.1 p.2.2 := by
    obtain ⟨hx, hy, hz⟩ := hp
    obtain ⟨hx', hy', hz'⟩ := hq
    unfold index
    constructor
    · rintro rfl
      rfl
    · intro h
      refine Prod.ext ?_ (Prod.ext ?_ ?_) <;> omega
  unfold get set
  dsimp only
  generalize index q.1 q.2.1 q.2.2 = j at hiff
  generalize index p.1 p.2.1 p.2.2 = i at hbyte hiff
  rw [if_congr hiff rfl rfl, List.getD_eq_getElem?_getD]
  by_cases hsame : j / 2 = i / 2
  · rw [hsame, List.getElem?_set_self hbyte, Option.getD_some]
    by_cases hij : j = i
    · subst hij
      rw [if_pos rfl]
      split
      · rw [low_of_low, and_low hv]
      · rw [high_of_high, and_low hv]
    · rw [if_neg hij]
      rcases Nat.mod_two_eq_zero_or_one j with hj | hj <;> rcases Nat.mod_two_eq_zero_or_one i with hi | hi
      · omega
      · rw [if_pos hj, if_neg (by omega), if_pos hj, low_of_high]
      · rw [if_neg (by omega), if_pos hi, if_neg (by omega), high_of_low]
      · omega
  · rw [List.getElem?_set_ne (Ne.symm hsame), if_neg fun h => hsame (congrArg (· / 2) h),
      List.getD_eq_getElem?_getD]

theorem get_foldl_set {value : Place → UInt8} {places : List Place} (hplaces : ∀ p ∈ places, Local p)
    (hvalue : ∀ p ∈ places, (value p).toNat ≤ 15) (a : LightArray) {q : Place} (hq : Local q) :
    (places.foldl (fun a p => a.set p.1 p.2.1 p.2.2 (value p)) a).get q.1 q.2.1 q.2.2 =
      if q ∈ places then value q else a.get q.1 q.2.1 q.2.2 := by
  induction places generalizing a with
  | nil => simp
  | cons p places ih =>
    rw [List.foldl_cons, ih (fun p hp => hplaces p (List.mem_cons_of_mem _ hp))
      (fun p hp => hvalue p (List.mem_cons_of_mem _ hp)),
      get_set a (hplaces p (List.mem_cons_self ..)) hq (hvalue p (List.mem_cons_self ..))]
    by_cases hmem : q ∈ places
    · rw [if_pos hmem, if_pos (List.mem_cons_of_mem _ hmem)]
    · rw [if_neg hmem]
      by_cases hqp : q = p
      · subst hqp
        rw [if_pos rfl, if_pos (List.mem_cons_self ..)]
      · rw [if_neg hqp, if_neg fun h => hmem (List.mem_of_ne_of_mem hqp h)]

end LightArray

namespace Region
variable {region : Region}

open LightArray (Place Local)

/-- The places of an array, in the order they are copied. -/
def places : List Place :=
  (List.range 16).flatMap fun (x : Nat) => (List.range 16).flatMap fun (z : Nat) =>
    (List.range 16).map fun (y : Nat) => ((x : Int), (y : Int), (z : Int))

theorem mem_places {p : Place} : p ∈ places ↔ Local p := by
  obtain ⟨x, y, z⟩ := p
  simp only [places, List.mem_flatMap, List.mem_map, List.mem_range, Prod.mk.injEq, Local]
  constructor
  · rintro ⟨_, hx, _, hz, _, hy, rfl, rfl, rfl⟩
    omega
  · rintro ⟨hx, hy, hz⟩
    exact ⟨x.toNat, by omega, z.toNat, by omega, y.toNat, by omega, by omega, by omega, by omega⟩

variable (region) in
/-- The cell of a place of a section. -/
def cellOf (chunkX chunkZ : Int) (number : Nat) (p : Place) : Cell :=
  (chunkX * 16 + p.1, region.minY + number * 16 + p.2.1, chunkZ * 16 + p.2.2)

/-- The arrays of a chunk hold the levels of its cells. -/
theorem copyInterior_get {light : List UInt8} {chunkX chunkZ : Int} {sectionCount number : Nat}
    (hnumber : number < sectionCount)
    (htop : ∀ p, Local p → region.level light (region.cellOf chunkX chunkZ number p) ≤ 15) {p : Place}
    (hp : Local p) : ∃ a, (region.copyInterior light chunkX chunkZ sectionCount)[number]? = some a ∧
      (a.get p.1 p.2.1 p.2.2).toNat = region.level light (region.cellOf chunkX chunkZ number p) := by
  let value : Place → UInt8 := fun p =>
    light.getD (region.slot (region.cellOf chunkX chunkZ number p)) 0
  have hcopy : (List.range 16).foldl (fun (a : LightArray) (x : Nat) =>
      (List.range 16).foldl (fun (a : LightArray) (z : Nat) =>
        (List.range 16).foldl (fun (a : LightArray) (y : Nat) =>
          a.set x y z (light.getD (region.index (chunkX * 16 + x) (region.minY + number * 16 + y)
            (chunkZ * 16 + z)) 0)) a) a) .default =
      places.foldl (fun a p => a.set p.1 p.2.1 p.2.2 (value p)) .default := by
    simp only [places, List.foldl_flatMap, List.foldl_map]
    rfl
  have hfound : (region.copyInterior light chunkX chunkZ sectionCount)[number]? =
      some (places.foldl (fun a p => a.set p.1 p.2.1 p.2.2 (value p)) .default) := by
    rw [copyInterior, List.getElem?_map, List.getElem?_range hnumber]
    exact congrArg some hcopy
  have hget : (places.foldl (fun a p => a.set p.1 p.2.1 p.2.2 (value p)) LightArray.default).get
      p.1 p.2.1 p.2.2 = if p ∈ places then value p else LightArray.default.get p.1 p.2.1 p.2.2 :=
    LightArray.get_foldl_set (fun p hp => mem_places.mp hp) (fun p hp => htop p (mem_places.mp hp)) _ hp
  refine ⟨_, hfound, ?_⟩
  rw [hget, if_pos (mem_places.mpr hp)]
  rfl

theorem holds_cellOf {chunkX chunkZ minY : Int} {sectionCount number : Nat} (h : number < sectionCount)
    {p : Place} (hp : Local p) : Region.Holds ⟨chunkX * 16 - 1, chunkZ * 16 - 1, minY, sectionCount * 16⟩
      (Region.cellOf ⟨chunkX * 16 - 1, chunkZ * 16 - 1, minY, sectionCount * 16⟩ chunkX chunkZ number p) := by
  obtain ⟨hx, hy, hz⟩ := hp
  refine holds_iff.mpr ?_
  unfold cellOf top
  dsimp only
  omega

end Region

/-! ## The light of a chunk -/

/-- The region that is lit for a chunk. -/
def chunkRegion (chunkX chunkZ minY : Int) (sectionCount : Nat) : Region :=
  ⟨chunkX * 16 - 1, chunkZ * 16 - 1, minY, sectionCount * 16⟩

/-- The greatest level a path in the region leaves of what a block emits. -/
def IsBlockLight (region : Region) (table : LightTable) (blockAt : BlockAt) (c : Cell) (level : Nat) :
    Prop :=
  IsGreatest {level | ∃ e path, region.Holds e ∧ Path region.Next e path c ∧
    (table.emission (Region.state blockAt e.1 e.2.1 e.2.2)).toNat -
      (path.map (Region.loss table blockAt)).sum = level} level

/-- The greatest level a path in the region leaves of the light of the sky. -/
def IsSkyLight (region : Region) (table : LightTable) (blockAt : BlockAt) (c : Cell) (level : Nat) :
    Prop :=
  IsGreatest {level | ∃ e path, region.Holds e ∧ Path region.Next e path c ∧
    arrive (Region.give table blockAt true) (region.skySource table blockAt e) e path = level} level

/-- The light is computed, and every cell of the chunk has its own. -/
def FixedPoint (table : LightTable) (chunkX chunkZ minY : Int) (sectionCount : Nat) (blockAt : BlockAt) :
    Prop :=
  ∃ light, computeChunkLight table chunkX chunkZ minY sectionCount blockAt = some (.ok light) ∧
    ∀ number < sectionCount, ∀ p, LightArray.Local p → ∃ sky block,
      light.sky[number]? = some sky ∧ light.block[number]? = some block ∧
      IsSkyLight (chunkRegion chunkX chunkZ minY sectionCount) table blockAt
        ((chunkRegion chunkX chunkZ minY sectionCount).cellOf chunkX chunkZ number p)
        (sky.get p.1 p.2.1 p.2.2).toNat ∧
      IsBlockLight (chunkRegion chunkX chunkZ minY sectionCount) table blockAt
        ((chunkRegion chunkX chunkZ minY sectionCount).cellOf chunkX chunkZ number p)
        (block.get p.1 p.2.1 p.2.2).toNat

/-- The number of cells and every coordinate of the region, and of the cells beside it, are `i32`s. -/
structure RegionFits (chunkX chunkZ minY : Int) (sectionCount : Nat) : Prop where
  some_section : 0 < sectionCount
  cells : 324 * (sectionCount * 16) < 2 ^ 31
  x : fitsI32 chunkX = true
  z : fitsI32 chunkZ = true
  height : fitsHeight minY (sectionCount * 16) = true

theorem emission_le {table : LightTable} (htable : ∀ e ∈ table.emissions, e.toNat ≤ 15) (state : Int) :
    (table.emission state).toNat ≤ 15 := by
  unfold LightTable.emission LightTable.levelAt
  split
  · exact Nat.zero_le _
  · rw [List.getD_eq_getElem?_getD]
    cases hfound : table.emissions[state.toNat]? with
    | none => exact Nat.zero_le _
    | some e => exact htable e (List.mem_of_getElem? hfound)

theorem skySource_le (region : Region) (table : LightTable) (blockAt : BlockAt) (c : Cell) :
    region.skySource table blockAt c ≤ 15 := by
  unfold Region.skySource
  split
  · exact le_rfl
  · exact Nat.zero_le _

open Region in
/-- Without the sky, what is left at the end of a path is the emission less the losses. -/
theorem brings_block_iff {region : Region} {table : LightTable} {blockAt : BlockAt} {c : Cell}
    {level : Nat} : Brings region.Holds region.Next (give table blockAt false)
      (blockSource table blockAt) c level ↔ ∃ e path, region.Holds e ∧ Path region.Next e path c ∧
        (table.emission (Region.state blockAt e.1 e.2.1 e.2.2)).toNat -
          (path.map (Region.loss table blockAt)).sum = level := by
  have hgive : give table blockAt false = fun level _ b => level - loss table blockAt b := by
    funext level a b
    exact if_neg fun h => Bool.false_ne_true h.1
  unfold Brings
  rw [hgive]
  simp only [arrive_sub, blockSource]

/-- What is copied out of a layer when it has spread. -/
theorem layer_copied {table : LightTable} {chunkX chunkZ minY : Int} {sectionCount number : Nat}
    {blockAt : BlockAt} (isSky : Bool) {source : Cell → Nat} {light : List UInt8}
    (hsize : light.length = (chunkRegion chunkX chunkZ minY sectionCount).cells)
    (hsource : ∀ c, (chunkRegion chunkX chunkZ minY sectionCount).Holds c →
      (chunkRegion chunkX chunkZ minY sectionCount).level light c = source c)
    (htop : ∀ c, (chunkRegion chunkX chunkZ minY sectionCount).Holds c → source c ≤ 15)
    (hnumber : number < sectionCount) {p : LightArray.Place} (hp : LightArray.Local p) :
    ∃ a, ((chunkRegion chunkX chunkZ minY sectionCount).copyInterior
        ((chunkRegion chunkX chunkZ minY sectionCount).spread table blockAt isSky light
          ((chunkRegion chunkX chunkZ minY sectionCount).frontier light))
        chunkX chunkZ sectionCount)[number]? = some a ∧
      IsGreatest {level | Brings (chunkRegion chunkX chunkZ minY sectionCount).Holds
        (chunkRegion chunkX chunkZ minY sectionCount).Next (Region.give table blockAt isSky) source
        ((chunkRegion chunkX chunkZ minY sectionCount).cellOf chunkX chunkZ number p) level}
        (a.get p.1 p.2.1 p.2.2).toNat := by
  have hgreatest {p : LightArray.Place} (hp : LightArray.Local p) :=
    Region.layer_isGreatest table blockAt isSky hsize hsource htop
      (show (chunkRegion chunkX chunkZ minY sectionCount).Holds
        ((chunkRegion chunkX chunkZ minY sectionCount).cellOf chunkX chunkZ number p) from
          Region.holds_cellOf hnumber hp)
  obtain ⟨a, hfound, hget⟩ := Region.copyInterior_get hnumber
    (fun p hp => (hgreatest hp).1.le (Region.give_le isSky) htop) hp
  exact ⟨a, hfound, hget ▸ hgreatest hp⟩

/-- The light of a chunk is the fixed point of the propagation. -/
theorem computeChunkLight_fixedPoint {table : LightTable} {chunkX chunkZ minY : Int}
    {sectionCount : Nat} (htable : ∀ e ∈ table.emissions, e.toNat ≤ 15)
    (hfits : RegionFits chunkX chunkZ minY sectionCount) (blockAt : BlockAt) :
    FixedPoint table chunkX chunkZ minY sectionCount blockAt := by
  obtain ⟨hsome, hcells, hx, hz, hheight⟩ := hfits
  have hcompute : computeChunkLight table chunkX chunkZ minY sectionCount blockAt = some (.ok
      ⟨(chunkRegion chunkX chunkZ minY sectionCount).copyInterior
        ((chunkRegion chunkX chunkZ minY sectionCount).spread table blockAt true
          ((chunkRegion chunkX chunkZ minY sectionCount).seed table blockAt).1
          ((chunkRegion chunkX chunkZ minY sectionCount).frontier
            ((chunkRegion chunkX chunkZ minY sectionCount).seed table blockAt).1))
        chunkX chunkZ sectionCount,
      (chunkRegion chunkX chunkZ minY sectionCount).copyInterior
        ((chunkRegion chunkX chunkZ minY sectionCount).spread table blockAt false
          ((chunkRegion chunkX chunkZ minY sectionCount).seed table blockAt).2
          ((chunkRegion chunkX chunkZ minY sectionCount).frontier
            ((chunkRegion chunkX chunkZ minY sectionCount).seed table blockAt).2))
        chunkX chunkZ sectionCount⟩) := by
    have hchecks : ¬(decide (2 ^ 31 ≤ 324 * (sectionCount * 16)) || !fitsI32 chunkX ||
        !fitsI32 chunkZ || !fitsHeight minY (sectionCount * 16)) = true := by
      simp only [hx, hz, hheight, Bool.not_true, Bool.or_false, decide_eq_true_eq]
      omega
    unfold computeChunkLight
    rw [if_neg hsome.ne', if_neg (by omega), if_neg hchecks]
    dsimp only [chunkRegion]
  obtain ⟨⟨hlengthSky, hsky⟩, hlengthBlock, hblock⟩ :=
    Region.seed_spec (chunkRegion chunkX chunkZ minY sectionCount) table blockAt
  refine ⟨_, hcompute, fun number hnumber p hp => ?_⟩
  obtain ⟨sky, hfoundSky, hgreatestSky⟩ := layer_copied true hlengthSky hsky
    (fun c _ => skySource_le _ table blockAt c) hnumber hp
  obtain ⟨block, hfoundBlock, hgreatestBlock⟩ := layer_copied false hlengthBlock hblock
    (fun c _ => emission_le htable _) hnumber hp
  refine ⟨sky, block, hfoundSky, hfoundBlock, hgreatestSky, ?_⟩
  unfold IsBlockLight
  simpa only [brings_block_iff] using hgreatestBlock

theorem computeChunkLight_fixedPoint_lit :
    FixedPoint ⟨[0, 14], [0, 1], [true, false]⟩ 0 0 (-64) 24
      (fun x y z => if (x, y, z) = (8, 64, 8) then some 1 else none) :=
  computeChunkLight_fixedPoint (by decide +kernel) ⟨by decide, by decide, by decide, by decide, by decide⟩ _

/-- A chunk of `2 ^ 27` sections is higher than an `i32` and is refused. -/
theorem computeChunkLight_refuses :
    ¬FixedPoint ⟨[], [], []⟩ 0 0 0 (2 ^ 27) (fun _ _ _ => none) := by
  rintro ⟨light, hcompute, -⟩
  have hrefused : computeChunkLight ⟨[], [], []⟩ 0 0 0 (2 ^ 27) (fun _ _ _ => none) =
      some (.error (.invariant "chunk height overflows")) := by
    rw [computeChunkLight, if_neg (by decide), if_pos (by decide)]
  rw [hrefused] at hcompute
  cases hcompute

end Apoptosis.L2.Terrain
