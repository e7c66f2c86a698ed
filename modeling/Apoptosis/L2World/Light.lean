import Apoptosis.ServerError
import Mathlib.Tactic
/-!
# Light of a chunk (`world/src/light.rs`, `registry/src/light.rs`)

The chunk's columns and one more on each side are lit together, from above and
from the blocks that emit, and the light spreads breadth first. A write past
the end of an array would be a panic of the source; no index of a region is.

* `spread` ends: each step darkens nothing, and brightens a cell or shortens the
  queue.
* `computeChunkLight_congr`: the light of a chunk is a function of the region.
-/
namespace Apoptosis.L2.Terrain

/-- mirrors crates/registry/src/light.rs:24-28 (`LightTable`) -/
structure LightTable where
  emissions : List UInt8
  dampenings : List UInt8
  propagates : List Bool

namespace LightTable

/-- mirrors crates/registry/src/light.rs:180-185 (`LightTable::at`) -/
def levelAt (state : Int) (column : List UInt8) (fallback : UInt8) : UInt8 :=
  if state < 0 then fallback else column.getD state.toNat fallback

/-- mirrors crates/registry/src/light.rs:147-158 (`emission`, `dampening`) -/
def emission (table : LightTable) (state : Int) : UInt8 := levelAt state table.emissions 0

def dampening (table : LightTable) (state : Int) : UInt8 := levelAt state table.dampenings 0

/-- mirrors crates/registry/src/light.rs:153-158 (`propagates_skylight_down`) -/
def propagatesSkylightDown (table : LightTable) (state : Int) : Bool :=
  if state < 0 then true else table.propagates.getD state.toNat true

end LightTable

/-- mirrors crates/world/src/light.rs:52-55 (`LightArray`) -/
structure LightArray where
  bytes : List UInt8
  size : bytes.length = 2048
  deriving DecidableEq

namespace LightArray

def default : LightArray := ⟨List.replicate 2048 0, List.length_replicate⟩

/-- mirrors crates/world/src/light.rs:80-82 (`LightArray::index`) -/
def index (x y z : Int) : Nat := (x + z * 16 + y * 256).toNat

/-- mirrors crates/world/src/light.rs:86-94 (`LightArray::get`) -/
def get (a : LightArray) (x y z : Int) : UInt8 :=
  let cell := index x y z
  let byte : UInt8 := a.bytes.getD (cell / 2) 0
  if cell % 2 = 0 then byte &&& (0x0F : UInt8) else byte >>> (4 : UInt8)

/-- mirrors crates/world/src/light.rs:97-105 (`LightArray::set`) -/
def set (a : LightArray) (x y z : Int) (level : UInt8) : LightArray where
  bytes :=
    let cell := index x y z
    let byte : UInt8 := a.bytes.getD (cell / 2) 0
    a.bytes.set (cell / 2) (if cell % 2 = 0 then (byte &&& (0xF0 : UInt8)) ||| (level &&& (0x0F : UInt8))
      else (byte &&& (0x0F : UInt8)) ||| ((level &&& (0x0F : UInt8)) <<< (4 : UInt8)))
  size := by rw [List.length_set, a.size]

end LightArray

/-- mirrors crates/world/src/light.rs:140-145 (`ChunkLight`) -/
structure ChunkLight where
  sky : List LightArray
  block : List LightArray
  deriving DecidableEq

/-- What a caller answers for the block at a place; `none` for a chunk that is not loaded. -/
abbrev BlockAt := Int → Int → Int → Option Int

abbrev Cell := Int × Int × Int

/-- The columns that are lit together, eighteen by eighteen of them. -/
structure Region where
  originX : Int
  originZ : Int
  minY : Int
  height : Nat
  deriving DecidableEq, Repr

namespace Region
variable (region : Region) (table : LightTable) (blockAt : BlockAt)

def top : Int := region.minY + region.height - 1

def index (x y z : Int) : Nat :=
  (x - region.originX + (z - region.originZ) * 18 + (y - region.minY) * 324).toNat

def cells : Nat := 324 * region.height

/-- The block of a cell, or air. -/
def state (blockAt : BlockAt) (x y z : Int) : Int := (blockAt x y z).getD 0

/-! ## Seeding -/

/-- Sky light falls from `y` while every block lets it through, `rest` cells at most. -/
def fall (x z : Int) : Nat → Int → List UInt8 → List UInt8
  | 0, _, sky => sky
  | rest + 1, y, sky =>
    if table.propagatesSkylightDown (state blockAt x y z) then
      fall x z rest (y - 1) (sky.set (region.index x y z) 15)
    else sky

/-- A block that emits lights its cell. -/
def emit (x z : Int) (block : List UInt8) (dy : Nat) : List UInt8 :=
  let y := region.minY + dy
  let emission := table.emission (state blockAt x y z)
  let cell := region.index x y z
  if 0 < emission ∧ block.getD cell 0 < emission then block.set cell emission else block

def columns : List (Int × Int) :=
  (List.range 18).flatMap fun (lx : Nat) =>
    (List.range 18).map fun (lz : Nat) => (region.originX + lx, region.originZ + lz)

/-- The cells lit by the sky and by blocks before anything spreads. -/
def seed : List UInt8 × List UInt8 :=
  region.columns.foldl (fun light column =>
    (fall region table blockAt column.1 column.2 region.height region.top light.1,
      (List.range region.height).foldl (emit region table blockAt column.1 column.2) light.2))
    (List.replicate region.cells 0, List.replicate region.cells 0)

/-! ## Spreading -/

/-- mirrors crates/world/src/light.rs:385-413 (`darker_neighbour`) -/
def darkerNeighbour (light : List UInt8) (cell : Nat) : Bool :=
  let own := light.getD cell 0
  let row := cell % 324 / 18
  let column := cell % 324 % 18
  (324 ≤ cell && light.getD (cell - 324) 0 < own) ||
    (cell + 324 < light.length && light.getD (cell + 324) 0 < own) ||
    (column + 1 < 18 && light.getD (cell + 1) 0 < own) ||
    (1 ≤ column && light.getD (cell - 1) 0 < own) ||
    (row + 1 < 18 && light.getD (cell + 18) 0 < own) ||
    (1 ≤ row && light.getD (cell - 18) 0 < own)

/-- mirrors crates/world/src/light.rs:343-374 (`queue_frontier`), for one of the layers -/
def frontier (light : List UInt8) : List Cell :=
  (List.range 18).flatMap fun (lz : Nat) => (List.range 18).flatMap fun (lx : Nat) =>
    (List.range region.height).filterMap fun ly =>
      let cell := lx + lz * 18 + ly * 324
      if 0 < light.getD cell 0 ∧ darkerNeighbour light cell then
        some (region.originX + lx, region.minY + ly, region.originZ + lz)
      else none

def offsets : List Cell :=
  [(1, 0, 0), (-1, 0, 0), (0, 1, 0), (0, -1, 0), (0, 0, 1), (0, 0, -1)]

def inside (x y z : Int) : Bool :=
  !(x < region.originX || z < region.originZ || y < region.minY || region.top < y) &&
    !(region.originX + 18 ≤ x || region.originZ + 18 ≤ z)

/-- `u8::saturating_sub` -/
def saturatingSub (a b : UInt8) : UInt8 := if a ≤ b then 0 else a - b

/-- The light a cell gives a neighbour. -/
def candidate (isSky : Bool) (dy : Int) (level : UInt8) (block : Int) : UInt8 :=
  if isSky && dy = -1 && level = 15 && table.propagatesSkylightDown block then 15
  else saturatingSub level (max (table.dampening block) 1)

/-- One neighbour of a cell: brightened and queued, or left. -/
def spreadTo (isSky : Bool) (level : UInt8) (cell : Cell) (acc : List UInt8 × List Cell)
    (offset : Cell) : List UInt8 × List Cell :=
  let x := cell.1 + offset.1
  let y := cell.2.1 + offset.2.1
  let z := cell.2.2 + offset.2.2
  if !region.inside x y z then acc
  else
    let light := candidate table isSky offset.2.1 level (state blockAt x y z)
    match acc.1[region.index x y z]? with
    | none => acc
    | some old =>
      if old < light then (acc.1.set (region.index x y z) light, acc.2 ++ [(x, y, z)]) else acc

/-- What the cells lack of the brightest byte. -/
def deficit (light : List UInt8) : Nat := (light.map fun v => 255 - v.toNat).sum

theorem deficit_set {light : List UInt8} {i : Nat} {old new : UInt8} (hold : light[i]? = some old)
    (hlt : old < new) : deficit (light.set i new) < deficit light := by
  induction light generalizing i with
  | nil => simp at hold
  | cons v light ih =>
    have hv := v.toNat_lt
    have hn := new.toNat_lt
    cases i with
    | zero =>
      obtain rfl : v = old := by simpa using hold
      have hlt' : v.toNat < new.toNat := hlt
      simp only [List.set_cons_zero, deficit, List.map_cons, List.sum_cons]
      omega
    | succ i =>
      have htail := ih (i := i) (by simpa using hold)
      simp only [List.set_cons_succ, deficit, List.map_cons, List.sum_cons] at htail ⊢
      omega

/-- Either nothing changes, or some cell is brighter. -/
def Progress (acc acc' : List UInt8 × List Cell) : Prop :=
  acc' = acc ∨ deficit acc'.1 < deficit acc.1

theorem Progress.trans {a b c : List UInt8 × List Cell} (h : Progress a b) (h' : Progress b c) :
    Progress a c := by
  rcases h with rfl | h
  · exact h'
  · rcases h' with rfl | h'
    · exact .inr h
    · exact .inr (h'.trans h)

theorem spreadTo_progress (isSky : Bool) (level : UInt8) (cell : Cell) (acc : List UInt8 × List Cell)
    (offset : Cell) : Progress acc (spreadTo region table blockAt isSky level cell acc offset) := by
  unfold spreadTo
  dsimp only
  split
  · exact .inl rfl
  · split
    · exact .inl rfl
    · next old hold =>
      split
      · next hlt => exact .inr (deficit_set hold hlt)
      · exact .inl rfl

theorem foldl_progress (isSky : Bool) (level : UInt8) (cell : Cell) (offsets : List Cell)
    (acc : List UInt8 × List Cell) :
    Progress acc (offsets.foldl (spreadTo region table blockAt isSky level cell) acc) := by
  induction offsets generalizing acc with
  | nil => exact .inl rfl
  | cons offset offsets ih =>
    exact (spreadTo_progress region table blockAt isSky level cell acc offset).trans (ih _)

/-- mirrors crates/world/src/light.rs:414-472 (`spread`) -/
def spread (isSky : Bool) (light : List UInt8) (queue : List Cell) : List UInt8 :=
  match queue with
  | [] => light
  | cell :: rest =>
    let level := light.getD (region.index cell.1 cell.2.1 cell.2.2) 0
    if level = 0 then spread isSky light rest
    else
      let next := offsets.foldl (spreadTo region table blockAt isSky level cell) (light, rest)
      spread isSky next.1 next.2
  termination_by (deficit light, queue.length)
  decreasing_by
    · exact Prod.Lex.right _ (Nat.lt_succ_self _)
    · rcases foldl_progress region table blockAt isSky level cell offsets (light, rest) with heq | hlt
      · simp only [level] at heq
        rw [heq]
        exact Prod.Lex.right _ (Nat.lt_succ_self _)
      · exact Prod.Lex.left _ _ hlt

/-! ## The chunk's own cells -/

/-- mirrors crates/world/src/light.rs:293-334 (`copy_interior`), for one of the layers -/
def copyInterior (light : List UInt8) (chunkX chunkZ : Int) (sectionCount : Nat) : List LightArray :=
  (List.range sectionCount).map fun (number : Nat) =>
    let sectionY := region.minY + number * 16
    (List.range 16).foldl (fun (a : LightArray) (x : Nat) =>
      (List.range 16).foldl (fun (a : LightArray) (z : Nat) =>
        (List.range 16).foldl (fun (a : LightArray) (y : Nat) =>
          a.set x y z (light.getD (region.index (chunkX * 16 + x) (sectionY + y) (chunkZ * 16 + z)) 0))
          a) a) .default

end Region

/-- The coordinates of a chunk's region are `i32`s, and so are the sums that lead to them. -/
def fitsI32 (chunk : Int) : Bool := -2 ^ 31 ≤ chunk * 16 - 1 && chunk * 16 + 16 < 2 ^ 31

/-- The heights of a region are `i32`s, and so are the ones below and above it. -/
def fitsHeight (minY : Int) (height : Nat) : Bool := -2 ^ 31 < minY && minY + height < 2 ^ 31

/-- mirrors crates/world/src/light.rs:156-287 (`compute_chunk_light`); `none` where a coordinate or
the number of cells may leave `i32` -/
def computeChunkLight (table : LightTable) (chunkX chunkZ minY : Int) (sectionCount : Nat)
    (blockAt : BlockAt) : Option (ServerResult ChunkLight) :=
  if sectionCount = 0 then some (.error (.invariant "a chunk with no sections has no light"))
  else if 2 ^ 31 ≤ sectionCount * 16 then some (.error (.invariant "chunk height overflows"))
  else if 2 ^ 31 ≤ 324 * (sectionCount * 16) || !fitsI32 chunkX || !fitsI32 chunkZ ||
      !fitsHeight minY (sectionCount * 16) then none
  else
    let region : Region := ⟨chunkX * 16 - 1, chunkZ * 16 - 1, minY, sectionCount * 16⟩
    let (sky, block) := region.seed table blockAt
    let sky' := region.spread table blockAt true sky (region.frontier sky)
    let block' := region.spread table blockAt false block (region.frontier block)
    some (.ok ⟨region.copyInterior sky' chunkX chunkZ sectionCount,
      region.copyInterior block' chunkX chunkZ sectionCount⟩)

/-! ## What the light depends on -/

namespace Region
variable {region : Region} {table : LightTable} {f g : BlockAt}

/-- The same blocks in the region. -/
def Agree (region : Region) (f g : BlockAt) : Prop :=
  ∀ x y z, region.inside x y z = true → state f x y z = state g x y z

theorem inside_iff {x y z : Int} : region.inside x y z = true ↔
    (region.originX ≤ x ∧ x < region.originX + 18) ∧ (region.minY ≤ y ∧ y ≤ region.top) ∧
      (region.originZ ≤ z ∧ z < region.originZ + 18) := by
  simp only [inside, Bool.and_eq_true, Bool.not_eq_true', Bool.or_eq_false_iff, decide_eq_false_iff_not]
  omega

theorem fall_congr (h : region.Agree f g) {x z : Int}
    (hx : region.originX ≤ x ∧ x < region.originX + 18)
    (hz : region.originZ ≤ z ∧ z < region.originZ + 18) (rest : Nat) {y : Int} (hy : y ≤ region.top)
    (hrest : region.minY + rest ≤ y + 1) (sky : List UInt8) :
    fall region table f x z rest y sky = fall region table g x z rest y sky := by
  induction rest generalizing y sky with
  | zero => rfl
  | succ rest ih =>
    have hstate : state f x y z = state g x y z := h x y z (inside_iff.mpr ⟨hx, by omega, hz⟩)
    unfold fall
    rw [hstate]
    split
    · exact ih (by omega) (by omega) _
    · rfl

theorem emit_congr (h : region.Agree f g) {x z : Int}
    (hx : region.originX ≤ x ∧ x < region.originX + 18)
    (hz : region.originZ ≤ z ∧ z < region.originZ + 18) {dy : Nat} (hdy : dy < region.height)
    (block : List UInt8) : emit region table f x z block dy = emit region table g x z block dy := by
  have hy : region.minY ≤ region.minY + dy ∧ region.minY + dy ≤ region.top := by
    unfold top
    omega
  unfold emit
  dsimp only
  rw [h x (region.minY + dy) z (inside_iff.mpr ⟨hx, hy, hz⟩)]

theorem mem_columns {column : Int × Int} (h : column ∈ region.columns) :
    (region.originX ≤ column.1 ∧ column.1 < region.originX + 18) ∧
      (region.originZ ≤ column.2 ∧ column.2 < region.originZ + 18) := by
  simp only [columns, List.mem_flatMap, List.mem_map, List.mem_range] at h
  obtain ⟨lx, hlx, lz, hlz, rfl⟩ := h
  dsimp only
  omega

theorem seed_congr (h : region.Agree f g) : region.seed table f = region.seed table g := by
  refine List.foldl_ext _ _ _ fun light column hcolumn => ?_
  obtain ⟨hx, hz⟩ := mem_columns hcolumn
  have hsky : fall region table f column.1 column.2 region.height region.top light.1 =
      fall region table g column.1 column.2 region.height region.top light.1 :=
    fall_congr h hx hz _ le_rfl (by unfold top; omega) _
  rw [hsky]
  refine congrArg _ (List.foldl_ext _ _ _ fun block dy hdy => ?_)
  exact emit_congr h hx hz (List.mem_range.mp hdy) block

theorem spreadTo_congr (h : region.Agree f g) (isSky : Bool) (level : UInt8) (cell : Cell) :
    spreadTo region table f isSky level cell = spreadTo region table g isSky level cell := by
  funext acc offset
  unfold spreadTo
  dsimp only
  split
  · rfl
  · next hinside =>
    rw [h _ _ _ (by simpa using hinside)]

theorem spread_congr (h : region.Agree f g) (isSky : Bool) (light : List UInt8) (queue : List Cell) :
    region.spread table f isSky light queue = region.spread table g isSky light queue := by
  induction light, queue using spread.induct region table f isSky with
  | case1 light => simp only [spread]
  | case2 light cell rest level hdark ih =>
    rw [spread, spread.eq_def region table g]
    simp only [level] at hdark
    simp only [hdark, if_true, ih]
  | case3 light cell rest level hlit next ih =>
    rw [spread, spread.eq_def region table g]
    simp only [level] at hlit
    simp only [hlit, if_false]
    rw [← spreadTo_congr h]
    exact ih

end Region

/-- The light of a chunk is that of its columns and the ones beside them. -/
theorem computeChunkLight_congr {table : LightTable} {chunkX chunkZ minY : Int} {sectionCount : Nat}
    {f g : BlockAt} (h : Region.Agree ⟨chunkX * 16 - 1, chunkZ * 16 - 1, minY, sectionCount * 16⟩ f g) :
    computeChunkLight table chunkX chunkZ minY sectionCount f =
      computeChunkLight table chunkX chunkZ minY sectionCount g := by
  simp only [computeChunkLight, Region.seed_congr h, Region.spread_congr h]

end Apoptosis.L2.Terrain
