import Apoptosis.L2Items.Shapeless
/-!
# Shaped recipes (`container/src/crafting.rs`)

A pattern is slid over the grid, as drawn and mirrored. It sits at an offset
when its cells find their items there and the rest of the grid is empty. The
scan of the rest goes over a square of `max(grid width, pattern height)` cells
to a side, in the grid's row-major order: on a grid taller than wide it stops
before the last rows, or runs past the end of a row into the pattern itself.

* `matchesAt_iff`: what the two loops check under a pattern no taller than the grid is wide.
* `Placement.Sits.whole`: of two placements with their items there, both account for all stacks or none.
* `shaped_matching_iff`: the grids on which a recipe is found exactly where it sits.
-/
namespace Apoptosis.L2.Crafting
open Apoptosis.Core

/-! ## Patterns -/

/-- The ingredient at column `x` of row `y`. -/
def cellAt (cells : List (Option Ingredient)) (width x y : Nat) : Option Ingredient :=
  cells[y * width + x]?.join

/-- mirrors crates/container/src/crafting.rs:209-214 (`ShapedPattern`); its blank last rows and
columns are trimmed -/
structure ShapedPattern where
  width : Nat
  height : Nat
  cells : List (Option Ingredient)
  sized : cells.length = height * width
  widthBounds : 1 ≤ width ∧ width ≤ MAX_GRID_WIDTH
  heightBounds : 1 ≤ height ∧ height ≤ MAX_GRID_WIDTH
  lastColumn : ∃ y < height, (cellAt cells width (width - 1) y).isSome
  lastRow : ∃ x < width, (cellAt cells width x (height - 1)).isSome

/-- `while n > 0 && blank(n - 1) { n -= 1 }` -/
def trim (blank : Nat → Bool) : Nat → Nat
  | 0 => 0
  | n + 1 => if blank n then trim blank n else n + 1

theorem trim_spec (blank : Nat → Bool) (n : Nat) :
    trim blank n ≤ n ∧ (0 < trim blank n → blank (trim blank n - 1) = false) ∧
      ∀ k, trim blank n ≤ k → k < n → blank k = true := by
  induction n with
  | zero => exact ⟨le_rfl, fun h => absurd h (Nat.lt_irrefl 0), fun k _ hk => absurd hk (Nat.not_lt_zero k)⟩
  | succ n ih =>
    unfold trim
    split
    · next hblank =>
      obtain ⟨hle, hlast, hrest⟩ := ih
      refine ⟨by omega, hlast, fun k hk hkn => ?_⟩
      by_cases heq : k = n
      · rw [heq, hblank]
      · exact hrest k hk (by omega)
    · next hblank => exact ⟨le_rfl, fun _ => by simpa using hblank, fun k hk hkn => by omega⟩

/-- No ingredient in a column. -/
def blankColumn (rows : List (List (Option Ingredient))) (x : Nat) : Bool :=
  rows.all fun row => row[x]?.join.isNone

/-- No ingredient in a row. -/
def blankRow (rows : List (List (Option Ingredient))) (y : Nat) : Bool :=
  (rows[y]?.getD []).all (·.isNone)

section Trimmed

variable {rows : List (List (Option Ingredient))} {rawWidth : Nat}

def trimmedWidth (rows : List (List (Option Ingredient))) (rawWidth : Nat) : Nat :=
  trim (blankColumn rows) rawWidth

def trimmedHeight (rows : List (List (Option Ingredient))) : Nat := trim (blankRow rows) rows.length

def trimmedCells (rows : List (List (Option Ingredient))) (rawWidth : Nat) : List (Option Ingredient) :=
  (rows.take (trimmedHeight rows)).flatMap (·.take (trimmedWidth rows rawWidth))

theorem take_length (h : ∀ row ∈ rows, row.length = rawWidth) :
    ∀ row ∈ rows.take (trimmedHeight rows), (row.take (trimmedWidth rows rawWidth)).length =
      trimmedWidth rows rawWidth := by
  intro row hrow
  have hle := (trim_spec (blankColumn rows) rawWidth).1
  rw [List.length_take, h row (List.mem_of_mem_take hrow)]
  exact Nat.min_eq_left hle

theorem trimmedCells_length (h : ∀ row ∈ rows, row.length = rawWidth) :
    (trimmedCells rows rawWidth).length = trimmedHeight rows * trimmedWidth rows rawWidth := by
  have hle := (trim_spec (blankRow rows) rows.length).1
  rw [trimmedCells, Rows.length_rows (take_length h), List.length_take]
  exact congrArg (· * _) (Nat.min_eq_left hle)

theorem cellAt_trimmed (h : ∀ row ∈ rows, row.length = rawWidth) {x y : Nat}
    (hx : x < trimmedWidth rows rawWidth) (hy : y < trimmedHeight rows) :
    cellAt (trimmedCells rows rawWidth) (trimmedWidth rows rawWidth) x y =
      (rows[y]?.getD [])[x]?.join := by
  rw [cellAt, trimmedCells, Rows.getElem?_rows (take_length h) hx, List.getElem?_take_of_lt hy]
  cases rows[y]? with
  | none => rfl
  | some row => exact congrArg Option.join (List.getElem?_take_of_lt hx)

theorem isSome_of_mem_row {row : List (Option Ingredient)} (h : ¬ row.all (·.isNone)) :
    ∃ x < row.length, (row[x]?.join).isSome := by
  simp only [List.all_eq_true, not_forall] at h
  obtain ⟨cell, hmem, hsome⟩ := h
  obtain ⟨x, hx, rfl⟩ := List.getElem_of_mem hmem
  exact ⟨x, hx, by rw [List.getElem?_eq_getElem hx]; simpa [Option.isSome_iff_ne_none] using hsome⟩

theorem lastRow_trimmed (h : ∀ row ∈ rows, row.length = rawWidth) (hpos : 0 < trimmedHeight rows) :
    ∃ x < trimmedWidth rows rawWidth, (cellAt (trimmedCells rows rawWidth) (trimmedWidth rows rawWidth) x
      (trimmedHeight rows - 1)).isSome := by
  obtain ⟨hle, hlast, -⟩ := trim_spec (blankRow rows) rows.length
  obtain ⟨-, -, hcolumns⟩ := trim_spec (blankColumn rows) rawWidth
  have hy : trimmedHeight rows - 1 < rows.length := by
    have : trimmedHeight rows ≤ rows.length := hle
    omega
  have hrow := hlast hpos
  obtain ⟨x, hx, hsome⟩ := isSome_of_mem_row (by rw [← Bool.not_eq_true] at hrow; exact hrow)
  have hget : rows[trimmedHeight rows - 1]?.getD [] = rows[trimmedHeight rows - 1] := by
    rw [List.getElem?_eq_getElem hy, Option.getD_some]
  have hwidth : x < trimmedWidth rows rawWidth := by
    by_contra hge
    have hblank := hcolumns x (not_lt.mp hge) (by
      have hlen := h _ (List.getElem_mem hy)
      rw [← hlen, ← hget]
      exact hx)
    have hnone := List.all_eq_true.mp hblank _ (List.getElem_mem hy)
    rw [← hget] at hnone
    rw [show trim (blankRow rows) rows.length = trimmedHeight rows from rfl] at hsome
    rw [Option.isNone_iff_eq_none] at hnone
    rw [hnone] at hsome
    exact nomatch hsome
  exact ⟨x, hwidth, by rw [cellAt_trimmed h hwidth (by omega)]; exact hsome⟩

theorem lastColumn_trimmed (h : ∀ row ∈ rows, row.length = rawWidth) (hpos : 0 < trimmedWidth rows rawWidth) :
    ∃ y < trimmedHeight rows, (cellAt (trimmedCells rows rawWidth) (trimmedWidth rows rawWidth)
      (trimmedWidth rows rawWidth - 1) y).isSome := by
  obtain ⟨-, -, hrows⟩ := trim_spec (blankRow rows) rows.length
  obtain ⟨-, hlast, -⟩ := trim_spec (blankColumn rows) rawWidth
  have hcolumn := hlast hpos
  unfold blankColumn at hcolumn
  rw [List.all_eq_false] at hcolumn
  obtain ⟨row, hmem, hnot⟩ := hcolumn
  obtain ⟨y, hy, rfl⟩ := List.getElem_of_mem hmem
  have hsome : ((rows[y]?.getD [])[trimmedWidth rows rawWidth - 1]?.join).isSome := by
    rw [List.getElem?_eq_getElem hy, Option.getD_some]
    exact Option.isSome_iff_ne_none.mpr fun hnone => hnot (Option.isNone_iff_eq_none.mpr hnone)
  have hheight : y < trimmedHeight rows := by
    by_contra hge
    have hblank := hrows y (not_lt.mp hge) hy
    obtain ⟨ingredient, hin⟩ := Option.isSome_iff_exists.mp hsome
    have hcell := Option.join_eq_some_iff.mp hin
    have hnone := List.all_eq_true.mp hblank _ (List.mem_of_getElem? hcell)
    exact nomatch hnone
  exact ⟨y, hheight, by rw [cellAt_trimmed h (by omega) hheight]; exact hsome⟩

end Trimmed

/-- mirrors crates/container/src/crafting.rs:230-275 (`ShapedPattern::from_rows`) -/
def ShapedPattern.fromRows (rows : List (List (Option Ingredient))) : ServerResult ShapedPattern :=
  let rawWidth := (rows.head?.getD []).length
  if rows = [] then .error (.invariant "a shaped pattern needs at least one row")
  else match hragged : rows.find? (·.length ≠ rawWidth) with
  | some ragged =>
    let found := ragged.length
    .error (.invariant s!"a shaped pattern must be rectangular: expected {rawWidth} columns, got {found}")
  | none =>
    if rawWidth = 0 then .error (.invariant "a shaped pattern needs at least one column")
    else if hlarge : rawWidth > MAX_GRID_WIDTH ∨ rows.length > MAX_GRID_WIDTH then
      .error (.invariant s!"a {rawWidth}x{rows.length} shaped pattern exceeds the {MAX_GRID_WIDTH}x{MAX_GRID_WIDTH} limit")
    else if hblank : trimmedWidth rows rawWidth = 0 ∨ trimmedHeight rows = 0 then
      .error (.invariant "a shaped pattern must use at least one cell")
    else
      have hrect : ∀ row ∈ rows, row.length = rawWidth := by
        intro row hrow
        simpa using List.find?_eq_none.mp hragged row hrow
      have hwidth := (trim_spec (blankColumn rows) rawWidth).1
      have hheight := (trim_spec (blankRow rows) rows.length).1
      .ok {
        width := trimmedWidth rows rawWidth
        height := trimmedHeight rows
        cells := trimmedCells rows rawWidth
        sized := trimmedCells_length hrect
        widthBounds := ⟨by omega, hwidth.trans (by omega)⟩
        heightBounds := ⟨by omega, hheight.trans (by omega)⟩
        lastColumn := lastColumn_trimmed hrect (by omega)
        lastRow := lastRow_trimmed hrect (by omega) }

/-- The columns of each row in turn, as the nested loops go. -/
def positions (height width : Nat) : List (Nat × Nat) :=
  (List.range height).flatMap fun y => (List.range width).map fun x => (x, y)

/-- mirrors crates/container/src/crafting.rs:472-480 (`mirror`) -/
def mirror (pattern : ShapedPattern) : List (Option Ingredient) :=
  (positions pattern.height pattern.width).map fun (x, y) =>
    cellAt pattern.cells pattern.width (pattern.width - 1 - x) y

/-- mirrors crates/container/src/crafting.rs:315-321 (`ShapedRecipe`) -/
structure ShapedRecipe where
  name : String
  pattern : ShapedPattern
  mirroredCells : List (Option Ingredient)
  result : Int
  resultCount : Int
  named : name ≠ ""
  counted : 1 ≤ resultCount ∧ resultCount ≤ HARD_MAX_STACK_SIZE
  mirrored : mirroredCells = mirror pattern

/-- mirrors crates/container/src/crafting.rs:333-361 (`ShapedRecipe::new`); no pattern is empty -/
def ShapedRecipe.new (name : String) (pattern : ShapedPattern) (result resultCount : Int) :
    ServerResult ShapedRecipe :=
  if hname : name = "" then .error emptyName
  else if hcount : ¬ (1 ≤ resultCount ∧ resultCount ≤ HARD_MAX_STACK_SIZE) then
    .error (resultCountRefused name resultCount)
  else .ok ⟨name, pattern, mirror pattern, result, resultCount, hname, counted_of_accepted hcount, rfl⟩

/-! ## Matching -/

/-- `grid.get(index).is_some_and(|stack| !stack.is_empty())` -/
def occupied (grid : List ItemStack) (index : Nat) : Bool := (grid[index]?).any (!·.isEmpty)

/-- mirrors crates/container/src/crafting.rs:496-546 (`matches_at`) -/
def matchesAt (grid : List ItemStack) (width offset : Nat) (pattern : ShapedPattern)
    (cells : List (Option Ingredient)) : Bool :=
  (positions pattern.height pattern.width).all (fun (x, y) =>
    match cellAt cells pattern.width x y with
    | some ingredient => ((grid[offset + y * width + x]?).bind ItemStack.itemId?).any ingredient.accepts
    | none => !occupied grid (offset + y * width + x)) &&
  let edge := max width pattern.height
  let left := offset % width
  let top := offset / width
  (positions edge edge).all fun (x, y) =>
    (y ≥ top && y < top + pattern.height && x ≥ left && x < left + pattern.width) ||
      !occupied grid (y * width + x)

/-- mirrors crates/container/src/crafting.rs:446-468 (`ShapedRecipe::matched_cells`) -/
def matchedCells (grid : List ItemStack) (width offset : Nat) (pattern : ShapedPattern)
    (cells : List (Option Ingredient)) : Option (List Bool) :=
  if !matchesAt grid width offset pattern cells then none
  else some ((positions pattern.height pattern.width).foldl
    (fun considered (x, y) =>
      if (cellAt cells pattern.width x y).isSome then considered.set (offset + y * width + x) true
      else considered)
    (List.replicate MAX_GRID_SLOTS false))

/-- mirrors crates/container/src/crafting.rs:415-443 (`ShapedRecipe::find_at`) -/
def ShapedRecipe.findAt (recipe : ShapedRecipe) (grid : List ItemStack) (width : Nat) :
    Option (Nat × Bool × List Bool) :=
  let pattern := recipe.pattern
  let height := grid.length / width
  if pattern.width > width ∨ pattern.height > height then none
  else (positions (height - pattern.height + 1) (width - pattern.width + 1)).findSome? fun (x, y) =>
    let offset := y * width + x
    match matchedCells grid width offset pattern pattern.cells with
    | some cells => some (offset, false, cells)
    | none => match matchedCells grid width offset pattern recipe.mirroredCells with
      | some cells => some (offset, true, cells)
      | none => none

/-- mirrors crates/container/src/crafting.rs:800-812 (`grid_shape`): the columns and the rows -/
def gridShape (grid : List ItemStack) (width : Nat) : Option (Nat × Nat) :=
  if width = 0 ∨ width > MAX_GRID_WIDTH ∨ grid.length > MAX_GRID_SLOTS then none
  else if grid.length % width ≠ 0 then none
  else
    let height := grid.length / width
    if height = 0 ∨ height > MAX_GRID_WIDTH then none
    else some (width, height)

/-! ## What a match should be -/

/-- The pattern's cells with their corner at a column and a row: an accepted item under every
ingredient, nothing under a blank, and in the first `rows` rows nothing beside the pattern. -/
structure Sits (pattern : ShapedPattern) (cells : List (Option Ingredient)) (grid : List ItemStack)
    (width left top rows : Nat) : Prop where
  held : ∀ x < pattern.width, ∀ y < pattern.height, ∀ ingredient,
    cellAt cells pattern.width x y = some ingredient →
      ∃ stack, grid[(top + y) * width + (left + x)]? = some stack ∧ ¬ stack.isEmpty ∧
        ingredient.accepts stack.itemId
  blank : ∀ x < pattern.width, ∀ y < pattern.height, cellAt cells pattern.width x y = none →
    ¬ occupied grid ((top + y) * width + (left + x))
  alone : ∀ x < width, ∀ y < rows, occupied grid (y * width + x) →
    top ≤ y ∧ y < top + pattern.height ∧ left ≤ x ∧ x < left + pattern.width

/-- The pattern or its mirror image, with its corner where it stays within the grid. -/
structure Placement (recipe : ShapedRecipe) (width height : Nat) where
  cells : List (Option Ingredient)
  left : Nat
  top : Nat
  form : cells = recipe.pattern.cells ∨ cells = recipe.mirroredCells
  withinColumns : left + recipe.pattern.width ≤ width
  withinRows : top + recipe.pattern.height ≤ height

def Placement.Sits {recipe : ShapedRecipe} {width height : Nat} (p : Placement recipe width height)
    (grid : List ItemStack) (rows : Nat) : Prop :=
  Crafting.Sits recipe.pattern p.cells grid width p.left p.top rows

/-- Some placement of the pattern or of its mirror image leaves nothing else on the grid. -/
def Placed (recipe : ShapedRecipe) (grid : List ItemStack) (width height : Nat) : Prop :=
  ∃ p : Placement recipe width height, p.Sits grid height

/-- The recipe is found exactly where a placement is, and consumes the non-empty cells. -/
def FoundRightly (recipe : ShapedRecipe) (grid : List ItemStack) (width height : Nat) : Prop :=
  ((recipe.findAt grid width).isSome ↔ Placed recipe grid width height) ∧
  ∀ offset mirrored mask, recipe.findAt grid width = some (offset, mirrored, mask) →
    ∀ i < MAX_GRID_SLOTS, mask[i]? = some true ↔ occupied grid i

/-- On a grid taller than wide: under a pattern no taller than the grid is wide nothing else lies in
the rows that are not scanned, and a taller pattern has nothing in the first column below its top. -/
def Scanned (recipe : ShapedRecipe) (grid : List ItemStack) (width height : Nat) : Prop :=
  if recipe.pattern.height ≤ width then
    ∀ p : Placement recipe width height, p.Sits grid width → p.Sits grid height
  else Placed recipe grid width height → ∀ y < height, 0 < y → ¬ occupied grid (y * width)

/-! ## What the loops check -/

theorem mem_positions {height width x y : Nat} : (x, y) ∈ positions height width ↔ x < width ∧ y < height := by
  simp only [positions, List.mem_flatMap, List.mem_range, List.mem_map, Prod.mk.injEq]
  constructor
  · intro ⟨_, hy, _, hx, hx', hy'⟩
    exact ⟨hx' ▸ hx, hy' ▸ hy⟩
  · intro ⟨hx, hy⟩
    exact ⟨y, hy, x, hx, rfl, rfl⟩

theorem getElem?_positions {height width x y : Nat} (hx : x < width) (hy : y < height) :
    (positions height width)[y * width + x]? = some (x, y) := by
  rw [positions, Rows.getElem?_rows (fun _ _ => by rw [List.length_map, List.length_range]) hx,
    List.getElem?_range hy, Option.bind_some, List.getElem?_map, List.getElem?_range hx]
  rfl

theorem cellAt_mirror (pattern : ShapedPattern) {x y : Nat} (hx : x < pattern.width) (hy : y < pattern.height) :
    cellAt (mirror pattern) pattern.width x y = cellAt pattern.cells pattern.width (pattern.width - 1 - x) y := by
  rw [cellAt, mirror, List.getElem?_map, getElem?_positions hx hy]
  rfl

theorem occupied_iff {grid : List ItemStack} {i : Nat} :
    occupied grid i = true ↔ ∃ stack, grid[i]? = some stack ∧ ¬ stack.isEmpty := by
  simp [occupied, Option.any_eq_true]

theorem occupied_lt {grid : List ItemStack} {i : Nat} (h : occupied grid i) : i < grid.length := by
  obtain ⟨stack, hstack, -⟩ := occupied_iff.mp h
  exact (List.getElem?_eq_some_iff.mp hstack).1

/-- The item under an ingredient. -/
theorem held_iff {grid : List ItemStack} {i : Nat} {ingredient : Ingredient} :
    ((grid[i]?).bind ItemStack.itemId?).any ingredient.accepts = true ↔
      ∃ stack, grid[i]? = some stack ∧ ¬ stack.isEmpty ∧ ingredient.accepts stack.itemId := by
  cases hstack : grid[i]? with
  | none => simp
  | some stack =>
    cases hid : stack.itemId? with
    | none =>
      have hempty := itemId?_eq_none.mp hid
      simp [hid, hempty]
    | some itemId =>
      have hne : ¬ stack.isEmpty := fun h => by
        rw [itemId?_eq_none.mpr h] at hid
        exact nomatch hid
      have heq : stack.itemId = itemId := by
        unfold ItemStack.itemId? at hid
        split at hid
        · exact nomatch hid
        · exact Option.some.inj hid
      simp [hid, hne, heq]

section Grid

variable {grid : List ItemStack} {pattern : ShapedPattern} {cells : List (Option Ingredient)} {width left top : Nat}

theorem place_eq (x y : Nat) : top * width + left + y * width + x = (top + y) * width + (left + x) := by ring

/-- The two loops: the pattern's cells, and the square scanned around them. -/
theorem matchesAt_eq_true (hleft : left < width) :
    matchesAt grid width (top * width + left) pattern cells = true ↔
      (∀ x < pattern.width, ∀ y < pattern.height,
        match cellAt cells pattern.width x y with
        | some ingredient => ∃ stack, grid[(top + y) * width + (left + x)]? = some stack ∧ ¬ stack.isEmpty ∧
            ingredient.accepts stack.itemId
        | none => ¬ occupied grid ((top + y) * width + (left + x))) ∧
      ∀ x < max width pattern.height, ∀ y < max width pattern.height, occupied grid (y * width + x) →
        top ≤ y ∧ y < top + pattern.height ∧ left ≤ x ∧ x < left + pattern.width := by
  unfold matchesAt
  dsimp only
  rw [Rows.place_div hleft, Rows.place_mod hleft, Bool.and_eq_true, List.all_eq_true, List.all_eq_true]
  refine and_congr ?_ ?_
  · constructor
    · intro h x hx y hy
      have hcell := h (x, y) (mem_positions.mpr ⟨hx, hy⟩)
      dsimp only at hcell
      rw [place_eq] at hcell
      split at hcell
      · exact held_iff.mp hcell
      · simpa using hcell
    · intro h ⟨x, y⟩ hmem
      obtain ⟨hx, hy⟩ := mem_positions.mp hmem
      have hcell := h x hx y hy
      dsimp only
      rw [place_eq]
      split at hcell
      · exact held_iff.mpr hcell
      · simpa using hcell
  · constructor
    · intro h x hx y hy hocc
      have hcell := h (x, y) (mem_positions.mpr ⟨hx, hy⟩)
      simp only [hocc, Bool.not_true, Bool.or_false, Bool.and_eq_true, decide_eq_true_eq, ge_iff_le] at hcell
      exact ⟨hcell.1.1.1, hcell.1.1.2, hcell.1.2, hcell.2⟩
    · intro h ⟨x, y⟩ hmem
      obtain ⟨hx, hy⟩ := mem_positions.mp hmem
      have hcell := h x hx y hy
      by_cases hocc : occupied grid (y * width + x)
      · obtain ⟨h₁, h₂, h₃, h₄⟩ := hcell hocc
        simp [h₁, h₂, h₃, h₄]
      · simp [hocc]

/-- The first loop. -/
theorem cells_iff : (∀ x < pattern.width, ∀ y < pattern.height,
      match cellAt cells pattern.width x y with
      | some ingredient => ∃ stack, grid[(top + y) * width + (left + x)]? = some stack ∧ ¬ stack.isEmpty ∧
          ingredient.accepts stack.itemId
      | none => ¬ occupied grid ((top + y) * width + (left + x))) ↔
    (∀ x < pattern.width, ∀ y < pattern.height, ∀ ingredient, cellAt cells pattern.width x y = some ingredient →
      ∃ stack, grid[(top + y) * width + (left + x)]? = some stack ∧ ¬ stack.isEmpty ∧
        ingredient.accepts stack.itemId) ∧
    ∀ x < pattern.width, ∀ y < pattern.height, cellAt cells pattern.width x y = none →
      ¬ occupied grid ((top + y) * width + (left + x)) := by
  constructor
  · intro h
    refine ⟨fun x hx y hy ingredient hcell => ?_, fun x hx y hy hcell => ?_⟩
    · have h := h x hx y hy
      rwa [hcell] at h
    · have h := h x hx y hy
      rwa [hcell] at h
  · intro ⟨hheld, hblank⟩ x hx y hy
    split
    · next hcell => exact hheld x hx y hy _ hcell
    · next hcell => exact hblank x hx y hy hcell

/-- A pattern no taller than the grid is wide is checked on as many rows as there are columns. -/
theorem matchesAt_iff (hx : left + pattern.width ≤ width) (hy : pattern.height ≤ width) :
    matchesAt grid width (top * width + left) pattern cells = true ↔ Sits pattern cells grid width left top width := by
  have hw := pattern.widthBounds.1
  rw [matchesAt_eq_true (by omega), Nat.max_eq_left hy, cells_iff]
  constructor
  · intro ⟨⟨hheld, hblank⟩, halone⟩
    exact ⟨hheld, hblank, halone⟩
  · intro ⟨hheld, hblank, halone⟩
    exact ⟨⟨hheld, hblank⟩, halone⟩

/-- The stacks on the grid are those under the ingredients. -/
theorem Sits.occupied_iff {height : Nat} (h : Sits pattern cells grid width left top height)
    (hgrid : grid.length = height * width) (hx : left + pattern.width ≤ width) {i : Nat} :
    occupied grid i ↔ ∃ x < pattern.width, ∃ y < pattern.height, (cellAt cells pattern.width x y).isSome ∧
      i = (top + y) * width + (left + x) := by
  have hw := pattern.widthBounds.1
  constructor
  · intro hocc
    have hi := occupied_lt hocc
    have hsplit := Rows.place_split width i
    obtain ⟨h₁, h₂, h₃, h₄⟩ := h.alone _ (Nat.mod_lt i (by omega)) _
      ((Nat.div_lt_iff_lt_mul (by omega)).mpr (hgrid ▸ hi)) (hsplit.symm ▸ hocc)
    have hplace : (top + (i / width - top)) * width + (left + (i % width - left)) = i := by
      rw [Nat.add_sub_cancel' h₁, Nat.add_sub_cancel' h₃, hsplit]
    refine ⟨i % width - left, by omega, i / width - top, by omega, ?_, hplace.symm⟩
    rw [Option.isSome_iff_ne_none]
    intro hnone
    exact h.blank _ (by omega) _ (by omega) hnone (hplace.symm ▸ hocc)
  · intro ⟨x, hx, y, hy, hsome, heq⟩
    obtain ⟨ingredient, hcell⟩ := Option.isSome_iff_exists.mp hsome
    obtain ⟨stack, hstack, hne, -⟩ := h.held x hx y hy ingredient hcell
    exact heq ▸ Crafting.occupied_iff.mpr ⟨stack, hstack, hne⟩

/-- The cells marked for a match. -/
theorem matchedCells_spec {offset : Nat} {mask : List Bool} (h : matchedCells grid width offset pattern cells = some mask) :
    matchesAt grid width offset pattern cells = true ∧ ∀ i < MAX_GRID_SLOTS, mask[i]? = some true ↔
      ∃ x < pattern.width, ∃ y < pattern.height, (cellAt cells pattern.width x y).isSome ∧
        i = offset + y * width + x := by
  unfold matchedCells at h
  split at h
  · exact nomatch h
  next hmatch =>
  cases h
  refine ⟨by simpa using hmatch, fun i hi => ?_⟩
  have hlen : i < (List.replicate MAX_GRID_SLOTS false).length := by rwa [List.length_replicate]
  have hmarks := Rows.getElem?_marks (fun p : Nat × Nat => (cellAt cells pattern.width p.1 p.2).isSome)
    (fun p => offset + p.2 * width + p.1) (positions pattern.height pattern.width) hlen
  refine hmarks.trans ?_
  rw [List.getElem?_replicate, if_pos hi]
  simp only [Option.some.injEq, Bool.false_eq_true, false_or, Prod.exists, mem_positions]
  constructor
  · intro ⟨x, y, ⟨hx, hy⟩, hsome, heq⟩
    exact ⟨x, hx, y, hy, hsome, heq.symm⟩
  · intro ⟨x, hx, y, hy, hsome, heq⟩
    exact ⟨x, y, ⟨hx, hy⟩, hsome, heq.symm⟩

end Grid

/-! ## Counting the ingredients -/

/-- The pattern's places that hold an ingredient. -/
def filled (pattern : ShapedPattern) (cells : List (Option Ingredient)) : Finset (Nat × Nat) :=
  (Finset.range pattern.width ×ˢ Finset.range pattern.height).filter fun c =>
    (cellAt cells pattern.width c.1 c.2).isSome

theorem mem_filled {pattern : ShapedPattern} {cells : List (Option Ingredient)} {x y : Nat} :
    (x, y) ∈ filled pattern cells ↔
      x < pattern.width ∧ y < pattern.height ∧ (cellAt cells pattern.width x y).isSome := by
  simp only [filled, Finset.mem_filter, Finset.mem_product, Finset.mem_range, and_assoc]

theorem card_filled_mirror (pattern : ShapedPattern) :
    (filled pattern (mirror pattern)).card = (filled pattern pattern.cells).card := by
  refine Finset.card_nbij' (fun c => (pattern.width - 1 - c.1, c.2)) (fun c => (pattern.width - 1 - c.1, c.2))
    (fun c hc => ?_) (fun c hc => ?_) (fun c hc => ?_) (fun c hc => ?_)
  · obtain ⟨hx, hy, hsome⟩ := mem_filled.mp (Finset.mem_coe.mp hc)
    rw [cellAt_mirror pattern hx hy] at hsome
    exact Finset.mem_coe.mpr (mem_filled.mpr ⟨by omega, hy, hsome⟩)
  · obtain ⟨hx, hy, hsome⟩ := mem_filled.mp (Finset.mem_coe.mp hc)
    refine Finset.mem_coe.mpr (mem_filled.mpr ⟨by omega, hy, ?_⟩)
    rw [cellAt_mirror pattern (by omega) hy, Nat.sub_sub_self (by omega)]
    exact hsome
  · obtain ⟨hx, -, -⟩ := mem_filled.mp (Finset.mem_coe.mp hc)
    exact Prod.ext (Nat.sub_sub_self (by omega)) rfl
  · obtain ⟨hx, -, -⟩ := mem_filled.mp (Finset.mem_coe.mp hc)
    exact Prod.ext (Nat.sub_sub_self (by omega)) rfl

namespace Placement

variable {recipe : ShapedRecipe} {grid : List ItemStack} {width height rows : Nat}

/-- The grid's places under the ingredients. -/
def places (p : Placement recipe width height) : Finset Nat :=
  (filled recipe.pattern p.cells).image fun c => (p.top + c.2) * width + (p.left + c.1)

theorem mem_places {p : Placement recipe width height} {i : Nat} : i ∈ p.places ↔
    ∃ x < recipe.pattern.width, ∃ y < recipe.pattern.height, (cellAt p.cells recipe.pattern.width x y).isSome ∧
      i = (p.top + y) * width + (p.left + x) := by
  simp only [places, Finset.mem_image, Prod.exists, mem_filled]
  constructor
  · intro ⟨x, y, ⟨hx, hy, hsome⟩, heq⟩
    exact ⟨x, hx, y, hy, hsome, heq.symm⟩
  · intro ⟨x, hx, y, hy, hsome, heq⟩
    exact ⟨x, y, ⟨hx, hy, hsome⟩, heq.symm⟩

/-- Every placement covers as many places. -/
theorem card_places (p : Placement recipe width height) :
    p.places.card = (filled recipe.pattern recipe.pattern.cells).card := by
  have hwithin := p.withinColumns
  have hcells : (filled recipe.pattern p.cells).card = (filled recipe.pattern recipe.pattern.cells).card := by
    rcases p.form with h | h
    · rw [h]
    · rw [h, recipe.mirrored, card_filled_mirror]
  rw [← hcells]
  refine Finset.card_image_of_injOn fun c hc d hd heq => ?_
  obtain ⟨hx, -, -⟩ := mem_filled.mp (Finset.mem_coe.mp hc)
  obtain ⟨hx', -, -⟩ := mem_filled.mp (Finset.mem_coe.mp hd)
  have hmod := congrArg (· % width) heq
  have hdiv := congrArg (· / width) heq
  rw [Rows.place_mod (by omega), Rows.place_mod (by omega)] at hmod
  rw [Rows.place_div (by omega), Rows.place_div (by omega)] at hdiv
  exact Prod.ext (Nat.add_left_cancel hmod) (Nat.add_left_cancel hdiv)

theorem Sits.occupied {p : Placement recipe width height} (h : p.Sits grid rows) {i : Nat} (hi : i ∈ p.places) :
    Crafting.occupied grid i := by
  obtain ⟨x, hx, y, hy, hsome, heq⟩ := mem_places.mp hi
  obtain ⟨ingredient, hcell⟩ := Option.isSome_iff_exists.mp hsome
  obtain ⟨stack, hstack, hne, -⟩ := h.held x hx y hy ingredient hcell
  exact heq ▸ occupied_iff.mpr ⟨stack, hstack, hne⟩

theorem Sits.occupied_iff {p : Placement recipe width height} (h : p.Sits grid height)
    (hgrid : grid.length = height * width) {i : Nat} : Crafting.occupied grid i ↔ i ∈ p.places :=
  (Crafting.Sits.occupied_iff h hgrid p.withinColumns).trans mem_places.symm

/-- Where one placement accounts for all stacks, any other whose items are there does too. -/
theorem Sits.whole {p q : Placement recipe width height} (hp : p.Sits grid rows) (hq : q.Sits grid height)
    (hgrid : grid.length = height * width) : p.Sits grid height := by
  have hsub : p.places ⊆ q.places := fun i hi => (hq.occupied_iff hgrid).mp (hp.occupied hi)
  have hsame : p.places = q.places :=
    Finset.eq_of_subset_of_card_le hsub (by rw [p.card_places, q.card_places])
  refine ⟨hp.held, hp.blank, fun x hx y hy hocc => ?_⟩
  have hmem := (hq.occupied_iff hgrid).mp hocc
  rw [← hsame] at hmem
  obtain ⟨x', hx', y', hy', -, heq⟩ := mem_places.mp hmem
  have hwithin := p.withinColumns
  have hmod := congrArg (· % width) heq
  have hdiv := congrArg (· / width) heq
  rw [Rows.place_mod hx, Rows.place_mod (by omega)] at hmod
  rw [Rows.place_div hx, Rows.place_div (by omega)] at hdiv
  omega

end Placement

/-! ## The scan -/

section Found

variable {recipe : ShapedRecipe} {grid : List ItemStack} {width height : Nat}

/-- The source's test of one placement. -/
def Placement.found (p : Placement recipe width height) (grid : List ItemStack) : Bool :=
  matchesAt grid width (p.top * width + p.left) recipe.pattern p.cells

theorem matchedCells_isSome {offset : Nat} {pattern : ShapedPattern} {cells : List (Option Ingredient)} :
    (matchedCells grid width offset pattern cells).isSome = matchesAt grid width offset pattern cells := by
  unfold matchedCells
  split
  · next h => simpa using h
  · next h => simpa using h

theorem findAt_eq_some (hgrid : grid.length = height * width) (hwidth : 0 < width) {offset : Nat} {mirrored : Bool}
    {mask : List Bool} (h : recipe.findAt grid width = some (offset, mirrored, mask)) :
    ∃ p : Placement recipe width height,
      matchedCells grid width (p.top * width + p.left) recipe.pattern p.cells = some mask := by
  unfold ShapedRecipe.findAt at h
  dsimp only at h
  rw [hgrid, Nat.mul_div_cancel _ hwidth] at h
  split at h
  · exact nomatch h
  next hfits =>
  obtain ⟨⟨x, y⟩, hmem, hfind⟩ := List.exists_of_findSome?_eq_some h
  obtain ⟨hx, hy⟩ := mem_positions.mp hmem
  dsimp only at hfind
  split at hfind
  · next mask' hmask =>
    obtain rfl : mask' = mask := congrArg (·.2.2) (Option.some.inj hfind)
    exact ⟨⟨_, x, y, .inl rfl, by omega, by omega⟩, hmask⟩
  · split at hfind
    · next mask' hmask =>
      obtain rfl : mask' = mask := congrArg (·.2.2) (Option.some.inj hfind)
      exact ⟨⟨_, x, y, .inr rfl, by omega, by omega⟩, hmask⟩
    · exact nomatch hfind

theorem findAt_isSome (hgrid : grid.length = height * width) (hwidth : 0 < width) :
    (recipe.findAt grid width).isSome ↔ ∃ p : Placement recipe width height, p.found grid := by
  constructor
  · intro h
    obtain ⟨⟨offset, mirrored, mask⟩, hfind⟩ := Option.isSome_iff_exists.mp h
    obtain ⟨p, hmask⟩ := findAt_eq_some hgrid hwidth hfind
    exact ⟨p, (matchedCells_spec hmask).1⟩
  · intro ⟨p, hfound⟩
    have hcolumns := p.withinColumns
    have hrows := p.withinRows
    unfold ShapedRecipe.findAt
    dsimp only
    rw [hgrid, Nat.mul_div_cancel _ hwidth, if_neg (by omega), List.findSome?_isSome_iff]
    refine ⟨(p.left, p.top), mem_positions.mpr ⟨by omega, by omega⟩, ?_⟩
    have hsome : (matchedCells grid width (p.top * width + p.left) recipe.pattern p.cells).isSome := by
      rw [matchedCells_isSome]
      exact hfound
    obtain ⟨mask, hmask⟩ := Option.isSome_iff_exists.mp hsome
    dsimp only
    split
    · rfl
    · next hnone =>
      rcases p.form with hform | hform
      · rw [hform, hnone] at hmask
        exact nomatch hmask
      · rw [hform] at hmask
        rw [hmask]
        rfl

/-- The mask of the placement that is found. -/
theorem findAt_mask (hgrid : grid.length = height * width) (hwidth : 0 < width) {offset : Nat} {mirrored : Bool}
    {mask : List Bool} (h : recipe.findAt grid width = some (offset, mirrored, mask)) :
    ∃ p : Placement recipe width height, p.found grid ∧ ∀ i < MAX_GRID_SLOTS, mask[i]? = some true ↔ i ∈ p.places := by
  obtain ⟨p, hmask⟩ := findAt_eq_some hgrid hwidth h
  obtain ⟨hfound, hmarks⟩ := matchedCells_spec hmask
  refine ⟨p, hfound, fun i hi => (hmarks i hi).trans ?_⟩
  simp only [place_eq]
  exact Placement.mem_places.symm

/-- A placement that is found holds its items, whatever lies beside it. -/
theorem Placement.found_held {p : Placement recipe width height} (h : p.found grid) : p.Sits grid 0 := by
  have hw := recipe.pattern.widthBounds.1
  have hwithin := p.withinColumns
  obtain ⟨hcells, -⟩ := (matchesAt_eq_true (by omega)).mp h
  obtain ⟨hheld, hblank⟩ := cells_iff.mp hcells
  exact ⟨hheld, hblank, fun _ _ y hy => absurd hy (Nat.not_lt_zero y)⟩

/-- A test that tells the placements that sit from the others is enough. -/
theorem foundRightly_of (hgrid : grid.length = height * width) (hwidth : 0 < width)
    (h : ∀ p : Placement recipe width height, p.found grid ↔ p.Sits grid height) :
    FoundRightly recipe grid width height := by
  refine ⟨(findAt_isSome hgrid hwidth).trans (exists_congr h), fun offset mirrored mask hfind i hi => ?_⟩
  obtain ⟨p, hfound, hmask⟩ := findAt_mask hgrid hwidth hfind
  exact (hmask i hi).trans (((h p).mp hfound).occupied_iff hgrid).symm

theorem Placement.Sits.mono {p : Placement recipe width height} {rows rows' : Nat} (h : p.Sits grid rows)
    (hle : rows' ≤ rows) : p.Sits grid rows' :=
  ⟨h.held, h.blank, fun x hx y hy => h.alone x hx y (hy.trans_le hle)⟩

/-- No stack lies below the last row. -/
theorem Placement.Sits.all_rows {p : Placement recipe width height} (h : p.Sits grid height)
    (hgrid : grid.length = height * width) (rows : Nat) : p.Sits grid rows := by
  refine ⟨h.held, h.blank, fun x hx y _ hocc => h.alone x hx y ?_ hocc⟩
  have hlt := occupied_lt hocc
  rw [hgrid] at hlt
  exact Nat.lt_of_mul_lt_mul_right (Nat.lt_of_le_of_lt (Nat.le_add_right _ x) hlt)

/-- Either form has an ingredient in its last row. -/
theorem Placement.lastRow (p : Placement recipe width height) :
    ∃ x < recipe.pattern.width,
      (cellAt p.cells recipe.pattern.width x (recipe.pattern.height - 1)).isSome := by
  obtain ⟨x, hx, hsome⟩ := recipe.pattern.lastRow
  have hh := recipe.pattern.heightBounds.1
  rcases p.form with h | h
  · exact ⟨x, hx, h ▸ hsome⟩
  · refine ⟨recipe.pattern.width - 1 - x, by omega, ?_⟩
    rw [h, recipe.mirrored, cellAt_mirror _ (by omega) (by omega), Nat.sub_sub_self (by omega)]
    exact hsome

/-- The square runs past the end of a row that is shorter than the pattern is tall. -/
theorem Placement.column_empty {p : Placement recipe width height} (h : p.found grid)
    (htall : width < recipe.pattern.height) {y : Nat} (hy : y ≤ recipe.pattern.height) (hpos : 0 < y) :
    ¬ occupied grid (y * width) := by
  have hw := recipe.pattern.widthBounds.1
  have hwithin := p.withinColumns
  obtain ⟨-, hsquare⟩ := (matchesAt_eq_true (by omega)).mp h
  intro hocc
  have hplace : (y - 1) * width + width = y * width := by
    rw [← Nat.succ_mul, Nat.succ_eq_add_one, Nat.sub_add_cancel hpos]
  have hbeside := hsquare width (by omega) (y - 1) (by omega) (hplace.symm ▸ hocc)
  omega

/-- A pattern taller than the grid is wide is found only where it sits. -/
theorem Placement.sits_of_found {p : Placement recipe width height} (h : p.found grid) (hheight : height ≤ MAX_GRID_WIDTH)
    (htall : width < recipe.pattern.height) : p.Sits grid height := by
  have hw := recipe.pattern.widthBounds.1
  have hcolumns := p.withinColumns
  have hrows := p.withinRows
  have hbase := p.found_held h
  refine ⟨hbase.held, hbase.blank, fun x hx y hy hocc => ?_⟩
  by_cases hin : y < recipe.pattern.height
  · obtain ⟨-, hsquare⟩ := (matchesAt_eq_true (by omega)).mp h
    exact hsquare x (by omega) y (by omega) hocc
  · -- one column of three: the pattern's own last row lies in the column that must be empty
    have hlimit : height ≤ 3 := hheight
    obtain rfl : width = 1 := by omega
    obtain ⟨x', hx', hsome⟩ := p.lastRow
    obtain ⟨ingredient, hcell⟩ := Option.isSome_iff_exists.mp hsome
    obtain ⟨stack, hstack, hne, -⟩ := hbase.held x' hx' _ (by omega) ingredient hcell
    have hlast : occupied grid ((p.top + (recipe.pattern.height - 1)) * 1) := by
      refine occupied_iff.mpr ⟨stack, ?_, hne⟩
      rw [← hstack]
      congr 1
      omega
    exact absurd hlast (p.column_empty h htall (by omega) (by omega))

/-- With nothing in the first column below its top, a tall pattern is found where it sits. -/
theorem Placement.found_of_sits {p : Placement recipe width height} (h : p.Sits grid height)
    (hgrid : grid.length = height * width) (htall : width < recipe.pattern.height)
    (hcolumn : ∀ y < height, 0 < y → ¬ occupied grid (y * width)) : p.found grid := by
  have hw := recipe.pattern.widthBounds.1
  have hh : recipe.pattern.height ≤ 3 := recipe.pattern.heightBounds.2
  have hcolumns := p.withinColumns
  have hrows := p.withinRows
  refine (matchesAt_eq_true (by omega)).mpr ⟨cells_iff.mpr ⟨h.held, h.blank⟩, fun x hx y hy hocc => ?_⟩
  rw [Nat.max_eq_right (by omega)] at hx hy
  by_cases hin : x < width
  · exact h.alone x hin y (by omega) hocc
  · have hwrapped : ∃ k, 0 < k ∧ y * width + x = k * width := by
      rcases (by omega : width = 1 ∨ width = 2) with rfl | rfl
      · exact ⟨y + x, by omega, by omega⟩
      · exact ⟨y + 1, by omega, by omega⟩
    obtain ⟨k, hk, heq⟩ := hwrapped
    have hlt := occupied_lt hocc
    rw [heq, hgrid] at hlt
    exact absurd (heq ▸ hocc) (hcolumn k (Nat.lt_of_mul_lt_mul_right hlt) hk)

theorem Placement.found_iff {p : Placement recipe width height} (hheight : recipe.pattern.height ≤ width) :
    p.found grid ↔ p.Sits grid width := matchesAt_iff p.withinColumns hheight

end Found

/-- `grid_shape` accepts grids of up to three rows and columns only. -/
theorem gridShape_spec {grid : List ItemStack} {width columns rows : Nat}
    (h : gridShape grid width = some (columns, rows)) :
    columns = width ∧ grid.length = rows * width ∧ 0 < width ∧ rows ≤ MAX_GRID_WIDTH := by
  unfold gridShape at h
  split at h
  · exact nomatch h
  next hbounds =>
  split at h
  · exact nomatch h
  next hexact =>
  dsimp only at h
  split at h
  · exact nomatch h
  next hheight =>
  cases h
  have hsplit := Rows.place_split width grid.length
  refine ⟨rfl, ?_, by omega, by omega⟩
  rwa [not_not.mp hexact, Nat.add_zero, eq_comm] at hsplit

/-- A recipe is found rightly on a grid exactly when the scan reaches no stack wrongly and misses
none: always, where the grid is no taller than wide. -/
theorem shaped_matching_iff (recipe : ShapedRecipe) {grid : List ItemStack} {width columns rows : Nat}
    (h : gridShape grid width = some (columns, rows)) :
    FoundRightly recipe grid width rows ↔ rows ≤ width ∨ Scanned recipe grid width rows := by
  obtain ⟨-, hgrid, hwidth, hrows⟩ := gridShape_spec h
  have hlimit : rows ≤ 3 := hrows
  unfold Scanned
  constructor
  · intro ⟨hfound, _⟩
    rw [findAt_isSome hgrid hwidth] at hfound
    refine .inr ?_
    split
    · next hheight =>
      intro p hp
      obtain ⟨q, hq⟩ := hfound.mp ⟨p, (p.found_iff hheight).mpr hp⟩
      exact hp.whole hq hgrid
    · next hheight =>
      intro hplaced y hy hpos
      obtain ⟨p, hp⟩ := hfound.mpr hplaced
      exact p.column_empty hp (by omega) (by omega) hpos
  · intro hscanned
    refine foundRightly_of hgrid hwidth fun p => ?_
    have hwithin := p.withinRows
    by_cases hheight : recipe.pattern.height ≤ width
    · rw [if_pos hheight] at hscanned
      rw [p.found_iff hheight]
      refine ⟨fun hp => ?_, fun hp => hp.all_rows hgrid width⟩
      rcases hscanned with hflat | hscanned
      · exact hp.mono hflat
      · exact hscanned p hp
    · rw [if_neg hheight] at hscanned
      refine ⟨fun hp => p.sits_of_found hp hrows (by omega), fun hp => ?_⟩
      rcases hscanned with hflat | hscanned
      · omega
      · exact p.found_of_sits hp hgrid (by omega) (hscanned ⟨p, hp⟩)

/-- Two of an item, one above the other. -/
def upright : ShapedPattern :=
  ⟨1, 2, [some (.item 1), some (.item 1)], by decide, by decide, by decide, by decide, by decide⟩

def sticks : ShapedRecipe := ⟨"sticks", upright, mirror upright, 2, 4, by decide, by decide, rfl⟩

def squareGrid : List ItemStack := [oneOf 1, .EMPTY, oneOf 1, .EMPTY]

theorem squareGrid_found : gridShape squareGrid 2 = some (2, 2) ∧ FoundRightly sticks squareGrid 2 2 :=
  ⟨by decide, (shaped_matching_iff sticks (by decide : gridShape squareGrid 2 = some (2, 2))).mpr (.inl le_rfl)⟩

/-- In one column of two the square's second column is the pattern's own last cell. -/
theorem column_not_found :
    ShapedPattern.fromRows [[some (.item 1)], [some (.item 1)]] = .ok upright ∧
    ShapedRecipe.new "sticks" upright 2 4 = .ok sticks ∧
    ¬ ∀ (recipe : ShapedRecipe) (grid : List ItemStack) (width columns rows : Nat),
      gridShape grid width = some (columns, rows) → FoundRightly recipe grid width rows := by
  refine ⟨rfl, rfl, fun h => ?_⟩
  have hfound := (h sticks [oneOf 1, oneOf 1] 1 1 2 (by decide)).1
  have hsits : Sits upright upright.cells [oneOf 1, oneOf 1] 1 0 0 2 := by
    refine ⟨fun x hx y hy ingredient hcell => ?_, by decide, by decide⟩
    obtain rfl : x = 0 := Nat.lt_one_iff.mp hx
    rcases (by have : y < 2 := hy; omega : y = 0 ∨ y = 1) with rfl | rfl
    · obtain rfl : ingredient = .item 1 := (Option.some.inj hcell).symm
      exact ⟨oneOf 1, rfl, by decide, by decide⟩
    · obtain rfl : ingredient = .item 1 := (Option.some.inj hcell).symm
      exact ⟨oneOf 1, rfl, by decide, by decide⟩
  have hplaced : Placed sticks [oneOf 1, oneOf 1] 1 2 := ⟨⟨_, 0, 0, .inl rfl, by decide, by decide⟩, hsits⟩
  exact absurd (hfound.mpr hplaced) (by decide)

end Apoptosis.L2.Crafting
