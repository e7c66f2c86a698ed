import Apoptosis.Core.FirstFit
import Apoptosis.Core.Rows
import Apoptosis.L2Items.Stack
/-!
# Shapeless recipes (`container/src/crafting.rs`)

Each non-empty cell of the grid is given to the first ingredient that is still
free and accepts its item; no choice is taken back. The comment of the source
says that this is sound. It is, exactly for the recipes where an ingredient
that shares an item with a later one accepts nothing the later one does not.

* `matchCells_spec`: the source's loop is first fit on the free ingredients.
* `shapeless_matching_iff`: the recipes it matches as a perfect matching would, and those it
  matches alike in whatever order.
-/
namespace Apoptosis.L2.Crafting
open Apoptosis.Core

def MAX_GRID_WIDTH : Nat := 3
def MAX_GRID_SLOTS : Nat := 9
def MAX_ALTERNATIVES_PER_KEY : Nat := 64

/-! ## Ingredients -/

/-- mirrors crates/container/src/crafting.rs:153-157 (`Ingredient`) -/
structure Ingredient where
  itemIds : List Int
  ascending : itemIds.Pairwise (· < ·)
  nonempty : itemIds ≠ []
  few : itemIds.length ≤ MAX_ALTERNATIVES_PER_KEY
  deriving DecidableEq

namespace Ingredient

/-- mirrors crates/container/src/crafting.rs:162-166 (`Ingredient::item`) -/
def item (itemId : Int) : Ingredient :=
  ⟨[itemId], List.pairwise_singleton _ _, List.cons_ne_nil _ _, (by decide : 1 ≤ 64)⟩

/-- mirrors crates/container/src/crafting.rs:175-192 (`Ingredient::any_of`): the ids sorted, each once -/
def anyOf (itemIds : List Int) : ServerResult Ingredient :=
  if hempty : itemIds = [] then .error (.invariant "an ingredient must accept at least one item")
  else if hmany : itemIds.length > MAX_ALTERNATIVES_PER_KEY then
    .error (.invariant s!"an ingredient with {itemIds.length} alternatives exceeds the {MAX_ALTERNATIVES_PER_KEY} this build accepts")
  else .ok {
    itemIds := itemIds.toFinset.sort (· ≤ ·)
    ascending := (Finset.sortedLT_sort _).pairwise
    nonempty := by
      intro h
      have := congrArg List.length h
      rw [Finset.length_sort, List.length_nil, Finset.card_eq_zero, List.toFinset_eq_empty_iff] at this
      exact hempty this
    few := by
      rw [Finset.length_sort]
      exact (List.toFinset_card_le itemIds).trans (not_lt.mp hmany) }

/-- mirrors crates/container/src/crafting.rs:202-204 (`Ingredient::accepts`); the ids are sorted, so
the binary search finds what is there -/
def accepts (ingredient : Ingredient) (itemId : Nat) : Bool := ingredient.itemIds.contains (itemId : Int)

end Ingredient

def emptyName : ServerError := .invariant "a recipe needs a name"

def resultCountRefused (name : String) (resultCount : Int) : ServerError :=
  .invariant s!"recipe {name} produces {resultCount} items, which is outside 1..={HARD_MAX_STACK_SIZE}"

theorem counted_of_accepted {resultCount : Int}
    (h : ¬¬(1 ≤ resultCount ∧ resultCount ≤ HARD_MAX_STACK_SIZE)) :
    1 ≤ resultCount ∧ resultCount ≤ HARD_MAX_STACK_SIZE := not_not.mp h

/-! ## The recipe -/

/-- mirrors crates/container/src/crafting.rs:548-554 (`ShapelessRecipe`) -/
structure ShapelessRecipe where
  name : String
  ingredients : List Ingredient
  result : Int
  resultCount : Int
  named : name ≠ ""
  used : ingredients ≠ []
  fits : ingredients.length ≤ MAX_GRID_SLOTS
  counted : 1 ≤ resultCount ∧ resultCount ≤ HARD_MAX_STACK_SIZE

namespace ShapelessRecipe

/-- mirrors crates/container/src/crafting.rs:564-596 (`ShapelessRecipe::new`) -/
def new (name : String) (ingredients : List Ingredient) (result resultCount : Int) :
    ServerResult ShapelessRecipe :=
  if hname : name = "" then .error emptyName
  else if hused : ingredients = [] then
    .error (.invariant s!"shapeless recipe {name} has no ingredients")
  else if hfits : ingredients.length > MAX_GRID_SLOTS then
    .error (.invariant s!"shapeless recipe {name} needs {ingredients.length} ingredients, more than the {MAX_GRID_SLOTS} slots of the largest grid")
  else if hcount : ¬ (1 ≤ resultCount ∧ resultCount ≤ HARD_MAX_STACK_SIZE) then
    .error (resultCountRefused name resultCount)
  else .ok ⟨name, ingredients, result, resultCount, hname, hused, not_lt.mp hfits, not_not.mp hcount⟩

end ShapelessRecipe

/-- The variables of `match_cells`. -/
structure Matching where
  satisfied : List Bool
  considered : List Bool
  matchedItems : Nat

/-- One cell of the loop of `match_cells`. -/
def Matching.cell (ingredients : List Ingredient) (m : Matching) (entry : ItemStack × Nat) : Option Matching :=
  match entry.1.itemId? with
  | none => some m
  | some itemId => do
    let slot ← (ingredients.zip m.satisfied).findIdx? fun p => !p.2 && p.1.accepts itemId
    return ⟨m.satisfied.set slot true, m.considered.set entry.2 true, m.matchedItems + 1⟩

/-- mirrors crates/container/src/crafting.rs:643-667 (`ShapelessRecipe::match_cells`) -/
def ShapelessRecipe.matchCells (recipe : ShapelessRecipe) (grid : List ItemStack) : Option (List Bool) := do
  let m ← (grid.zipIdx.take MAX_GRID_SLOTS).foldlM (Matching.cell recipe.ingredients)
    ⟨List.replicate recipe.ingredients.length false, List.replicate MAX_GRID_SLOTS false, 0⟩
  if m.matchedItems = recipe.ingredients.length then some m.considered else none

/-! ## The loop is first fit -/

/-- An item that a stack can hold and that the ingredient accepts. -/
def takes (itemId : Nat) (ingredient : Ingredient) : Bool := 0 < itemId && ingredient.accepts itemId

/-- The ingredients that no cell was given to. -/
def free (ingredients : List Ingredient) (satisfied : List Bool) : List Ingredient :=
  ((ingredients.zip satisfied).filter (!·.2)).map (·.1)

/-- The items in the grid, cell by cell. -/
def itemsOf (cells : List ItemStack) : List Nat := cells.filterMap ItemStack.itemId?

/-- The mask with the non-empty cells marked. -/
def marked (cells : List (ItemStack × Nat)) (mask : List Bool) : List Bool :=
  cells.foldl (fun mask entry => if !entry.1.isEmpty then mask.set entry.2 true else mask) mask

theorem itemId?_eq_none {s : ItemStack} : s.itemId? = none ↔ s.isEmpty := by
  rcases s.valid with ⟨hid, -, -⟩ | ⟨hid, hcount, -⟩
  · simp [ItemStack.itemId?, ItemStack.isEmpty, hid]
  · simp [ItemStack.itemId?, ItemStack.isEmpty, Nat.ne_of_gt hid, Nat.ne_of_gt hcount]

theorem itemId?_pos {s : ItemStack} {itemId : Nat} (h : s.itemId? = some itemId) : 0 < itemId := by
  unfold ItemStack.itemId? at h
  split at h
  · exact nomatch h
  · cases h
    exact Nat.pos_of_ne_zero ‹_›

/-- The free ingredients when nothing is satisfied. -/
theorem free_replicate (ingredients : List Ingredient) :
    free ingredients (List.replicate ingredients.length false) = ingredients := by
  induction ingredients with
  | nil => rfl
  | cons i ingredients ih =>
    rw [List.length_cons, List.replicate_succ, free, List.zip_cons_cons, List.filter_cons_of_pos rfl, List.map_cons]
    exact congrArg (i :: ·) ih

/-- The first free ingredient that accepts the item is no longer free. -/
theorem free_set (p : Ingredient → Bool) (ingredients : List Ingredient) (satisfied : List Bool) :
    match (ingredients.zip satisfied).findIdx? fun q => !q.2 && p q.1 with
    | none => (free ingredients satisfied).any p = false
    | some slot => (free ingredients satisfied).any p = true ∧
        free ingredients (satisfied.set slot true) = (free ingredients satisfied).eraseP p := by
  induction ingredients generalizing satisfied with
  | nil => rfl
  | cons i ingredients ih =>
    cases satisfied with
    | nil => rfl
    | cons done satisfied =>
      have ih := ih satisfied
      rw [List.zip_cons_cons, List.findIdx?_cons]
      by_cases hhit : (!done && p i) = true
      · rw [if_pos hhit]
        rw [Bool.and_eq_true, Bool.not_eq_true'] at hhit
        obtain ⟨rfl, hp⟩ := hhit
        simp [free, hp]
      · rw [if_neg hhit]
        cases hrest : (ingredients.zip satisfied).findIdx? fun q => !q.2 && p q.1 with
        | none =>
          rw [hrest] at ih
          cases done <;> simp_all [free]
        | some slot =>
          rw [hrest] at ih
          cases done <;> simp_all [free]

/-- One cell: its item takes the first free ingredient that accepts it. -/
theorem cell_spec (ingredients : List Ingredient) (m : Matching) (stack : ItemStack) (index : Nat) :
    match m.cell ingredients (stack, index) with
    | none => FirstFit.firstFit takes (itemsOf [stack]) (free ingredients m.satisfied) = none
    | some m' => FirstFit.firstFit takes (itemsOf [stack]) (free ingredients m.satisfied) =
          some (free ingredients m'.satisfied) ∧
        m'.matchedItems = m.matchedItems + (itemsOf [stack]).length ∧
        m'.considered = marked [(stack, index)] m.considered := by
  unfold Matching.cell itemsOf
  cases hid : stack.itemId? with
  | none =>
    simp [FirstFit.firstFit, marked, hid, itemId?_eq_none.mp hid]
  | some itemId =>
    have hne : ¬ stack.isEmpty := fun h => by
      rw [itemId?_eq_none.mpr h] at hid
      cases hid
    have hpos := itemId?_pos hid
    have htakes : takes itemId = fun i => i.accepts itemId := by
      funext i
      simp [takes, hpos]
    have hset := free_set (fun i => i.accepts itemId) ingredients m.satisfied
    simp only [List.filterMap_cons, hid, List.filterMap_nil, FirstFit.firstFit, htakes]
    cases hslot : (ingredients.zip m.satisfied).findIdx? fun q => !q.2 && q.1.accepts itemId with
    | none =>
      rw [hslot] at hset
      dsimp only at hset
      simp [hset]
    | some slot =>
      rw [hslot] at hset
      obtain ⟨hany, herase⟩ := hset
      simp [hany, herase, marked, hne]

/-- The loop over any cells. -/
theorem cells_spec (ingredients : List Ingredient) (cells : List (ItemStack × Nat)) (m : Matching) :
    match cells.foldlM (Matching.cell ingredients) m with
    | none => FirstFit.firstFit takes (itemsOf (cells.map (·.1))) (free ingredients m.satisfied) = none
    | some m' => FirstFit.firstFit takes (itemsOf (cells.map (·.1))) (free ingredients m.satisfied) =
          some (free ingredients m'.satisfied) ∧
        m'.matchedItems = m.matchedItems + (itemsOf (cells.map (·.1))).length ∧
        m'.considered = marked cells m.considered := by
  induction cells generalizing m with
  | nil => exact ⟨rfl, rfl, rfl⟩
  | cons entry cells ih =>
    obtain ⟨stack, index⟩ := entry
    have hitems : itemsOf (((stack, index) :: cells).map (·.1)) =
        itemsOf [stack] ++ itemsOf (cells.map (·.1)) := by
      rw [List.map_cons]
      exact List.filterMap_append (l := [stack])
    rw [hitems, FirstFit.firstFit_append, List.foldlM_cons]
    have hcell := cell_spec ingredients m stack index
    cases hm : m.cell ingredients (stack, index) with
    | none =>
      rw [hm] at hcell
      dsimp only at hcell
      rw [hcell]
      rfl
    | some m₁ =>
      rw [hm] at hcell
      obtain ⟨hfit, hcount, hmask⟩ := hcell
      rw [hfit, Option.bind_some]
      have hrest := ih m₁
      show match cells.foldlM (Matching.cell ingredients) m₁ with
        | none => _
        | some m' => _
      cases hrun : cells.foldlM (Matching.cell ingredients) m₁ with
      | none =>
        rw [hrun] at hrest
        exact hrest
      | some m' =>
        rw [hrun] at hrest
        obtain ⟨hfit', hcount', hmask'⟩ := hrest
        refine ⟨hfit', ?_, ?_⟩
        · rw [hcount', hcount, List.length_append, Nat.add_assoc]
        · rw [hmask', hmask]
          rfl

/-- A grid matches when first fit leaves no ingredient free; the mask marks its non-empty cells. -/
theorem matchCells_spec (recipe : ShapelessRecipe) {grid : List ItemStack} (hgrid : grid.length ≤ MAX_GRID_SLOTS) :
    recipe.matchCells grid =
      if FirstFit.firstFit takes (itemsOf grid) recipe.ingredients = some [] then
        some (marked grid.zipIdx (List.replicate MAX_GRID_SLOTS false))
      else none := by
  unfold ShapelessRecipe.matchCells
  rw [List.take_of_length_le (by rwa [List.length_zipIdx])]
  have hloop := cells_spec recipe.ingredients grid.zipIdx
    ⟨List.replicate recipe.ingredients.length false, List.replicate MAX_GRID_SLOTS false, 0⟩
  rw [List.zipIdx_map_fst, free_replicate] at hloop
  cases hrun : grid.zipIdx.foldlM (Matching.cell recipe.ingredients)
      ⟨List.replicate recipe.ingredients.length false, List.replicate MAX_GRID_SLOTS false, 0⟩ with
  | none =>
    rw [hrun] at hloop
    dsimp only at hloop
    rw [hloop, if_neg (by simp)]
    rfl
  | some m =>
    rw [hrun] at hloop
    obtain ⟨hfit, hcount, hmask⟩ := hloop
    rw [Nat.zero_add] at hcount
    show (if m.matchedItems = recipe.ingredients.length then some m.considered else none) = _
    by_cases hfull : m.matchedItems = recipe.ingredients.length
    · have hnil := FirstFit.firstFit_eq_nil hfit (hcount.symm.trans hfull)
      rw [if_pos hfull, if_pos (hfit.trans (congrArg some hnil)), hmask]
    · rw [if_neg hfull, if_neg]
      intro hnil
      exact hfull (hcount.trans (FirstFit.firstFit_matches hnil).length_eq)

theorem marked_spec (grid : List ItemStack) {mask : List Bool} {i : Nat} (hi : i < mask.length) :
    (marked grid.zipIdx mask)[i]? = some true ↔
      mask[i]? = some true ∨ ∃ stack, grid[i]? = some stack ∧ ¬ stack.isEmpty := by
  rw [marked, Rows.getElem?_marks _ _ _ hi]
  refine or_congr_right ?_
  constructor
  · intro ⟨⟨stack, k⟩, hmem, hne, hk⟩
    dsimp only at hne hk
    subst hk
    exact ⟨stack, List.mk_mem_zipIdx_iff_getElem?.mp hmem, by simpa using hne⟩
  · intro ⟨stack, hstack, hne⟩
    exact ⟨(stack, i), List.mk_mem_zipIdx_iff_getElem?.mpr hstack, by simpa using hne, rfl⟩

/-! ## Perfect matchings -/

/-- The non-empty cells of a grid, in order. -/
def cellsOf (grid : List ItemStack) : List ItemStack := grid.filter (!·.isEmpty)

/-- A bijection between the non-empty cells and the ingredients, under which every ingredient
accepts its cell's item. -/
def PerfectMatching (recipe : ShapelessRecipe) (grid : List ItemStack) : Prop :=
  ∃ e : Fin (cellsOf grid).length ≃ Fin recipe.ingredients.length,
    ∀ i, (recipe.ingredients.get (e i)).accepts ((cellsOf grid).get i).itemId

/-- The recipe matches the grid exactly when a perfect matching does, and marks the non-empty cells. -/
def MatchesPerfectly (recipe : ShapelessRecipe) (grid : List ItemStack) : Prop :=
  ((recipe.matchCells grid).isSome ↔ PerfectMatching recipe grid) ∧
  ∀ mask, recipe.matchCells grid = some mask →
    ∀ i < MAX_GRID_SLOTS, mask[i]? = some true ↔ ∃ stack, grid[i]? = some stack ∧ ¬ stack.isEmpty

theorem itemsOf_eq (grid : List ItemStack) : itemsOf grid = (cellsOf grid).map (·.itemId) := by
  induction grid with
  | nil => rfl
  | cons stack grid ih =>
    by_cases hempty : stack.isEmpty
    · simp only [itemsOf, cellsOf, List.filterMap_cons, itemId?_eq_none.mpr hempty, List.filter_cons, hempty]
      exact ih
    · have hid : stack.itemId? = some stack.itemId := by
        cases hnone : stack.itemId? with
        | none => exact absurd (itemId?_eq_none.mp hnone) hempty
        | some itemId =>
          unfold ItemStack.itemId? at hnone
          split at hnone
          · exact nomatch hnone
          · exact hnone.symm
      simp only [itemsOf, cellsOf, List.filterMap_cons, hid, List.filter_cons, hempty]
      exact congrArg (stack.itemId :: ·) ih

theorem takes_of_mem {grid : List ItemStack} {stack : ItemStack} (h : stack ∈ cellsOf grid)
    (ingredient : Ingredient) : takes stack.itemId ingredient = ingredient.accepts stack.itemId := by
  have hne : ¬ stack.isEmpty := by simpa using (List.mem_filter.mp h).2
  have hpos : 0 < stack.itemId := by
    rcases stack.valid with ⟨hid, -, -⟩ | ⟨hid, -, -⟩
    · exact absurd (by simp [ItemStack.isEmpty, hid]) hne
    · exact hid
  simp [takes, hpos]

theorem perfectMatching_iff (recipe : ShapelessRecipe) (grid : List ItemStack) :
    PerfectMatching recipe grid ↔ FirstFit.Matches takes (itemsOf grid) recipe.ingredients := by
  rw [itemsOf_eq, FirstFit.matches_map, FirstFit.matches_iff_equiv]
  refine exists_congr fun e => forall_congr' fun i => ?_
  rw [takes_of_mem (List.get_mem _ _)]

/-- What the recipe does in terms of first fit. -/
theorem matchesPerfectly_iff (recipe : ShapelessRecipe) {grid : List ItemStack}
    (hgrid : grid.length ≤ MAX_GRID_SLOTS) : MatchesPerfectly recipe grid ↔
      (FirstFit.Matches takes (itemsOf grid) recipe.ingredients →
        FirstFit.firstFit takes (itemsOf grid) recipe.ingredients = some []) := by
  unfold MatchesPerfectly
  rw [matchCells_spec recipe hgrid, perfectMatching_iff]
  constructor
  · intro ⟨hiff, _⟩ hm
    by_contra hnot
    rw [if_neg hnot] at hiff
    exact nomatch hiff.mpr hm
  · intro hcomplete
    constructor
    · constructor
      · intro hsome
        split at hsome
        · next hfit => exact FirstFit.firstFit_matches hfit
        · exact nomatch hsome
      · intro hm
        rw [if_pos (hcomplete hm)]
        rfl
    · intro mask hmask i hi
      split at hmask
      · cases hmask
        rw [marked_spec grid (by rwa [List.length_replicate])]
        simp [hi]
      · exact nomatch hmask

/-! ## The recipes it is sound for -/

/-- A stack of one item. -/
def oneOf (itemId : Nat) : ItemStack := ItemStack.ofParts itemId 1 [] ItemStack.one_legal

theorem itemsOf_oneOf {items : List Nat} (h : ∀ a ∈ items, 0 < a) : itemsOf (items.map oneOf) = items := by
  induction items with
  | nil => rfl
  | cons a items ih =>
    have hid : (oneOf a).itemId? = some a := by
      have hne : ¬ (a = AIR_ITEM_ID ∨ 1 = 0) := by
        have := h a (.head _)
        unfold AIR_ITEM_ID
        omega
      unfold oneOf ItemStack.ofParts ItemStack.itemId?
      rw [dif_neg hne]
      exact if_neg fun h0 => hne (.inl h0)
    rw [List.map_cons, itemsOf, List.filterMap_cons, hid]
    exact congrArg (a :: ·) (ih fun b hb => h b (.tail _ hb))

theorem pos_of_matches {items : List Nat} {slots : List Ingredient} (h : FirstFit.Matches takes items slots) :
    ∀ a ∈ items, 0 < a := by
  obtain ⟨taken, -, hall⟩ := h
  intro a ha
  obtain ⟨i, hi, rfl⟩ := List.getElem_of_mem ha
  have hfits := hall.get hi (hall.length_eq ▸ hi)
  simp only [takes, List.get_eq_getElem, Bool.and_eq_true, decide_eq_true_eq] at hfits
  exact hfits.1

/-- An ingredient that no stack can satisfy. -/
def Dead (recipe : ShapelessRecipe) : Prop :=
  ∃ ingredient ∈ recipe.ingredients, ∀ itemId, ¬ takes itemId ingredient

theorem Dead.not_matches {recipe : ShapelessRecipe} (h : Dead recipe) (items : List Nat) :
    ¬ FirstFit.Matches takes items recipe.ingredients := by
  intro ⟨taken, hperm, hfits⟩
  obtain ⟨ingredient, hin, hnone⟩ := h
  obtain ⟨i, hi, hget⟩ := List.getElem_of_mem (hperm.symm.subset hin)
  have htakes := hfits.get (hfits.length_eq ▸ hi) hi
  rw [List.get_eq_getElem, List.get_eq_getElem, hget] at htakes
  exact hnone _ htakes

/-- No ingredient that shares an item with a later one accepts an item the later one does not. -/
def Sound (recipe : ShapelessRecipe) : Prop :=
  Dead recipe ∨ FirstFit.Nested takes recipe.ingredients

/-- Any two ingredients that share an item accept the same items. -/
def Interchangeable (recipe : ShapelessRecipe) : Prop :=
  Dead recipe ∨ FirstFit.Alike takes recipe.ingredients

theorem matchesPerfectly_of_sound {recipe : ShapelessRecipe} (h : Sound recipe) {grid : List ItemStack}
    (hgrid : grid.length ≤ MAX_GRID_SLOTS) : MatchesPerfectly recipe grid := by
  rw [matchesPerfectly_iff recipe hgrid]
  intro hm
  rcases h with hdead | hnested
  · exact absurd hm (hdead.not_matches _)
  · exact hnested.firstFit_complete hm

theorem sound_of_matchesPerfectly {recipe : ShapelessRecipe}
    (h : ∀ grid : List ItemStack, grid.length ≤ MAX_GRID_SLOTS → MatchesPerfectly recipe grid) : Sound recipe := by
  by_contra hnot
  obtain ⟨hdead, hnested⟩ := not_or.mp hnot
  unfold Dead at hdead
  push Not at hdead
  obtain ⟨items, hm, hstuck⟩ := FirstFit.exists_stuck hnested hdead
  have hgrid : (items.map oneOf).length ≤ MAX_GRID_SLOTS := by
    rw [List.length_map, hm.length_eq]
    exact recipe.fits
  have hmatch := (matchesPerfectly_iff recipe hgrid).mp (h _ hgrid)
  rw [itemsOf_oneOf (pos_of_matches hm)] at hmatch
  rw [hmatch hm] at hstuck
  exact nomatch hstuck

/-- The answer depends neither on the order of the ingredients nor on that of the cells. -/
def OrderFree (recipe : ShapelessRecipe) : Prop :=
  ∀ (recipe' : ShapelessRecipe) (grid grid' : List ItemStack), recipe'.ingredients.Perm recipe.ingredients →
    grid'.Perm grid → grid.length ≤ MAX_GRID_SLOTS →
      (recipe'.matchCells grid').isSome = (recipe.matchCells grid).isSome

theorem Dead.perm {recipe recipe' : ShapelessRecipe} (h : Dead recipe)
    (hperm : recipe'.ingredients.Perm recipe.ingredients) : Dead recipe' := by
  obtain ⟨ingredient, hin, hnone⟩ := h
  exact ⟨ingredient, hperm.symm.subset hin, hnone⟩

theorem Interchangeable.sound {recipe recipe' : ShapelessRecipe} (h : Interchangeable recipe)
    (hperm : recipe'.ingredients.Perm recipe.ingredients) : Sound recipe' := by
  rcases h with hdead | halike
  · exact .inl (hdead.perm hperm)
  · exact .inr (halike.perm hperm).nested

theorem orderFree_of_interchangeable {recipe : ShapelessRecipe} (h : Interchangeable recipe) :
    OrderFree recipe := by
  intro recipe' grid grid' hrecipe hgrid hlen
  have hlen' : grid'.length ≤ MAX_GRID_SLOTS := hgrid.length_eq ▸ hlen
  have hitems : (itemsOf grid').Perm (itemsOf grid) := hgrid.filterMap _
  rw [Bool.eq_iff_iff, (matchesPerfectly_of_sound (h.sound hrecipe) hlen').1,
    (matchesPerfectly_of_sound (h.sound (.refl _)) hlen).1, perfectMatching_iff, perfectMatching_iff]
  exact ⟨fun hm => hm.perm hitems.symm hrecipe.symm, fun hm => hm.perm hitems hrecipe⟩

/-- The same recipe with its ingredients in another order. -/
def ShapelessRecipe.reorder (recipe : ShapelessRecipe) {ingredients : List Ingredient}
    (h : ingredients.Perm recipe.ingredients) : ShapelessRecipe where
  name := recipe.name
  ingredients := ingredients
  result := recipe.result
  resultCount := recipe.resultCount
  named := recipe.named
  used := fun hnil => recipe.used (List.nil_perm.mp (hnil ▸ h))
  fits := h.length_eq ▸ recipe.fits
  counted := recipe.counted

/-- In the order of a matching the ingredients are all found, so in any order they are. -/
theorem OrderFree.matchesPerfectly {recipe : ShapelessRecipe} (h : OrderFree recipe) {recipe' : ShapelessRecipe}
    (hperm : recipe'.ingredients.Perm recipe.ingredients) {grid : List ItemStack}
    (hgrid : grid.length ≤ MAX_GRID_SLOTS) : MatchesPerfectly recipe' grid := by
  rw [matchesPerfectly_iff recipe' hgrid]
  intro ⟨taken, htaken, hall⟩
  have hsame := h (recipe.reorder (htaken.trans hperm)) grid grid (htaken.trans hperm) (.refl _) hgrid
  have hsame' := h recipe' grid grid hperm (.refl _) hgrid
  rw [← hsame, matchCells_spec _ hgrid, matchCells_spec _ hgrid,
    if_pos (FirstFit.firstFit_aligned hall : FirstFit.firstFit takes (itemsOf grid)
      (recipe.reorder (htaken.trans hperm)).ingredients = some [])] at hsame'
  by_contra hnot
  rw [if_neg hnot] at hsame'
  exact nomatch hsame'

theorem OrderFree.interchangeable {recipe : ShapelessRecipe} (h : OrderFree recipe) : Interchangeable recipe := by
  have hrev := List.reverse_perm recipe.ingredients
  have hsound := sound_of_matchesPerfectly fun grid hgrid => h.matchesPerfectly (.refl _) hgrid
  have hsound' := @sound_of_matchesPerfectly (recipe.reorder hrev) fun grid hgrid =>
    h.matchesPerfectly hrev hgrid
  rcases hsound with hdead | hnested
  · exact .inl hdead
  rcases hsound' with hdead | hnested'
  · exact .inl (hdead.perm hrev.symm)
  · exact .inr (FirstFit.alike_of_nested hnested hnested')

/-- A recipe matches every grid as a perfect matching would exactly when it is sound, and its
answers are free of all order exactly when its ingredients are interchangeable. -/
theorem shapeless_matching_iff (recipe : ShapelessRecipe) :
    ((∀ grid : List ItemStack, grid.length ≤ MAX_GRID_SLOTS → MatchesPerfectly recipe grid) ↔ Sound recipe) ∧
    (OrderFree recipe ↔ Interchangeable recipe) :=
  ⟨⟨sound_of_matchesPerfectly, fun h _ hgrid => matchesPerfectly_of_sound h hgrid⟩,
    ⟨OrderFree.interchangeable, orderFree_of_interchangeable⟩⟩

/-- Two items or one of them, in this order. -/
def either : Ingredient := ⟨[1, 2], by decide, by decide, by decide⟩

def overlapping : ShapelessRecipe :=
  ⟨"overlapping", [either, .item 1], 3, 1, by decide, by decide, by decide, by decide⟩

/-- The first cell takes the ingredient that the second one needs. -/
theorem overlapping_not_matched :
    ShapelessRecipe.new "overlapping" [either, .item 1] 3 1 = .ok overlapping ∧
    ¬ ∀ (recipe : ShapelessRecipe) (grid : List ItemStack), grid.length ≤ MAX_GRID_SLOTS →
      MatchesPerfectly recipe grid := by
  refine ⟨rfl, fun h => ?_⟩
  have hgrid := h overlapping [oneOf 1, oneOf 2] (by decide)
  have hmatch : PerfectMatching overlapping [oneOf 1, oneOf 2] := by
    rw [perfectMatching_iff]
    exact ⟨[.item 1, either], .swap .., .cons (by decide) (.cons (by decide) .nil)⟩
  exact absurd (hgrid.1.mpr hmatch) (by decide)

end Apoptosis.L2.Crafting
