import Apoptosis.L2Items.Furnace
/-!
# How long a smelt takes (`container/src/furnace.rs`)

The progress of a furnace is one number, whatever item made it. It outlives the
item: when another one is put into the input slot, the progress is its own.

* `tick_cook_cases`: what a tick does to the progress and to the slots.
* `takes_full_time`: runs in which no progress passes from one item to another.
-/
namespace Apoptosis.L2.Furnace
open Apoptosis.Core

section Cook

variable (slots : FurnaceSlots) (recipes : SmeltingRegistry) (fuelling : ItemRegistry)
  (stackSizes : StackSizeTable)

/-- One input item less, and in the output slot as many more as the recipe makes. -/
def Smelts (recipe : SmeltingRecipe) (before after : Container) : Prop :=
  (after.get slots.input).count + 1 = (before.get slots.input).count ∧
  (after.get slots.output).itemId = recipe.output ∧
  (after.get slots.output).count = (before.get slots.output).count + recipe.outputCount

theorem inputRecipe_of_plan {container : Container} {plan : SmeltingRecipe}
    (h : planSmelt (container.get slots.input) (container.get slots.output) recipes stackSizes = some plan) :
    inputRecipe slots recipes container = some plan := by
  unfold planSmelt at h
  unfold inputRecipe
  split at h
  · exact nomatch h
  next recipe hrecipe =>
  dsimp only at h
  rw [hrecipe]
  split at h
  · exact h
  split at h
  · exact nomatch h
  split at h
  · exact nomatch h
  · exact h

/-- What goes into the output slot. -/
theorem produce_spec {output produced : ItemStack} {plan : SmeltingRecipe} {limit : Nat} (hair : plan.output ≠ 0)
    (hlimit : 1 ≤ limit ∧ limit ≤ 64)
    (hroom : plan.outputCount ≤ if output.isEmpty then limit
      else if output.itemId? = some plan.output then limit - output.count else 0)
    (h : produce output plan limit = .ok produced) :
    produced.itemId = plan.output ∧ produced.count = output.count + plan.outputCount := by
  have hcounted := plan.counted
  have hmax : HARD_MAX_STACK_SIZE = 64 := rfl
  unfold produce at h
  by_cases hempty : output.isEmpty
  · rw [if_pos hempty] at h
    have hzero := (ItemStack.isEmpty_iff_count output).mp hempty
    unfold ItemStack.new at h
    rw [if_neg (by omega), dif_neg (by omega)] at h
    cases h
    have hne : ¬ ((plan.output : Int).toNat = AIR_ITEM_ID ∨ (plan.outputCount : Int).toNat = 0) := by
      rw [Int.toNat_natCast, Int.toNat_natCast]
      exact not_or.mpr ⟨hair, by omega⟩
    unfold ItemStack.ofParts
    rw [dif_neg hne]
    exact ⟨Int.toNat_natCast _, by rw [hzero, Nat.zero_add]; exact Int.toNat_natCast _⟩
  · rw [if_neg hempty] at h hroom
    cases h
    have hitem : output.itemId? = some plan.output := by
      by_contra hne
      rw [if_neg hne] at hroom
      omega
    rw [if_pos hitem] at hroom
    have hid : output.itemId = plan.output := by
      unfold ItemStack.itemId? at hitem
      split at hitem
      · exact nomatch hitem
      · exact Option.some.inj hitem
    have hgrow : output.growCapped plan.outputCount limit = output.keep (output.count + plan.outputCount) := by
      unfold ItemStack.growCapped
      rw [if_neg (by simp [hempty]; omega)]
      congr 2
      rw [show max 1 (min limit HARD_MAX_STACK_SIZE) = limit by omega]
      omega
    have hcount := ItemStack.keep_count (s := output) (n := output.count + plan.outputCount) (by omega) hempty
    rw [hgrow]
    refine ⟨?_, hcount⟩
    rcases ItemStack.keep_kind output (output.count + plan.outputCount) with hnone | ⟨hkeep, -⟩
    · rw [ItemStack.isEmpty_iff_count, hcount] at hnone
      omega
    · rw [hkeep, hid]

/-- A finished item moves through the slots. -/
theorem finish_spec {container container' : Container} {plan : SmeltingRecipe} {n : Nat}
    (husable : Usable slots container)
    (h : finish container slots plan stackSizes = (.ok (some n), container')) :
    n = 1 ∧ (plan.output ≠ 0 → Smelts slots plan container container') := by
  have hlen := husable.2
  have hdistinct : slots.input ≠ slots.output := by
    have hall := husable.1
    simp only [FurnaceSlots.areDistinct, ne_eq, decide_not, Bool.and_eq_true, Bool.not_eq_true',
      decide_eq_false_iff_not] at hall
    exact hall.2
  unfold finish at h
  dsimp only at h
  generalize hspace : (if (container.get slots.output).isEmpty then stackSizes.maxStackSize plan.output
    else if (container.get slots.output).itemId? = some plan.output then
      stackSizes.maxStackSize plan.output - (container.get slots.output).count
    else 0) = room at h
  by_cases hroom : room < plan.outputCount
  · rw [if_pos hroom] at h
    cases h
  rw [if_neg hroom] at h
  cases hproduced : produce (container.get slots.output) plan (stackSizes.maxStackSize plan.output) with
  | error e =>
    rw [hproduced] at h
    cases h
  | ok produced =>
  rw [hproduced] at h
  dsimp only at h
  by_cases hshrunk : (container.get slots.input).shrunk 1 = 1
  swap
  · rw [if_pos hshrunk] at h
    cases h
  rw [if_neg (not_not.mpr hshrunk)] at h
  rw [set_ok (by omega)] at h
  dsimp only at h
  rw [set_ok (by rw [Container.put_length]; omega)] at h
  dsimp only at h
  cases h
  refine ⟨rfl, fun hair => ?_⟩
  obtain ⟨hid, hcount⟩ := produce_spec hair (stackSizes.maxStackSize_bounds plan.output)
    (hspace.symm ▸ not_lt.mp hroom) hproduced
  have hinput := container.put_get (by omega : slots.input < container.slots.length)
    ((container.get slots.input).shrink 1)
  have houtput := (container.put slots.input ((container.get slots.input).shrink 1)).put_get
    (by rw [Container.put_length]; omega : slots.output < _) produced
  have hpos : (container.get slots.input).count ≠ 0 := by
    intro hzero
    unfold ItemStack.shrunk at hshrunk
    rw [if_pos (.inr ((ItemStack.isEmpty_iff_count _).mpr hzero))] at hshrunk
    cases hshrunk
  have hshrink : ((container.get slots.input).shrink 1).count = (container.get slots.input).count - 1 := by
    rw [ItemStack.shrink, ((container.get slots.input).split_count 1).2]
    omega
  refine ⟨?_, ?_, ?_⟩
  · rw [Container.markChanged_get, Container.put_get_ne _ hdistinct, hinput.2.1, hshrink]
    omega
  · rw [Container.markChanged_get, houtput.1, hid]
  · rw [Container.markChanged_get, houtput.2.1, hcount]

/-- What a cooking tick does: it adds to the progress, and at the recipe's time the progress is spent
on an item or lost. -/
def Cooks (plan : SmeltingRecipe) (state state' : FurnaceState) (report : FurnaceTickReport)
    (before after : Container) : Prop :=
  report.lit ∧ report.cookProgressed ∧
  ((state'.cookProgress = succU32 state.cookProgress ∧ report.finishedItems = 0) ∨
    (plan.cookTicks ≤ succU32 state.cookProgress ∧ state'.cookProgress = 0 ∧
      (report.finishedItems = 0 ∨
        (report.finishedItems = 1 ∧ (plan.output ≠ 0 → Smelts slots plan before after)))))

theorem tickCook_spec (state : FurnaceState) {container : Container} (husable : Usable slots container)
    (hlit : 0 < state.burnTicksRemaining) (plan : SmeltingRecipe) (wasLit fuelConsumed : Bool) :
    ∃ report state' container', tickCook state container slots plan stackSizes wasLit fuelConsumed =
        (.ok report, state', container') ∧ Cooks slots plan state state' report container container' := by
  unfold tickCook
  dsimp only
  split
  · next hdone =>
    obtain ⟨finished, container', hfinish, -⟩ := finish_ok slots stackSizes husable plan
    rw [hfinish]
    refine ⟨_, _, _, rfl, decide_eq_true hlit, rfl, .inr ⟨hdone, rfl, ?_⟩⟩
    cases finished with
    | none => exact .inl rfl
    | some n =>
      obtain ⟨rfl, hsmelts⟩ := finish_spec slots stackSizes husable hfinish
      exact .inr ⟨rfl, hsmelts⟩
  · exact ⟨_, _, _, rfl, decide_eq_true hlit, rfl, .inl ⟨rfl, rfl⟩⟩

/-- A tick on this state cooks: there is a plan, and a burn tick or a fuel for it. -/
def Cooking (state : FurnaceState) (container : Container) : Prop :=
  Usable slots container ∧
  (planSmelt (container.get slots.input) (container.get slots.output) recipes stackSizes).isSome ∧
  (1 < state.burnTicksRemaining ∨ 0 < burnTime slots fuelling container)

variable {slots} in
/-- Taking fuel is not seen in the other slots. -/
theorem Cooks.of_fuel {plan : SmeltingRecipe} {state state' state'' : FurnaceState} {report : FurnaceTickReport}
    {container after : Container} {fuel : ItemStack} (hdistinct : slots.areDistinct)
    (hprogress : state''.cookProgress = state.cookProgress)
    (h : Cooks slots plan state'' state' report (container.put slots.fuel fuel) after) :
    Cooks slots plan state state' report container after := by
  have hne : slots.input ≠ slots.fuel ∧ slots.output ≠ slots.fuel := by
    simp only [FurnaceSlots.areDistinct, ne_eq, decide_not, Bool.and_eq_true, Bool.not_eq_true',
      decide_eq_false_iff_not] at hdistinct
    exact ⟨hdistinct.1.1, Ne.symm hdistinct.1.2⟩
  unfold Cooks Smelts at *
  rwa [hprogress, Container.put_get_ne _ hne.1, Container.put_get_ne _ hne.2] at h

/-- A tick cooks the input's recipe, or leaves the progress as it was or at zero. -/
theorem tick_cook_cases (state : FurnaceState) (container : Container) :
    let ticked := tick state container slots recipes fuelling stackSizes
    ((∀ report, ticked.1 = .ok report → report.finishedItems = 0 ∧ report.cookProgressed = false) ∧
      (ticked.2.1.cookProgress = state.cookProgress ∨ ticked.2.1.cookProgress = 0)) ∨
    (Cooking slots recipes fuelling stackSizes state container ∧
      ∃ plan report, inputRecipe slots recipes container = some plan ∧ ticked.1 = .ok report ∧
        Cooks slots plan state ticked.2.1 report container ticked.2.2) := by
  dsimp only
  unfold tick
  by_cases hdistinct : slots.areDistinct
  swap
  · left
    rw [if_pos (by simpa using hdistinct)]
    exact ⟨fun report h => (nomatch h), .inl rfl⟩
  rw [if_neg (by simpa using hdistinct)]
  dsimp only
  by_cases hlen : container.slots.length ≤ max (max slots.input slots.fuel) slots.output
  · left
    rw [if_pos hlen]
    exact ⟨fun report h => (nomatch h), .inl rfl⟩
  rw [if_neg hlen]
  have husable : Usable slots container := ⟨hdistinct, not_le.mp hlen⟩
  cases hplan : planSmelt (container.get slots.input) (container.get slots.output) recipes
      stackSizes with
  | none =>
    left
    refine ⟨fun report h => ?_, .inl rfl⟩
    cases h
    exact ⟨rfl, rfl⟩
  | some plan =>
    have hrecipe := inputRecipe_of_plan slots recipes stackSizes hplan
    dsimp only
    by_cases hburn : state.burnTicksRemaining - 1 = 0
    swap
    · right
      rw [if_neg hburn]
      dsimp only
      rw [if_neg hburn]
      obtain ⟨report, state', container', hcook, hcooks⟩ := tickCook_spec slots stackSizes
        { state with burnTicksRemaining := state.burnTicksRemaining - 1 } husable (Nat.pos_of_ne_zero hburn) plan
        state.isLit (none : Option Nat).isSome
      rw [hcook]
      exact ⟨⟨husable, by rw [hplan]; rfl, .inl (by omega)⟩, plan, report, hrecipe, rfl, hcooks⟩
    rw [if_pos hburn]
    rcases takeFuel_cases slots fuelling
      { state with burnTicksRemaining := state.burnTicksRemaining - 1 } husable with
      ⟨hfuel, -, htake⟩ | ⟨-, htake | ⟨e, htake⟩⟩
    · right
      rw [htake]
      dsimp only
      rw [if_neg hfuel.ne']
      have husable' : Usable slots
          (container.put slots.fuel ((container.get slots.fuel).shrink 1)) :=
        ⟨hdistinct, by rw [Container.put_length]; exact husable.2⟩
      obtain ⟨report, state', container', hcook, hcooks⟩ := tickCook_spec slots stackSizes
        { state with
          burnTicksRemaining := burnTime slots fuelling container
          burnTicksTotal := burnTime slots fuelling container } husable' hfuel plan
        state.isLit (some (burnTime slots fuelling container)).isSome
      rw [hcook]
      exact ⟨⟨husable, by rw [hplan]; rfl, .inr hfuel⟩, plan, report, hrecipe, rfl, hcooks.of_fuel hdistinct rfl⟩
    · left
      rw [htake]
      dsimp only
      rw [if_pos hburn]
      refine ⟨fun report h => ?_, .inr rfl⟩
      cases h
      exact ⟨rfl, rfl⟩
    · left
      rw [htake]
      exact ⟨fun report h => (nomatch h), .inl rfl⟩

end Cook

/-! ## Runs with their history -/

/-- A furnace with what lit ticks found in its input slot, and what its last cooking tick cooked, since
an item was finished or progress was lost. -/
structure Watched where
  state : FurnaceState
  container : Container
  lit : List (Option Nat)
  cooking : Option Nat

/-- A cold furnace. -/
def Watched.start (container : Container) : Watched := ⟨⟨0, 0, 0, 0, 0⟩, container, [], none⟩

section Watch

variable (slots : FurnaceSlots) (recipes : SmeltingRegistry) (fuelling : ItemRegistry)
  (stackSizes : StackSizeTable)

def Watched.input (w : Watched) : Option Nat := (w.container.get slots.input).itemId?

/-- What the lit ticks up to this one found. -/
def Watched.litNow (w : Watched) (report : FurnaceTickReport) : List (Option Nat) :=
  if report.lit then w.input slots :: w.lit else w.lit

/-- The tick finishes an item, or leaves nothing of the progress there was or that it made. -/
def Spent (before after : FurnaceState) (report : FurnaceTickReport) : Prop :=
  report.finishedItems = 1 ∨ (after.cookProgress = 0 ∧ (before.cookProgress ≠ 0 ∨ report.cookProgressed))

instance (before after : FurnaceState) (report : FurnaceTickReport) : Decidable (Spent before after report) :=
  inferInstanceAs (Decidable (_ ∨ _))

def watch (w : Watched) : Op → Watched
  | .replace container => { w with container }
  | .tick =>
    match tick w.state w.container slots recipes fuelling stackSizes with
    | (.error _, state, container) => { w with state, container }
    | (.ok report, state, container) =>
      if Spent w.state state report then ⟨state, container, [], none⟩
      else ⟨state, container, w.litNow slots report, if report.cookProgressed then w.input slots else w.cooking⟩

/-- A tick that finishes an item of a recipe is the last of as many lit ticks with its input in the slot
as the recipe takes, and moves one input into all its outputs. -/
def FullTime (w : Watched) : Op → Prop
  | .replace _ => True
  | .tick =>
    let ticked := tick w.state w.container slots recipes fuelling stackSizes
    ∀ report, ticked.1 = .ok report → report.finishedItems = 1 →
      ∃ recipe, inputRecipe slots recipes w.container = some recipe ∧
        recipe.cookTicks ≤ (w.litNow slots report).count (some recipe.input) ∧
        Smelts slots recipe w.container ticked.2.2

/-- A tick that cooks goes on with its own progress only, and finishes no recipe that makes air. -/
def OwnProgress (w : Watched) : Op → Prop
  | .replace _ => True
  | .tick => Cooking slots recipes fuelling stackSizes w.state w.container →
      ∀ recipe, inputRecipe slots recipes w.container = some recipe →
        (w.state.cookProgress ≠ 0 → w.cooking = some recipe.input) ∧
        (recipe.cookTicks ≤ succU32 w.state.cookProgress → recipe.output ≠ 0)

/-- The progress is of one item, and made in lit ticks with it in the slot. -/
def Watched.Earned (w : Watched) : Prop :=
  w.state.cookProgress = 0 ∨ ∃ item, w.cooking = some item ∧ w.state.cookProgress ≤ w.lit.count (some item)

theorem input_of_recipe {w : Watched} {recipe : SmeltingRecipe} (h : inputRecipe slots recipes w.container = some recipe) :
    w.input slots = some recipe.input := by
  unfold inputRecipe at h
  obtain ⟨itemId, hitem, hfind⟩ := Option.bind_eq_some_iff.mp h
  have hinput := List.find?_some hfind
  rw [Watched.input, hitem, (by simpa using hinput : recipe.input = itemId)]

/-- The progress after one more tick is still made in lit ticks. -/
theorem Watched.Earned.more {w : Watched} {recipe : SmeltingRecipe} (h : w.Earned)
    (hinput : w.input slots = some recipe.input)
    (hown : w.state.cookProgress ≠ 0 → w.cooking = some recipe.input) {report : FurnaceTickReport} (hlit : report.lit) :
    succU32 w.state.cookProgress ≤ (w.litNow slots report).count (some recipe.input) := by
  have hsucc : succU32 w.state.cookProgress ≤ w.state.cookProgress + 1 := min_le_left _ _
  rw [Watched.litNow, if_pos hlit, hinput, List.count_cons_self]
  rcases h with hzero | ⟨item, hcooking, hcount⟩
  · omega
  · by_cases hzero : w.state.cookProgress = 0
    · omega
    · obtain rfl : recipe.input = item := Option.some.inj ((hown hzero).symm.trans hcooking)
      omega

theorem earned_watch {w : Watched} {op : Op} (h : w.Earned)
    (hown : OwnProgress slots recipes fuelling stackSizes w op) :
    (watch slots recipes fuelling stackSizes w op).Earned := by
  cases op with
  | replace container => exact h
  | tick =>
    have hcases := tick_cook_cases slots recipes fuelling stackSizes w.state w.container
    unfold watch
    rcases hticked : tick w.state w.container slots recipes fuelling stackSizes with ⟨e | report, state, container⟩
    · rw [hticked] at hcases
      dsimp only at hcases ⊢
      rcases hcases with ⟨-, hsame | hzero⟩ | ⟨-, _, _, -, hok, -⟩
      · rw [Watched.Earned, hsame]
        exact h
      · exact .inl hzero
      · exact nomatch hok
    rw [hticked] at hcases
    dsimp only at hcases ⊢
    split
    · next hspent =>
      rcases hcases with ⟨hidle, hsame | hzero⟩ | ⟨-, recipe, report', -, hok, -, -, hrest⟩
      · obtain ⟨hnone, hidle⟩ := hidle report rfl
        rcases hspent with hone | ⟨hzero, -⟩
        · rw [hnone] at hone
          exact nomatch hone
        · exact .inl hzero
      · exact .inl hzero
      · obtain rfl : report = report' := Except.ok.inj hok
        rcases hrest with ⟨hprogress, hnone⟩ | ⟨-, hzero, -⟩
        · rcases hspent with hone | ⟨hzero, -⟩
          · rw [hnone] at hone
            exact nomatch hone
          · exact .inl hzero
        · exact .inl hzero
    · next hspent =>
      rcases hcases with ⟨hidle, hsame | hzero⟩ | ⟨hcooking, recipe, report', hrecipe, hok, hlit, hcooked, hrest⟩
      · obtain ⟨-, hidle⟩ := hidle report rfl
        rw [hidle]
        rcases h with hzero | ⟨item, hcooking, hcount⟩
        · exact .inl (hsame.trans hzero)
        · refine .inr ⟨item, hcooking, ?_⟩
          dsimp only
          rw [hsame]
          refine hcount.trans ?_
          unfold Watched.litNow
          split
          · exact List.count_le_count_cons
          · exact le_rfl
      · exact .inl hzero
      · obtain rfl : report = report' := Except.ok.inj hok
        obtain ⟨hown, -⟩ := hown hcooking recipe hrecipe
        have hinput := input_of_recipe slots recipes hrecipe
        rcases hrest with ⟨hprogress, -⟩ | ⟨-, hzero, -⟩
        · refine .inr ⟨recipe.input, ?_, ?_⟩
          · dsimp only
            rw [if_pos hcooked, hinput]
          · dsimp only
            rw [hprogress]
            exact h.more slots hinput hown hlit
        · exact .inl hzero

theorem fullTime_of_earned {w : Watched} {op : Op} (h : w.Earned)
    (hown : OwnProgress slots recipes fuelling stackSizes w op) :
    FullTime slots recipes fuelling stackSizes w op := by
  cases op with
  | replace container => trivial
  | tick =>
    intro report hreport hone
    rcases tick_cook_cases slots recipes fuelling stackSizes w.state w.container with
      ⟨hidle, -⟩ | ⟨hcooking, recipe, report', hrecipe, hok, hlit, -, hrest⟩
    · rw [(hidle report hreport).1] at hone
      exact nomatch hone
    obtain rfl : report = report' := Except.ok.inj (hreport.symm.trans hok)
    obtain ⟨hown, hair⟩ := hown hcooking recipe hrecipe
    rcases hrest with ⟨-, hnone⟩ | ⟨hdone, -, hnone | ⟨-, hsmelts⟩⟩
    · rw [hnone] at hone
      exact nomatch hone
    · rw [hnone] at hone
      exact nomatch hone
    · exact ⟨recipe, hrecipe, hdone.trans (h.more slots (input_of_recipe slots recipes hrecipe) hown hlit),
        hsmelts (hair hdone)⟩

/-- In a run from a cold furnace whose cooking ticks go on with their own item's progress, every item
takes its recipe's time. -/
theorem takes_full_time {container : Container} {ops : List Op}
    (h : Along (watch slots recipes fuelling stackSizes) (OwnProgress slots recipes fuelling stackSizes)
      (.start container) ops) :
    Along (watch slots recipes fuelling stackSizes) (FullTime slots recipes fuelling stackSizes)
      (.start container) ops :=
  along_imp (fun _ _ hearned hown => earned_watch slots recipes fuelling stackSizes hearned hown)
    (fun _ _ hearned hown => fullTime_of_earned slots recipes fuelling stackSizes hearned hown) (.inl rfl) h

end Watch

/-! ## An item that is swapped for another one -/

/-- Two recipes of two ticks each. -/
def quickRecipes : SmeltingRegistry :=
  ⟨[⟨2, 4, 1, 2, 0, by decide⟩, ⟨3, 5, 1, 2, 0, by decide⟩], by decide⟩

/-- One item to smelt over one coal. -/
def loaded (item : Nat) : Container :=
  ⟨.furnace, [.ofParts item 1 [] ItemStack.one_legal, .ofParts 1 1 [] ItemStack.one_legal, .EMPTY], ∅, by simp [MAX_CONTAINER_SLOTS]⟩

def unstacked : StackSizeTable := .default

theorem loaded_takes_full_time :
    Along (watch .CANONICAL quickRecipes jammedItems unstacked)
      (FullTime .CANONICAL quickRecipes jammedItems unstacked) (.start (loaded 2)) [.tick, .tick] := by
  refine takes_full_time .CANONICAL quickRecipes jammedItems unstacked
    ⟨fun _ recipe hrecipe => ?_, fun _ recipe hrecipe => ?_, trivial⟩
  · obtain rfl : (⟨2, 4, 1, 2, 0, by decide⟩ : SmeltingRecipe) = recipe := Option.some.inj hrecipe
    exact ⟨fun h => absurd rfl h, fun _ => by decide⟩
  · obtain rfl : (⟨2, 4, 1, 2, 0, by decide⟩ : SmeltingRecipe) = recipe := Option.some.inj hrecipe
    exact ⟨fun _ => rfl, fun _ => by decide⟩

/-- The second item is finished on its first lit tick. -/
theorem swapped_not_full_time :
    ¬ ∀ (slots : FurnaceSlots) (recipes : SmeltingRegistry) (fuelling : ItemRegistry) (stackSizes : StackSizeTable)
      (container : Container) (ops : List Op),
      Along (watch slots recipes fuelling stackSizes) (FullTime slots recipes fuelling stackSizes)
        (.start container) ops := by
  intro h
  obtain ⟨-, -, hfull, -⟩ := h .CANONICAL quickRecipes jammedItems unstacked (loaded 2)
    [.tick, .replace (loaded 3), .tick]
  obtain ⟨recipe, hrecipe, htime, -⟩ := hfull ⟨true, 1, false, true, false⟩ rfl rfl
  obtain rfl : (⟨3, 5, 1, 2, 0, by decide⟩ : SmeltingRecipe) = recipe := Option.some.inj hrecipe
  exact absurd htime (by decide)

end Apoptosis.L2.Furnace
