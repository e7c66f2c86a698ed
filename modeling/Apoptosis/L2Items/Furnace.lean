import Apoptosis.Core.Runs
import Apoptosis.L2Items.Container
/-!
# The furnace (`container/src/furnace.rs`)

One tick of a furnace: plan a smelt from the input and output slots, spend a
burn tick, take a fuel item when none is left, cook, and finish the item. All
state is in `FurnaceState` and the container.

The planner accepts an empty output slot whatever the recipe's count; the
finisher asks for room for all of it. A recipe of more items than its output
stacks to thus burns fuel and never finishes (`Wasteful`).

* `tick_balance`: lit ticks, burn ticks left and burn ticks bought, over one tick.
* `consumes_iff`: the slots a tick takes fuel on.
* `accounts_iff`: both over any run of ticks and edits.
-/
namespace Apoptosis.L2
open Apoptosis.Core

/-- mirrors crates/registry/src/items.rs:20-27 (`ItemRegistry`, the names by id) -/
structure ItemRegistry where
  names : List String

/-- mirrors crates/registry/src/items.rs:165-167 (`ItemRegistry::name`) -/
def ItemRegistry.name (items : ItemRegistry) (id : Nat) : ServerResult String :=
  match items.names[id]? with
  | some name => .ok name
  | none => .error (.corruptData s!"item id {id} out of range")

namespace Furnace

/-- mirrors crates/container/src/furnace.rs:203-244 (`FUEL_BURST_TICKS`, without the labels) -/
def FUEL_BURST_TICKS : List (String × Nat) :=
  [("minecraft:coal", 1600), ("minecraft:charcoal", 1600), ("minecraft:coal_block", 16000),
    ("minecraft:blaze_rod", 2400), ("minecraft:oak_planks", 300), ("minecraft:stick", 100),
    ("minecraft:lava_bucket", 20000), ("minecraft:dried_kelp_block", 4000)]

/-- mirrors crates/container/src/furnace.rs:247-259 (`SmeltingRecipe`); the bound on the count is
checked by `SmeltingRecipe::new` and by the recipe loader, the ids are the item registry's -/
structure SmeltingRecipe where
  input : Nat
  output : Nat
  outputCount : Nat
  cookTicks : Nat
  experience : BitVec 32
  counted : 1 ≤ outputCount ∧ outputCount ≤ HARD_MAX_STACK_SIZE

/-- mirrors crates/container/src/furnace.rs:303-306 (`SmeltingRegistry`); `new` refuses two recipes
for one input -/
structure SmeltingRegistry where
  recipes : List SmeltingRecipe
  distinct : (recipes.map (·.input)).Nodup

/-- mirrors crates/container/src/furnace.rs:316-331 (`SmeltingRegistry::new`); the error names the
first input that an earlier recipe has -/
def SmeltingRegistry.new (recipes : List SmeltingRecipe) : ServerResult SmeltingRegistry :=
  if h : (recipes.map (·.input)).Nodup then .ok ⟨recipes, h⟩
  else
    let inputs := recipes.map (·.input)
    let input := ((List.range inputs.length).findSome? fun i =>
      inputs[i]?.filter (· ∈ inputs.take i)).getD 0
    .error (.invariant s!"two smelting recipes consume item id {input}")

/-- mirrors crates/container/src/furnace.rs:420-422 (`SmeltingRegistry::recipe_for`) -/
def SmeltingRegistry.recipeFor (r : SmeltingRegistry) (input : Nat) : Option SmeltingRecipe :=
  r.recipes.find? (·.input == input)

/-- mirrors crates/container/src/furnace.rs:449-459 (`burn_ticks_for`) -/
def burnTicksFor (items : ItemRegistry) (itemId : Nat) : ServerResult (Option Nat) :=
  match items.name itemId with
  | .error _ => .error (.corruptData
      s!"fuel lookup for item id {itemId}, which the item registry does not contain")
  | .ok name => .ok ((FUEL_BURST_TICKS.find? (·.1 == name)).map (·.2))

/-- mirrors crates/container/src/furnace.rs:504-517 (`FurnaceState`); experience by its bits -/
structure FurnaceState where
  burnTicksRemaining : Nat
  burnTicksTotal : Nat
  cookProgress : Nat
  cookTotal : Nat
  experience : BitVec 32

/-- mirrors crates/container/src/furnace.rs:538-540 (`FurnaceState::is_lit`) -/
def FurnaceState.isLit (s : FurnaceState) : Bool := s.burnTicksRemaining > 0

/-- mirrors crates/container/src/furnace.rs:561-568 (`FurnaceSlots`) -/
structure FurnaceSlots where
  input : Nat
  fuel : Nat
  output : Nat
  deriving DecidableEq

/-- mirrors crates/container/src/furnace.rs:577-581 (`FurnaceSlots::CANONICAL`) -/
def FurnaceSlots.CANONICAL : FurnaceSlots := ⟨0, 1, 2⟩

/-- mirrors crates/container/src/furnace.rs:591-593 (`FurnaceSlots::are_distinct`) -/
def FurnaceSlots.areDistinct (s : FurnaceSlots) : Bool :=
  s.input ≠ s.fuel && s.fuel ≠ s.output && s.input ≠ s.output

/-- mirrors crates/container/src/furnace.rs:609-622 (`FurnaceTickReport`) -/
structure FurnaceTickReport where
  lit : Bool
  finishedItems : Nat
  fuelConsumed : Bool
  cookProgressed : Bool
  stateChanged : Bool
  deriving DecidableEq, Repr

/-- `f32` addition on the bits. -/
def addF32 (a b : BitVec 32) : BitVec 32 :=
  (Float32.ofBits ⟨a⟩ + Float32.ofBits ⟨b⟩).toBits.toBitVec

/-- `u32::saturating_add(1)` -/
def succU32 (n : Nat) : Nat := min (n + 1) (2 ^ 32 - 1)

/-- mirrors crates/container/src/furnace.rs:824-847 (`plan_smelt`); the plan is the recipe without
its input -/
def planSmelt (input output : ItemStack) (recipes : SmeltingRegistry)
    (stackSizes : StackSizeTable) : Option SmeltingRecipe :=
  match input.itemId?.bind recipes.recipeFor with
  | none => none
  | some recipe =>
    let limit := stackSizes.maxStackSize recipe.output
    if output.isEmpty then some recipe
    else if output.itemId? ≠ some recipe.output then none
    else if output.count + recipe.outputCount > limit then none
    else some recipe

/-- mirrors crates/container/src/furnace.rs:862-883 (`take_fuel`) -/
def takeFuel (state : FurnaceState) (container : Container) (slots : FurnaceSlots)
    (items : ItemRegistry) : ServerResult (Option Nat) × FurnaceState × Container :=
  let fuel := container.get slots.fuel
  match fuel.itemId? with
  | none => (.ok none, state, container)
  | some fuelId =>
    match burnTicksFor items fuelId with
    | .error e => (.error e, state, container)
    | .ok none => (.ok none, state, container)
    | .ok (some ticks) =>
      if ticks = 0 then (.ok none, state, container)
      else
        match container.set slots.fuel (fuel.shrink 1) with
        | .error e => (.error e, state, container)
        | .ok container =>
          (.ok (some ticks),
            { state with burnTicksRemaining := ticks, burnTicksTotal := ticks }, container)

/-- The stack `finish` puts into the output slot. -/
def produce (output : ItemStack) (plan : SmeltingRecipe) (limit : Nat) : ServerResult ItemStack :=
  if output.isEmpty then ItemStack.new plan.output plan.outputCount
  else .ok (output.growCapped plan.outputCount limit)

/-- mirrors crates/container/src/furnace.rs:896-938 (`finish`) -/
def finish (container : Container) (slots : FurnaceSlots) (plan : SmeltingRecipe)
    (stackSizes : StackSizeTable) : ServerResult (Option Nat) × Container :=
  let output := container.get slots.output
  let limit := stackSizes.maxStackSize plan.output
  let room :=
    if output.isEmpty then limit
    else if output.itemId? = some plan.output then limit - output.count
    else 0
  if room < plan.outputCount then (.ok none, container)
  else
    match produce output plan limit with
    | .error e => (.error e, container)
    | .ok produced =>
      let input := container.get slots.input
      if input.shrunk 1 ≠ 1 then (.ok none, container)
      else
        match container.set slots.input (input.shrink 1) with
        | .error e => (.error e, container)
        | .ok container =>
          match container.set slots.output produced with
          | .error e => (.error e, container)
          | .ok container => (.ok (some 1), container.markChanged slots.output)

/-- The tick of a furnace with nothing to cook. -/
def tickBlocked (state : FurnaceState) : FurnaceTickReport × FurnaceState :=
  let burn := state.burnTicksRemaining - 1
  let lit := decide (burn > 0)
  (⟨lit, 0, false, false, lit != state.isLit⟩,
    { state with
      burnTicksRemaining := burn
      cookTotal := 0
      burnTicksTotal := if burn = 0 then 0 else state.burnTicksTotal })

/-- The tick of a furnace alight, after its fuel. -/
def tickCook (state : FurnaceState) (container : Container) (slots : FurnaceSlots)
    (plan : SmeltingRecipe) (stackSizes : StackSizeTable) (wasLit fuelConsumed : Bool) :
    ServerResult FurnaceTickReport × FurnaceState × Container :=
  let state := { state with cookTotal := plan.cookTicks, cookProgress := succU32 state.cookProgress }
  let report (state : FurnaceState) (finished : Nat) : FurnaceTickReport :=
    ⟨state.isLit, finished, fuelConsumed, true, state.isLit != wasLit⟩
  if state.cookProgress ≥ plan.cookTicks then
    match finish container slots plan stackSizes with
    | (.error e, container) => (.error e, state, container)
    | (.ok finished, container) =>
      let state := { state with
        experience := match finished with
          | some _ => addF32 state.experience plan.experience
          | none => state.experience
        cookProgress := 0
        cookTotal := if (container.get slots.input).isEmpty then 0 else plan.cookTicks }
      (.ok (report state (finished.getD 0)), state, container)
  else (.ok (report state 0), state, container)

def sameSlotTwice (slots : FurnaceSlots) : ServerError :=
  let ⟨i, f, o⟩ := slots
  .invariant s!"a furnace cannot use the same slot twice: input {i}, fuel {f}, output {o}"

def tooSmall (len : Nat) (slots : FurnaceSlots) : ServerError :=
  let ⟨i, f, o⟩ := slots
  .invariant s!"a {len}-slot container cannot hold the furnace slots [{i}, {f}, {o}]"

/-- mirrors crates/container/src/furnace.rs:655-770 (`Furnace::tick`): the report, and what the
call leaves of the state and of the container -/
def tick (state : FurnaceState) (container : Container) (slots : FurnaceSlots)
    (recipes : SmeltingRegistry) (fuelling : ItemRegistry) (stackSizes : StackSizeTable) :
    ServerResult FurnaceTickReport × FurnaceState × Container :=
  if !slots.areDistinct then (.error (sameSlotTwice slots), state, container)
  else if container.slots.length ≤ max (max slots.input slots.fuel) slots.output then
    (.error (tooSmall container.slots.length slots), state, container)
  else
    match planSmelt (container.get slots.input) (container.get slots.output) recipes stackSizes with
    | none =>
      let (report, state) := tickBlocked state
      (.ok report, state, container)
    | some plan =>
      let wasLit := state.isLit
      let state := { state with burnTicksRemaining := state.burnTicksRemaining - 1 }
      match
        (if state.burnTicksRemaining = 0 then takeFuel state container slots fuelling
        else (.ok none, state, container)) with
      | (.error e, state, container) => (.error e, state, container)
      | (.ok taken, state, container) =>
        if state.burnTicksRemaining = 0 then
          -- dark for this tick
          (.ok ⟨false, 0, taken.isSome, false, wasLit⟩,
            { state with cookProgress := 0, cookTotal := 0, burnTicksTotal := 0 }, container)
        else tickCook state container slots plan stackSizes wasLit taken.isSome

/-! ## What one tick does -/

section Tick

variable (slots : FurnaceSlots) (recipes : SmeltingRegistry) (fuelling : ItemRegistry)
  (stackSizes : StackSizeTable)

/-- The slots are those of a furnace in this container. -/
def Usable (container : Container) : Prop :=
  slots.areDistinct ∧ max (max slots.input slots.fuel) slots.output < container.slots.length

/-- Ticks one item of the fuel slot burns for, 0 where it is no fuel. -/
def burnTime (container : Container) : Nat :=
  match (container.get slots.fuel).itemId? with
  | none => 0
  | some fuelId =>
    match burnTicksFor fuelling fuelId with
    | .ok (some ticks) => ticks
    | _ => 0

/-- The recipe of the item in the input slot. -/
def inputRecipe (container : Container) : Option SmeltingRecipe :=
  (container.get slots.input).itemId?.bind recipes.recipeFor

/-- The output slot can take all that the recipe makes. -/
def TakesAll (output : ItemStack) (recipe : SmeltingRecipe) : Prop :=
  if output.isEmpty then recipe.outputCount ≤ stackSizes.maxStackSize recipe.output
  else output.itemId? = some recipe.output ∧
    output.count + recipe.outputCount ≤ stackSizes.maxStackSize recipe.output

/-- A tick that takes fuel: there is a plan, the burn is at its end, and the slot holds a fuel. -/
def Buys (state : FurnaceState) (container : Container) : Prop :=
  Usable slots container ∧
  (planSmelt (container.get slots.input) (container.get slots.output) recipes stackSizes).isSome ∧
  state.burnTicksRemaining ≤ 1 ∧ 0 < burnTime slots fuelling container

/-- A tick that takes fuel for more items than the output stacks to, into an empty output slot. -/
def Wasteful (state : FurnaceState) (container : Container) : Prop :=
  Usable slots container ∧ state.burnTicksRemaining ≤ 1 ∧ 0 < burnTime slots fuelling container ∧
  (container.get slots.output).isEmpty ∧
  ∃ recipe, inputRecipe slots recipes container = some recipe ∧
    stackSizes.maxStackSize recipe.output < recipe.outputCount

theorem planSmelt_isSome {input output : ItemStack} :
    (planSmelt input output recipes stackSizes).isSome ↔
      ∃ recipe, input.itemId?.bind recipes.recipeFor = some recipe ∧
        (output.isEmpty ∨ TakesAll stackSizes output recipe) := by
  unfold planSmelt TakesAll
  cases input.itemId?.bind recipes.recipeFor with
  | none => simp
  | some recipe =>
    dsimp only
    by_cases hempty : output.isEmpty
    · simp [hempty]
    by_cases hsame : output.itemId? = some recipe.output
    · by_cases hroom : output.count + recipe.outputCount > stackSizes.maxStackSize recipe.output
      · simp [hempty, hsame, hroom]
      · simp [hempty, hsame, hroom, not_lt.mp hroom]
    · simp [hempty, hsame]

theorem set_ok {container : Container} {index : Nat} (h : index < container.slots.length)
    (stack : ItemStack) : container.set index stack = .ok (container.put index stack) := if_pos h

/-- With a fuel in its slot one item of it is taken, with any other item nothing happens. -/
theorem takeFuel_cases (state : FurnaceState) {container : Container}
    (h : Usable slots container) :
    (0 < burnTime slots fuelling container ∧ (container.get slots.fuel).count ≠ 0 ∧
      takeFuel state container slots fuelling = (.ok (some (burnTime slots fuelling container)),
        { state with
          burnTicksRemaining := burnTime slots fuelling container
          burnTicksTotal := burnTime slots fuelling container },
        container.put slots.fuel ((container.get slots.fuel).shrink 1))) ∨
    (burnTime slots fuelling container = 0 ∧
      ((takeFuel state container slots fuelling) = (.ok none, state, container) ∨
        ∃ e, takeFuel state container slots fuelling = (.error e, state, container))) := by
  have hfuel : slots.fuel < container.slots.length := by
    have := h.2
    omega
  unfold takeFuel burnTime
  dsimp only
  cases hid : (container.get slots.fuel).itemId? with
  | none => exact .inr ⟨rfl, .inl rfl⟩
  | some fuelId =>
    have hcount : (container.get slots.fuel).count ≠ 0 := by
      rw [Ne, ← ItemStack.isEmpty_iff_count, ItemStack.isEmpty_iff]
      intro hempty
      rw [hempty] at hid
      cases hid
    dsimp only
    rcases burnTicksFor fuelling fuelId with e | ⟨⟩ | ticks
    · exact .inr ⟨rfl, .inr ⟨e, rfl⟩⟩
    · exact .inr ⟨rfl, .inl rfl⟩
    · dsimp only
      by_cases hzero : ticks = 0
      · rw [if_pos hzero]
        exact .inr ⟨hzero, .inl rfl⟩
      · rw [if_neg hzero, set_ok hfuel]
        exact .inl ⟨Nat.pos_of_ne_zero hzero, hcount, rfl⟩

theorem produce_ok (output : ItemStack) (plan : SmeltingRecipe) (limit : Nat) :
    ∃ produced, produce output plan limit = .ok produced := by
  have hcount := plan.counted
  unfold produce
  by_cases hempty : output.isEmpty
  · rw [if_pos hempty]
    unfold ItemStack.new
    rw [if_neg (by omega), dif_neg (by omega)]
    exact ⟨_, rfl⟩
  · rw [if_neg hempty]
    exact ⟨_, rfl⟩

theorem finish_ok {container : Container} (h : Usable slots container) (plan : SmeltingRecipe) :
    ∃ finished container', finish container slots plan stackSizes = (.ok finished, container') ∧
      container'.get slots.fuel = container.get slots.fuel := by
  have hlen := h.2
  have hdistinct : slots.fuel ≠ slots.input ∧ slots.fuel ≠ slots.output := by
    have hall := h.1
    simp only [FurnaceSlots.areDistinct, ne_eq, decide_not, Bool.and_eq_true,
      Bool.not_eq_true', decide_eq_false_iff_not] at hall
    exact ⟨Ne.symm hall.1.1, hall.1.2⟩
  unfold finish
  dsimp only
  generalize (if (container.get slots.output).isEmpty then stackSizes.maxStackSize plan.output
    else if (container.get slots.output).itemId? = some plan.output then
      stackSizes.maxStackSize plan.output - (container.get slots.output).count
    else 0) = room
  by_cases hroom : room < plan.outputCount
  · rw [if_pos hroom]
    exact ⟨_, _, rfl, rfl⟩
  rw [if_neg hroom]
  obtain ⟨produced, hproduced⟩ := produce_ok (container.get slots.output) plan
    (stackSizes.maxStackSize plan.output)
  rw [hproduced]
  dsimp only
  split
  · exact ⟨_, _, rfl, rfl⟩
  · rw [set_ok (by omega)]
    dsimp only
    rw [set_ok (by rw [Container.put_length]; omega)]
    refine ⟨_, _, rfl, ?_⟩
    rw [Container.markChanged_get, Container.put_get_ne _ hdistinct.2,
      Container.put_get_ne _ hdistinct.1]

theorem tickCook_ok (state : FurnaceState) {container : Container} (h : Usable slots container)
    (plan : SmeltingRecipe) (wasLit fuelConsumed : Bool) : ∃ report state' container',
      tickCook state container slots plan stackSizes wasLit fuelConsumed =
        (.ok report, state', container') ∧
      state'.burnTicksRemaining = state.burnTicksRemaining ∧
      (report.lit ↔ 0 < state.burnTicksRemaining) ∧
      report.fuelConsumed = fuelConsumed ∧
      container'.get slots.fuel = container.get slots.fuel := by
  unfold tickCook
  dsimp only
  split
  · obtain ⟨finished, container', hfinish, hfuel⟩ := finish_ok slots stackSizes h plan
    rw [hfinish]
    exact ⟨_, _, _, rfl, rfl, decide_eq_true_iff, rfl, hfuel⟩
  · exact ⟨_, _, _, rfl, rfl, decide_eq_true_iff, rfl, rfl⟩

/-- A tick fails before it spends a burn tick that counts, or reports what it did to the burn and
to the fuel. -/
theorem tick_cases (state : FurnaceState) (container : Container) :
    let ticked := tick state container slots recipes fuelling stackSizes
    (∃ e, ticked.1 = .error e ∧ ¬Buys slots recipes fuelling stackSizes state container ∧
      ticked.2.1.burnTicksRemaining - 1 = state.burnTicksRemaining - 1 ∧
      (ticked.2.2.get slots.fuel).count = (container.get slots.fuel).count) ∨
    ∃ report, ticked.1 = .ok report ∧
      (report.lit ↔ 0 < ticked.2.1.burnTicksRemaining) ∧
      ((report.fuelConsumed ∧ Buys slots recipes fuelling stackSizes state container ∧
        ticked.2.1.burnTicksRemaining = burnTime slots fuelling container ∧
        (ticked.2.2.get slots.fuel).count + 1 = (container.get slots.fuel).count) ∨
      (¬report.fuelConsumed ∧ ¬Buys slots recipes fuelling stackSizes state container ∧
        ticked.2.1.burnTicksRemaining = state.burnTicksRemaining - 1 ∧
        (ticked.2.2.get slots.fuel).count = (container.get slots.fuel).count)) := by
  dsimp only
  unfold tick
  by_cases hdistinct : slots.areDistinct
  swap
  · left
    rw [if_pos (by simpa using hdistinct)]
    exact ⟨_, rfl, fun h => hdistinct h.1.1, rfl, rfl⟩
  rw [if_neg (by simpa using hdistinct)]
  dsimp only
  by_cases hlen : container.slots.length ≤ max (max slots.input slots.fuel) slots.output
  · left
    rw [if_pos hlen]
    exact ⟨_, rfl, fun h => absurd h.1.2 (not_lt.mpr hlen), rfl, rfl⟩
  rw [if_neg hlen]
  have husable : Usable slots container := ⟨hdistinct, not_le.mp hlen⟩
  cases hplan : planSmelt (container.get slots.input) (container.get slots.output) recipes
      stackSizes with
  | none =>
    right
    refine ⟨_, rfl, decide_eq_true_iff, .inr ⟨Bool.false_ne_true, fun h => ?_, rfl, rfl⟩⟩
    have hsome := h.2.1
    rw [hplan] at hsome
    exact Bool.false_ne_true hsome
  | some plan =>
    dsimp only
    by_cases hburn : state.burnTicksRemaining - 1 = 0
    swap
    · right
      have hno : ¬Buys slots recipes fuelling stackSizes state container := fun h => by
        have := h.2.2.1
        omega
      rw [if_neg hburn]
      dsimp only
      rw [if_neg hburn]
      obtain ⟨report, state', container', hcook, hremaining, hlit, hconsumed, hget⟩ :=
        tickCook_ok slots stackSizes
          { state with burnTicksRemaining := state.burnTicksRemaining - 1 } husable plan
          state.isLit (none : Option Nat).isSome
      rw [hcook]
      refine ⟨report, rfl, ?_, .inr ⟨?_, hno, hremaining, congrArg _ hget⟩⟩
      · rw [hlit, hremaining]
      · rw [hconsumed]
        exact Bool.false_ne_true
    rw [if_pos hburn]
    rcases takeFuel_cases slots fuelling
      { state with burnTicksRemaining := state.burnTicksRemaining - 1 } husable with
      ⟨hfuel, hcount, htake⟩ | ⟨hfuel, htake | ⟨e, htake⟩⟩
    · right
      have hbuys : Buys slots recipes fuelling stackSizes state container :=
        ⟨husable, by rw [hplan]; rfl, by omega, hfuel⟩
      rw [htake]
      dsimp only
      rw [if_neg hfuel.ne']
      have husable' : Usable slots
          (container.put slots.fuel ((container.get slots.fuel).shrink 1)) :=
        ⟨hdistinct, by rw [Container.put_length]; exact husable.2⟩
      obtain ⟨report, state', container', hcook, hremaining, hlit, hconsumed, hget⟩ :=
        tickCook_ok slots stackSizes
          { state with
            burnTicksRemaining := burnTime slots fuelling container
            burnTicksTotal := burnTime slots fuelling container } husable' plan
          state.isLit (some (burnTime slots fuelling container)).isSome
      rw [hcook]
      refine ⟨report, rfl, ?_, .inl ⟨hconsumed, hbuys, hremaining, ?_⟩⟩
      · rw [hlit, hremaining]
      · have hlt : slots.fuel < container.slots.length := by
          have := husable.2
          omega
        have hput := container.put_get hlt ((container.get slots.fuel).shrink 1)
        have hshrink := ((container.get slots.fuel).split_count 1).2
        rw [hget, hput.2.1, ItemStack.shrink, hshrink]
        omega
    · right
      rw [htake]
      dsimp only
      rw [if_pos hburn]
      refine ⟨_, rfl, ?_, .inr ⟨Bool.false_ne_true, fun h => ?_, rfl, rfl⟩⟩
      · simp [hburn]
      · have := h.2.2.2
        omega
    · left
      rw [htake]
      refine ⟨e, rfl, fun h => ?_, ?_, rfl⟩
      · have := h.2.2.2
        omega
      · dsimp only
        omega

end Tick

/-! ## Runs -/

/-- Between two ticks the slots may come to hold anything. -/
inductive Op
  | tick
  | replace (container : Container)

section Run

variable (slots : FurnaceSlots) (recipes : SmeltingRegistry) (fuelling : ItemRegistry)
  (stackSizes : StackSizeTable)

def step (s : FurnaceState × Container) : Op → FurnaceState × Container
  | .tick => (tick s.1 s.2 slots recipes fuelling stackSizes).2
  | .replace container => (s.1, container)

/-- The report of a tick that makes one. -/
def report? (s : FurnaceState × Container) : Op → Option FurnaceTickReport
  | .tick => (tick s.1 s.2 slots recipes fuelling stackSizes).1.toOption
  | .replace _ => none

def consumes (s : FurnaceState × Container) (op : Op) : Bool :=
  (report? slots recipes fuelling stackSizes s op).any (·.fuelConsumed)

def litTick (s : FurnaceState × Container) (op : Op) : Nat :=
  if (report? slots recipes fuelling stackSizes s op).any (·.lit) then 1 else 0

/-- The burn time of the fuel item a step consumes. -/
def burnBought (s : FurnaceState × Container) (op : Op) : Nat :=
  if consumes slots recipes fuelling stackSizes s op then burnTime slots fuelling s.2 else 0

/-- Fuel is consumed only where the output slot can take all that the input's recipe makes. -/
def Fitting (s : FurnaceState × Container) (op : Op) : Prop :=
  consumes slots recipes fuelling stackSizes s op →
    ∃ recipe, inputRecipe slots recipes s.2 = some recipe ∧
      TakesAll stackSizes (s.2.get slots.output) recipe

/-- The step is no tick that takes fuel for a smelt without room. -/
def Careful (s : FurnaceState × Container) (op : Op) : Prop :=
  match op with
  | .tick => ¬Wasteful slots recipes fuelling stackSizes s.1 s.2
  | .replace _ => True

theorem step_balance (s : FurnaceState × Container) (op : Op) :
    litTick slots recipes fuelling stackSizes s op +
        ((step slots recipes fuelling stackSizes s op).1.burnTicksRemaining - 1) =
      (s.1.burnTicksRemaining - 1) + burnBought slots recipes fuelling stackSizes s op := by
  cases op with
  | replace container => simp [litTick, burnBought, consumes, report?, step]
  | tick =>
    rw [litTick, burnBought, consumes, report?, step]
    rcases tick_cases slots recipes fuelling stackSizes s.1 s.2 with
      ⟨e, herr, -, hburn⟩ | ⟨report, hok, hlit, ⟨hconsumed, hbuys, hburn⟩ | ⟨hconsumed, -, hburn⟩⟩
    · simp [herr, Except.toOption, hburn]
    · have hfuel := hbuys.2.2.2
      have hend := hbuys.2.2.1
      simp only [hok, Except.toOption, Option.any_some, hlit, hconsumed, hburn]
      simp [hfuel]
      omega
    · simp only [hok, Except.toOption, Option.any_some, hlit, hconsumed, hburn]
      simp
      split <;> omega

theorem consumes_iff (s : FurnaceState × Container) :
    consumes slots recipes fuelling stackSizes s .tick ↔
      Buys slots recipes fuelling stackSizes s.1 s.2 := by
  rw [consumes, report?]
  rcases tick_cases slots recipes fuelling stackSizes s.1 s.2 with
    ⟨e, herr, hno, -⟩ | ⟨report, hok, -, ⟨hconsumed, hbuys, -⟩ | ⟨hconsumed, hno, -⟩⟩
  · simp [herr, Except.toOption, hno]
  · simp [hok, Except.toOption, hconsumed, hbuys]
  · simp [hok, Except.toOption, hconsumed, hno]

theorem fitting_iff (s : FurnaceState × Container) (op : Op) :
    Fitting slots recipes fuelling stackSizes s op ↔
      Careful slots recipes fuelling stackSizes s op := by
  cases op with
  | replace container => simp [Fitting, Careful, consumes, report?]
  | tick =>
    rw [Fitting, consumes_iff, Careful]
    constructor
    · rintro hfit ⟨husable, hburn, hfuel, hempty, recipe, hrecipe, hbig⟩
      have hplan := (planSmelt_isSome recipes stackSizes).mpr ⟨recipe, hrecipe, .inl hempty⟩
      obtain ⟨recipe', hrecipe', htakes⟩ := hfit ⟨husable, hplan, hburn, hfuel⟩
      obtain rfl : recipe = recipe' := Option.some.inj (hrecipe.symm.trans hrecipe')
      rw [TakesAll, if_pos hempty] at htakes
      omega
    · rintro hcareful ⟨husable, hplan, hburn, hfuel⟩
      obtain ⟨recipe, hrecipe, hempty | htakes⟩ := (planSmelt_isSome recipes stackSizes).mp hplan
      · refine ⟨recipe, hrecipe, ?_⟩
        rw [TakesAll, if_pos hempty]
        by_contra hbig
        exact hcareful ⟨husable, hburn, hfuel, hempty, recipe, hrecipe, not_le.mp hbig⟩
      · exact ⟨recipe, hrecipe, htakes⟩

/-- From an unlit furnace on, lit ticks and burn ticks left are the burn ticks bought; and fuel is
bought for what fits only, if and only if no tick of the run is wasteful. -/
theorem accounts_iff {s : FurnaceState × Container} (h : s.1.burnTicksRemaining = 0)
    (ops : List Op) :
    (total (step slots recipes fuelling stackSizes)
          (litTick slots recipes fuelling stackSizes) s ops +
        ((run (step slots recipes fuelling stackSizes) s ops).1.burnTicksRemaining - 1) =
      total (step slots recipes fuelling stackSizes)
        (burnBought slots recipes fuelling stackSizes) s ops ∧
      Along (step slots recipes fuelling stackSizes)
        (Fitting slots recipes fuelling stackSizes) s ops) ↔
    Along (step slots recipes fuelling stackSizes)
      (Careful slots recipes fuelling stackSizes) s ops := by
  have hbalance := run_balance (g := fun s : FurnaceState × Container => s.1.burnTicksRemaining - 1)
    (step_balance slots recipes fuelling stackSizes) ops s
  rw [h, Nat.zero_sub, Nat.zero_add] at hbalance
  exact (and_iff_right hbalance).trans
    (along_congr (fitting_iff slots recipes fuelling stackSizes) ops s)

end Run

/-! ## A recipe of two for an output that does not stack -/

def jammedRecipes : SmeltingRegistry :=
  ⟨[⟨2, 3, 2, 200, 0, by decide⟩], by decide⟩

def jammedItems : ItemRegistry :=
  ⟨["minecraft:air", "minecraft:coal", "minecraft:iron_ore", "minecraft:iron_sword"]⟩

def jammedSizes : StackSizeTable := ⟨[(3, 1)], by decide, by decide⟩

/-- One ore, one coal, and nothing in the output slot. -/
def jammed : FurnaceState × Container :=
  (⟨0, 0, 0, 0, 0⟩,
    ⟨.furnace, [.ofParts 2 1 [] ItemStack.one_legal, .ofParts 1 1 [] ItemStack.one_legal, .EMPTY], ∅, by decide⟩)

theorem jammed_accounts_iff :
    (total (step .CANONICAL jammedRecipes jammedItems jammedSizes)
          (litTick .CANONICAL jammedRecipes jammedItems jammedSizes) jammed [.tick] +
        ((run (step .CANONICAL jammedRecipes jammedItems jammedSizes) jammed
          [.tick]).1.burnTicksRemaining - 1) =
      total (step .CANONICAL jammedRecipes jammedItems jammedSizes)
        (burnBought .CANONICAL jammedRecipes jammedItems jammedSizes) jammed [.tick] ∧
      Along (step .CANONICAL jammedRecipes jammedItems jammedSizes)
        (Fitting .CANONICAL jammedRecipes jammedItems jammedSizes) jammed [.tick]) ↔
    Along (step .CANONICAL jammedRecipes jammedItems jammedSizes)
      (Careful .CANONICAL jammedRecipes jammedItems jammedSizes) jammed [.tick] :=
  accounts_iff .CANONICAL jammedRecipes jammedItems jammedSizes rfl [.tick]

/-- The coal is burned for two swords that do not fit one slot. -/
theorem jammed_burns : ¬∀ (slots : FurnaceSlots) (recipes : SmeltingRegistry)
    (fuelling : ItemRegistry) (stackSizes : StackSizeTable) (s : FurnaceState × Container)
    (ops : List Op), s.1.burnTicksRemaining = 0 →
      total (step slots recipes fuelling stackSizes)
            (litTick slots recipes fuelling stackSizes) s ops +
          ((run (step slots recipes fuelling stackSizes) s ops).1.burnTicksRemaining - 1) =
        total (step slots recipes fuelling stackSizes)
          (burnBought slots recipes fuelling stackSizes) s ops ∧
      Along (step slots recipes fuelling stackSizes)
        (Fitting slots recipes fuelling stackSizes) s ops := by
  intro h
  obtain ⟨-, hfit, -⟩ := h .CANONICAL jammedRecipes jammedItems jammedSizes jammed [.tick] rfl
  rw [fitting_iff] at hfit
  refine hfit ⟨⟨by decide, by decide⟩, by decide, by decide, by decide, ?_⟩
  exact ⟨⟨2, 3, 2, 200, 0, by decide⟩, rfl, by decide⟩

end Furnace
end Apoptosis.L2
