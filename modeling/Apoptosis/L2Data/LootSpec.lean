import Apoptosis.L2Data.LootSound
/-!
# What a loot roll should yield

The output the documentation promises, drawn from the same generator: pools
whose conditions hold, entries by weight, functions at their level. A run is
left out where the roll departs from its documentation: a pool with functions
that produced a stack, and a child of `alternatives` whose conditions hold but
that yields nothing although another child follows.

* `documented`: the output of a table.
* `Rollable`: the tables of which nothing is refused by design.
-/
namespace Apoptosis.L2.Loot

open Apoptosis.Core Relation
open Apoptosis.L2.Storage (ResourceId)

/-! ## The documented roll -/

/-- Draws from a generator; `none` leaves the run out. -/
abbrev Documented (σ : Type) := StateT σ Option

section
variable {σ : Type}

def drawn {α : Type} (x : StateM σ α) : Documented σ α := fun rng => some (x rng)

def leftOutUnless (c : Prop) [Decidable c] : Documented σ Unit := fun rng =>
  if c then some ((), rng) else none

end

section
variable (context : LootContext)

def levelOf (enchantment : ResourceId) : Int32 :=
  (context.enchantmentLevel enchantment).getD 0

/-- The tool carries the enchantment within the stated levels. -/
def EnchantmentRequirement.met (requirement : EnchantmentRequirement) : Bool :=
  match ResourceId.parse requirement.enchantment with
  | none => false
  | some name => !requirement.minLevel.any (levelOf context name < ·) &&
      !requirement.maxLevel.any (levelOf context name > ·)

/-- A negative quality or luck makes an entry unlikely, never less than impossible. -/
def weightOf (entry : LootEntry) : Int64 :=
  if entry.quality = 0 then max entry.weight.toInt64 0
  else max (entry.weight.toInt64 + luckBonus (context.luck.getD 0) entry.quality) 0

variable {σ : Type} [Rng σ]

mutual
def holds : LootCondition → Documented σ Bool
  | .survivesExplosion => return context.survivesExplosion.getD false
  | .randomChance chance => drawn (Rng.chance chance)
  | .randomChanceWithEnchantedBonus enchantment unenchantedChance enchantedChance =>
    if levelOf context enchantment = 0 then drawn (Rng.chance unenchantedChance)
    else drawn (Rng.chance (enchantedChance.atLevel (levelOf context enchantment)))
  | .tableBonus enchantment chances =>
    drawn (Rng.chance (chances.getD (min (levelOf context enchantment).toInt.toNat
      (chances.length - 1)) 0))
  | .matchToolEnchantments requirements =>
    return requirements.all (EnchantmentRequirement.met context)
  | .anyOf terms => anyHolds terms
  | .inverted term => return !(← holds term)
  | .raw _ => return false

/-- The terms in order, up to the first that holds. -/
def anyHolds : List LootCondition → Documented σ Bool
  | [] => return false
  | term :: terms => do
    if ← holds term then return true else anyHolds terms
end

def allHold : List LootCondition → Documented σ Bool
  | [] => return true
  | condition :: conditions => do
    let first ← holds context condition
    let rest ← allHold conditions
    return first && rest

/-- A number from a provider; a binomial one is one more than its successes. -/
def provided : CountProvider → Documented σ Float
  | .constant value => return value
  | .uniform min max => return min + (← drawn Rng.nextF64) * (max - min)
  | .binomial extra probability =>
    return 1 + (← drawn (successes probability extra.toInt.toNat 0))
  | .raw _ => return 0

def effect (stack : ItemStackLike) : LootFunctionKind → Documented σ ItemStackLike
  | .setCount provider add => do
    let value := count (← provided provider)
    return { stack with count := if add then saturatingAdd stack.count value else value }
  | .limitCount min max =>
    return { stack with count := if stack.count < min then min
      else if stack.count > max then max else stack.count }
  | _ => return stack

/-- The functions in order, each if its own conditions hold. -/
def modified : List LootFunction → ItemStackLike → Documented σ ItemStackLike
  | [], stack => return stack
  | function :: functions, stack => do
    if ← allHold context function.conditions then
      modified functions (← effect stack function.kind)
    else modified functions stack

mutual
/-- The stacks of an entry whose conditions hold, its functions applied. -/
def contents (tables : LootTables) (rolled : LootTable → Documented σ (List ItemStackLike)) :
    LootEntry → Documented σ (List ItemStackLike)
  | .item name _ _ _ functions _ => [ItemStackLike.mk name 1 none].mapM (modified context functions)
  | .lootTable name «inline» _ _ functions _ =>
    match nestedTable tables name «inline» with
    | none => return []
    | some nested => do (← rolled nested).mapM (modified context functions)
  | .alternatives children functions _ => do
    (← firstPassing tables rolled children).mapM (modified context functions)
  | _ => return []

/-- The stacks of the first child whose conditions hold. -/
def firstPassing (tables : LootTables) (rolled : LootTable → Documented σ (List ItemStackLike)) :
    List LootEntry → Documented σ (List ItemStackLike)
  | [] => return []
  | child :: children => do
    if ← allHold context child.conditions then
      let stacks' ← contents tables rolled child
      leftOutUnless (!stacks'.isEmpty ∨ children.isEmpty)
      return stacks'
    else firstPassing tables rolled children
end

/-- The stacks of an entry, if its conditions hold. -/
def yields (tables : LootTables) (rolled : LootTable → Documented σ (List ItemStackLike))
    (entry : LootEntry) : Documented σ (List ItemStackLike) := do
  if ← allHold context entry.conditions then contents context tables rolled entry else return []

def draws (once : Documented σ (List ItemStackLike)) : Nat → Documented σ (List ItemStackLike)
  | 0 => return []
  | n + 1 => return (← once) ++ (← draws once n)

end

/-! ## What is refused by design -/

section
variable (context : LootContext)

/-- The context supplies every field. -/
structure LootContext.Supplied : Prop where
  enchantmentLevels : context.enchantmentLevels.isSome
  survivesExplosion : context.survivesExplosion.isSome
  luck : context.luck.isSome

/-- The predicate names an enchantment, not a tag. -/
def EnchantmentRequirement.named (requirement : EnchantmentRequirement) : Bool :=
  requirement.enchantment.toList.head? ≠ some '#' && (ResourceId.parse requirement.enchantment).isSome

mutual
/-- No enchantment tag, and no negative level where a level is an index. -/
def LootCondition.answerable : LootCondition → Bool
  | .tableBonus enchantment _ => !(levelOf context enchantment < 0)
  | .matchToolEnchantments requirements => requirements.all EnchantmentRequirement.named
  | .anyOf terms => allAnswerable terms
  | .inverted term => term.answerable
  | _ => true

def allAnswerable : List LootCondition → Bool
  | [] => true
  | term :: terms => term.answerable && allAnswerable terms
end

/-- Within the budget of draws. -/
def CountProvider.affordable : CountProvider → Bool
  | .binomial extra _ => extra.toInt.toNat ≤ MAX_BINOMIAL_ROUNDS
  | _ => true

def LootFunctionKind.affordable : LootFunctionKind → Bool
  | .setCount provider _ => provider.affordable
  | _ => true

def runsConditions (conditions : List LootCondition) : Bool :=
  conditions.all fun condition => condition.isExecutable && condition.answerable context

def runsFunctions (functions : List LootFunction) : Bool :=
  functions.all fun function =>
    function.isExecutable && function.kind.affordable && runsConditions context function.conditions

mutual
/-- The entries a roll executes: items, nothing, alternatives and tables. -/
def LootEntry.runs : LootEntry → Bool
  | .item _ _ _ expand functions conditions =>
    !expand && runsFunctions context functions && runsConditions context conditions
  | .empty _ _ functions conditions | .lootTable _ _ _ _ functions conditions =>
    runsFunctions context functions && runsConditions context conditions
  | .alternatives children functions conditions =>
    allRun children && runsFunctions context functions && runsConditions context conditions
  | _ => false

def allRun : List LootEntry → Bool
  | [] => true
  | entry :: entries => entry.runs && allRun entries
end

def CountProvider.runs (provider : CountProvider) : Bool := provider.isExecutable && provider.affordable

def LootPool.runs (pool : LootPool) : Bool :=
  pool.rolls.runs && pool.bonusRolls.runs && allRun context pool.entries &&
    runsConditions context pool.conditions && runsFunctions context pool.functions

def LootTable.runs (table : LootTable) : Bool :=
  table.pools.all (LootPool.runs context) && runsFunctions context table.functions

end

end Apoptosis.L2.Loot
