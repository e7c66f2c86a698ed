import Apoptosis.L2Data.LootTable
/-!
# Rolling a loot table (`data/src/loot.rs`, `roll`)

The roll as the source computes it: the reference graph is checked before
anything is drawn, then pools, entries and functions run over the generator and
the list of refusals. Floats are the machine's own.
-/
namespace Apoptosis.L2.Loot

open Apoptosis.Core
open Apoptosis.L2.Storage (ResourceId)

/-! ## Randomness -/

/-- mirrors crates/data/src/loot.rs:257-261 (`Rng`) -/
class Rng (σ : Type) where
  nextU32 : StateM σ UInt32

namespace Rng
variable {σ : Type} [Rng σ]

/-- mirrors crates/data/src/loot.rs:260-264 (`Rng::next_f32`) -/
def nextF32 : StateM σ Float32 := do
  let bits ← nextU32
  return (bits >>> 8).toFloat32 / ((1 : UInt32) <<< 24).toFloat32

/-- mirrors crates/data/src/loot.rs:270-277 (`Rng::next_f64`) -/
def nextF64 : StateM σ Float := do
  let first ← nextU32
  let second ← nextU32
  return (((first >>> 6).toUInt64 <<< 27) + (second >>> 5).toUInt64).toFloat /
    ((1 : UInt64) <<< 53).toFloat

/-- mirrors crates/data/src/loot.rs:283-285 (`Rng::chance`) -/
def chance (chance : Float32) : StateM σ Bool := do
  return (← nextF32) < chance

end Rng

/-! ## Numbers -/

/-- mirrors crates/data/src/loot.rs:175-181 (`numeric::count`) -/
def count (value : Float) : Int32 := value.toFloat32.toInt32

/-- mirrors crates/data/src/loot.rs:188-190 (`numeric::weighted_index`) -/
def weightedIndex (value : Float) (total : Int64) : Int64 := (value * total.toFloat).floor.toInt64

/-- mirrors crates/data/src/loot.rs:194-196 (`numeric::luck_bonus`) -/
def luckBonus (luck : Float32) (quality : Int32) : Int64 := (luck * quality.toFloat32).floor.toInt64

/-- `i32::saturating_add` -/
def saturatingAdd (a b : Int32) : Int32 :=
  Int32.ofInt (max (-2 ^ 31) (min (a.toInt + b.toInt) (2 ^ 31 - 1)))

/-! ## The reference graph -/

/-- mirrors crates/data/src/loot.rs:1361-1366 (`Reference`) -/
inductive Reference
  | inlined (table : LootTable)
  | named (name : ResourceId)

mutual
/-- mirrors crates/data/src/loot.rs:1380-1395 (`collect_references`) -/
def collectReferences : LootEntry → List Reference
  | .lootTable _ (some table) _ _ _ _ => [.inlined table]
  | .lootTable (some name) none _ _ _ _ => [.named name]
  | .alternatives children _ _ | .sequence children _ _ => collectAll children
  | _ => []

def collectAll : List LootEntry → List Reference
  | [] => []
  | entry :: entries => collectReferences entry ++ collectAll entries
end

/-- mirrors crates/data/src/loot.rs:1369-1377 (`references`) -/
def references (table : LootTable) : List Reference :=
  table.pools.flatMap fun pool => collectAll pool.entries

/-- mirrors crates/data/src/loot.rs:1307-1312 (`table_label`), before it is printed: two names
print alike only if they are one. -/
def tableLabel (table : LootTable) : Option ResourceId := table.name

def labelText (label : Option ResourceId) : String := (label.map ResourceId.text).getD "<inline>"

/-- mirrors crates/data/src/loot.rs:1334-1342 (`check_references`, the table a reference names) -/
def resolveReference (tables : LootTables) : Reference → Except RollError LootTable
  | .inlined nested => .ok nested
  | .named name =>
    match tables.byName name with
    | some nested => .ok nested
    | none => .error (.unknownTable name)

/-- mirrors crates/data/src/loot.rs:1333-1356 (`check_references`, one reference) -/
def checkReference (tables : LootTables)
    (descend : LootTable → List (Option ResourceId) → Finset (Option ResourceId) →
      Except RollError (Finset (Option ResourceId)))
    (path : List (Option ResourceId)) (visited : Finset (Option ResourceId))
    (reference : Reference) : Except RollError (Finset (Option ResourceId)) := do
  let nested ← resolveReference tables reference
  let nestedLabel := tableLabel nested
  if nestedLabel ∈ path then .error (.cyclic ((path ++ [nestedLabel]).map labelText))
  else if nestedLabel ∈ visited then .ok visited
  else descend nested path (insert nestedLabel visited)

/-- mirrors crates/data/src/loot.rs:1318-1359 (`check_references`). The depth counts down: `room`
is `MAX_TABLE_NESTING + 1 - depth`. -/
def checkReferences (tables : LootTables) :
    Nat → LootTable → List (Option ResourceId) → Finset (Option ResourceId) →
      Except RollError (Finset (Option ResourceId))
  | 0, _, path, _ => .error (.tooDeep (path.map labelText) MAX_TABLE_NESTING)
  | room + 1, table, path, visited =>
    (references table).foldlM
      (checkReference tables (checkReferences tables room) (path ++ [tableLabel table])) visited

/-! ## The roll -/

/-- The generator, and what was skipped so far. -/
structure Rolling (σ : Type) where
  rng : σ
  skipped : List Refusal

abbrev Roll (σ : Type) := StateM (Rolling σ)

section
variable {σ : Type}

def refuse (kind typeName reason : String) : Roll σ Unit :=
  modify fun s => { s with skipped := s.skipped ++ [⟨kind, typeName, reason⟩] }

def draw {α : Type} (x : StateM σ α) : Roll σ α := fun s =>
  let (a, rng) := x s.rng
  (a, { s with rng := rng })

variable [Rng σ] (context : LootContext)

/-- mirrors crates/data/src/loot.rs:1732-1764 (`evaluate`, the requirements of `match_tool`) -/
def matchTool (typeName : String) : List EnchantmentRequirement → Roll σ (Option Bool)
  | [] => return some true
  | requirement :: requirements => do
    if requirement.enchantment.toList.head? = some '#' then
      refuse "condition" typeName "the predicate tests an enchantment tag, which needs the tag set"
      return none
    else
      match ResourceId.parse requirement.enchantment with
      | none =>
        refuse "condition" typeName "the predicate names an unparseable enchantment"
        return none
      | some name =>
        match context.enchantmentLevel name with
        | none =>
          refuse "condition" typeName "LootContext::enchantment_levels was not supplied"
          return none
        | some level =>
          if requirement.minLevel.any (level < ·) || requirement.maxLevel.any (level > ·) then
            return some false
          else matchTool typeName requirements

mutual
/-- mirrors crates/data/src/loot.rs:1666-1788 (`evaluate`) -/
def evaluate : LootCondition → Roll σ (Option Bool)
  | .survivesExplosion =>
    match context.survivesExplosion with
    | some survived => return some survived
    | none => do
      refuse "condition" "minecraft:survives_explosion"
        "LootContext::survives_explosion was not supplied"
      return none
  | .randomChance chance => return some (← draw (Rng.chance chance))
  | .randomChanceWithEnchantedBonus enchantment unenchantedChance enchantedChance =>
    match context.enchantmentLevel enchantment with
    | some level => do
      if level = 0 then return some (← draw (Rng.chance unenchantedChance))
      else return some (← draw (Rng.chance (enchantedChance.atLevel level)))
    | none => do
      refuse "condition" "minecraft:random_chance_with_enchanted_bonus"
        "LootContext::enchantment_levels was not supplied"
      return none
  | .tableBonus enchantment chances => do
    match chances.getLast? with
    | none =>
      refuse "condition" "minecraft:table_bonus" "the condition lists no chances to index"
      return none
    | some last =>
      match context.enchantmentLevel enchantment with
      | none =>
        refuse "condition" "minecraft:table_bonus"
          "LootContext::enchantment_levels was not supplied"
        return none
      | some level =>
        if level < 0 then
          refuse "condition" "minecraft:table_bonus" "the enchantment level is negative"
          return none
        else
          return some (← draw (Rng.chance (chances.getD level.toInt.toNat last)))
  | .matchToolEnchantments requirements => matchTool context "minecraft:match_tool" requirements
  | .anyOf terms => evaluateAny terms false
  | .inverted term => return (← evaluate term).map (!·)
  | .raw kind => do
    refuse "condition" (rawType kind) "this loot condition type is not implemented in this build"
    return none

/-- mirrors crates/data/src/loot.rs:1765-1775 (`evaluate`, the terms of `any_of`) -/
def evaluateAny : List LootCondition → Bool → Roll σ (Option Bool)
  | [], unknown => return if unknown then none else some false
  | term :: terms, unknown => do
    match ← evaluate term with
    | some true => return some true
    | some false => evaluateAny terms unknown
    | none => evaluateAny terms true
end

/-- mirrors crates/data/src/loot.rs:1645-1658 (`conditions_pass`) -/
def conditionsPass (conditions : List LootCondition) : Roll σ Bool :=
  conditions.foldlM (fun pass condition => do
    if (← evaluate context condition) ≠ some true then return false else return pass) true

/-- mirrors crates/data/src/loot.rs:1810-1816 (`draw_count`, the rounds of `binomial`) -/
def successes (probability : Float32) : Nat → Float → StateM σ Float
  | 0, found => return found
  | rounds + 1, found => do
    if ← Rng.chance probability then successes probability rounds (found + 1)
    else successes probability rounds found

/-- mirrors crates/data/src/loot.rs:1791-1830 (`draw_count`) -/
def drawCount (provider : CountProvider) (slot : String) : Roll σ Float :=
  match provider with
  | .constant value => return value
  | .uniform min max => do
    let drawn ← draw Rng.nextF64
    return min + drawn * (max - min)
  | .binomial extra probability => do
    let rounds := extra.toInt.toNat
    if rounds > MAX_BINOMIAL_ROUNDS then
      refuse "provider" (slot ++ ": minecraft:binomial n=" ++ toString rounds)
        "more binomial rounds than the draw budget allows"
      return 0
    else
      let found ← draw (successes probability rounds 0)
      return 1 + found
  | .raw _ => do
    refuse "provider" (slot ++ ": " ++ provider.typeName)
      "this number provider type is not implemented in this build"
    return 0

/-- mirrors crates/data/src/loot.rs:1864-1899 (`apply_functions`, the effect of one) -/
def applyKind (kind : LootFunctionKind) (stack : ItemStackLike) : Roll σ ItemStackLike :=
  match kind with
  | .setCount provider add => do
    let value := count (← drawCount provider "count")
    return { stack with count := if add then saturatingAdd stack.count value else value }
  | .limitCount min max =>
    return { stack with count := if stack.count < min then min
      else if stack.count > max then max else stack.count }
  | .setDamage damage add => do
    let value := clamp64 (← drawCount damage "damage") 0 1
    let value := if add then clamp64 (stack.damage.getD 0 + value) 0 1 else value
    return { stack with damage := some value }
  | .raw _ => return stack

/-- mirrors crates/data/src/loot.rs:1842-1863 (`apply_functions`, one function) -/
def applyFunction (stack : ItemStackLike) (function : LootFunction) : Roll σ ItemStackLike := do
  match function.kind.refusalReason with
  | some reason =>
    refuse "function" function.kind.typeName reason
    return stack
  | none =>
    if ← conditionsPass context function.conditions then applyKind function.kind stack
    else return stack

/-- mirrors crates/data/src/loot.rs:1835-1901 (`apply_functions`) -/
def applyFunctions (functions : List LootFunction) (stack : ItemStackLike) : Roll σ ItemStackLike :=
  functions.foldlM (applyFunction context) stack

/-- mirrors crates/data/src/loot.rs:1547-1629 (`resolve_entry`, the table a `loot_table` entry
rolls) -/
def nestedTable (tables : LootTables) (name : Option ResourceId) («inline» : Option LootTable) :
    Option LootTable :=
  match «inline» with
  | some table => some table
  | none => name.bind tables.byName

mutual
/-- mirrors crates/data/src/loot.rs:1537-1640 (`resolve_entry`) -/
def resolveEntry (tables : LootTables) (rollNested : LootTable → Roll σ (List ItemStackLike)) :
    LootEntry → Roll σ (List ItemStackLike)
  | .item name _ _ expand functions conditions => do
    if ← conditionsPass context conditions then
      if expand then
        refuse "entry" "minecraft:item" "the entry expands a tag, which needs the tag set"
        return []
      else [ItemStackLike.mk name 1 none].mapM (applyFunctions context functions)
    else return []
  | .empty _ _ _ conditions => do
    let _ ← conditionsPass context conditions
    return []
  | .lootTable name «inline» _ _ functions conditions => do
    if ← conditionsPass context conditions then
      match nestedTable tables name «inline» with
      | none =>
        refuse "entry" "minecraft:loot_table" "the referenced table was not supplied"
        return []
      | some nested => (← rollNested nested).mapM (applyFunctions context functions)
    else return []
  | .alternatives children functions conditions => do
    if ← conditionsPass context conditions then
      (← resolveFirst tables rollNested children).mapM (applyFunctions context functions)
    else return []
  | .sequence _ _ conditions => do
    if ← conditionsPass context conditions then
      refuse "entry" "minecraft:sequence"
        "minecraft:sequence is not implemented and is not exercised by vanilla's own pack"
      return []
    else return []
  | .dynamic name _ _ _ conditions => do
    if ← conditionsPass context conditions then
      refuse "entry" ("minecraft:dynamic " ++ name)
        "the contents come from a block entity, which is not modelled"
      return []
    else return []
  | .tag name _ _ _ conditions => do
    if ← conditionsPass context conditions then
      refuse "entry" ("minecraft:tag " ++ name.text)
        "expanding a tag needs the tag set, which is not supplied to a roll"
      return []
    else return []
  | .raw kind => do
    refuse "entry" (rawType kind) "this loot entry type is not implemented in this build"
    return []

/-- mirrors crates/data/src/loot.rs:1594-1605 (`resolve_entry`, the children of `alternatives`) -/
def resolveFirst (tables : LootTables) (rollNested : LootTable → Roll σ (List ItemStackLike)) :
    List LootEntry → Roll σ (List ItemStackLike)
  | [] => return []
  | child :: children => do
    let chosen ← resolveEntry tables rollNested child
    if chosen.isEmpty then resolveFirst tables rollNested children else return chosen
end

/-- mirrors crates/data/src/loot.rs:1495-1512 (`one_roll`, the weight of one entry) -/
def entryWeight (entry : LootEntry) : Roll σ Int64 := do
  let weight := entry.weight.toInt64
  if entry.quality = 0 then return max weight 0
  else
    match context.luck with
    | some luck => return max (weight + luckBonus luck entry.quality) 0
    | none =>
      refuse "entry" (entry.typeName ++ " with quality")
        "the entry scales with luck and LootContext::luck was not supplied"
      return max weight 0

/-- mirrors crates/data/src/loot.rs:1523-1531 (`one_roll`, the choice) -/
def choose (last : LootEntry) : List (LootEntry × Int64) → Int64 → LootEntry
  | [], _ => last
  | (entry, weight) :: rest, remaining =>
    if remaining - weight < 0 then entry else choose last rest (remaining - weight)

/-- mirrors crates/data/src/loot.rs:1482-1534 (`one_roll`) -/
def oneRoll (resolve : LootEntry → Roll σ (List ItemStackLike)) (entries : List LootEntry) :
    Roll σ (List ItemStackLike) := do
  match entries.getLast? with
  | none => return []
  | some last =>
    let weights ← entries.mapM (entryWeight context)
    let total := weights.sum
    if total ≤ 0 then return []
    else
      let index := weightedIndex (← draw Rng.nextF64) total
      resolve (choose last (entries.zip weights) (max 0 (min index (total - 1))))

/-- mirrors crates/data/src/loot.rs:1445-1456 (`roll_into`, the conditions of a pool) -/
def poolPasses (conditions : List LootCondition) : Roll σ Bool := fun s =>
  let (passed, s') := conditionsPass context conditions { s with skipped := [] }
  (passed && s'.skipped.isEmpty, { s' with skipped := s.skipped ++ s'.skipped })

/-- mirrors crates/data/src/loot.rs:1464-1473 (`roll_into`, the draws of a pool) -/
def drawTimes (once : Roll σ (List ItemStackLike)) : Nat → Roll σ (List ItemStackLike)
  | 0 => return []
  | n + 1 => do
    let produced ← once
    return produced ++ (← drawTimes once n)

/-- mirrors crates/data/src/loot.rs:1421-1428 and 1476-1485 (`roll_into`, functions that cannot
run) -/
def refuseFunctions (functions : List LootFunction) : Roll σ Unit :=
  functions.forM fun function =>
    match function.kind.refusalReason with
    | some reason => refuse "function" function.kind.typeName reason
    | none => return ()

/-- mirrors crates/data/src/loot.rs:1431-1486 (`roll_into`, one pool) -/
def rollPool (resolve : LootEntry → Roll σ (List ItemStackLike)) (pool : LootPool) :
    Roll σ (List ItemStackLike) := do
  if ← poolPasses context pool.conditions then
    let rolls ← drawCount pool.rolls "rolls"
    let bonus ← drawCount pool.bonusRolls "bonus_rolls"
    let total := count (rolls + bonus)
    let produced ← drawTimes (oneRoll context resolve pool.entries) total.toInt.toNat
    refuseFunctions pool.functions
    return produced
  else return []

/-- mirrors crates/data/src/loot.rs:1403-1494 (`roll_into`); `room` as in `checkReferences` -/
def rollInto (tables : LootTables) : Nat → LootTable → Roll σ (List ItemStackLike)
  | 0, _ => do
    refuse "loot_table" ("nesting deeper than " ++ toString MAX_TABLE_NESTING ++ " tables")
      "the nesting guard fired"
    return []
  | room + 1, table => do
    refuseFunctions table.functions
    let produced ← table.pools.mapM
      (rollPool context (resolveEntry context tables (rollInto tables room)))
    produced.flatten.mapM (applyFunctions context table.functions)

end

section
variable {σ : Type} [Rng σ]

/-- `sort` and `dedup` of the refusals. -/
def sorted (refusals : List Refusal) : List Refusal := refusals.toFinset.sort (· ≤ ·)

/-- mirrors crates/data/src/loot.rs:1223-1242 (`roll_scoped`) -/
def rollScoped (table : LootTable) (tables : LootTables) (rng : σ) (context : LootContext) :
    Except RollError RollOutcome × σ :=
  match checkReferences tables (MAX_TABLE_NESTING + 1) table [] ∅ with
  | .error error => (.error error, rng)
  | .ok _ =>
    let (out, s) := rollInto context tables (MAX_TABLE_NESTING + 1) table ⟨rng, []⟩
    (.ok ⟨out, sorted s.skipped⟩, s.rng)

/-- mirrors crates/data/src/loot.rs:1174-1199 (`roll`) -/
def roll (table : LootTable) (tables : LootTables) (rng : σ) (context : LootContext) :
    Except RollError (List ItemStackLike) × σ :=
  match checkReferences tables (MAX_TABLE_NESTING + 1) table [] ∅ with
  | .error error => (.error error, rng)
  | .ok _ =>
    match rollScoped table tables rng context with
    | (.error error, rng) => (.error error, rng)
    | (.ok outcome, rng) =>
      if outcome.skipped.isEmpty then (.ok outcome.stacks, rng)
      else (.error (.unexecutable (sorted outcome.skipped)), rng)

end

end Apoptosis.L2.Loot
