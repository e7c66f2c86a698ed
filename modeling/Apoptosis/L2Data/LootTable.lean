import Apoptosis.Core.OrdMap
import Apoptosis.Core.Text
import Apoptosis.L2Storage.Keys
import Mathlib.Data.Finset.Sort
/-!
# Loot tables (`data/src/loot.rs`, the data model)

Tables of pools of entries, with conditions, functions and count providers.
What a roll reads of a construct outside the executable subset is its type
string, so a raw construct is that string.
-/
namespace Apoptosis.L2.Storage.ResourceId

open Apoptosis.Core

/-- mirrors crates/core/src/ids.rs:92-96 (`Display`) -/
def text (id : ResourceId) : String := id.ns ++ ":" ++ id.value

def validNamespaceChar (c : Char) : Bool :=
  c.isLower || c.isDigit || c == '.' || c == '_' || c == '-'

/-- mirrors crates/core/src/ids.rs:33-43 (`valid_namespace`) -/
def validNamespace (s : List Char) : Bool :=
  !s.isEmpty && s ≠ ['.'] && s ≠ ['.', '.'] && s.all validNamespaceChar

/-- mirrors crates/core/src/ids.rs:45-56 (`valid_value`) -/
def validValue (s : List Char) : Bool :=
  !s.isEmpty && !(splitAll '/' s).any (fun seg => seg == ['.'] || seg == ['.', '.']) &&
    s.all fun c => validNamespaceChar c || c == '/'

/-- mirrors crates/core/src/ids.rs:32-77 (`ResourceId::parse`) -/
def parse (input : String) : Option ResourceId :=
  let (ns, value) := (splitOnce ':' input.toList).getD ("minecraft".toList, input.toList)
  if value.head? = some '/' || value.getLast? = some '/' ||
      ['/', '/'] <:+: value then none
  else if !validNamespace ns || !validValue value then none
  else some ⟨String.ofList ns, String.ofList value⟩

def rank (id : ResourceId) : String ×ₗ String := toLex (id.ns, id.value)

theorem rank_injective : Function.Injective rank := by
  intro a b h
  simp [rank] at h
  exact ResourceId.ext h.1 h.2

scoped instance : LinearOrder ResourceId := LinearOrder.lift' rank rank_injective

end Apoptosis.L2.Storage.ResourceId

namespace Apoptosis.L2.Loot

open Apoptosis.Core
open Apoptosis.L2.Storage (ResourceId)

/-- mirrors crates/data/src/loot.rs:145 (`MAX_TABLE_NESTING`) -/
def MAX_TABLE_NESTING : Nat := 8

/-- mirrors crates/data/src/loot.rs:152 (`MAX_BINOMIAL_ROUNDS`) -/
def MAX_BINOMIAL_ROUNDS : Nat := 4096

/-- mirrors crates/data/src/loot.rs:296-303 (`ItemStackLike`) -/
structure ItemStackLike where
  item : ResourceId
  count : Int32
  damage : Option Float := none

/-- mirrors crates/data/src/loot.rs:335-354 (`LootContext`) -/
structure LootContext where
  enchantmentLevels : Option (ResourceId → Option Int32) := none
  survivesExplosion : Option Bool := none
  luck : Option Float32 := none

/-- mirrors crates/data/src/loot.rs:357-361 (`LootContext::enchantment_level`) -/
def LootContext.enchantmentLevel (context : LootContext) (enchantment : ResourceId) : Option Int32 :=
  context.enchantmentLevels.map fun levels => (levels enchantment).getD 0

/-- mirrors crates/data/src/loot.rs:1156-1161 (`raw_type`), of the discriminator in the JSON -/
def rawType (discriminator : Option String) : String := discriminator.getD "<no discriminator>"

/-- mirrors crates/data/src/loot.rs:379-402 (`CountProvider`) -/
inductive CountProvider
  | constant (value : Float)
  | uniform (min max : Float)
  | binomial (extra : Int32) (probability : Float32)
  | raw (kind : Option String)

namespace CountProvider

/-- mirrors crates/data/src/loot.rs:393-403 (`CountProvider::type_name`) -/
def typeName : CountProvider → String
  | .constant _ => "constant"
  | .uniform .. => "minecraft:uniform"
  | .binomial .. => "minecraft:binomial"
  | .raw kind => kind.getD "<provider without a type>"

/-- mirrors crates/data/src/loot.rs:407-409 (`CountProvider::is_executable`) -/
def isExecutable : CountProvider → Bool
  | .raw _ => false
  | _ => true

end CountProvider

/-- mirrors crates/data/src/loot.rs:640-652 (`ChanceProvider`) -/
inductive ChanceProvider
  | constant (chance : Float32)
  | linear (base perLevelAboveFirst : Float32)

/-- `f32::clamp` -/
def clamp32 (x lo hi : Float32) : Float32 := if x < lo then lo else if x > hi then hi else x

/-- `f64::clamp` -/
def clamp64 (x lo hi : Float) : Float := if x < lo then lo else if x > hi then hi else x

/-- mirrors crates/data/src/loot.rs:659-670 (`ChanceProvider::at_level`) -/
def ChanceProvider.atLevel (provider : ChanceProvider) (level : Int32) : Float32 :=
  match provider with
  | .constant chance => chance
  | .linear base perLevelAboveFirst =>
    let levelsAbove := (max (level - 1) 0).toFloat32
    clamp32 (base + perLevelAboveFirst * levelsAbove) 0 1

/-- mirrors crates/data/src/loot.rs:624-633 (`EnchantmentRequirement`) -/
structure EnchantmentRequirement where
  enchantment : String
  minLevel : Option Int32
  maxLevel : Option Int32

/-- mirrors crates/data/src/loot.rs:538-587 (`LootCondition`) -/
inductive LootCondition
  | survivesExplosion
  | randomChance (chance : Float32)
  | randomChanceWithEnchantedBonus (enchantment : ResourceId) (unenchantedChance : Float32)
      (enchantedChance : ChanceProvider)
  | tableBonus (enchantment : ResourceId) (chances : List Float32)
  | matchToolEnchantments (requirements : List EnchantmentRequirement)
  | anyOf (terms : List LootCondition)
  | inverted (term : LootCondition)
  | raw (kind : Option String)

namespace LootCondition

/-- mirrors crates/data/src/loot.rs:592-605 (`LootCondition::type_name`) -/
def typeName : LootCondition → String
  | .survivesExplosion => "minecraft:survives_explosion"
  | .randomChance _ => "minecraft:random_chance"
  | .randomChanceWithEnchantedBonus .. => "minecraft:random_chance_with_enchanted_bonus"
  | .tableBonus .. => "minecraft:table_bonus"
  | .matchToolEnchantments _ => "minecraft:match_tool"
  | .anyOf _ => "minecraft:any_of"
  | .inverted _ => "minecraft:inverted"
  | .raw kind => rawType kind

mutual
/-- mirrors crates/data/src/loot.rs:609-624 (`LootCondition::is_executable`) -/
def isExecutable : LootCondition → Bool
  | .survivesExplosion | .randomChance _ | .randomChanceWithEnchantedBonus ..
  | .matchToolEnchantments _ => true
  | .tableBonus _ chances => !chances.isEmpty
  | .anyOf terms => allExecutable terms
  | .inverted term => term.isExecutable
  | .raw _ => false

def allExecutable : List LootCondition → Bool
  | [] => true
  | term :: terms => term.isExecutable && allExecutable terms
end

end LootCondition

/-- mirrors crates/data/src/loot.rs:476-504 (`LootFunctionKind`) -/
inductive LootFunctionKind
  | setCount (count : CountProvider) (add : Bool)
  | limitCount (min max : Int32)
  | setDamage (damage : CountProvider) (add : Bool)
  | raw (kind : Option String)

namespace LootFunctionKind

/-- mirrors crates/data/src/loot.rs:503-510 (`LootFunctionKind::type_name`) -/
def typeName : LootFunctionKind → String
  | .setCount .. => "minecraft:set_count"
  | .limitCount .. => "minecraft:limit_count"
  | .setDamage .. => "minecraft:set_damage"
  | .raw kind => rawType kind

/-- mirrors crates/data/src/loot.rs:514-520 (`LootFunctionKind::is_executable`) -/
def isExecutable : LootFunctionKind → Bool
  | .setCount count _ => count.isExecutable
  | .limitCount .. => true
  | .setDamage .. | .raw _ => false

/-- mirrors crates/data/src/loot.rs:524-533 (`LootFunctionKind::refusal_reason`) -/
def refusalReason : LootFunctionKind → Option String
  | .setCount .. | .limitCount .. => none
  | .setDamage .. => some
      "minecraft:set_damage converts a fraction into durability points, which needs the item registry's max-damage table"
  | .raw _ => some "this loot function type is not implemented in this build"

end LootFunctionKind

/-- mirrors crates/data/src/loot.rs:419-424 (`LootFunction`) -/
structure LootFunction where
  kind : LootFunctionKind
  conditions : List LootCondition := []

/-- mirrors crates/data/src/loot.rs:444-446 (`LootFunction::is_executable`) -/
def LootFunction.isExecutable (function : LootFunction) : Bool :=
  function.kind.isExecutable && function.conditions.all LootCondition.isExecutable

mutual
/-- mirrors crates/data/src/loot.rs:886-902 (`LootTable`) -/
structure LootTable where
  name : Option ResourceId
  pools : List LootPool
  functions : List LootFunction

/-- mirrors crates/data/src/loot.rs:871-882 (`LootPool`) -/
structure LootPool where
  rolls : CountProvider
  bonusRolls : CountProvider
  entries : List LootEntry
  conditions : List LootCondition
  functions : List LootFunction

/-- mirrors crates/data/src/loot.rs:681-777 (`LootEntry`) -/
inductive LootEntry
  | item (name : ResourceId) (weight quality : Int32) (expand : Bool)
      (functions : List LootFunction) (conditions : List LootCondition)
  | empty (weight quality : Int32) (functions : List LootFunction)
      (conditions : List LootCondition)
  | lootTable (name : Option ResourceId) («inline» : Option LootTable) (weight quality : Int32)
      (functions : List LootFunction) (conditions : List LootCondition)
  | alternatives (children : List LootEntry) (functions : List LootFunction)
      (conditions : List LootCondition)
  | sequence (children : List LootEntry) (functions : List LootFunction)
      (conditions : List LootCondition)
  | dynamic (name : String) (weight quality : Int32) (functions : List LootFunction)
      (conditions : List LootCondition)
  | tag (name : ResourceId) (weight quality : Int32) (functions : List LootFunction)
      (conditions : List LootCondition)
  | raw (kind : Option String)
end

namespace LootEntry

/-- mirrors crates/data/src/loot.rs:784-795 (`LootEntry::type_name`) -/
def typeName : LootEntry → String
  | .item .. => "minecraft:item"
  | .empty .. => "minecraft:empty"
  | .lootTable .. => "minecraft:loot_table"
  | .alternatives .. => "minecraft:alternatives"
  | .sequence .. => "minecraft:sequence"
  | .dynamic .. => "minecraft:dynamic"
  | .tag .. => "minecraft:tag"
  | .raw kind => rawType kind

/-- mirrors crates/data/src/loot.rs:799-811 (`LootEntry::weight`) -/
def weight : LootEntry → Int32
  | .item _ weight .. | .empty weight .. | .lootTable _ _ weight .. | .dynamic _ weight ..
  | .tag _ weight .. => weight
  | .alternatives .. | .sequence .. | .raw _ => 1

/-- mirrors crates/data/src/loot.rs:815-824 (`LootEntry::quality`) -/
def quality : LootEntry → Int32
  | .item _ _ quality .. | .empty _ quality .. | .lootTable _ _ _ quality ..
  | .dynamic _ _ quality .. | .tag _ _ quality .. => quality
  | .alternatives .. | .sequence .. | .raw _ => 0

/-- mirrors crates/data/src/loot.rs:828-839 (`LootEntry::conditions`) -/
def conditions : LootEntry → List LootCondition
  | .item _ _ _ _ _ conditions | .empty _ _ _ conditions | .lootTable _ _ _ _ _ conditions
  | .alternatives _ _ conditions | .sequence _ _ conditions | .dynamic _ _ _ _ conditions
  | .tag _ _ _ _ conditions => conditions
  | .raw _ => []

/-- mirrors crates/data/src/loot.rs:846-857 (`LootEntry::functions`) -/
def functions : LootEntry → List LootFunction
  | .item _ _ _ _ functions _ | .empty _ _ functions _ | .lootTable _ _ _ _ functions _
  | .alternatives _ functions _ | .sequence _ functions _ | .dynamic _ _ _ functions _
  | .tag _ _ _ functions _ => functions
  | .raw _ => []

end LootEntry

/-- The tables a pack supplies: `insert` files a table under its own name
(crates/data/src/loot.rs:1905-1933, `LootTables`). -/
structure LootTables where
  byName : ResourceId → Option LootTable
  named : ∀ name table, byName name = some table → table.name = some name

namespace LootTables

/-- mirrors crates/data/src/loot.rs:1913-1915 (`LootTables::new`) -/
def new : LootTables := ⟨fun _ => none, nofun⟩

/-- mirrors crates/data/src/loot.rs:1923-1933 (`LootTables::insert`) -/
def insert (tables : LootTables) (table : LootTable) : LootTables :=
  match h : table.name with
  | none => tables
  | some name =>
    { byName := fun other => if other = name then some table else tables.byName other
      named := by
        intro other found hfound
        split at hfound
        · cases hfound
          simp_all
        · exact tables.named other found hfound }

end LootTables

/-- mirrors crates/data/src/loot.rs:1290-1298 (`Refusal`) -/
@[ext] structure Refusal where
  kind : String
  typeName : String
  reason : String
  deriving DecidableEq, Repr

namespace Refusal

def rank (refusal : Refusal) : String ×ₗ String ×ₗ String :=
  toLex (refusal.kind, toLex (refusal.typeName, refusal.reason))

theorem rank_injective : Function.Injective rank := by
  intro r r' h
  simp [rank] at h
  exact Refusal.ext h.1 h.2.1 h.2.2

instance : LinearOrder Refusal := LinearOrder.lift' rank rank_injective

end Refusal

/-- mirrors crates/data/src/loot.rs:1245-1275 (`RollError`) -/
inductive RollError
  | unexecutable (refusals : List Refusal)
  | unknownTable (name : ResourceId)
  | tooDeep (path : List String) (limit : Nat)
  | cyclic (path : List String)

/-- mirrors crates/data/src/loot.rs:1203-1210 (`RollOutcome`) -/
structure RollOutcome where
  «stacks» : List ItemStackLike
  skipped : List Refusal

end Apoptosis.L2.Loot
