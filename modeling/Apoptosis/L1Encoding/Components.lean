import Apoptosis.Core.Ieee
import Apoptosis.L1Encoding.NbtTag
/-!
# Item data components (`entity/src/components.rs`)

The component patch of a stack. `i32` fields are `BitVec 32`, read signed by
`toInt`; `f32` fields are their bits.

The source's `PartialEq` compares the floats of modelled components by bits
and the floats inside a carried NBT value as numbers. `partialEq` is that
comparison. It is a partial equivalence (`partialEq_symm`,
`partialEq_trans`), coarser than equality on `±0.0` inside NBT and not
reflexive on a NaN there.
-/
namespace Apoptosis.L1.Components
open Apoptosis.Core.Ieee Apoptosis.L1.Nbt

/-! ## Type ids and caps -/

def TYPE_MAX_DAMAGE : BitVec 32 := 2
def TYPE_DAMAGE : BitVec 32 := 3
def TYPE_CUSTOM_NAME : BitVec 32 := 6
def TYPE_ENCHANTMENTS : BitVec 32 := 13
def TYPE_REPAIR_COST : BitVec 32 := 19
def TYPE_FOOD : BitVec 32 := 23
def TYPE_CONSUMABLE : BitVec 32 := 24
def TYPE_ATTACK_RANGE : BitVec 32 := 30
def TYPE_STORED_ENCHANTMENTS : BitVec 32 := 42

def MAX_ENCHANTMENTS : Nat := 256

/-! ## The modelled components -/

/-- mirrors crates/entity/src/components.rs:101-114 (`AttackRange`) -/
structure AttackRange where
  minReach : BitVec 32
  maxReach : BitVec 32
  minCreativeReach : BitVec 32
  maxCreativeReach : BitVec 32
  hitboxMargin : BitVec 32
  mobFactor : BitVec 32
  deriving DecidableEq, Repr

/-- mirrors crates/entity/src/components.rs:125-136: 0.0, 3.0, 0.0, 5.0, 0.3, 1.0 -/
def AttackRange.default : AttackRange :=
  ⟨0x00000000, 0x40400000, 0x00000000, 0x40A00000, 0x3E99999A, 0x3F800000⟩

/-- mirrors crates/entity/src/components.rs:140-149 (`AttackRange::values`) -/
def AttackRange.values (r : AttackRange) : List (BitVec 32) :=
  [r.minReach, r.maxReach, r.minCreativeReach, r.maxCreativeReach, r.hitboxMargin, r.mobFactor]

/-- mirrors crates/entity/src/components.rs:176-183 (`Food`) -/
structure Food where
  nutrition : BitVec 32
  saturation : BitVec 32
  canAlwaysEat : Bool
  deriving DecidableEq, Repr

/-- mirrors crates/entity/src/components.rs:205-226 (`ConsumeAnimation`) -/
inductive ConsumeAnimation where
  | none | eat | drink | block | bow | spear | crossbow | spyglass | horn | brush
  deriving DecidableEq, Repr

namespace ConsumeAnimation
/-- mirrors crates/entity/src/components.rs:231-244 (`ConsumeAnimation::id`) -/
def id : ConsumeAnimation → BitVec 32
  | none => 0 | eat => 1 | drink => 2 | block => 3 | bow => 4
  | spear => 5 | crossbow => 6 | spyglass => 7 | horn => 8 | brush => 9

/-- mirrors crates/entity/src/components.rs:240-254 (`ConsumeAnimation::from_id`) -/
def fromId (id : BitVec 32) : Option ConsumeAnimation :=
  [none, eat, drink, block, bow, spear, crossbow, spyglass, horn, brush][id.toNat]?

/-- mirrors crates/entity/src/components.rs:266-279 (`ConsumeAnimation::name`) -/
def name : ConsumeAnimation → String
  | none => "none" | eat => "eat" | drink => "drink" | block => "block" | bow => "bow"
  | spear => "spear" | crossbow => "crossbow" | spyglass => "spyglass" | horn => "horn"
  | brush => "brush"

/-- mirrors crates/entity/src/components.rs:275-289 (`ConsumeAnimation::from_name`) -/
def fromName (text : String) : Option ConsumeAnimation :=
  [none, eat, drink, block, bow, spear, crossbow, spyglass, horn, brush].find? (·.name == text)

theorem fromId_id (a : ConsumeAnimation) : fromId a.id = some a := by cases a <;> decide

theorem fromName_name (a : ConsumeAnimation) : fromName a.name = some a := by cases a <;> decide

end ConsumeAnimation

/-- mirrors crates/entity/src/components.rs:302-312 (`SoundRef`) -/
inductive SoundRef where
  | id (id : BitVec 32)
  | named (name : String) (range : Option (BitVec 32))
  deriving DecidableEq, Repr

/-- mirrors crates/entity/src/components.rs:349-361 (`Consumable`) -/
structure Consumable where
  consumeSeconds : BitVec 32
  animation : ConsumeAnimation
  sound : SoundRef
  consumeParticles : Bool
  onConsumeEffects : List NbtTag
  deriving DecidableEq, Repr

abbrev EnchantEntry := BitVec 32 × BitVec 32

/-- mirrors crates/entity/src/components.rs:493-525 (`DataComponent`) -/
inductive DataComponent where
  | damage (value : BitVec 32)
  | maxDamage (value : BitVec 32)
  | enchantments (entries : List EnchantEntry)
  | storedEnchantments (entries : List EnchantEntry)
  | customName (name : String)
  | repairCost (value : BitVec 32)
  | attackRange (range : AttackRange)
  | food (food : Food)
  | consumable (consumable : Consumable)
  | unknown (key : String) (typeId : BitVec 32) (wire : List UInt8) (nbt : Option NbtTag)
  deriving DecidableEq, Repr

namespace DataComponent

/-- mirrors crates/entity/src/components.rs:573-586 (`DataComponent::type_id`) -/
def typeId : DataComponent → BitVec 32
  | damage _ => TYPE_DAMAGE
  | maxDamage _ => TYPE_MAX_DAMAGE
  | enchantments _ => TYPE_ENCHANTMENTS
  | storedEnchantments _ => TYPE_STORED_ENCHANTMENTS
  | customName _ => TYPE_CUSTOM_NAME
  | repairCost _ => TYPE_REPAIR_COST
  | attackRange _ => TYPE_ATTACK_RANGE
  | food _ => TYPE_FOOD
  | consumable _ => TYPE_CONSUMABLE
  | unknown _ typeId _ _ => typeId

/-- mirrors crates/entity/src/components.rs:583-596 (`DataComponent::name`) -/
def name : DataComponent → String
  | damage _ => "minecraft:damage"
  | maxDamage _ => "minecraft:max_damage"
  | enchantments _ => "minecraft:enchantments"
  | storedEnchantments _ => "minecraft:stored_enchantments"
  | customName _ => "minecraft:custom_name"
  | repairCost _ => "minecraft:repair_cost"
  | attackRange _ => "minecraft:attack_range"
  | food _ => "minecraft:food"
  | consumable _ => "minecraft:consumable"
  | unknown key _ _ _ => key

/-- mirrors crates/entity/src/components.rs:600-613 (`DataComponent::is_known_type`) -/
def isKnownType (typeId : BitVec 32) : Bool :=
  typeId ∈ [TYPE_MAX_DAMAGE, TYPE_DAMAGE, TYPE_CUSTOM_NAME, TYPE_ENCHANTMENTS, TYPE_REPAIR_COST,
    TYPE_FOOD, TYPE_CONSUMABLE, TYPE_ATTACK_RANGE, TYPE_STORED_ENCHANTMENTS]

/-! ## Comparison -/

def optEq : Option NbtTag → Option NbtTag → Bool
  | none, none => true
  | some a, some b => eqWith f32Eq f64Eq a b
  | _, _ => false

/-- mirrors crates/entity/src/components.rs:363-371 (`PartialEq for Consumable`) -/
def consumableEq (a b : Consumable) : Bool :=
  a.consumeSeconds == b.consumeSeconds && a.animation == b.animation && a.sound == b.sound &&
    a.consumeParticles == b.consumeParticles &&
    eqItems f32Eq f64Eq a.onConsumeEffects b.onConsumeEffects

/-- mirrors crates/entity/src/components.rs:527-558 (`PartialEq for DataComponent`) -/
def partialEq : DataComponent → DataComponent → Bool
  | consumable a, consumable b => consumableEq a b
  | unknown aKey aId aWire aNbt, unknown bKey bId bWire bNbt =>
    aKey == bKey && aId == bId && aWire == bWire && optEq aNbt bNbt
  | a, b => a == b

end DataComponent

/-- mirrors crates/entity/src/components.rs:627-630 (`ItemComponents`): the ordered patch -/
abbrev ItemComponents := List DataComponent

namespace ItemComponents

def EMPTY : ItemComponents := []

/-- mirrors crates/entity/src/components.rs:668-670 (`ItemComponents::get`) -/
def get (c : ItemComponents) (typeId : BitVec 32) : Option DataComponent :=
  c.find? (·.typeId == typeId)

/-- mirrors crates/entity/src/components.rs:673-680 (`ItemComponents::set`) -/
def set (c : ItemComponents) (component : DataComponent) : ItemComponents :=
  match c.findIdx? (·.typeId == component.typeId) with
  | some slot => List.set c slot component
  | none => c ++ [component]

/-- The derived comparison of two entry lists. -/
def partialEq : ItemComponents → ItemComponents → Bool
  | [], [] => true
  | a :: as, b :: bs => a.partialEq b && partialEq as bs
  | _, _ => false

end ItemComponents

/-! ## Equality is a partial equivalence -/

namespace DataComponent

theorem partialEq_symm (a b : DataComponent) (h : a.partialEq b) : b.partialEq a := by
  cases a with
  | consumable a =>
    cases b with
    | consumable b =>
      simp only [partialEq, consumableEq, Bool.and_eq_true, beq_iff_eq] at h ⊢
      obtain ⟨⟨⟨⟨h1, h2⟩, h3⟩, h4⟩, h5⟩ := h
      exact ⟨⟨⟨⟨h1.symm, h2.symm⟩, h3.symm⟩, h4.symm⟩, eqItems_symm f32Eq_symm f64Eq_symm _ _ h5⟩
    | _ => simp [partialEq] at h
  | unknown key id wire nbt =>
    cases b with
    | unknown key' id' wire' nbt' =>
      simp only [partialEq, Bool.and_eq_true, beq_iff_eq] at h ⊢
      obtain ⟨⟨⟨h1, h2⟩, h3⟩, h4⟩ := h
      refine ⟨⟨⟨h1.symm, h2.symm⟩, h3.symm⟩, ?_⟩
      cases nbt <;> cases nbt' <;> simp only [optEq, Bool.false_eq_true] at h4 ⊢
      exact eqWith_symm f32Eq_symm f64Eq_symm _ _ h4
    | _ => simp [partialEq] at h
  | _ =>
    cases b <;> simp only [partialEq, beq_iff_eq, reduceCtorEq] at h ⊢; exact h.symm

theorem partialEq_trans (a b c : DataComponent) (h : a.partialEq b) (h' : b.partialEq c) :
    a.partialEq c := by
  cases a with
  | consumable a =>
    cases b with
    | consumable b =>
      cases c with
      | consumable c =>
        simp only [partialEq, consumableEq, Bool.and_eq_true, beq_iff_eq] at h h' ⊢
        obtain ⟨⟨⟨⟨h1, h2⟩, h3⟩, h4⟩, h5⟩ := h
        obtain ⟨⟨⟨⟨h1', h2'⟩, h3'⟩, h4'⟩, h5'⟩ := h'
        exact ⟨⟨⟨⟨h1.trans h1', h2.trans h2'⟩, h3.trans h3'⟩, h4.trans h4'⟩,
          eqItems_trans f32Eq_trans f64Eq_trans _ _ _ h5 h5'⟩
      | _ => simp [partialEq] at h'
    | _ => simp [partialEq] at h
  | unknown key id wire nbt =>
    cases b with
    | unknown key' id' wire' nbt' =>
      cases c with
      | unknown key'' id'' wire'' nbt'' =>
        simp only [partialEq, Bool.and_eq_true, beq_iff_eq] at h h' ⊢
        obtain ⟨⟨⟨h1, h2⟩, h3⟩, h4⟩ := h
        obtain ⟨⟨⟨h1', h2'⟩, h3'⟩, h4'⟩ := h'
        refine ⟨⟨⟨h1.trans h1', h2.trans h2'⟩, h3.trans h3'⟩, ?_⟩
        cases nbt <;> cases nbt' <;> simp only [optEq, Bool.false_eq_true] at h4
        · exact h4'
        · cases nbt'' <;> simp only [optEq, Bool.false_eq_true] at h4' ⊢
          exact eqWith_trans f32Eq_trans f64Eq_trans _ _ _ h4 h4'
      | _ => simp [partialEq] at h'
    | _ => simp [partialEq] at h
  | _ =>
    cases b <;> simp only [partialEq, beq_iff_eq, reduceCtorEq] at h
    rw [h]; exact h'

end DataComponent

theorem ItemComponents.partialEq_symm : ∀ a b : ItemComponents, a.partialEq b → b.partialEq a
  | [], [], _ => rfl
  | a :: as, b :: bs, h => by
    simp only [ItemComponents.partialEq, Bool.and_eq_true] at h ⊢
    exact ⟨a.partialEq_symm b h.1, ItemComponents.partialEq_symm as bs h.2⟩

theorem ItemComponents.partialEq_trans :
    ∀ a b c : ItemComponents, a.partialEq b → b.partialEq c → a.partialEq c
  | [], [], [], _, _ => rfl
  | a :: as, b :: bs, c :: cs, h, h' => by
    simp only [ItemComponents.partialEq, Bool.and_eq_true] at h h' ⊢
    exact ⟨a.partialEq_trans b c h.1 h'.1, ItemComponents.partialEq_trans as bs cs h.2 h'.2⟩

end Apoptosis.L1.Components
