import Apoptosis.Core.Scalar
import Apoptosis.L1Encoding.ComponentSave
import Apoptosis.L2Entities.EntityStore
import Apoptosis.L2Items.Furnace
import Apoptosis.L2Storage.Keys
/-!
# The entities of a saved chunk (`server/src/game/persist.rs`)

A chunk is saved with an entry for every entity in it, and the entries are
read back one by one when the chunk is loaded. What is written and what is
read are two lists of fields: `Motion` and `Health` are written only, and
`Sheared` is written for a sheep and read for any mob.

Results:
* `readEntry_entry`: what an entry is read as.
* `loadChunkEntities_serialize`: the store after a save and a load.
* `loadChunkEntities_unreadable`: entries that are not read are as if absent.
* `saved_entities_return_iff`.
-/
namespace Apoptosis.L2.Saves
open Apoptosis.Core Apoptosis.L1.Components Apoptosis.L1.Nbt Apoptosis.L2.Storage
open Apoptosis.L2.Entities (ItemEntity Orb)

/-! ## Positions -/

/-- The bits of an `f64`. -/
abbrev F64 := BitVec 64

/-- The number the bits stand for. -/
def F64.scalar (bits : F64) : Scalar :=
  let exponent : Nat := bits.toNat / 2 ^ 52 % 2 ^ 11
  let fraction : Nat := bits.toNat % 2 ^ 52
  if exponent = 2047 then
    if fraction ≠ 0 then .nan else if bits.msb then .negInf else .posInf
  else
    let magnitude : ℚ :=
      if exponent = 0 then fraction / 2 ^ 1074 else (2 ^ 52 + fraction) * 2 ^ exponent / 2 ^ 1075
    .finite (if bits.msb then -magnitude else magnitude)

/-- mirrors crates/server/src/game/mod.rs:2549-2551 (`floor_to_i32`) -/
def floorToI32 (value : F64) : Int :=
  match value.scalar with
  | .finite q => (I32.clamp ⌊q⌋).val
  | .posInf => 2 ^ 31 - 1
  | .negInf => -2 ^ 31
  | .nan => 0

/-- mirrors crates/server/src/game/mod.rs:2557-2559 (`chunk_of`) -/
def chunkOf (x z : F64) : ChunkPos := ⟨floorToI32 x / 16, floorToI32 z / 16⟩

structure Vec3 where
  x : F64
  y : F64
  z : F64
  deriving DecidableEq

namespace Vec3

/-- `Vec3::default`. -/
def default : Vec3 := ⟨0, 0, 0⟩

/-- The vectors are equal as numbers. -/
def Same (v w : Vec3) : Prop := v.x.scalar = w.x.scalar ∧ v.y.scalar = w.y.scalar ∧ v.z.scalar = w.z.scalar

/-- Every component is zero, of either sign. -/
def Zero (v : Vec3) : Prop := v.x.scalar = .finite 0 ∧ v.y.scalar = .finite 0 ∧ v.z.scalar = .finite 0

theorem same_default_iff (v : Vec3) : v.Same default ↔ v.Zero := by
  have hzero : (0 : F64).scalar = .finite 0 := by decide +kernel
  unfold Same Zero default
  rw [hzero]

end Vec3

/-! ## Entities -/

/-- mirrors crates/entity/src/mob.rs:321-340 (`MobKind`) -/
inductive MobKind
  | zombie | skeleton | cow | pig | sheep | chicken | spider | creeper
  deriving DecidableEq

namespace MobKind

/-- mirrors crates/entity/src/mob.rs:357-368 (`MobKind::name`) -/
def name : MobKind → String
  | zombie => "zombie"
  | skeleton => "skeleton"
  | cow => "cow"
  | pig => "pig"
  | sheep => "sheep"
  | chicken => "chicken"
  | spider => "spider"
  | creeper => "creeper"

/-- mirrors crates/entity/src/mob.rs:377-389 (`MobKind::from_name`) -/
def fromName (name : String) : Option MobKind :=
  if name = "zombie" then some zombie
  else if name = "skeleton" then some skeleton
  else if name = "cow" then some cow
  else if name = "pig" then some pig
  else if name = "sheep" then some sheep
  else if name = "chicken" then some chicken
  else if name = "spider" then some spider
  else if name = "creeper" then some creeper
  else none

/-- mirrors crates/entity/src/mob.rs:395-403 (`MobKind::max_health`), as the bits of an `f32` -/
def maxHealth : MobKind → BitVec 32
  | zombie | skeleton | creeper => 0x41A00000
  | cow | pig => 0x41200000
  | sheep => 0x41000000
  | chicken => 0x40800000
  | spider => 0x41800000

theorem fromName_name (kind : MobKind) : fromName kind.name = some kind := by cases kind <;> rfl

end MobKind

/-- mirrors crates/entity/src/mob.rs:1067-1097 (`Mob`), without what a save leaves out and nothing here reads -/
structure Mob where
  kind : MobKind
  age : BitVec 32
  sheared : Bool
  deriving DecidableEq

/-- mirrors crates/entity/src/mob.rs:1126-1137 (`Mob::new`) -/
def Mob.new (kind : MobKind) : Mob := ⟨kind, 0, false⟩

/-- mirrors crates/entity/src/item_entity.rs:142-151 (`ItemEntity::new`) -/
def newItem (stack : ItemStack) : ItemEntity := ⟨stack, 10⟩

/-- mirrors crates/entity/src/orb.rs:42-48 (`Orb::new`) -/
def newOrb (value : I32) : Orb := ⟨value, 0⟩

/-- mirrors crates/entity/src/entity.rs:125-138 (`EntityBody`) -/
inductive EntityBody
  | player
  | item (item : ItemEntity)
  | mob (mob : Mob)
  | projectile
  | orb (orb : Orb)
  | bolt

/-- mirrors crates/entity/src/entity.rs:160-210 (`Entity`), the fields a save looks at -/
structure Entity where
  id : Int
  body : EntityBody
  position : Vec3
  velocity : Vec3
  health : BitVec 32
  removed : Bool

/-- mirrors crates/entity/src/entity.rs:215-244 (`Entity::new`) -/
def Entity.new (id : Int) (body : EntityBody) (position : Vec3) : Entity where
  id := id
  body := body
  position := position
  velocity := .default
  health := match body with
    | .player => 0x41A00000
    | .mob mob => mob.kind.maxHealth
    | _ => 0
  removed := false

/-- mirrors crates/entity/src/entity.rs:434-439 (`EntityStore`) -/
structure EntityStore where
  nextId : Int
  entities : OrdMap Int Entity

def MAX_ENTITIES : Nat := 8192

/-- mirrors crates/entity/src/entity.rs:511-525 (`EntityStore::spawn`) -/
def EntityStore.spawn (store : EntityStore) (body : EntityBody) (position : Vec3) :
    ServerResult (Int × EntityStore) :=
  if store.entities.size ≥ MAX_ENTITIES then
    .error (.invariant s!"entity cap of {MAX_ENTITIES} reached; refusing to spawn more")
  else if store.nextId ≤ 0 then .error (.invariant "entity id space exhausted")
  else .ok (store.nextId, {
    nextId := (I32.clamp (store.nextId + 1)).val
    entities := store.entities.insert store.nextId (.new store.nextId body position) })

/-! ## The game -/

/-- mirrors crates/server/src/game/mod.rs:829 (`Game`), what saving entities reads and writes -/
structure Game where
  items : ItemRegistry
  store : EntityStore
  pendingEntitySpawns : List Int

/-- mirrors crates/registry/src/items.rs:141-146 (`ItemRegistry::id`); of two rows of one name the map
keeps the later -/
def itemId (items : ItemRegistry) (name : String) : ServerResult Nat :=
  match items.names.zipIdx.reverse.find? (·.1 = name) with
  | some (_, id) => .ok id
  | none => .error (.corruptData s!"unknown item {name}")

namespace Game

/-- What every spawn does with the store and the queue. -/
def spawn (g : Game) (body : EntityBody) (position : Vec3) : ServerResult (Int × Game) := do
  let (id, store) ← g.store.spawn body position
  return (id, { g with store := store, pendingEntitySpawns := g.pendingEntitySpawns ++ [id] })

/-- mirrors crates/server/src/game/mod.rs:1626-1638 (`Game::spawn_orb`) -/
def spawnOrb (g : Game) (value : I32) (position : Vec3) : ServerResult (Int × Game) :=
  if value.val ≤ 0 then
    .error (.invalidAction s!"refusing to spawn an experience orb worth {value.val} points")
  else g.spawn (.orb (newOrb value)) position

/-- mirrors crates/server/src/game/mod.rs:1611-1613 and 1656-1673 (`Game::spawn_item`) -/
def spawnItem (g : Game) (stack : ItemStack) (position : Vec3) : ServerResult (Int × Game) :=
  if stack.isEmpty then .error (.invalidAction "refusing to spawn an item entity for an empty stack")
  else g.spawn (.item (newItem stack)) position

/-- mirrors crates/server/src/game/mod.rs:1685-1696 (`Game::spawn_mob`) -/
def spawnMob (g : Game) (kind : MobKind) (position : Vec3) : ServerResult (Int × Game) :=
  g.spawn (.mob (.new kind)) position

end Game

/-! ## Writing -/

def doubles (v : Vec3) : NbtTag := .list [.double v.x, .double v.y, .double v.z]

/-- The fields of a body. -/
def bodyFields (items : ItemRegistry) (e : Entity) : List (String × NbtTag) :=
  match e.body with
  | .mob mob =>
    [("id", .string ("minecraft:" ++ mob.kind.name)), ("Health", .float e.health), ("Age", .int mob.age)] ++
      if mob.kind = .sheep then [("Sheared", .byte (if mob.sheared then 1 else 0))] else []
  | .item item =>
    let itemName := (item.stack.itemId?.bind fun id => (items.name id).toOption).getD ""
    let stackFields := [("id", .string itemName), ("Count", .int (BitVec.ofNat 32 item.stack.count))] ++
      match toNbt item.stack.components with
      | some components => [("components", components)]
      | none => []
    [("id", .string "minecraft:item"), ("Item", .compound stackFields)]
  | .orb orb => [("id", .string "minecraft:experience_orb"), ("Value", .int (BitVec.ofInt 32 orb.value.val))]
  | .player | .projectile | .bolt => []

/-- The fields of an entry. -/
def fields (items : ItemRegistry) (e : Entity) : List (String × NbtTag) :=
  bodyFields items e ++ [("Pos", doubles e.position), ("Motion", doubles e.velocity)]

/-- mirrors crates/server/src/game/persist.rs:292-364 (`serialize_chunk_entities`, an entry) -/
def entry (items : ItemRegistry) (e : Entity) : NbtTag :=
  .compound (fields items e)

/-- mirrors crates/server/src/game/persist.rs:283-290 (`serialize_chunk_entities`, the filter) -/
def Written (pos : ChunkPos) (e : Entity) : Bool :=
  !e.removed && (match e.body with
    | .player | .bolt => false
    | _ => true) && chunkOf e.position.x e.position.z = pos

/-- mirrors crates/server/src/game/persist.rs:280-367 (`Game::serialize_chunk_entities`) -/
def Game.serializeChunkEntities (g : Game) (pos : ChunkPos) : List NbtTag :=
  ((g.store.entities.entries.map Prod.snd).filter (Written pos)).map (entry g.items)

/-! ## Reading -/

/-- What an entry asks to spawn. -/
inductive Reading
  | orb (value : I32) (position : Vec3)
  | item (stack : ItemStack) (position : Vec3)
  | mob (kind : MobKind) (position : Vec3) (age : BitVec 32) (sheared : Bool)

/-- `fields.iter().find(..)`: the first entry of the name. -/
def field (fields : List (String × NbtTag)) (name : String) : Option NbtTag :=
  (fields.find? (·.1 = name)).map Prod.snd

/-- mirrors crates/server/src/game/persist.rs:393-411 (`load_chunk_entities`, the position) -/
def readPosition (fields : List (String × NbtTag)) : Except String Vec3 :=
  match field fields "Pos" with
  | some (.list [.double x, .double y, .double z]) => .ok ⟨x, y, z⟩
  | some (.list [_, _, _]) => .error "a saved entity's `Pos` is not three doubles; skipped"
  | _ => .error "a saved entity has no three-element `Pos`; skipped"

/-- mirrors crates/entity/src/components.rs:1672-1685 (`attach_saved_components`), without the reason -/
def attachSavedComponents (stack : ItemStack) (tag : NbtTag) : ItemStack :=
  match fromNbt tag with
  | .ok components => stack.setComponents components
  | .error _ => stack

/-- mirrors crates/server/src/game/persist.rs:423-469 (`load_chunk_entities`, an item) -/
def readStack (items : ItemRegistry) (fields : List (String × NbtTag)) : Except String ItemStack :=
  match field fields "Item" with
  | some (.compound itemFields) =>
    match field itemFields "id", field itemFields "Count" with
    | some (.string itemName), some (.int count) =>
      match itemId items itemName with
      | .error _ => .error "a saved item names an unknown item; skipped"
      | .ok id => match ItemStack.new id count.toInt with
        | .error _ => .error "a saved item's stack is not a legal stack; skipped"
        | .ok stack => .ok (match field itemFields "components" with
          | some tag => attachSavedComponents stack tag
          | none => stack)
    | _, _ => .error "a saved item has no `Item.id`/`Item.Count` pair; skipped"
  | _ => .error "a saved item has no `Item` compound; skipped"

/-- mirrors crates/server/src/game/persist.rs:379-486 (`load_chunk_entities`, up to the spawn); an error is the
warning that is logged -/
def readEntry (items : ItemRegistry) : NbtTag → Except String Reading
  | .compound fields =>
    match field fields "id" with
    | some (.string id) => do
      let position ← readPosition fields
      if id = "minecraft:experience_orb" then
        match field fields "Value" with
        | some (.int value) => return .orb ⟨value.toInt, BitVec.le_toInt value, BitVec.toInt_lt⟩ position
        | _ => .error "a saved orb has no `Value` int; skipped"
      else if id = "minecraft:item" then
        return .item (← readStack items fields) position
      else match MobKind.fromName ((stripPrefix "minecraft:" id).getD id) with
        | none => .error "a saved entity names a kind this build does not model; skipped"
        | some kind =>
          let age := ((field fields "Age").bind NbtTag.asI64).bind (tryFrom 32)
          let sheared := match field fields "Sheared" with
            | some (.byte 0) => false
            | some _ => true
            | none => false
          return .mob kind position (age.getD 0) sheared
    | _ => .error "a saved entity has no string `id`; skipped"
  | _ => .error "a saved entity was not a compound; skipped"

namespace Game

/-- mirrors crates/server/src/game/persist.rs:496-516 (`Game::respawn_saved_mob`) -/
def respawnSavedMob (g : Game) (kind : MobKind) (position : Vec3) (age : BitVec 32) (sheared : Bool) : Game :=
  match g.spawnMob kind position with
  | .ok (born, g) => { g with store.entities := g.store.entities.modify born fun e =>
      match e.body with
      | .mob mob => { e with body := .mob { mob with age := age, sheared := sheared } }
      | _ => e }
  | .error _ => g

/-- What a reading spawns; a spawn that fails is logged. -/
def respawn (g : Game) : Reading → Game
  | .orb value position => match g.spawnOrb value position with
    | .ok (_, g) => g
    | .error _ => g
  | .item stack position => match g.spawnItem stack position with
    | .ok (_, g) => g
    | .error _ => g
  | .mob kind position age sheared => g.respawnSavedMob kind position age sheared

/-- mirrors crates/server/src/game/persist.rs:378-488 (`load_chunk_entities`, one turn) -/
def loadEntry (g : Game) (tag : NbtTag) : Game :=
  match readEntry g.items tag with
  | .ok reading => g.respawn reading
  | .error _ => g

/-- mirrors crates/server/src/game/persist.rs:377-489 (`Game::load_chunk_entities`) -/
def loadChunkEntities (g : Game) (tags : List NbtTag) : Game := tags.foldl loadEntry g

end Game

/-! ## An entry is read back -/

/-- Mobs, items and orbs are saved to return. -/
def Returns : EntityBody → Bool
  | .mob _ | .item _ | .orb _ => true
  | _ => false

/-- What an entity's entry asks for. -/
def reading (e : Entity) : Option Reading :=
  match e.body with
  | .mob mob => some (.mob mob.kind e.position mob.age (mob.kind = .sheep ∧ mob.sheared))
  | .item item => some (.item item.stack e.position)
  | .orb orb => some (.orb orb.value e.position)
  | _ => none

/-- The item is in the table under a name of its own, and its components are restored; an orb is worth
something. -/
def Fit (items : ItemRegistry) (e : Entity) : Prop :=
  match e.body with
  | .item item => ¬item.stack.isEmpty ∧ SavedBack item.stack.components ∧
      ∃ name, items.name item.stack.itemId = .ok name ∧ itemId items name = .ok item.stack.itemId
  | .orb orb => 0 < orb.value.val
  | _ => True

theorem readPosition_doubles {fields : List (String × NbtTag)} {v : Vec3}
    (h : field fields "Pos" = some (doubles v)) : readPosition fields = .ok v := by
  rw [readPosition, h]
  rfl

theorem field_append {before after : List (String × NbtTag)} {name : String} :
    field (before ++ after) name = (field before name).or (field after name) := by
  rw [field, List.find?_append, Option.map_or]
  rfl

theorem entry_pos {items : ItemRegistry} {e : Entity} (h : field (bodyFields items e) "Pos" = none) :
    readPosition (fields items e) = .ok e.position := by
  apply readPosition_doubles
  rw [fields, field_append, h, Option.none_or]
  rfl

theorem mobName_ne (kind : MobKind) :
    "minecraft:" ++ kind.name ≠ "minecraft:experience_orb" ∧ "minecraft:" ++ kind.name ≠ "minecraft:item" := by
  cases kind <;> decide +kernel

theorem readEntry_mob {items : ItemRegistry} {e : Entity} {mob : Mob} (hbody : e.body = .mob mob) :
    readEntry items (entry items e) =
      .ok (.mob mob.kind e.position mob.age (mob.kind = .sheep ∧ mob.sheared)) := by
  have hid : field (fields items e) "id" = some (.string ("minecraft:" ++ mob.kind.name)) := by
    rw [fields, bodyFields, hbody]
    rfl
  have hage : field (fields items e) "Age" = some (.int mob.age) := by
    rw [fields, bodyFields, hbody]
    rfl
  have hsheared : field (fields items e) "Sheared" =
      if mob.kind = .sheep then some (.byte (if mob.sheared then 1 else 0)) else none := by
    rw [fields, bodyFields, hbody]
    dsimp only
    split <;> rfl
  have hpos : readPosition (fields items e) = .ok e.position := entry_pos (by
    rw [bodyFields, hbody]
    dsimp only
    split <;> rfl)
  obtain ⟨horb, hitem⟩ := mobName_ne mob.kind
  simp only [readEntry, entry, hid, hpos, hage, hsheared, bind, Except.bind, if_neg horb, if_neg hitem,
    stripPrefix_append, Option.getD_some, MobKind.fromName_name, Option.bind_some, NbtTag.asI64_int, tryFrom_toInt]
  by_cases hkind : mob.kind = .sheep
  · cases hshorn : mob.sheared <;> simp [hkind] <;> rfl
  · simp [hkind]
    rfl

theorem components_of_new {id count : Int} {stack : ItemStack} (h : ItemStack.new id count = .ok stack) :
    stack.components = [] := by
  unfold ItemStack.new at h
  split at h
  · cases h
  split at h
  · cases h
  · cases h
    unfold ItemStack.ofParts
    split <;> rfl

theorem setComponents_self (stack : ItemStack) : stack.setComponents stack.components = stack := by
  unfold ItemStack.setComponents
  split <;> rfl

theorem field_item {items : ItemRegistry} {e : Entity} {item : ItemEntity} {name : String}
    (hbody : e.body = .item item) (hitem : item.stack.itemId? = some item.stack.itemId)
    (hname : items.name item.stack.itemId = .ok name) :
    field (fields items e) "Item" = some (.compound (
      [("id", .string name), ("Count", .int (BitVec.ofNat 32 item.stack.count))] ++
        match toNbt item.stack.components with
        | some components => [("components", components)]
        | none => [])) := by
  rw [fields, bodyFields, hbody]
  dsimp only
  rw [hitem, Option.bind_some, hname]
  rfl

theorem readStack_item {items : ItemRegistry} {e : Entity} {item : ItemEntity} (hbody : e.body = .item item)
    (hfit : Fit items e) : readStack items (fields items e) = .ok item.stack := by
  rw [Fit, hbody] at hfit
  obtain ⟨hfull, hsaved, name, hname, hid⟩ := hfit
  have hitem : item.stack.itemId? = some item.stack.itemId := by
    rw [ItemStack.itemId?, if_neg]
    intro hair
    exact hfull (by simp [ItemStack.isEmpty, hair])
  have hcount : (BitVec.ofNat 32 item.stack.count).toInt = item.stack.count := by
    have hle := item.stack.count_le
    rw [BitVec.toInt_eq_toNat_of_lt] <;> rw [BitVec.toNat_ofNat] <;> omega
  have hpos : 1 ≤ item.stack.count := by
    rw [ItemStack.isEmpty_iff_count] at hfull
    omega
  have hbuilt := ItemStack.withComponents_keep hfull hpos item.stack.count_le
  rw [ItemStack.keep_self hfull, ItemStack.withComponents] at hbuilt
  obtain ⟨stack, hnew, hset⟩ : ∃ stack, ItemStack.new item.stack.itemId item.stack.count = .ok stack ∧
      stack.setComponents item.stack.components = item.stack := by
    cases hnew : ItemStack.new item.stack.itemId item.stack.count with
    | error error =>
      rw [hnew] at hbuilt
      cases hbuilt
    | ok stack =>
      rw [hnew] at hbuilt
      exact ⟨stack, rfl, Except.ok.inj hbuilt⟩
  rw [readStack, field_item hbody hitem hname]
  dsimp only
  rw [SavedBack] at hsaved
  cases htag : toNbt item.stack.components with
  | none =>
    rw [htag] at hsaved
    dsimp only at hsaved ⊢
    rw [List.append_nil]
    change (match itemId items name with
      | .error _ => _
      | .ok id => _) = _
    rw [hid]
    dsimp only
    rw [hcount, hnew]
    have hbare : stack = item.stack := by
      rw [← hset, hsaved, ← components_of_new hnew, setComponents_self]
    exact congrArg Except.ok hbare
  | some tag =>
    rw [htag] at hsaved
    dsimp only at hsaved ⊢
    change (match itemId items name with
      | .error _ => _
      | .ok id => _) = _
    rw [hid]
    dsimp only
    rw [hcount, hnew]
    have hattached : attachSavedComponents stack tag = item.stack := by
      rw [attachSavedComponents, hsaved]
      exact hset
    exact congrArg Except.ok hattached

theorem readEntry_item {items : ItemRegistry} {e : Entity} {item : ItemEntity} (hbody : e.body = .item item)
    (hfit : Fit items e) : readEntry items (entry items e) = .ok (.item item.stack e.position) := by
  have hid : field (fields items e) "id" = some (.string "minecraft:item") := by
    rw [fields, bodyFields, hbody]
    rfl
  have hpos : readPosition (fields items e) = .ok e.position := entry_pos (by
    rw [bodyFields, hbody]
    rfl)
  have hne : "minecraft:item" ≠ "minecraft:experience_orb" := by decide +kernel
  simp only [readEntry, entry, hid, hpos, bind, Except.bind, if_neg hne, if_pos, readStack_item hbody hfit]
  rfl

theorem readEntry_orb {items : ItemRegistry} {e : Entity} {orb : Orb} (hbody : e.body = .orb orb) :
    readEntry items (entry items e) = .ok (.orb orb.value e.position) := by
  have hid : field (fields items e) "id" = some (.string "minecraft:experience_orb") := by
    rw [fields, bodyFields, hbody]
    rfl
  have hvalue : field (fields items e) "Value" = some (.int (BitVec.ofInt 32 orb.value.val)) := by
    rw [fields, bodyFields, hbody]
    rfl
  have hpos : readPosition (fields items e) = .ok e.position := entry_pos (by
    rw [bodyFields, hbody]
    rfl)
  have hback : ∀ h, (⟨(BitVec.ofInt 32 orb.value.val).toInt, h⟩ : I32) = orb.value := fun _ =>
    Subtype.ext (BitVec.toInt_ofInt_eq_self (by decide) orb.value.property.1 orb.value.property.2)
  rw [entry, readEntry, hid]
  dsimp only
  rw [hpos, hvalue]
  exact congrArg (fun value => Except.ok (Reading.orb value e.position)) (hback _)

/-- Entries that are saved to return are read as what they were; those of projectiles are not read. -/
theorem readEntry_entry {items : ItemRegistry} {e : Entity} (hfit : Fit items e) :
    (readEntry items (entry items e)).toOption = reading e := by
  cases hbody : e.body with
  | mob mob => rw [readEntry_mob hbody, reading, hbody]; rfl
  | item item => rw [readEntry_item hbody hfit, reading, hbody]; rfl
  | orb orb => rw [readEntry_orb hbody, reading, hbody]; rfl
  | player | projectile | bolt =>
    have hid : field (fields items e) "id" = none := by
      rw [fields, bodyFields, hbody]
      rfl
    rw [entry, readEntry, hid, reading, hbody]
    rfl

/-! ## What a load spawns -/

/-- The entity a saved one comes back as. -/
def reborn (id : Int) (e : Entity) : Entity :=
  match e.body with
  | .mob mob => { Entity.new id (.mob (.new mob.kind)) e.position with
      body := .mob { kind := mob.kind, age := mob.age, sheared := mob.kind = .sheep ∧ mob.sheared } }
  | .item item => .new id (.item (newItem item.stack)) e.position
  | .orb orb => .new id (.orb (newOrb orb.value)) e.position
  | body => .new id body e.position

/-- There is room for so many entities more, and for their ids. -/
structure Room (store : EntityStore) (n : Nat) : Prop where
  cap : store.entities.size + n ≤ MAX_ENTITIES
  nextId_pos : 0 < store.nextId
  ids : store.nextId + n ≤ 2 ^ 31
  fresh : 0 < n → ∀ e ∈ store.entities.entries, e.1 < store.nextId

theorem insertEntry_last {k : Int} {v : Entity} {l : List (Int × Entity)} (h : ∀ e ∈ l, e.1 < k) :
    insertEntry k v l = l ++ [(k, v)] := by
  induction l with
  | nil => rfl
  | cons a l ih =>
    have hlt := h a List.mem_cons_self
    rw [insertEntry, if_neg (not_lt.mpr hlt.le), if_neg hlt.ne', ih fun e he => h e (List.mem_cons_of_mem _ he)]
    rfl

theorem modify_insert (m : OrdMap Int Entity) (k : Int) (v : Entity) (f : Entity → Entity) :
    (m.insert k v).modify k f = m.insert k (f v) := by
  rw [OrdMap.modify, OrdMap.get?_insert, if_pos rfl]
  exact OrdMap.insert_insert m k v (f v)

/-- The store with one entity more, under the next id. -/
def EntityStore.add (store : EntityStore) (e : Int → Entity) : EntityStore where
  nextId := (I32.clamp (store.nextId + 1)).val
  entities := store.entities.insert store.nextId (e store.nextId)

theorem Room.spawn {g : Game} {n : Nat} (h : Room g.store (n + 1)) (body : EntityBody) (position : Vec3) :
    g.spawn body position = .ok (g.store.nextId, { g with
      store := g.store.add fun id => .new id body position
      pendingEntitySpawns := g.pendingEntitySpawns ++ [g.store.nextId] }) := by
  have hcap := h.cap
  have hpos := h.nextId_pos
  have hstore : g.store.spawn body position =
      .ok (g.store.nextId, g.store.add fun id => .new id body position) := by
    rw [EntityStore.spawn, if_neg (by omega), if_neg (by omega)]
    rfl
  rw [Game.spawn, hstore]
  rfl

theorem Room.add_entries {store : EntityStore} {n : Nat} (h : Room store (n + 1)) (e : Int → Entity) :
    (store.add e).entities.entries = store.entities.entries ++ [(store.nextId, e store.nextId)] :=
  insertEntry_last (h.fresh (Nat.succ_pos n))

theorem Room.add {store : EntityStore} {n : Nat} (h : Room store (n + 1)) (e : Int → Entity) :
    Room (store.add e) n := by
  have hentries := h.add_entries e
  have hcap := h.cap
  have hpos := h.nextId_pos
  have hids := h.ids
  have hnext : (store.add e).nextId = max (-2 ^ 31) (min (store.nextId + 1) (2 ^ 31 - 1)) := rfl
  push_cast at hids
  refine ⟨?_, ?_, ?_, fun hn e' he' => ?_⟩
  · rw [OrdMap.size, hentries, List.length_append]
    rw [OrdMap.size] at hcap
    simp only [List.length_singleton]
    omega
  · omega
  · omega
  · rw [hentries, List.mem_append, List.mem_singleton] at he'
    rcases he' with he' | rfl
    · have := h.fresh (Nat.succ_pos n) e' he'
      omega
    · dsimp only
      omega

/-- A reading brings its entity back. -/
theorem respawn_spec {g : Game} {n : Nat} (h : Room g.store (n + 1)) {items : ItemRegistry} {e : Entity}
    (hfit : Fit items e) {r : Reading} (hr : reading e = some r) :
    (g.respawn r).store = g.store.add (fun id => reborn id e) := by
  cases hbody : e.body with
  | mob mob =>
    rw [reading, hbody] at hr
    cases hr
    rw [Game.respawn, Game.respawnSavedMob, Game.spawnMob, h.spawn]
    dsimp only [EntityStore.add]
    rw [modify_insert, reborn, hbody]
    rfl
  | item item =>
    rw [reading, hbody] at hr
    cases hr
    rw [Fit, hbody] at hfit
    rw [Game.respawn, Game.spawnItem, if_neg hfit.1, h.spawn]
    dsimp only
    congr 1
    funext id
    rw [reborn, hbody]
  | orb orb =>
    rw [reading, hbody] at hr
    cases hr
    rw [Fit, hbody] at hfit
    rw [Game.respawn, Game.spawnOrb, if_neg (not_le.mpr hfit), h.spawn]
    dsimp only
    congr 1
    funext id
    rw [reborn, hbody]
  | player | projectile | bolt =>
    rw [reading, hbody] at hr
    exact nomatch hr

/-! ## The whole list -/

theorem spawn_items {g g' : Game} {body : EntityBody} {position : Vec3} {id : Int}
    (h : g.spawn body position = .ok (id, g')) : g'.items = g.items := by
  unfold Game.spawn at h
  cases hstore : g.store.spawn body position with
  | error error =>
    rw [hstore] at h
    exact nomatch h
  | ok born =>
    rw [hstore] at h
    cases h
    rfl

theorem respawn_items (g : Game) (r : Reading) : (g.respawn r).items = g.items := by
  cases r with
  | orb value position =>
    rw [Game.respawn, Game.spawnOrb]
    split
    · next h =>
      split at h
      · exact nomatch h
      · exact spawn_items h
    · rfl
  | item stack position =>
    rw [Game.respawn, Game.spawnItem]
    split
    · next h =>
      split at h
      · exact nomatch h
      · exact spawn_items h
    · rfl
  | mob kind position age sheared =>
    rw [Game.respawn, Game.respawnSavedMob, Game.spawnMob]
    split
    · next h =>
      have hitems := spawn_items h
      exact hitems
    · rfl

/-- What the entries of a list are read as; the others are passed over. -/
def readings (items : ItemRegistry) (tags : List NbtTag) : List Reading :=
  tags.filterMap fun tag => (readEntry items tag).toOption

/-- A load spawns the readings, in order. -/
theorem loadChunkEntities_eq (g : Game) (tags : List NbtTag) :
    g.loadChunkEntities tags = (readings g.items tags).foldl Game.respawn g := by
  induction tags generalizing g with
  | nil => rfl
  | cons tag tags ih =>
    have hitems : (g.loadEntry tag).items = g.items := by
      unfold Game.loadEntry
      split
      · exact respawn_items g _
      · rfl
    refine (ih (g.loadEntry tag)).trans ?_
    rw [hitems, Game.loadEntry, readings, readings, List.filterMap_cons]
    cases readEntry g.items tag <;> rfl

/-- An entry that cannot be read is as if it were not there. -/
theorem loadChunkEntities_unreadable {g : Game} {tag : NbtTag} {warning : String}
    (h : readEntry g.items tag = .error warning) (before after : List NbtTag) :
    g.loadChunkEntities (before ++ tag :: after) = g.loadChunkEntities (before ++ after) := by
  rw [loadChunkEntities_eq, loadChunkEntities_eq, readings, readings, List.filterMap_append, List.filterMap_append,
    List.filterMap_cons, h]
  rfl

/-- The entities of a chunk that are saved to return. -/
def saved (g : Game) (pos : ChunkPos) : List Entity :=
  (g.store.entities.entries.map Prod.snd).filter fun e => Written pos e && Returns e.body

theorem readings_serialize {g : Game} {pos : ChunkPos} (hfit : ∀ e ∈ saved g pos, Fit g.items e) :
    readings g.items (g.serializeChunkEntities pos) = (saved g pos).filterMap reading := by
  unfold readings Game.serializeChunkEntities
  have hsaved : saved g pos =
      ((g.store.entities.entries.map Prod.snd).filter (Written pos)).filter fun e => Returns e.body := by
    rw [saved, List.filter_filter]
    exact List.filter_congr fun e _ => Bool.and_comm _ _
  rw [hsaved] at hfit ⊢
  generalize (g.store.entities.entries.map Prod.snd).filter (Written pos) = es at hfit ⊢
  rw [List.filterMap_map, List.filterMap_filter]
  refine List.filterMap_congr fun e he => ?_
  cases hreturns : Returns e.body with
  | true => exact (readEntry_entry (hfit e (List.mem_filter.mpr ⟨he, hreturns⟩))).trans (if_pos rfl).symm
  | false =>
    have hnone : Fit g.items e ∧ reading e = none := by
      rw [reading, Fit]
      cases hbody : e.body with
      | mob mob | item item | orb orb =>
        rw [hbody] at hreturns
        exact absurd hreturns.symm Bool.false_ne_true
      | player | projectile | bolt => exact ⟨trivial, rfl⟩
    exact (readEntry_entry hnone.1).trans hnone.2

/-- The entries that so many entities arrive under. -/
def arrivals (id : Int) : List Entity → List (Int × Entity)
  | [] => []
  | e :: es => (id, reborn id e) :: arrivals (id + 1) es

theorem reading_isSome {e : Entity} (h : Returns e.body) : ∃ r, reading e = some r := by
  unfold reading
  cases hbody : e.body with
  | mob mob | item item | orb orb => exact ⟨_, rfl⟩
  | player | projectile | bolt =>
    rw [hbody] at h
    exact absurd h Bool.false_ne_true

theorem respawn_all {g : Game} {items : ItemRegistry} {es : List Entity} (hroom : Room g.store es.length)
    (hreturns : ∀ e ∈ es, Returns e.body) (hfit : ∀ e ∈ es, Fit items e) :
    ((es.filterMap reading).foldl Game.respawn g).store.entities.entries =
      g.store.entities.entries ++ arrivals g.store.nextId es := by
  induction es generalizing g with
  | nil => exact (List.append_nil _).symm
  | cons e es ih =>
    obtain ⟨r, hr⟩ := reading_isSome (hreturns e List.mem_cons_self)
    have hstore := respawn_spec hroom (hfit e List.mem_cons_self) hr
    have hrest := @ih (g.respawn r) (by rw [hstore]; exact hroom.add _)
      (fun e' he' => hreturns e' (List.mem_cons_of_mem _ he')) fun e' he' => hfit e' (List.mem_cons_of_mem _ he')
    rw [List.filterMap_cons, hr, List.foldl_cons, hrest, hstore, hroom.add_entries, arrivals, List.append_assoc]
    cases es with
    | nil => rfl
    | cons e' es =>
      -- more are to come, so the next id is the one after
      have hids := hroom.ids
      have hpos := hroom.nextId_pos
      have hnext : (g.store.add fun id => reborn id e).nextId = g.store.nextId + 1 := by
        show max (-2 ^ 31) (min (g.store.nextId + 1) (2 ^ 31 - 1)) = g.store.nextId + 1
        simp only [List.length_cons] at hids
        omega
      rw [hnext]
      rfl

theorem loadChunkEntities_serialize {g g' : Game} {pos : ChunkPos} (hitems : g'.items = g.items)
    (hfit : ∀ e ∈ saved g pos, Fit g.items e) (hroom : Room g'.store (saved g pos).length) :
    (g'.loadChunkEntities (g.serializeChunkEntities pos)).store.entities.entries =
      g'.store.entities.entries ++ arrivals g'.store.nextId (saved g pos) := by
  rw [loadChunkEntities_eq, hitems, readings_serialize hfit]
  refine respawn_all hroom (fun e he => ?_) hfit
  exact (Bool.and_eq_true_iff.mp (List.mem_filter.mp he).2).2

/-! ## As they were saved -/

/-- The bodies agree in all that a save should keep. -/
def SameBody (before after : Entity) : Prop :=
  match before.body, after.body with
  | .mob mob, .mob mob' => mob' = mob ∧ after.health = before.health
  | .item item, .item item' => item'.stack = item.stack
  | .orb orb, .orb orb' => orb'.value = orb.value
  | _, _ => False

/-- The entity is there again. -/
structure Same (before after : Entity) : Prop where
  body : SameBody before after
  position : after.position = before.position
  velocity : before.velocity.Same after.velocity

/-- Each saved entity has come back as one new entity, in order, and nothing else has. -/
def ComeBack (es : List Entity) (before after : EntityStore) : Prop :=
  ∃ made : List (Int × Entity), after.entities.entries = before.entities.entries ++ made ∧
    List.Forall₂ (fun e m => Same e m.2) es made

/-- A save and a load lose nothing of the entity: it stands still, and a mob is unhurt and, unless it is
a sheep, not shorn. -/
def Keeps (e : Entity) : Prop :=
  e.velocity.Zero ∧ match e.body with
    | .mob mob => e.health = mob.kind.maxHealth ∧ (mob.sheared → mob.kind = .sheep)
    | _ => True

/-- Whatever it was, it comes back at its place and at rest. -/
theorem reborn_placed (id : Int) (e : Entity) :
    (reborn id e).position = e.position ∧ (reborn id e).velocity = .default := by
  unfold reborn
  cases e.body <;> exact ⟨rfl, rfl⟩

theorem sameBody_reborn_iff {e : Entity} (h : Returns e.body) (id : Int) : SameBody e (reborn id e) ↔
    match e.body with
    | .mob mob => e.health = mob.kind.maxHealth ∧ (mob.sheared → mob.kind = .sheep)
    | _ => True := by
  rw [SameBody, reborn]
  cases hbody : e.body with
  | mob mob =>
    have hmob : (⟨mob.kind, mob.age, mob.kind = .sheep ∧ mob.sheared⟩ : Mob) = mob ↔
        (mob.sheared → mob.kind = .sheep) := by
      obtain ⟨kind, age, sheared⟩ := mob
      cases sheared <;> simp
    dsimp only
    rw [hmob]
    exact ⟨fun ⟨hshorn, hhealth⟩ => ⟨hhealth.symm, hshorn⟩, fun ⟨hhealth, hshorn⟩ => ⟨hshorn, hhealth.symm⟩⟩
  | item item => exact ⟨fun _ => trivial, fun _ => rfl⟩
  | orb orb => exact ⟨fun _ => trivial, fun _ => rfl⟩
  | player | projectile | bolt =>
    rw [hbody] at h
    exact absurd h Bool.false_ne_true

theorem same_reborn_iff {e : Entity} (h : Returns e.body) (id : Int) : Same e (reborn id e) ↔ Keeps e := by
  obtain ⟨hposition, hvelocity⟩ := reborn_placed id e
  have hstill : e.velocity.Same (reborn id e).velocity ↔ e.velocity.Zero := by
    rw [hvelocity, Vec3.same_default_iff]
  constructor
  · exact fun hsame => ⟨hstill.mp hsame.velocity, (sameBody_reborn_iff h id).mp hsame.body⟩
  · exact fun ⟨hzero, hkept⟩ => ⟨(sameBody_reborn_iff h id).mpr hkept, hposition, hstill.mpr hzero⟩

theorem arrivals_same_iff {es : List Entity} (h : ∀ e ∈ es, Returns e.body) (id : Int) :
    List.Forall₂ (fun e (m : Int × Entity) => Same e m.2) es (arrivals id es) ↔ ∀ e ∈ es, Keeps e := by
  induction es generalizing id with
  | nil => exact ⟨fun _ _ he => (nomatch he), fun _ => .nil⟩
  | cons e es ih =>
    rw [arrivals, List.forall₂_cons, ih (fun e' he' => h e' (List.mem_cons_of_mem _ he')),
      same_reborn_iff (h e List.mem_cons_self), List.forall_mem_cons]

/-- What a chunk's entities are saved as and loaded from brings each of them back as it was exactly when
they all keep: no velocity, no damage and no shorn mob but a sheep is read back. Entries that cannot be
read make no difference to the others. -/
theorem saved_entities_return_iff {g g' : Game} {pos : ChunkPos} (hitems : g'.items = g.items)
    (hfit : ∀ e ∈ saved g pos, Fit g.items e) (hroom : Room g'.store (saved g pos).length) :
    (ComeBack (saved g pos) g'.store (g'.loadChunkEntities (g.serializeChunkEntities pos)).store ∧
        ∀ (g'' : Game) tag warning, readEntry g''.items tag = .error warning → ∀ before after,
          g''.loadChunkEntities (before ++ tag :: after) = g''.loadChunkEntities (before ++ after)) ↔
      ∀ e ∈ saved g pos, Keeps e := by
  have hreturns : ∀ e ∈ saved g pos, Returns e.body := fun e he =>
    (Bool.and_eq_true_iff.mp (List.mem_filter.mp he).2).2
  have hload := loadChunkEntities_serialize hitems hfit hroom
  rw [← arrivals_same_iff hreturns g'.store.nextId]
  constructor
  · rintro ⟨⟨made, hmade, hsame⟩, -⟩
    rw [hload] at hmade
    rwa [List.append_cancel_left hmade]
  · exact fun hsame => ⟨⟨_, hload, hsame⟩, fun g'' tag warning h => loadChunkEntities_unreadable h⟩

/-- A zombie at the origin, at rest. -/
def zombie (health : BitVec 32) : Entity := ⟨1, .mob ⟨.zombie, 0, false⟩, .default, .default, health, false⟩

/-- A game with one entity. -/
def alone (e : Entity) : Game where
  items := ⟨["minecraft:air", "minecraft:stone"]⟩
  store := ⟨2, OrdMap.empty.insert 1 e⟩
  pendingEntitySpawns := []

/-- The same game, started again. -/
def restarted : Game := ⟨⟨["minecraft:air", "minecraft:stone"]⟩, ⟨1, OrdMap.empty⟩, []⟩

theorem saved_zombie (health : BitVec 32) : saved (alone (zombie health)) ⟨0, 0⟩ = [zombie health] := by
  have hzero : floorToI32 0 = 0 := by decide +kernel
  have hwritten : Written ⟨0, 0⟩ (zombie health) = true := by
    show (true && decide (chunkOf 0 0 = ⟨0, 0⟩)) = true
    rw [chunkOf, hzero]
    rfl
  show List.filter _ [zombie health] = _
  rw [List.filter_singleton, hwritten]
  rfl

theorem restarted_room : Room restarted.store 1 := ⟨by decide, by decide, by decide, fun _ _ he => (nomatch he)⟩

/-- A zombie unhurt comes back. -/
theorem saved_entities_return_unhurt : ComeBack [zombie 0x41A00000] restarted.store
    (restarted.loadChunkEntities ((alone (zombie 0x41A00000)).serializeChunkEntities ⟨0, 0⟩)).store := by
  have hsaved := saved_zombie 0x41A00000
  have h := (@saved_entities_return_iff (alone (zombie 0x41A00000)) restarted ⟨0, 0⟩ rfl
    (by rw [hsaved]; exact fun e he => by rw [List.mem_singleton.mp he]; trivial)
    (by rw [hsaved]; exact restarted_room)).mpr (by
      rw [hsaved]
      intro e he
      rw [List.mem_singleton.mp he]
      exact ⟨(Vec3.same_default_iff _).mp ⟨rfl, rfl, rfl⟩, rfl, nofun⟩)
  rw [hsaved] at h
  exact h.1

/-- One that lost a point of health is whole again after the restart. -/
theorem saved_entities_heal : ¬ComeBack (saved (alone (zombie 0x41980000)) ⟨0, 0⟩) restarted.store
    (restarted.loadChunkEntities ((alone (zombie 0x41980000)).serializeChunkEntities ⟨0, 0⟩)).store := by
  have hsaved := saved_zombie 0x41980000
  have hload := @loadChunkEntities_serialize (alone (zombie 0x41980000)) restarted ⟨0, 0⟩ rfl
    (by rw [hsaved]; exact fun e he => by rw [List.mem_singleton.mp he]; trivial)
    (by rw [hsaved]; exact restarted_room)
  rw [hsaved] at hload ⊢
  rintro ⟨made, hmade, hsame⟩
  rw [hload] at hmade
  rw [← List.append_cancel_left hmade, arrivals, List.forall₂_cons] at hsame
  exact absurd hsame.1.body.2 (by decide)

end Apoptosis.L2.Saves
