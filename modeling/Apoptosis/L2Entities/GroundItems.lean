import Apoptosis.Core.Runs
import Apoptosis.L2Entities.EntityStore
import Apoptosis.L2Items.PlayerInventory
/-!
# Ground stacks that merge and are picked up (`server/src/game/tick.rs`)

The pairs come from a list taken before the first merge, and nothing asks
whether an entity was removed since. A stack that was merged away is empty and
removed, and as the older of a later pair it takes the other's items with it.

* `absorbStack_iff`: the pairs that lose nothing.
* `pickUp_iff`: the pickups that make nothing.
* `ground_items_iff`: both passes.
-/
namespace Apoptosis.L2.Entities
open Apoptosis.Core

structure Session (P : Type) where
  ready : Bool
  position : P
  inventory : PlayerInventory

structure Game (P : Type) where
  entities : EntityStore P
  sessions : OrdMap Nat (Session P)

variable {P D : Type} [LinearOrder D] (near : P → P → Bool) (distance : P → P → D) (reaches : P → P → Bool)

/-- mirrors crates/server/src/game/mod.rs:542-549 (`GroundItem`) -/
structure GroundItem (P : Type) where
  id : Nat
  item : Option Nat
  position : P
  age : Nat
  ready : Bool

/-- The list collected before each pass. -/
def groundItems (s : EntityStore P) : List (GroundItem P) :=
  s.entries.filterMap fun (id, entity) => entity.item?.map fun item =>
    ⟨id, item.stack.itemId?, entity.position, entity.age, item.pickupDelay == 0⟩

/-! ## Merging -/

/-- The older entity is kept. -/
def olderYounger (first second : GroundItem P) : Nat × Nat :=
  if first.age ≥ second.age then (first.id, second.id) else (second.id, first.id)

/-- The limit of the first session's table. -/
def maxStack (g : Game P) (itemId : Option Nat) : Nat :=
  match g.sessions.entries.head? with
  | none => DEFAULT_MAX_STACK_SIZE
  | some (_, session) => itemId.elim DEFAULT_MAX_STACK_SIZE session.inventory.stackSizes.maxStackSize

def itemAt (s : EntityStore P) (id : Nat) : Option ItemEntity := (s.get? id).bind Entity.item?

/-- `drop_item.stack = incoming`, with the entity removed when that is empty. -/
def writeBack (incoming : ItemStack) (entity : Entity P) : Entity P :=
  match entity.item? with
  | none => entity
  | some dropItem =>
    let entity := entity.setItem { dropItem with stack := incoming }
    if incoming.isEmpty then entity.remove else entity

/-- The body of the loops from the choice of `keep` and `drop` on. -/
def absorbStack (g : Game P) (t : Nat × Nat) : Game P :=
  let itemId := (itemAt g.entities t.1).bind fun item => item.stack.itemId?
  match itemAt g.entities t.2 with
  | none => g
  | some dropItem =>
    if dropItem.stack.isEmpty then g
    else match g.entities.get? t.1 with
    | none => g
    | some keepEntity =>
      match keepEntity.item? with
      | none => g
      | some keepItem =>
        let merged := keepItem.stack.mergeCapped dropItem.stack (maxStack g itemId)
        let kept := g.entities.insert t.1 (keepEntity.setItem { keepItem with stack := merged.1 })
        { g with entities := kept.modify t.2 (writeBack merged.2) }

/-- mirrors crates/server/src/game/tick.rs:1634-1746 (`merge_ground_stacks`) -/
def mergeGroundStacks (g : Game P) : Game P :=
  (pairs (groundItems g.entities)).foldl (fun g (first, second) =>
    if first.item.isNone || first.item != second.item then g
    else if !near first.position second.position then g
    else absorbStack g (olderYounger first second)) g

/-! ## Picking up -/

/-- The nearest player, when it is within reach. -/
def pickerOf (players : List (Nat × P)) (position : P) : Option Nat :=
  (firstMin (players.map fun player => (player, distance player.2 position))).bind fun m =>
    if reaches m.1.2 position then some m.1.1 else none

/-- The body of the loop from the choice of the player on. -/
def pickUp (g : Game P) (c : Nat × Nat) : Game P :=
  match g.entities.get? c.1 with
  | none => g
  | some entity =>
    match entity.item? with
    | none => g
    | some groundStack =>
      match g.sessions.get? c.2 with
      | none => g
      | some session =>
        let added := session.inventory.addStack groundStack.stack
        { sessions := g.sessions.insert c.2 { session with inventory := added.1 }
          entities := g.entities.insert c.1
            (if added.2.isEmpty then entity.remove else entity.setItem { groundStack with stack := added.2 }) }

/-- mirrors crates/server/src/game/tick.rs:1750-1820 (`collect_items_into_players`) -/
def collectItems (g : Game P) : Game P :=
  let players := g.sessions.entries.filterMap fun (id, session) =>
    if session.ready then some (id, session.position) else none
  (groundItems g.entities).foldl (fun g item =>
    if !item.ready then g
    else match pickerOf distance reaches players item.position with
    | none => g
    | some connection => pickUp g (item.id, connection)) g

/-! ## What is counted -/

/-- The items of an identity in an entity that is not marked removed. -/
def shown (k : Key) (e : Nat × Entity P) : Nat :=
  if e.2.removed then 0 else e.2.item?.elim 0 (·.stack.amount k)

/-- The items of an identity on the ground and with the players. -/
def visible (k : Key) (g : Game P) : Nat :=
  tally (shown k) g.entities.entries + tally (fun e => e.2.inventory.amount k) g.sessions.entries

/-- The pairs that the first pass merges, as the list before it has them. -/
def stackMerges (s : EntityStore P) : List (Nat × Nat) :=
  (pairs (groundItems s)).filterMap fun (first, second) =>
    if first.item.isNone || first.item != second.item then none
    else if !near first.position second.position then none
    else some (olderYounger first second)

/-- The entities that the second pass offers, and to whom. -/
def pickups (g : Game P) : List (Nat × Nat) :=
  let players := g.sessions.entries.filterMap fun (id, session) =>
    if session.ready then some (id, session.position) else none
  (groundItems g.entities).filterMap fun item =>
    if !item.ready then none
    else (pickerOf distance reaches players item.position).map fun connection => (item.id, connection)

theorem mergeGroundStacks_run (g : Game P) :
    mergeGroundStacks near g = run absorbStack g (stackMerges near g.entities) := by
  rw [run_eq_foldl, stackMerges, List.foldl_filterMap, mergeGroundStacks]
  congr 1
  funext g ⟨first, second⟩
  dsimp only
  split
  · rfl
  split
  · rfl
  · rfl

theorem collectItems_run (g : Game P) :
    collectItems distance reaches g = run pickUp g (pickups distance reaches g) := by
  rw [run_eq_foldl, pickups, List.foldl_filterMap, collectItems]
  congr 1
  funext g item
  dsimp only
  split
  · rfl
  · cases pickerOf distance reaches _ item.position with
    | none => rfl
    | some connection => rfl

/-! ## Which merges lose nothing -/

/-- The merge moves at least one item. -/
def Moves (g : Game P) (t : Nat × Nat) : Prop :=
  ∃ keepItem dropItem, itemAt g.entities t.1 = some keepItem ∧ itemAt g.entities t.2 = some dropItem ∧
    ¬ dropItem.stack.isEmpty ∧ (keepItem.stack.isEmpty ∨
      keepItem.stack.sameItem dropItem.stack ∧ keepItem.stack.count < maxStack g keepItem.stack.itemId?)

/-- What the pass has marked removed is empty. -/
def EndedEmpty (g₀ g : Game P) : Prop :=
  ∀ id item, itemAt g.entities id = some item → removedAt g.entities id →
    item.stack.isEmpty ∨ removedAt g₀.entities id

/-- Items move between two entities that are there, or between two that were removed before the pass. -/
def Apart (g₀ g : Game P) (t : Nat × Nat) : Prop :=
  Moves g t → removedAt g.entities t.1 = removedAt g.entities t.2 ∧
    (removedAt g.entities t.1 → removedAt g₀.entities t.1)

theorem maxStack_bounds (g : Game P) (itemId : Option Nat) : 1 ≤ maxStack g itemId ∧ maxStack g itemId ≤ 64 := by
  unfold maxStack
  split
  · exact ⟨by decide, by decide⟩
  · cases itemId with
    | none => exact (⟨by decide, by decide⟩ : 1 ≤ DEFAULT_MAX_STACK_SIZE ∧ DEFAULT_MAX_STACK_SIZE ≤ 64)
    | some id => exact StackSizeTable.maxStackSize_bounds _ id

/-- A merge moves items, or leaves both stacks as they are. -/
theorem merge_moves {keep drop : ItemStack} {limit : Nat} (hlimit : 1 ≤ limit ∧ limit ≤ 64) (hdrop : ¬ drop.isEmpty) :
    if keep.isEmpty ∨ keep.sameItem drop ∧ keep.count < limit then
      (keep.mergeCapped drop limit).2.count < drop.count
    else keep.mergeCapped drop limit = (keep, drop) := by
  have hpos : 0 < drop.count := Nat.pos_of_ne_zero fun h => hdrop ((ItemStack.isEmpty_iff_count drop).mpr h)
  rcases ItemStack.merge_cases keep drop with h | ⟨-, hkeep⟩ | ⟨-, hsame⟩
  · have hblocked := h.resolve_left hdrop
    rw [if_neg (by simp [hblocked.1, hblocked.2])]
    exact ItemStack.merge_blocked h
  · rw [if_pos (.inl hkeep), ItemStack.merge_into_empty hkeep, if_neg hdrop, (ItemStack.split_count ..).2,
      ItemStack.clampLimit_eq hlimit.1 hlimit.2]
    omega
  · have hkeep : ¬ keep.isEmpty := (ItemStack.sameItem_iff.mp hsame).1
    rw [ItemStack.merge_same hsame hdrop, ItemStack.clampLimit_eq hlimit.1 hlimit.2]
    split
    · next hmoves =>
      have hroom := (hmoves.resolve_left hkeep).2
      rw [(ItemStack.split_count ..).2]
      omega
    · next hfull =>
      have hle : limit ≤ keep.count := by
        by_contra hlt
        exact hfull (.inr ⟨hsame, by omega⟩)
      rw [Nat.sub_eq_zero_of_le hle, Nat.zero_min, Nat.add_zero, ItemStack.keep_self hkeep]
      rfl

theorem itemAt_eq_some {s : EntityStore P} {id : Nat} {item : ItemEntity} :
    itemAt s id = some item ↔ ∃ entity, s.get? id = some entity ∧ entity.item? = some item :=
  Option.bind_eq_some_iff

theorem removedAt_eq {s : EntityStore P} {id : Nat} {entity : Entity P} (h : s.get? id = some entity) :
    removedAt s id = entity.removed := by
  rw [removedAt, h]
  rfl

theorem shown_item {e : Nat × Entity P} {item : ItemEntity} (h : e.2.item? = some item) (k : Key) :
    shown k e = if e.2.removed then 0 else item.stack.amount k := by
  rw [shown, h]
  rfl

/-- What `writeBack` leaves. -/
theorem writeBack_spec {entity : Entity P} {item : ItemEntity} (h : entity.item? = some item) (incoming : ItemStack) :
    (writeBack incoming entity).item? = some { item with stack := incoming } ∧
      (writeBack incoming entity).removed = (entity.removed || incoming.isEmpty) := by
  unfold writeBack
  rw [h]
  dsimp only
  split
  · next hempty => exact ⟨rfl, by rw [hempty, Bool.or_true]; rfl⟩
  · next hempty => exact ⟨rfl, by rw [Bool.not_eq_true] at hempty; rw [hempty, Bool.or_false]; rfl⟩

/-- A pair of stacks that are there, the younger not empty. -/
structure Meeting (g : Game P) (t : Nat × Nat) where
  keepEntity : Entity P
  dropEntity : Entity P
  keepItem : ItemEntity
  dropItem : ItemEntity
  different : t.1 ≠ t.2
  keep_get : g.entities.get? t.1 = some keepEntity
  drop_get : g.entities.get? t.2 = some dropEntity
  keep_item : keepEntity.item? = some keepItem
  drop_item : dropEntity.item? = some dropItem
  held : ¬ dropItem.stack.isEmpty

namespace Meeting

variable {g : Game P} {t : Nat × Nat} (m : Meeting g t)

def merged : ItemStack × ItemStack :=
  m.keepItem.stack.mergeCapped m.dropItem.stack (maxStack g m.keepItem.stack.itemId?)

def keptEntity : Entity P := m.keepEntity.setItem { m.keepItem with stack := m.merged.1 }

def leftEntity : Entity P := writeBack m.merged.2 m.dropEntity

theorem absorbStack_eq : absorbStack g t =
    { g with entities := (g.entities.insert t.1 m.keptEntity).insert t.2 m.leftEntity } := by
  have hdrop : itemAt g.entities t.2 = some m.dropItem := itemAt_eq_some.mpr ⟨_, m.drop_get, m.drop_item⟩
  have hkeep : itemAt g.entities t.1 = some m.keepItem := itemAt_eq_some.mpr ⟨_, m.keep_get, m.keep_item⟩
  have hget : (g.entities.insert t.1 m.keptEntity).get? t.2 = some m.dropEntity := by
    rw [OrdMap.get?_insert, if_neg m.different, m.drop_get]
  have hmodify : (g.entities.insert t.1 m.keptEntity).modify t.2 (writeBack m.merged.2) =
      (g.entities.insert t.1 m.keptEntity).insert t.2 m.leftEntity := by
    unfold OrdMap.modify
    rw [hget]
    rfl
  unfold absorbStack
  simp only [hdrop, hkeep, m.held, m.keep_get, m.keep_item, Bool.false_eq_true, if_false, Option.bind_some]
  exact congrArg (fun s => (⟨s, g.sessions⟩ : Game P)) hmodify

theorem removed_kept : m.keptEntity.removed = m.keepEntity.removed := rfl

theorem get?_after (id : Nat) : (absorbStack g t).entities.get? id =
    if t.2 = id then some m.leftEntity else if t.1 = id then some m.keptEntity else g.entities.get? id := by
  rw [m.absorbStack_eq, OrdMap.get?_insert, OrdMap.get?_insert]

theorem left_spec : m.leftEntity.item? = some { m.dropItem with stack := m.merged.2 } ∧
    m.leftEntity.removed = (m.dropEntity.removed || m.merged.2.isEmpty) := writeBack_spec m.drop_item _

theorem kept_after : itemAt (absorbStack g t).entities t.1 = some { m.keepItem with stack := m.merged.1 } ∧
    removedAt (absorbStack g t).entities t.1 = m.keepEntity.removed := by
  have hget := m.get?_after t.1
  rw [if_neg (Ne.symm m.different), if_pos rfl] at hget
  exact ⟨itemAt_eq_some.mpr ⟨_, hget, rfl⟩, (removedAt_eq hget).trans m.removed_kept⟩

theorem left_after : itemAt (absorbStack g t).entities t.2 = some { m.dropItem with stack := m.merged.2 } ∧
    removedAt (absorbStack g t).entities t.2 = (m.dropEntity.removed || m.merged.2.isEmpty) := by
  have hget := m.get?_after t.2
  rw [if_pos rfl] at hget
  exact ⟨itemAt_eq_some.mpr ⟨_, hget, m.left_spec.1⟩, (removedAt_eq hget).trans m.left_spec.2⟩

theorem other_after (m : Meeting g t) {id : Nat} (hkeep : t.1 ≠ id) (hdrop : t.2 ≠ id) :
    itemAt (absorbStack g t).entities id = itemAt g.entities id ∧
    removedAt (absorbStack g t).entities id = removedAt g.entities id := by
  have hget := m.get?_after id
  rw [if_neg hdrop, if_neg hkeep] at hget
  exact ⟨by rw [itemAt, hget, itemAt], by rw [removedAt, hget, removedAt]⟩

theorem merged_amount (k : Key) :
    m.merged.1.amount k + m.merged.2.amount k = m.keepItem.stack.amount k + m.dropItem.stack.amount k :=
  ItemStack.merge_amount ..

/-- What the merge does to the count of what is there. -/
theorem visible_after (k : Key) :
    visible k (absorbStack g t) +
        ((if m.keepEntity.removed then 0 else m.keepItem.stack.amount k) +
          if m.dropEntity.removed then 0 else m.dropItem.stack.amount k) =
      visible k g + ((if m.keepEntity.removed then 0 else m.merged.1.amount k) +
        if m.dropEntity.removed then 0 else m.merged.2.amount k) := by
  have hkept := OrdMap.tally_insert (shown k) g.entities t.1 m.keptEntity
  have hleft := OrdMap.tally_insert (shown k) (g.entities.insert t.1 m.keptEntity) t.2 m.leftEntity
  rw [m.keep_get, Option.elim_some, shown_item m.keep_item, shown_item rfl] at hkept
  rw [OrdMap.get?_insert, if_neg m.different, m.drop_get, Option.elim_some, shown_item m.drop_item,
    shown_item m.left_spec.1, m.left_spec.2] at hleft
  have hshown : (if m.dropEntity.removed || m.merged.2.isEmpty then 0 else m.merged.2.amount k) =
      if m.dropEntity.removed then 0 else m.merged.2.amount k := by
    cases hremoved : m.dropEntity.removed with
    | true => rfl
    | false =>
      by_cases hempty : m.merged.2.isEmpty
      · simp [hempty, ItemStack.amount_of_isEmpty k hempty]
      · simp [hempty]
  rw [m.absorbStack_eq]
  unfold visible
  dsimp only at hkept hleft ⊢
  rw [hshown] at hleft
  rw [removed_kept] at hkept
  omega

theorem moves_iff (m : Meeting g t) : Moves g t ↔ m.keepItem.stack.isEmpty ∨
    m.keepItem.stack.sameItem m.dropItem.stack ∧ m.keepItem.stack.count < maxStack g m.keepItem.stack.itemId? := by
  have hkeep : itemAt g.entities t.1 = some m.keepItem := itemAt_eq_some.mpr ⟨_, m.keep_get, m.keep_item⟩
  have hdrop : itemAt g.entities t.2 = some m.dropItem := itemAt_eq_some.mpr ⟨_, m.drop_get, m.drop_item⟩
  constructor
  · intro ⟨keepItem, dropItem, hkeep', hdrop', _, hmoves⟩
    obtain rfl := Option.some.inj (hkeep.symm.trans hkeep')
    obtain rfl := Option.some.inj (hdrop.symm.trans hdrop')
    exact hmoves
  · intro hmoves
    exact ⟨_, _, hkeep, hdrop, m.held, hmoves⟩

/-- A merge that moves nothing changes nothing that is seen. -/
theorem still (m : Meeting g t) (h : ¬ Moves g t) : m.merged = (m.keepItem.stack, m.dropItem.stack) := by
  have hmerge := @merge_moves m.keepItem.stack _ _ (maxStack_bounds g m.keepItem.stack.itemId?) m.held
  rwa [if_neg (mt m.moves_iff.mpr h)] at hmerge

/-- A merge that moves something takes items of the younger stack's identity. -/
theorem taken (m : Meeting g t) (h : Moves g t) :
    m.merged.2.amount (m.dropItem.stack.itemId, m.dropItem.stack.components) <
      m.dropItem.stack.amount (m.dropItem.stack.itemId, m.dropItem.stack.components) := by
  have hmerge := @merge_moves m.keepItem.stack _ _ (maxStack_bounds g m.keepItem.stack.itemId?) m.held
  rw [if_pos (m.moves_iff.mp h)] at hmerge
  rw [ItemStack.amount_self]
  exact (ItemStack.amount_le_count ..).trans_lt hmerge

end Meeting

/-- Without two stacks to merge nothing happens. -/
theorem absorbStack_none {g : Game P} {t : Nat × Nat} (hne : t.1 ≠ t.2) (h : ¬ Nonempty (Meeting g t)) :
    absorbStack g t = g ∧ ¬ Moves g t := by
  constructor
  · unfold absorbStack
    dsimp only
    split
    · rfl
    next dropItem hdrop =>
    split
    · rfl
    next hheld =>
    split
    · rfl
    next keepEntity hkeep =>
    split
    · rfl
    next keepItem hkeepItem =>
    obtain ⟨dropEntity, hdropGet, hdropItem⟩ := itemAt_eq_some.mp hdrop
    exact absurd ⟨⟨keepEntity, dropEntity, keepItem, dropItem, hne, hkeep, hdropGet, hkeepItem, hdropItem, hheld⟩⟩ h
  · intro ⟨keepItem, dropItem, hkeep, hdrop, hheld, _⟩
    obtain ⟨keepEntity, hkeepGet, hkeepItem⟩ := itemAt_eq_some.mp hkeep
    obtain ⟨dropEntity, hdropGet, hdropItem⟩ := itemAt_eq_some.mp hdrop
    exact h ⟨⟨keepEntity, dropEntity, keepItem, dropItem, hne, hkeepGet, hdropGet, hkeepItem, hdropItem, hheld⟩⟩

/-- A merge loses nothing and removes only what it empties exactly when it is between entities that
are both there, or were both removed before the pass. -/
theorem absorbStack_iff {g₀ g : Game P} {t : Nat × Nat} (hne : t.1 ≠ t.2) (hempty : EndedEmpty g₀ g) :
    ((∀ k, visible k (absorbStack g t) = visible k g) ∧ EndedEmpty g₀ (absorbStack g t)) ↔ Apart g₀ g t := by
  by_cases hmeet : Nonempty (Meeting g t)
  swap
  · obtain ⟨hself, hstill⟩ := absorbStack_none hne hmeet
    rw [hself]
    exact ⟨fun _ hmoves => absurd hmoves hstill, fun _ => ⟨fun _ => rfl, hempty⟩⟩
  obtain ⟨m⟩ := hmeet
  have hkeepItem : itemAt g.entities t.1 = some m.keepItem := itemAt_eq_some.mpr ⟨_, m.keep_get, m.keep_item⟩
  have hdropItem : itemAt g.entities t.2 = some m.dropItem := itemAt_eq_some.mpr ⟨_, m.drop_get, m.drop_item⟩
  have hkeepRemoved := removedAt_eq m.keep_get
  have hdropRemoved := removedAt_eq m.drop_get
  by_cases hmoves : Moves g t
  · have htaken := m.taken hmoves
    have hmerged := m.merged_amount
    constructor
    · intro ⟨hvisible, hended⟩ _
      have hsame : m.keepEntity.removed = m.dropEntity.removed := by
        have hafter := m.visible_after (m.dropItem.stack.itemId, m.dropItem.stack.components)
        have hmerged := hmerged (m.dropItem.stack.itemId, m.dropItem.stack.components)
        rw [hvisible] at hafter
        cases hkeep : m.keepEntity.removed <;> cases hdrop : m.dropEntity.removed <;>
          simp only [hkeep, hdrop, Bool.false_eq_true, if_true, if_false] at hafter ⊢ <;> omega
      refine ⟨by rw [hkeepRemoved, hdropRemoved, hsame], fun hremoved => ?_⟩
      obtain ⟨hitem, hremoved'⟩ := m.kept_after
      refine (hended t.1 _ hitem (by rw [hremoved', ← hkeepRemoved]; exact hremoved)).resolve_left fun hnone => ?_
      have hzero := ItemStack.amount_of_isEmpty (m.dropItem.stack.itemId, m.dropItem.stack.components) hnone
      have hmerged := hmerged (m.dropItem.stack.itemId, m.dropItem.stack.components)
      dsimp only at hzero
      omega
    · intro hapart
      obtain ⟨hsame, hbefore⟩ := hapart hmoves
      rw [hkeepRemoved, hdropRemoved] at hsame
      constructor
      · intro k
        have hafter := m.visible_after k
        have hmerged := hmerged k
        rw [hsame] at hafter
        split at hafter <;> omega
      · intro id item hitem hremoved
        by_cases hdrop : t.2 = id
        · subst hdrop
          obtain ⟨hitem', hremoved'⟩ := m.left_after
          obtain rfl := Option.some.inj (hitem'.symm.trans hitem)
          rw [hremoved', Bool.or_eq_true] at hremoved
          rcases hremoved with hremoved | hempty'
          · exact .inr ((hempty t.2 _ hdropItem (hdropRemoved.trans hremoved)).resolve_left m.held)
          · exact .inl hempty'
        by_cases hkeep : t.1 = id
        · subst hkeep
          rw [m.kept_after.2, ← hkeepRemoved] at hremoved
          exact .inr (hbefore hremoved)
        · obtain ⟨hitem', hremoved'⟩ := m.other_after hkeep hdrop
          rw [hitem'] at hitem
          rw [hremoved'] at hremoved
          exact hempty id item hitem hremoved
  · have hstill := m.still hmoves
    refine ⟨fun _ h => absurd h hmoves, fun _ => ⟨fun k => ?_, fun id item hitem hremoved => ?_⟩⟩
    · have hafter := m.visible_after k
      rw [hstill] at hafter
      dsimp only at hafter
      omega
    · by_cases hdrop : t.2 = id
      · subst hdrop
        obtain ⟨hitem', hremoved'⟩ := m.left_after
        have hheld : m.merged.2.isEmpty = false := by
          rw [hstill]
          exact Bool.eq_false_iff.mpr m.held
        rw [hremoved', hheld, Bool.or_false] at hremoved
        exact .inr ((hempty t.2 _ hdropItem (hdropRemoved.trans hremoved)).resolve_left m.held)
      by_cases hkeep : t.1 = id
      · subst hkeep
        obtain ⟨hitem', hremoved'⟩ := m.kept_after
        rw [hstill] at hitem'
        obtain rfl := Option.some.inj (hitem'.symm.trans hitem)
        rw [hremoved', ← hkeepRemoved] at hremoved
        exact hempty t.1 _ hkeepItem hremoved
      · obtain ⟨hitem', hremoved'⟩ := m.other_after hkeep hdrop
        rw [hitem'] at hitem
        rw [hremoved'] at hremoved
        exact hempty id item hitem hremoved

/-! ## Which pickups make nothing -/

/-- Nothing is taken from an entity that is marked removed. -/
def LeftAlone (g : Game P) (c : Nat × Nat) : Prop :=
  ∀ item session, itemAt g.entities c.1 = some item → g.sessions.get? c.2 = some session →
    removedAt g.entities c.1 → ∀ k, (session.inventory.addStack item.stack).2.amount k = item.stack.amount k

/-- The player's inventory has room for the whole stack. -/
def TakenWhole (g : Game P) (c : Nat × Nat) : Prop :=
  ∃ item session, itemAt g.entities c.1 = some item ∧ g.sessions.get? c.2 = some session ∧
    (session.inventory.addStack item.stack).2.isEmpty

/-- A pickup marks an entity removed only when its whole stack is taken. -/
theorem pickUp_removes {g : Game P} {c : Nat × Nat} {id : Nat} (h : removedAt (pickUp g c).entities id) :
    removedAt g.entities id ∨ (c.1 = id ∧ TakenWhole g c) := by
  unfold pickUp at h
  split at h
  · exact .inl h
  next entity hentity =>
  split at h
  · exact .inl h
  next item hitem =>
  split at h
  · exact .inl h
  next session hsession =>
  dsimp only at h
  unfold removedAt at h
  rw [OrdMap.get?_insert] at h
  by_cases heq : c.1 = id
  · subst heq
    rw [if_pos rfl] at h
    split at h
    · next hempty => exact .inr ⟨rfl, item, session, itemAt_eq_some.mpr ⟨_, hentity, hitem⟩, hsession, hempty⟩
    · exact .inl ((removedAt_eq hentity).trans h)
  · rw [if_neg heq] at h
    exact .inl h

/-- A pickup moves items to the player, and makes some only when the entity was removed before. -/
theorem pickUp_iff (g : Game P) (c : Nat × Nat) :
    (∀ k, visible k (pickUp g c) = visible k g) ↔ LeftAlone g c := by
  by_cases hnone : ∃ entity item session, g.entities.get? c.1 = some entity ∧ entity.item? = some item ∧
      g.sessions.get? c.2 = some session
  swap
  · have hself : pickUp g c = g := by
      unfold pickUp
      split
      · rfl
      next entity hentity =>
      split
      · rfl
      next item hitem =>
      split
      · rfl
      next session hsession => exact absurd ⟨entity, item, session, hentity, hitem, hsession⟩ hnone
    refine ⟨fun _ item session hitem hsession => ?_, fun _ k => by rw [hself]⟩
    obtain ⟨entity, hentity, hitem⟩ := itemAt_eq_some.mp hitem
    exact absurd ⟨entity, item, session, hentity, hitem, hsession⟩ hnone
  obtain ⟨entity, item, session, hentity, hitem, hsession⟩ := hnone
  have hitemAt : itemAt g.entities c.1 = some item := itemAt_eq_some.mpr ⟨_, hentity, hitem⟩
  have hremoved := removedAt_eq hentity
  have hbalance (k : Key) : visible k (pickUp g c) + (if entity.removed then 0 else item.stack.amount k) +
      (session.inventory.addStack item.stack).2.amount k =
      visible k g + item.stack.amount k +
        if entity.removed then 0 else (session.inventory.addStack item.stack).2.amount k := by
    have hsessions := OrdMap.tally_insert (fun e => e.2.inventory.amount k) g.sessions c.2
      { session with inventory := (session.inventory.addStack item.stack).1 }
    have hadded := PlayerInventory.addStack_amount k session.inventory item.stack
    have hentities := OrdMap.tally_insert (shown k) g.entities c.1
      (if (session.inventory.addStack item.stack).2.isEmpty then entity.remove
        else entity.setItem { item with stack := (session.inventory.addStack item.stack).2 })
    rw [hsession, Option.elim_some] at hsessions
    rw [hentity, Option.elim_some, shown_item hitem] at hentities
    have hwritten : shown k (c.1, if (session.inventory.addStack item.stack).2.isEmpty then entity.remove
        else entity.setItem { item with stack := (session.inventory.addStack item.stack).2 }) =
        if entity.removed then 0 else (session.inventory.addStack item.stack).2.amount k := by
      split
      · next hempty =>
        rw [ItemStack.amount_of_isEmpty k hempty, ite_self]
        rfl
      · rfl
    rw [hwritten] at hentities
    unfold pickUp visible
    simp only [hentity, hitem, hsession] at hsessions ⊢
    dsimp only at hentities
    omega
  constructor
  · intro hvisible item' session' hitem' hsession' hgone k
    obtain rfl := Option.some.inj (hitemAt.symm.trans hitem')
    obtain rfl := Option.some.inj (hsession.symm.trans hsession')
    have hbalance := hbalance k
    rw [hvisible, if_pos (hremoved ▸ hgone), if_pos (hremoved ▸ hgone)] at hbalance
    omega
  · intro halone k
    have hbalance := hbalance k
    by_cases hgone : entity.removed
    · have halone := halone item session hitemAt hsession (hremoved.trans hgone) k
      rw [if_pos hgone, if_pos hgone] at hbalance
      omega
    · rw [if_neg hgone, if_neg hgone] at hbalance
      omega

/-! ## Both passes -/

theorem groundItems_ids (s : EntityStore P) : (groundItems s).Pairwise fun a b => a.id ≠ b.id := by
  refine List.Pairwise.filterMap _ (fun e e' hne item hitem item' hitem' => ?_) s.sorted
  obtain ⟨_, -, rfl⟩ := Option.map_eq_some_iff.mp hitem
  obtain ⟨_, -, rfl⟩ := Option.map_eq_some_iff.mp hitem'
  exact hne.ne

theorem stackMerges_ne {s : EntityStore P} {t : Nat × Nat} (h : t ∈ stackMerges near s) : t.1 ≠ t.2 := by
  obtain ⟨⟨first, second⟩, hmem, hmerge⟩ := List.mem_filterMap.mp h
  have hne : first.id ≠ second.id := ne_of_mem_pairs GroundItem.id (groundItems_ids s) hmem
  dsimp only at hmerge
  split at hmerge
  · exact nomatch hmerge
  split at hmerge
  · exact nomatch hmerge
  cases hmerge
  unfold olderYounger
  split
  · exact hne
  · exact hne.symm

/-- No merge and no pickup is between an entity that is there and one that was removed. -/
def Sound (g : Game P) : Prop :=
  Along absorbStack (Apart g) g (stackMerges near g.entities) ∧
  Along pickUp LeftAlone (mergeGroundStacks near g) (pickups distance reaches (mergeGroundStacks near g))

/-- Every merge and every pickup leaves the counts as they were, and a merge removes what it empties. -/
def Stepwise (g : Game P) : Prop :=
  Along absorbStack (fun g' t => (∀ k, visible k (absorbStack g' t) = visible k g') ∧ EndedEmpty g (absorbStack g' t))
    g (stackMerges near g.entities) ∧
  Along pickUp (fun g' c => ∀ k, visible k (pickUp g' c) = visible k g') (mergeGroundStacks near g)
    (pickups distance reaches (mergeGroundStacks near g))

/-- The counts after both passes are those before. What the first pass removes ends empty, and the
second removes only what a player takes whole. -/
structure NothingLost (g : Game P) : Prop where
  counts : ∀ k, visible k (collectItems distance reaches (mergeGroundStacks near g)) = visible k g
  merged : EndedEmpty g (mergeGroundStacks near g)
  pickedUp : Along pickUp
    (fun g' c => ∀ id, removedAt (pickUp g' c).entities id →
      removedAt g'.entities id ∨ (c.1 = id ∧ TakenWhole g' c))
    (mergeGroundStacks near g) (pickups distance reaches (mergeGroundStacks near g))

theorem stepwise_iff (g : Game P) : Stepwise near distance reaches g ↔ Sound near distance reaches g := by
  refine and_congr ?_ (along_congr pickUp_iff _ _)
  have hstep (g' : Game P) (t : Nat × Nat) (hne : t.1 ≠ t.2) (hinv : EndedEmpty g g') (hapart : Apart g g' t) :
      EndedEmpty g (absorbStack g' t) := ((absorbStack_iff hne hinv).mpr hapart).2
  exact along_iff_on hstep (fun g' t hne hinv => absorbStack_iff hne hinv) (fun t ht => stackMerges_ne near ht)
    fun _ _ _ h => .inr h

theorem nothingLost_of_stepwise {g : Game P} (h : Stepwise near distance reaches g) :
    NothingLost near distance reaches g := by
  have hmerged : ∀ k, visible k (mergeGroundStacks near g) = visible k g := fun k => by
    rw [mergeGroundStacks_run]
    exact run_of_along (R := fun g' => visible k g' = visible k g) rfl
      (along_mono (fun _ _ hstep hsame => (hstep.1 k).trans hsame) h.1)
  refine ⟨fun k => ?_, ?_, along_of_all (fun _ _ _ => pickUp_removes) _ _⟩
  · rw [collectItems_run]
    exact run_of_along (R := fun g' => visible k g' = visible k g) (hmerged k)
      (along_mono (fun _ _ hstep hsame => (hstep k).trans hsame) h.2)
  · rw [mergeGroundStacks_run]
    exact run_of_along (R := EndedEmpty g) (fun _ _ _ h => .inr h) (along_mono (fun _ _ hstep _ => hstep.2) h.1)

/-- Nothing is lost when no merge or pickup is between an entity that is there and one that was
removed, and these are the merges and pickups that change no count. -/
theorem ground_items_iff (g : Game P) :
    (Stepwise near distance reaches g ↔ Sound near distance reaches g) ∧
    (Sound near distance reaches g → NothingLost near distance reaches g) :=
  ⟨stepwise_iff near distance reaches g,
    fun h => nothingLost_of_stepwise near distance reaches ((stepwise_iff near distance reaches g).mpr h)⟩

/-- One item of a kind on the ground. -/
def lying (age : Nat) : Entity Unit :=
  ⟨.item ⟨ItemStack.ofParts 1 1 [] ItemStack.one_legal, 0⟩, (), age, false⟩

/-- Three stacks in one place, the second the oldest. -/
def threeStacks : Game Unit :=
  ⟨⟨[(1, lying 1), (2, lying 2), (3, lying 0)], by simp [Ascending]⟩, OrdMap.empty⟩

/-- The second takes the first, which then takes the third with it. -/
theorem threeStacks_lost :
    ¬ ∀ (P : Type) (near : P → P → Bool) (distance : P → P → Nat) (reaches : P → P → Bool) (g : Game P),
      (∀ a b, near a b = near b a) → NothingLost near distance reaches g := by
  intro h
  have hlost := (h Unit (fun _ _ => true) (fun _ _ => 0) (fun _ _ => true) threeStacks fun _ _ => rfl).counts (1, [])
  exact absurd hlost (by decide)

end Apoptosis.L2.Entities
