import Apoptosis.L2Items.Container
import Apoptosis.L2Items.Click
/-!
# The menu (`container/src/menu.rs`)

A menu owns its containers, shows each menu slot through a mapping, and holds
the cursor. The checks of `Menu::new` are fields, so every menu here is one it
accepts. A handler returns its result beside the menu it leaves, because the
menu survives an error.
-/
namespace Apoptosis.L2

/-! ## Mappings and layout -/

/-- mirrors crates/container/src/menu.rs:42-51 (`SlotMapping`) -/
structure SlotMapping where
  container : Nat
  slot : Nat
  role : SlotRole
  maxStack : Nat
  deriving DecidableEq, Repr

namespace SlotMapping
/-- mirrors crates/container/src/menu.rs:56-63 (`SlotMapping::storage`) -/
def storage (container slot : Nat) : SlotMapping :=
  ⟨container, slot, .storage, DEFAULT_MAX_STACK_SIZE⟩

/-- mirrors crates/container/src/menu.rs:67-74 (`SlotMapping::with_role`) -/
def withRole (container slot : Nat) (role : SlotRole) : SlotMapping :=
  ⟨container, slot, role, DEFAULT_MAX_STACK_SIZE⟩

/-- mirrors crates/container/src/menu.rs:89-97 (`may_place`, `may_pickup`) -/
def mayPlace (p : SlotMapping) : Bool := p.role.mayPlace

def mayPickup (p : SlotMapping) : Bool := p.role.mayPickup

/-- The container slot a mapping shows. -/
def place (p : SlotMapping) : Nat × Nat := (p.container, p.slot)

/-- The container slot exists. -/
def Fits (containers : List Container) (p : SlotMapping) : Prop :=
  ∃ c, containers[p.container]? = some c ∧ p.slot < c.slots.length
end SlotMapping

/-- mirrors crates/container/src/menu.rs:102-107 (`SlotRange`) -/
structure SlotRange where
  start : Nat
  stop : Nat
  deriving DecidableEq, Repr

/-- mirrors crates/container/src/menu.rs:118-120 (`SlotRange::contains`) -/
def SlotRange.contains (r : SlotRange) (slot : Nat) : Bool := r.start ≤ slot && slot < r.stop

/-- `range.start..range.end` -/
def SlotRange.toList (r : SlotRange) : List Nat := List.range' r.start (r.stop - r.start)

/-- mirrors crates/container/src/menu.rs:141-153 (`MenuLayout`) -/
structure MenuLayout where
  groups : List SlotRange
  playerContainer : Nat
  deriving DecidableEq, Repr

namespace MenuLayout
/-- mirrors crates/container/src/menu.rs:167-169 (`MenuLayout::group_of`) -/
def groupOf (l : MenuLayout) (slot : Nat) : Option Nat := l.groups.findIdx? (·.contains slot)

/-- mirrors crates/container/src/menu.rs:177-185 (`MenuLayout::transfer_order`) -/
def transferOrder (l : MenuLayout) (slot : Nat) : List SlotRange :=
  match l.groupOf slot with
  | none => l.groups
  | some start => (List.range' 1 (l.groups.length - 1)).filterMap fun offset =>
      l.groups[(start + offset) % l.groups.length]?

/-- mirrors crates/container/src/menu.rs:190-201 (`MenuLayout::container_and_player`) -/
def containerAndPlayer (containerSlots : Nat) : MenuLayout :=
  ⟨[⟨0, containerSlots⟩, ⟨containerSlots, containerSlots + 27⟩,
    ⟨containerSlots + 27, containerSlots + 36⟩], 1⟩
end MenuLayout

/-! ## The menu -/

/-- mirrors crates/container/src/menu.rs:215-224 (`ClickOutcome`) -/
structure ClickOutcome where
  changedSlots : Finset Nat
  cursorChanged : Bool
  fullResync : Bool
  dropped : List ItemStack
  deriving DecidableEq

/-- `ClickOutcome::default()` -/
def ClickOutcome.default : ClickOutcome := ⟨∅, false, false, []⟩

/-- mirrors crates/container/src/menu.rs:248-261 (`Menu`), with the checks of `Menu::new` -/
structure Menu where
  windowId : Nat
  stateId : BitVec 32
  containers : List Container
  slots : List SlotMapping
  layout : MenuLayout
  cursor : ItemStack
  stackSizes : StackSizeTable
  creative : Bool
  dragSlots : List Nat
  dragType : Option DragType
  slotCount : 0 < slots.length ∧ slots.length ≤ MAX_MENU_SLOTS
  mapped : ∀ p ∈ slots, p.Fits containers ∧ 1 ≤ p.maxStack ∧ p.maxStack ≤ HARD_MAX_STACK_SIZE

/-- The checks of `Menu::new` on one mapping. -/
def checkMapping (containers : List Container) (index : Nat) (mapping : SlotMapping) :
    ServerResult Unit :=
  match containers[mapping.container]? with
  | none => .error (.invariant
      s!"menu slot {index} points at container {mapping.container}, which does not exist")
  | some container =>
    if mapping.slot ≥ container.slots.length then
      .error (.invariant
        s!"menu slot {index} points at slot {mapping.slot} of a {container.slots.length}-slot container")
    else if mapping.maxStack < 1 ∨ mapping.maxStack > HARD_MAX_STACK_SIZE then
      .error (.invariant s!"menu slot {index} has an impossible limit of {mapping.maxStack}")
    else .ok ()

def checkMappings (containers : List Container) : Nat → List SlotMapping → ServerResult Unit
  | _, [] => .ok ()
  | index, mapping :: rest => do
    checkMapping containers index mapping
    checkMappings containers (index + 1) rest

theorem checkMapping_ok {containers : List Container} {index : Nat} {p : SlotMapping}
    (h : checkMapping containers index p = .ok ()) :
    p.Fits containers ∧ 1 ≤ p.maxStack ∧ p.maxStack ≤ HARD_MAX_STACK_SIZE := by
  unfold checkMapping at h
  split at h
  · cases h
  · next c hc =>
    split at h
    · cases h
    · next hslot =>
      split at h
      · cases h
      · next hmax => exact ⟨⟨c, hc, by omega⟩, by omega, by omega⟩

theorem checkMappings_ok {containers : List Container} : ∀ {index : Nat} {slots : List SlotMapping},
    checkMappings containers index slots = .ok () → ∀ p ∈ slots,
      p.Fits containers ∧ 1 ≤ p.maxStack ∧ p.maxStack ≤ HARD_MAX_STACK_SIZE
  | index, q :: rest, h, p, hp => by
    rw [checkMappings] at h
    cases hq : checkMapping containers index q with
    | error e => rw [hq] at h; cases h
    | ok u =>
      rw [hq] at h
      rcases List.mem_cons.mp hp with rfl | hp
      · exact checkMapping_ok hq
      · exact checkMappings_ok h p hp

namespace Menu

/-- mirrors crates/container/src/menu.rs:272-318 (`Menu::new`) -/
def new (windowId : Nat) (containers : List Container) (slots : List SlotMapping)
    (layout : MenuLayout) (stackSizes : StackSizeTable) : ServerResult Menu :=
  if hlen : slots.length = 0 ∨ slots.length > MAX_MENU_SLOTS then
    .error (.invariant s!"menu with {slots.length} slots is outside 1..={MAX_MENU_SLOTS}")
  else
    match h : checkMappings containers 0 slots with
    | .error e => .error e
    | .ok () => .ok {
        windowId, stateId := 0, containers, slots, layout, cursor := ItemStack.EMPTY, stackSizes,
        creative := false, dragSlots := [], dragType := none
        slotCount := by omega
        mapped := checkMappings_ok h }

/-! ## Reading -/

/-- The stack in the container slot a mapping shows. -/
def held (m : Menu) (p : SlotMapping) : ItemStack :=
  match m.containers[p.container]? with
  | some c => c.get p.slot
  | none => ItemStack.EMPTY

/-- mirrors crates/container/src/menu.rs:772-777 (`Menu::display_stack`) -/
def displayStack (m : Menu) (index : Nat) : ItemStack :=
  match m.slots[index]? with
  | some p => m.held p
  | none => ItemStack.EMPTY

/-- mirrors crates/container/src/menu.rs:781-786 (`Menu::item_limit`) -/
def itemLimit (m : Menu) (stack : ItemStack) : Nat :=
  if stack.itemId = AIR_ITEM_ID then 0 else m.stackSizes.maxStackSize stack.itemId

/-- mirrors crates/container/src/menu.rs:791-796 (`Menu::slot_limit`) -/
def slotLimit (m : Menu) (index : Nat) (stack : ItemStack) : Nat :=
  match m.slots[index]? with
  | some p => min (m.itemLimit stack) p.maxStack
  | none => 0

/-- mirrors crates/container/src/menu.rs:960-964 (`Menu::mapping_of`) -/
def mappingOf (m : Menu) (index : Nat) : ServerResult SlotMapping :=
  match m.slots[index]? with
  | some p => .ok p
  | none => .error (.invalidAction s!"slot {index} does not exist in this menu")

/-! ## Writing -/

theorem fits_modify {containers : List Container} {i : Nat} {f : Container → Container}
    (hf : ∀ c, (f c).slots.length = c.slots.length) {p : SlotMapping}
    (h : p.Fits containers) : p.Fits (containers.modify i f) := by
  obtain ⟨c, hc, hslot⟩ := h
  by_cases hi : i = p.container
  · exact ⟨f c, by simp [hi, hc], by rw [hf]; exact hslot⟩
  · exact ⟨c, by simp [hi, hc], hslot⟩

/-- `self.containers[i].set(slot, stack)`, for a slot that exists -/
def putContainer (m : Menu) (container slot : Nat) (stack : ItemStack) : Menu :=
  { m with
    containers := m.containers.modify container (·.put slot stack)
    mapped := fun p hp =>
      ⟨fits_modify (fun c => c.put_length slot stack) (m.mapped p hp).1, (m.mapped p hp).2⟩ }

/-- mirrors crates/container/src/menu.rs:818-833 (`Menu::set_slot`); a mapped slot exists, so
its write succeeds -/
def setSlot (m : Menu) (index : Nat) (stack : ItemStack) : ServerResult Menu :=
  match m.slots[index]? with
  | none => .error (.invalidAction s!"menu slot {index} does not exist")
  | some p => do
    let limit := m.slotLimit index stack
    let stack ← if stack.isEmpty ∨ stack.count ≤ limit then .ok stack
      else ItemStack.withComponents stack.itemId limit stack.components
    return m.putContainer p.container p.slot stack

/-- `let _ = self.set_slot(index, stack)` -/
def trySetSlot (m : Menu) (index : Nat) (stack : ItemStack) : Menu :=
  match m.setSlot index stack with
  | .ok m => m
  | .error _ => m

/-- mirrors crates/container/src/menu.rs:837-843 (`Menu::set_cursor`) -/
def setCursor (m : Menu) (stack : ItemStack) : Menu :=
  let limit := m.itemLimit stack
  { m with cursor :=
      if !stack.isEmpty && stack.count > limit then stack.shrink (stack.count - limit) else stack }

/-- mirrors crates/container/src/menu.rs:850-863 (`Menu::return_to_cursor`) -/
def returnToCursor (m : Menu) (stack : ItemStack) : ItemStack × Menu :=
  if stack.isEmpty then (ItemStack.EMPTY, m)
  else
    let merged := m.cursor.mergeCapped stack (m.itemLimit stack)
    (if merged.2.count > 0 then merged.2 else ItemStack.EMPTY, { m with cursor := merged.1 })

/-- mirrors crates/container/src/menu.rs:868-876 (`Menu::extract`) -/
def extract (m : Menu) (index count : Nat) : ItemStack × Menu :=
  let (taken, stack) := (m.displayStack index).split count
  if taken.isEmpty then (taken, m) else (taken, m.trySetSlot index stack)

/-- mirrors crates/container/src/menu.rs:883-923 (`Menu::insert`): what did not fit -/
def insert (m : Menu) (index : Nat) (stack : ItemStack) : ItemStack × Menu :=
  if stack.isEmpty then (ItemStack.EMPTY, m)
  else
    match m.slots[index]? with
    | none => (stack, m)
    | some p =>
      let existing := m.displayStack index
      let limit := m.slotLimit index stack
      if !p.mayPlace then (stack, m)
      else if !existing.isEmpty && !existing.sameItem stack then (stack, m)
      else if existing.isEmpty then
        if stack.count > limit then
          let (overflow, placed) := stack.split (stack.count - limit)
          (overflow, m.trySetSlot index placed)
        else (ItemStack.EMPTY, m.trySetSlot index stack)
      else
        let (merged, incoming) := existing.mergeCapped stack limit
        let m := if merged.partialEq existing then m else m.trySetSlot index merged
        (if incoming.count > 0 then incoming else ItemStack.EMPTY, m)

/-- mirrors crates/container/src/menu.rs:694-696 (`Menu::bump_state`) -/
def bumpState (m : Menu) : Menu := { m with stateId := m.stateId + 1 }

/-- mirrors crates/container/src/menu.rs:324-326 (`Menu::set_creative`) -/
def setCreative (m : Menu) (creative : Bool) : Menu := { m with creative }

/-- `self.cursor.split(count)`: the part taken off -/
def splitCursor (m : Menu) (count : Nat) : ItemStack × Menu :=
  ((m.cursor.split count).1, { m with cursor := (m.cursor.split count).2 })

/-! ## Click handlers -/

/-- What a handler returns, and the menu it leaves. -/
abbrev Handled := ServerResult ClickOutcome × Menu

/-- The block every placing handler repeats: `count` items of the cursor go into the slot, what
does not fit goes back on the cursor, and what does not fit there is dropped. -/
def place (m : Menu) (index count : Nat) : List ItemStack × Menu :=
  let (offered, m) := m.splitCursor count
  let (overflow, m) := m.insert index offered
  if overflow.isEmpty then ([], m)
  else
    let (leftover, m) := m.returnToCursor overflow
    (if leftover.isEmpty then [] else [leftover], m)

/-- Drop `count` items off the cursor. -/
def dropCursor (m : Menu) (count : Nat) : Handled :=
  let (dropped, m) := m.splitCursor count
  if dropped.isEmpty then (.ok ClickOutcome.default, m)
  else (.ok { ClickOutcome.default with dropped := [dropped], cursorChanged := true }, m)

/-- mirrors crates/container/src/menu.rs:1017-1112 (`Menu::click_pickup`) -/
def clickPickup (m : Menu) (click : Click) : Handled :=
  match click.slotIndex with
  | none =>
    if m.cursor.isEmpty then (.ok ClickOutcome.default, m)
    else m.dropCursor (if click.secondary then 1 else m.cursor.count)
  | some index =>
    match m.mappingOf index with
    | .error e => (.error e, m)
    | .ok mapping =>
      let slotStack := m.displayStack index
      if m.cursor.isEmpty then
        if !mapping.mayPickup || slotStack.isEmpty then (.ok ClickOutcome.default, m)
        else
          let count := if click.secondary then (slotStack.count + 1) / 2 else slotStack.count
          let (taken, m) := m.extract index count
          if taken.isEmpty then (.ok ClickOutcome.default, m)
          else (.ok { ClickOutcome.default with cursorChanged := true, changedSlots := {index} },
            m.setCursor taken)
      else if !mapping.mayPlace then (.ok ClickOutcome.default, m)
      else if slotStack.isEmpty then
        let (dropped, m) := m.place index (if click.secondary then 1 else m.cursor.count)
        let changedSlots := if (m.displayStack index).partialEq slotStack then ∅ else {index}
        (.ok { ClickOutcome.default with changedSlots, cursorChanged := true, dropped }, m)
      else if !slotStack.sameItem m.cursor then
        if click.secondary then (.ok ClickOutcome.default, m)
        else
          match m.setSlot index m.cursor with
          | .error e => (.error e, m)
          | .ok m =>
            (.ok { ClickOutcome.default with changedSlots := {index}, cursorChanged := true },
              m.setCursor slotStack)
      else
        let room := m.slotLimit index slotStack - slotStack.count
        if room = 0 then (.ok ClickOutcome.default, m)
        else
          let (dropped, m) := m.place index (if click.secondary then min 1 room else room)
          (.ok { ClickOutcome.default with
            changedSlots := {index}, cursorChanged := true, dropped }, m)

/-- The two nested loops of `click_quick_move`, over the slots of the ranges in order. -/
def moveThrough (index : Nat) : List Nat → ItemStack → Finset Nat → Menu →
    ItemStack × Finset Nat × Menu
  | [], remaining, changed, m => (remaining, changed, m)
  | target :: targets, remaining, changed, m =>
    if remaining.isEmpty then (remaining, changed, m)
    else if target = index then moveThrough index targets remaining changed m
    else
      let (remaining, m) := m.insert target remaining
      let changed := if (m.displayStack target).partialEq ItemStack.EMPTY then changed
        else Insert.insert target changed
      moveThrough index targets remaining changed m

/-- mirrors crates/container/src/menu.rs:1118-1156 (`Menu::click_quick_move`) -/
def clickQuickMove (m : Menu) (click : Click) : Handled :=
  match click.slotIndex with
  | none => (.ok ClickOutcome.default, m)
  | some index =>
    match m.mappingOf index with
    | .error e => (.error e, m)
    | .ok mapping =>
      let stack := m.displayStack index
      if stack.isEmpty || !mapping.mayPickup then (.ok ClickOutcome.default, m)
      else
        let (remaining, m) := m.extract index stack.count
        let targets := (m.layout.transferOrder index).flatMap SlotRange.toList
        let (remaining, changed, m) := moveThrough index targets remaining ∅ m
        let (leftover, m) := m.insert index remaining
        if leftover.isEmpty then
          (.ok { ClickOutcome.default with changedSlots := Insert.insert index changed }, m)
        else (.error (.invariant
          s!"a shift-click could not return {leftover.count} leftover items to its source slot"), m)

/-- mirrors crates/container/src/menu.rs:1448-1466 (`Menu::swap_partner`) -/
def swapPartner (m : Menu) : SwapTarget → Option Nat
  | .hotbar hotbar => m.slots.findIdx? fun p =>
      p.container == m.layout.playerContainer && p.role == .storage && p.slot == hotbar
  | .offhand => m.slots.findIdx? fun p => p.role == .offhand

/-- The swap of two slots, when both directions are legal and fit. -/
def swapSlots (m : Menu) (index partner : Nat) (mapping partnerMapping : SlotMapping) : Handled :=
  let a := m.displayStack index
  let b := m.displayStack partner
  if !b.isEmpty && !mapping.mayPlace then (.ok ClickOutcome.default, m)
  else if !a.isEmpty && !partnerMapping.mayPlace then (.ok ClickOutcome.default, m)
  else if !b.isEmpty && b.count > m.slotLimit index b then (.ok ClickOutcome.default, m)
  else if !a.isEmpty && a.count > m.slotLimit partner a then (.ok ClickOutcome.default, m)
  else
    match m.setSlot index b with
    | .error e => (.error e, m)
    | .ok m =>
      match m.setSlot partner a with
      | .error e => (.error e, m)
      | .ok m => (.ok { ClickOutcome.default with changedSlots := {index, partner} }, m)

/-- mirrors crates/container/src/menu.rs:1159-1206 (`Menu::click_swap`) -/
def clickSwap (m : Menu) (click : Click) : Handled :=
  match click.slotIndex, click.swapTarget with
  | some index, some target =>
    match m.mappingOf index with
    | .error e => (.error e, m)
    | .ok mapping =>
      match m.swapPartner target with
      | none => (.ok ClickOutcome.default, m)
      | some partner =>
        if partner = index then (.ok ClickOutcome.default, m)
        else
          match m.mappingOf partner with
          | .error e => (.error e, m)
          | .ok partnerMapping =>
            if m.cursor.isEmpty then m.swapSlots index partner mapping partnerMapping
            else if (m.displayStack partner).isEmpty && mapping.mayPlace then
              let (overflow, m) := m.insert partner m.cursor
              if overflow.isEmpty then
                (.ok { ClickOutcome.default with
                  changedSlots := {partner}, cursorChanged := true },
                  m.setCursor ItemStack.EMPTY)
              else (.ok ClickOutcome.default, m)
            else (.ok ClickOutcome.default, m)
  | _, _ => (.ok ClickOutcome.default, m)

/-- mirrors crates/container/src/menu.rs:1211-1236 (`Menu::click_clone`) -/
def clickClone (m : Menu) (click : Click) : Handled :=
  if !m.creative then (.ok ClickOutcome.default, m)
  else
    match click.slotIndex with
    | none => (.ok ClickOutcome.default, m)
    | some index =>
      match m.mappingOf index with
      | .error e => (.error e, m)
      | .ok _ =>
        let stack := m.displayStack index
        if stack.isEmpty then (.ok ClickOutcome.default, m)
        else
          let count := if click.button = 2 then m.itemLimit stack else stack.count
          match ItemStack.withComponents stack.itemId count stack.components with
          | .error e => (.error e, m)
          | .ok cloned =>
            (.ok { ClickOutcome.default with cursorChanged := true }, m.setCursor cloned)

/-- mirrors crates/container/src/menu.rs:1240-1270 (`Menu::click_throw`) -/
def clickThrow (m : Menu) (click : Click) : Handled :=
  match click.slotIndex with
  | some index =>
    match m.mappingOf index with
    | .error e => (.error e, m)
    | .ok mapping =>
      let stack := m.displayStack index
      if !mapping.mayPickup || stack.isEmpty then (.ok ClickOutcome.default, m)
      else
        let (dropped, m) := m.extract index (if click.secondary then stack.count else 1)
        if dropped.isEmpty then (.ok ClickOutcome.default, m)
        else (.ok { ClickOutcome.default with dropped := [dropped], changedSlots := {index} }, m)
  | none =>
    if m.cursor.isEmpty then (.ok ClickOutcome.default, m)
    else m.dropCursor (if click.secondary then m.cursor.count else 1)

/-- One share of a drag: `give` items of the cursor into `slot`. -/
def dragGive (slot give : Nat) (outcome : ClickOutcome) (m : Menu) : ClickOutcome × Menu :=
  let (dropped, m) := m.place slot give
  ({ outcome with
    changedSlots := Insert.insert slot outcome.changedSlots
    dropped := outcome.dropped ++ dropped }, m)

/-- The loop of a `One` or `Full` drag: `share` is what a slot is offered, 0 to skip it. -/
def dragEach (share : Menu → Nat → Nat) : List Nat → ClickOutcome → Menu → ClickOutcome × Menu
  | [], outcome, m => (outcome, m)
  | slot :: slots, outcome, m =>
    if m.cursor.isEmpty then (outcome, m)
    else if share m slot = 0 then dragEach share slots outcome m
    else
      let (outcome, m) := dragGive slot (share m slot) outcome m
      dragEach share slots outcome m

/-- `self.slot_limit(slot, &self.cursor) - target.count()`, 0 when there is none -/
def dragRoom (m : Menu) (slot : Nat) : Nat :=
  m.slotLimit slot m.cursor - (m.displayStack slot).count

/-- The slots of an `Even` drag that can accept the cursor, with their room. -/
def dragAccepted (m : Menu) (slots : List Nat) : List (Nat × Nat) :=
  slots.filterMap fun slot =>
    let target := m.displayStack slot
    if !target.isEmpty && !target.sameItem m.cursor then none
    else if m.dragRoom slot > 0 then some (slot, m.dragRoom slot) else none

/-- The loop of an `Even` drag. -/
def dragEven (per : Nat) : Nat → List (Nat × Nat) → ClickOutcome → Menu → ClickOutcome × Menu
  | _, [], outcome, m => (outcome, m)
  | extra, (slot, room) :: accepted, outcome, m =>
    let rounded := extra > 0 ∧ min per room < room
    let give := if rounded then min per room + 1 else min per room
    let extra := if rounded then extra - 1 else extra
    if give = 0 then dragEven per extra accepted outcome m
    else
      let (outcome, m) := dragGive slot give outcome m
      dragEven per extra accepted outcome m

/-- The end of a drag, the remembered slots and type already taken. -/
def dragEnd (m : Menu) (dragType : DragType) (slots : List Nat) : Handled :=
  let finished (r : ClickOutcome × Menu) : Handled :=
    (.ok { r.1 with cursorChanged := true }, r.2)
  match dragType with
  | .one => finished (dragEach (fun _ _ => 1) slots ClickOutcome.default m)
  | .full => finished (dragEach dragRoom slots ClickOutcome.default m)
  | .even =>
    let accepted := m.dragAccepted slots
    if accepted.isEmpty then (.ok ClickOutcome.default, m)
    else
      finished (dragEven (m.cursor.count / accepted.length) (m.cursor.count % accepted.length)
        accepted ClickOutcome.default m)

/-- mirrors crates/container/src/menu.rs:1276-1391 (`Menu::click_quick_craft`) -/
def clickQuickCraft (m : Menu) (click : Click) : Handled :=
  match click.drag with
  | none => (.ok ClickOutcome.default, m)
  | some (dragType, .start) =>
    (.ok ClickOutcome.default, { m with dragSlots := [], dragType := some dragType })
  | some (dragType, .addSlot) =>
    if m.dragType ≠ some dragType then (.ok ClickOutcome.default, m)
    else
      match click.slotIndex with
      | none => (.ok ClickOutcome.default, m)
      | some index =>
        match m.mappingOf index with
        | .error e => (.error e, m)
        | .ok mapping =>
          if mapping.mayPlace && !m.dragSlots.contains index then
            (.ok ClickOutcome.default, { m with dragSlots := m.dragSlots ++ [index] })
          else (.ok ClickOutcome.default, m)
  | some (dragType, .finish) =>
    let slots := m.dragSlots
    let opened := m.dragType
    let m := { m with dragSlots := [], dragType := none }
    if opened ≠ some dragType ∨ m.cursor.isEmpty ∨ slots = [] then (.ok ClickOutcome.default, m)
    else m.dragEnd dragType slots

/-- The gathering loop of `click_pickup_all`. -/
def gather (index limit : Nat) : List Nat → ItemStack → Finset Nat → Menu →
    ItemStack × Finset Nat × Menu
  | [], gathered, changed, m => (gathered, changed, m)
  | slot :: slots, gathered, changed, m =>
    if gathered.count ≥ limit then (gathered, changed, m)
    else if slot = index then gather index limit slots gathered changed m
    else
      let stack := m.displayStack slot
      if stack.isEmpty || !stack.sameItem gathered then
        gather index limit slots gathered changed m
      else
        let (moved, m) := m.extract slot (limit - gathered.count)
        if moved.isEmpty then gather index limit slots gathered changed m
        else
          gather index limit slots (gathered.mergeCapped moved limit).1
            (Insert.insert slot changed) m

/-- mirrors crates/container/src/menu.rs:1395-1445 (`Menu::click_pickup_all`); every role may be
picked up from -/
def clickPickupAll (m : Menu) (click : Click) : Handled :=
  match click.slotIndex with
  | none => (.ok ClickOutcome.default, m)
  | some index =>
    match m.mappingOf index with
    | .error e => (.error e, m)
    | .ok mapping =>
      if !mapping.mayPickup then (.ok ClickOutcome.default, m)
      else
        let target := m.displayStack index
        if m.cursor.isEmpty && target.isEmpty then (.ok ClickOutcome.default, m)
        else
          let (gathered, changed, m') :=
            if m.cursor.isEmpty then
              let (taken, m) := m.extract index target.count
              (taken, ({index} : Finset Nat), m)
            else (m.cursor, (∅ : Finset Nat), m)
          if gathered.isEmpty then
            (.ok { ClickOutcome.default with changedSlots := changed }, m')
          else
            let (gathered, changed, m') := gather index (m'.itemLimit gathered)
              (List.range m'.slots.length) gathered changed m'
            if gathered.partialEq m'.cursor then
              (.ok { ClickOutcome.default with changedSlots := changed }, m')
            else (.ok { ClickOutcome.default with changedSlots := changed, cursorChanged := true },
              m'.setCursor gathered)

/-- The dispatch of `apply_click`. -/
def handle (m : Menu) (click : Click) : Handled :=
  match click.clickType with
  | .pickup => m.clickPickup click
  | .quickMove => m.clickQuickMove click
  | .swap => m.clickSwap click
  | .clone => m.clickClone click
  | .throw => m.clickThrow click
  | .quickCraft => m.clickQuickCraft click
  | .pickupAll => m.clickPickupAll click

/-- mirrors crates/container/src/menu.rs:977-1014 (`Menu::apply_click`); no handler asks for a
full resync -/
def applyClick (m : Menu) (click : Click) : Handled :=
  if click.windowId ≠ m.windowId then
    (.error (.invalidAction
      s!"click for window {click.windowId} but this menu is window {m.windowId}"), m)
  else
    match click.slotIndex.mapM m.mappingOf with
    | .error e => (.error e, m)
    | .ok _ =>
      if click.stateId ≠ m.stateId then
        (.ok { ClickOutcome.default with fullResync := true }, m)
      else
        match m.handle click with
        | (.error e, m) => (.error e, m)
        | (.ok outcome, m) => (.ok outcome, m.bumpState)

end Menu
end Apoptosis.L2
