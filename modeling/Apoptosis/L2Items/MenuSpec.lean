import Apoptosis.L2Items.Menu
/-!
# What the menu's operations do

Every handler moves items through `extract`, `insert`, `set_slot`, `set_cursor`
and `return_to_cursor`. Each gets one lemma on three things: what the slots
show, what is held in total by identity, and that nothing else of the menu
changes (`SameFrame`). Writes clamp, so no operation can break the limits
(`Sound`).
-/
namespace Apoptosis.L2
open Apoptosis.Core

namespace Menu

/-! ## The fixed part -/

/-- All of a menu but its contents, its cursor and its drag. -/
structure SameFrame (m m' : Menu) : Prop where
  windowId : m'.windowId = m.windowId
  slots : m'.slots = m.slots
  layout : m'.layout = m.layout
  stackSizes : m'.stackSizes = m.stackSizes
  creative : m'.creative = m.creative

theorem SameFrame.refl (m : Menu) : SameFrame m m := ⟨rfl, rfl, rfl, rfl, rfl⟩

theorem SameFrame.trans {m m' m'' : Menu} (h : SameFrame m m') (h' : SameFrame m' m'') :
    SameFrame m m'' :=
  ⟨h'.windowId.trans h.windowId, h'.slots.trans h.slots, h'.layout.trans h.layout,
    h'.stackSizes.trans h.stackSizes, h'.creative.trans h.creative⟩

theorem SameFrame.itemLimit {m m' : Menu} (h : SameFrame m m') (s : ItemStack) :
    m'.itemLimit s = m.itemLimit s := by
  rw [Menu.itemLimit, Menu.itemLimit, h.stackSizes]

theorem SameFrame.slotLimit {m m' : Menu} (h : SameFrame m m') (i : Nat) (s : ItemStack) :
    m'.slotLimit i s = m.slotLimit i s := by
  rw [Menu.slotLimit, Menu.slotLimit, h.slots]
  cases m.slots[i]? with
  | none => rfl
  | some p => exact congrArg (min · p.maxStack) (h.itemLimit s)

theorem itemLimit_le (m : Menu) (s : ItemStack) : m.itemLimit s ≤ 64 := by
  rw [itemLimit]
  split
  · omega
  · exact (m.stackSizes.maxStackSize_bounds _).2

theorem itemLimit_pos (m : Menu) {s : ItemStack} (h : ¬s.isEmpty) : 1 ≤ m.itemLimit s := by
  have hid : s.itemId ≠ AIR_ITEM_ID := fun h0 => h (by simp [ItemStack.isEmpty, h0])
  rw [itemLimit, if_neg hid]
  exact (m.stackSizes.maxStackSize_bounds _).1

theorem itemLimit_congr (m : Menu) {s t : ItemStack} (h : s.itemId = t.itemId) :
    m.itemLimit s = m.itemLimit t := by
  rw [itemLimit, itemLimit, h]

theorem slotLimit_le_itemLimit (m : Menu) (i : Nat) (s : ItemStack) :
    m.slotLimit i s ≤ m.itemLimit s := by
  rw [slotLimit]
  split
  · exact Nat.min_le_left _ _
  · exact Nat.zero_le _

theorem slotLimit_pos (m : Menu) {i : Nat} {p : SlotMapping} (hp : m.slots[i]? = some p)
    {s : ItemStack} (h : ¬s.isEmpty) : 1 ≤ m.slotLimit i s := by
  have hmax := (m.mapped p (List.mem_of_getElem? hp)).2.1
  have hitem := m.itemLimit_pos h
  simp only [slotLimit, hp]
  omega

theorem slotLimit_congr (m : Menu) (i : Nat) {s t : ItemStack} (h : s.itemId = t.itemId) :
    m.slotLimit i s = m.slotLimit i t := by
  rw [slotLimit, slotLimit, m.itemLimit_congr h]

/-! ## One write -/

/-- Items of an identity in the containers and on the cursor. -/
def total (k : Key) (m : Menu) : Nat :=
  tally (fun c => tally (ItemStack.amount k) c.slots) m.containers + m.cursor.amount k

@[simp] theorem total_stateId (k : Key) (m : Menu) (s : BitVec 32) :
    total k { m with stateId := s } = total k m := rfl

theorem held_eq {m : Menu} {p : SlotMapping} {c : Container}
    (h : m.containers[p.container]? = some c) : m.held p = c.get p.slot := by
  rw [held, h]

theorem held_putContainer {m : Menu} {p : SlotMapping} (hp : p.Fits m.containers)
    (s : ItemStack) : ((m.putContainer p.container p.slot s).held p).Alike s := by
  obtain ⟨c, hc, hslot⟩ := hp
  have hc' : (m.putContainer p.container p.slot s).containers[p.container]? =
      some (c.put p.slot s) := by
    simp [putContainer, hc]
  rw [held_eq hc']
  exact c.put_get hslot s

theorem held_putContainer_ne {m : Menu} {p q : SlotMapping} (h : q.place ≠ p.place)
    (s : ItemStack) : (m.putContainer p.container p.slot s).held q = m.held q := by
  by_cases hc : q.container = p.container
  · have hslot : q.slot ≠ p.slot := fun hs => h (Prod.ext hc hs)
    simp only [held, putContainer, hc, List.getElem?_modify_eq]
    cases hget : m.containers[p.container]? with
    | none => rfl
    | some c => exact c.put_get_ne hslot s
  · simp [held, putContainer, Ne.symm hc]

theorem total_putContainer (k : Key) {m : Menu} {p : SlotMapping} (hp : p.Fits m.containers)
    (s : ItemStack) : (m.putContainer p.container p.slot s).total k + (m.held p).amount k =
      m.total k + s.amount k := by
  obtain ⟨c, hc, hslot⟩ := hp
  have hput := Container.put_tally k c hslot s
  have houter := tally_modify (fun c => tally (ItemStack.amount k) c.slots) hc (·.put p.slot s)
  rw [held_eq hc]
  simp only [total, putContainer] at *
  omega

/-- What `set_slot` writes: the stack, cut to the limit of the slot. -/
def clamped (m : Menu) (i : Nat) (s : ItemStack) : ItemStack :=
  if s.isEmpty ∨ s.count ≤ m.slotLimit i s then s else s.keep (m.slotLimit i s)

theorem setSlot_eq {m : Menu} {i : Nat} {p : SlotMapping} (hp : m.slots[i]? = some p)
    (s : ItemStack) : m.setSlot i s = .ok (m.putContainer p.container p.slot (m.clamped i s)) := by
  simp only [setSlot, hp, clamped]
  by_cases h : s.isEmpty ∨ s.count ≤ m.slotLimit i s
  · rw [if_pos h, if_pos h]
    rfl
  · rw [if_neg h, if_neg h]
    rw [not_or] at h
    rw [ItemStack.withComponents_keep h.1 (m.slotLimit_pos hp h.1)
      (le_trans (m.slotLimit_le_itemLimit i s) (m.itemLimit_le s))]
    rfl

theorem trySetSlot_eq {m : Menu} {i : Nat} {p : SlotMapping} (hp : m.slots[i]? = some p)
    (s : ItemStack) : m.trySetSlot i s = m.putContainer p.container p.slot (m.clamped i s) := by
  rw [trySetSlot, setSlot_eq hp]

theorem clamped_of_le {m : Menu} {i : Nat} {s : ItemStack} (h : s.count ≤ m.slotLimit i s) :
    m.clamped i s = s := if_pos (.inr h)

theorem clamped_count_le (m : Menu) {i : Nat} {p : SlotMapping} (hp : m.slots[i]? = some p)
    (s : ItemStack) : (m.clamped i s).count ≤ m.slotLimit i (m.clamped i s) := by
  unfold clamped
  split
  · next h =>
    rcases h with h | h
    · rw [(ItemStack.isEmpty_iff_count s).mp h]
      exact Nat.zero_le _
    · exact h
  · next h =>
    rw [not_or] at h
    have hle := le_trans (m.slotLimit_le_itemLimit i s) (m.itemLimit_le s)
    have hpos := m.slotLimit_pos hp h.1
    have hcount := ItemStack.keep_count hle h.1
    rcases ItemStack.keep_kind s (m.slotLimit i s) with he | ⟨hid, -⟩
    · rw [ItemStack.isEmpty_iff_count, hcount] at he
      omega
    · rw [hcount, m.slotLimit_congr i hid]

/-! ## The invariant -/

/-- No container slot is shown twice. -/
def NoAlias (m : Menu) : Prop := (m.slots.map SlotMapping.place).Nodup

instance (m : Menu) : Decidable m.NoAlias := inferInstanceAs (Decidable (List.Nodup _))

/-- No slot and not the cursor is over its limit. -/
def WithinLimits (m : Menu) : Prop :=
  (∀ i, (m.displayStack i).count ≤ m.slotLimit i (m.displayStack i)) ∧
    m.cursor.count ≤ m.itemLimit m.cursor

structure Sound (m : Menu) : Prop where
  noAlias : m.NoAlias
  within : m.WithinLimits

theorem displayStack_eq {m : Menu} {i : Nat} {p : SlotMapping} (hp : m.slots[i]? = some p) :
    m.displayStack i = m.held p := by
  rw [displayStack, hp]

theorem NoAlias.place_ne {m : Menu} (h : m.NoAlias) {i j : Nat} {p q : SlotMapping}
    (hp : m.slots[i]? = some p) (hq : m.slots[j]? = some q) (hij : i ≠ j) : p.place ≠ q.place := by
  intro heq
  have hpi : (m.slots.map SlotMapping.place)[i]? = some p.place := by simp [hp]
  have hqj : (m.slots.map SlotMapping.place)[j]? = some p.place := by simp [hq, heq]
  have hlt : i < (m.slots.map SlotMapping.place).length := (List.getElem?_eq_some_iff.mp hpi).1
  exact hij ((List.getElem?_inj hlt h).mp (hpi.trans hqj.symm))

/-- A write to one slot, by what every slot shows after it. -/
theorem displayStack_put {m : Menu} (h : m.NoAlias) {i : Nat} {p : SlotMapping}
    (hp : m.slots[i]? = some p) (s : ItemStack) :
    ((m.putContainer p.container p.slot s).displayStack i).Alike s ∧
      ∀ j, j ≠ i → (m.putContainer p.container p.slot s).displayStack j = m.displayStack j := by
  have hfits := (m.mapped p (List.mem_of_getElem? hp)).1
  constructor
  · rw [displayStack_eq (m := m.putContainer p.container p.slot s) (p := p) hp]
    exact held_putContainer hfits s
  · intro j hj
    cases hq : m.slots[j]? with
    | none => simp only [displayStack, putContainer, hq]
    | some q =>
      rw [displayStack_eq (m := m.putContainer p.container p.slot s) (p := q) hq,
        displayStack_eq hq]
      exact held_putContainer_ne (h.place_ne hq hp hj) s

/-! ## What an operation may do -/

/-- `lost` left the containers and the cursor, `gained` came in. -/
def Balanced (gained lost : List ItemStack) (m m' : Menu) : Prop :=
  ∀ k, m'.total k + tally (ItemStack.amount k) lost = m.total k + tally (ItemStack.amount k) gained

/-- The fixed part stays, and the limits hold if they held. -/
structure Kept (m m' : Menu) : Prop where
  frame : SameFrame m m'
  sound : Sound m → Sound m'

theorem Kept.refl (m : Menu) : Kept m m := ⟨SameFrame.refl m, id⟩

theorem Kept.trans {m m' m'' : Menu} (h : Kept m m') (h' : Kept m' m'') : Kept m m'' :=
  ⟨h.frame.trans h'.frame, fun hs => h'.sound (h.sound hs)⟩

theorem Balanced.refl (m : Menu) : Balanced [] [] m m := fun _ => rfl

theorem putContainer_balanced {m : Menu} {i : Nat} {p : SlotMapping}
    (hp : m.slots[i]? = some p) (s : ItemStack) :
    Balanced [s] [m.displayStack i] m (m.putContainer p.container p.slot s) := by
  intro k
  have hfits := (m.mapped p (List.mem_of_getElem? hp)).1
  rw [tally_singleton, tally_singleton, displayStack_eq hp]
  exact total_putContainer k hfits s

theorem limit_of_alike {m : Menu} {i : Nat} {s t : ItemStack} (h : s.Alike t)
    (ht : t.count ≤ m.slotLimit i t) : s.count ≤ m.slotLimit i s := by
  rw [h.2.1, m.slotLimit_congr i h.1]
  exact ht

theorem putContainer_kept {m : Menu} {i : Nat} {p : SlotMapping} (hp : m.slots[i]? = some p)
    {s : ItemStack} (hs : s.count ≤ m.slotLimit i s) :
    Kept m (m.putContainer p.container p.slot s) := by
  refine ⟨⟨rfl, rfl, rfl, rfl, rfl⟩, fun h => ⟨h.noAlias, fun j => ?_, h.within.2⟩⟩
  obtain ⟨hself, hother⟩ := displayStack_put h.noAlias hp s
  by_cases hj : j = i
  · subst hj
    exact limit_of_alike (m := m) hself hs
  · rw [hother j hj]
    exact h.within.1 j

/-- `set_slot` of a stack that fits. -/
theorem setSlot_fits {m : Menu} {i : Nat} {p : SlotMapping} (hp : m.slots[i]? = some p)
    {s : ItemStack} (hs : s.count ≤ m.slotLimit i s) :
    m.setSlot i s = .ok (m.putContainer p.container p.slot s) := by
  rw [setSlot_eq hp, clamped_of_le hs]

theorem trySetSlot_fits {m : Menu} {i : Nat} {p : SlotMapping} (hp : m.slots[i]? = some p)
    {s : ItemStack} (hs : s.count ≤ m.slotLimit i s) :
    m.trySetSlot i s = m.putContainer p.container p.slot s := by
  rw [trySetSlot_eq hp, clamped_of_le hs]

/-! ### The cursor -/

theorem setCursor_fits {m : Menu} {s : ItemStack} (hs : s.count ≤ m.itemLimit s) :
    m.setCursor s = { m with cursor := s } := by
  rw [setCursor, if_neg (by simp; omega)]

theorem cursor_kept {m : Menu} {s : ItemStack} (hs : s.count ≤ m.itemLimit s) :
    Kept m { m with cursor := s } :=
  ⟨⟨rfl, rfl, rfl, rfl, rfl⟩, fun h => ⟨h.noAlias, h.within.1, hs⟩⟩

theorem cursor_balanced (m : Menu) (s : ItemStack) :
    Balanced [s] [m.cursor] m { m with cursor := s } := by
  intro k
  simp only [total, tally_singleton]
  omega

/-- Part of a stack within its item's limit is within it. -/
theorem itemLimit_of_kind {m : Menu} {s t : ItemStack}
    (hkind : t.isEmpty ∨ (t.itemId = s.itemId ∧ t.components = s.components))
    (hle : t.count ≤ m.itemLimit s) : t.count ≤ m.itemLimit t := by
  rcases hkind with he | ⟨hid, -⟩
  · rw [(ItemStack.isEmpty_iff_count t).mp he]
    exact Nat.zero_le _
  · rw [m.itemLimit_congr hid]
    exact hle

theorem splitCursor_spec (m : Menu) (n : Nat) :
    Balanced [] [(m.splitCursor n).1] m (m.splitCursor n).2 ∧ Kept m (m.splitCursor n).2 := by
  constructor
  · intro k
    have := ItemStack.split_amount k m.cursor n
    simp only [splitCursor, total, tally_singleton, tally_nil]
    omega
  · refine ⟨⟨rfl, rfl, rfl, rfl, rfl⟩, fun h => ⟨h.noAlias, h.within.1, ?_⟩⟩
    refine itemLimit_of_kind (m := m) (ItemStack.split_kind m.cursor n).2 ?_
    have hcursor := h.within.2
    have hcount := (ItemStack.split_count m.cursor n).2
    show (m.cursor.split n).2.count ≤ m.itemLimit m.cursor
    omega

theorem merge_count_le (s other : ItemStack) {limit : Nat} (h64 : limit ≤ 64) (h1 : 1 ≤ limit) :
    (s.mergeCapped other limit).1.count ≤ max s.count limit := by
  rcases ItemStack.merge_cases s other with h | ⟨hother, hs⟩ | ⟨hother, hsame⟩
  · rw [ItemStack.merge_blocked h]
    exact le_max_left _ _
  · rw [ItemStack.merge_into_empty hs, if_neg hother, (ItemStack.split_count other _).1,
      ItemStack.clampLimit_eq h1 h64]
    omega
  · have hle := s.count_le
    rw [ItemStack.merge_same hsame hother, ItemStack.clampLimit_eq h1 h64]
    have hcount : s.count + min (limit - s.count) other.count ≤ 64 := by omega
    rw [ItemStack.keep_count hcount (ItemStack.sameItem_iff.mp hsame).1]
    omega

/-- What `return_to_cursor` does not take is the remainder of the merge. -/
theorem leftover_eq (s : ItemStack) : (if s.count > 0 then s else ItemStack.EMPTY) = s := by
  split
  · rfl
  · next h =>
    exact ((ItemStack.isEmpty_iff s).mp ((ItemStack.isEmpty_iff_count s).mpr (by omega))).symm

theorem returnToCursor_spec (m : Menu) (s : ItemStack) :
    Balanced [s] [(m.returnToCursor s).1] m (m.returnToCursor s).2 ∧
      Kept m (m.returnToCursor s).2 := by
  unfold returnToCursor
  by_cases hs : s.isEmpty
  · rw [if_pos hs]
    refine ⟨fun k => ?_, Kept.refl m⟩
    rw [tally_singleton, tally_singleton, ItemStack.amount_of_isEmpty k hs, ItemStack.amount_EMPTY]
  · rw [if_neg hs]
    simp only [leftover_eq]
    constructor
    · intro k
      have := ItemStack.merge_amount k m.cursor s (m.itemLimit s)
      simp only [total, tally_singleton]
      omega
    · refine ⟨⟨rfl, rfl, rfl, rfl, rfl⟩, fun h => ⟨h.noAlias, h.within.1, ?_⟩⟩
      have hcursor := h.within.2
      have hle := merge_count_le m.cursor s (m.itemLimit_le s)
        (m.itemLimit_pos hs)
      show (m.cursor.mergeCapped s (m.itemLimit s)).1.count ≤
        m.itemLimit (m.cursor.mergeCapped s (m.itemLimit s)).1
      rcases ItemStack.merge_cases m.cursor s with hb | ⟨hne, hempty⟩ | ⟨hne, hsame⟩
      · rw [ItemStack.merge_blocked hb]
        exact hcursor
      · refine itemLimit_of_kind (s := s) ?_ ?_
        · rw [ItemStack.merge_into_empty hempty, if_neg hne]
          exact (ItemStack.split_kind s _).1
        · rw [(ItemStack.isEmpty_iff_count _).mp hempty] at hle
          omega
      · have hid := (ItemStack.sameItem_iff.mp hsame).2.1
        refine itemLimit_of_kind (s := m.cursor) ?_ ?_
        · rw [ItemStack.merge_same hsame hne]
          exact ItemStack.keep_kind m.cursor _
        · rw [m.itemLimit_congr hid] at hcursor ⊢
          omega

/-! ### The slots -/

theorem extract_spec {m : Menu} (hm : Sound m) {i : Nat} {p : SlotMapping}
    (hp : m.slots[i]? = some p) (n : Nat) :
    Balanced [] [(m.extract i n).1] m (m.extract i n).2 ∧ Kept m (m.extract i n).2 := by
  have hcount := ItemStack.split_count (m.displayStack i) n
  unfold extract
  dsimp only
  split
  · next he =>
    refine ⟨fun k => ?_, Kept.refl m⟩
    rw [tally_singleton, ItemStack.amount_of_isEmpty k he, tally_nil]
  · have hfits : ((m.displayStack i).split n).2.count ≤
        m.slotLimit i ((m.displayStack i).split n).2 := by
      rcases (ItemStack.split_kind (m.displayStack i) n).2 with he | ⟨hid, -⟩
      · rw [(ItemStack.isEmpty_iff_count _).mp he]
        exact Nat.zero_le _
      · have := hm.within.1 i
        rw [m.slotLimit_congr i hid]
        omega
    rw [trySetSlot_fits hp hfits]
    refine ⟨fun k => ?_, putContainer_kept hp hfits⟩
    have hput := putContainer_balanced hp ((m.displayStack i).split n).2 k
    have hsplit := ItemStack.split_amount k (m.displayStack i) n
    simp only [tally_singleton, tally_nil] at *
    omega

/-- What a placement into a slot that takes the stack does: the slot's new stack and the rest. -/
theorem insert_open {m : Menu} {i : Nat} {p : SlotMapping} (hp : m.slots[i]? = some p)
    {s : ItemStack} (hs : ¬s.isEmpty) (hplace : p.mayPlace)
    (hopen : (m.displayStack i).isEmpty ∨ (m.displayStack i).sameItem s)
    (hfits : (m.displayStack i).count ≤ m.slotLimit i (m.displayStack i)) :
    ∃ placed, placed.count ≤ m.slotLimit i placed ∧
      (∀ k, placed.amount k + (m.insert i s).1.amount k =
        (m.displayStack i).amount k + s.amount k) ∧
      (m.insert i s).1.count = s.count - (m.slotLimit i s - (m.displayStack i).count) ∧
      ((m.insert i s).2 = m.putContainer p.container p.slot placed ∨
        ((m.insert i s).2 = m ∧ placed.Alike (m.displayStack i))) := by
  have hpos := m.slotLimit_pos hp hs
  have hle := le_trans (m.slotLimit_le_itemLimit i s) (m.itemLimit_le s)
  unfold insert
  rw [if_neg hs]
  simp only [hp, hplace, Bool.not_true, Bool.false_eq_true, if_false]
  rcases hopen with hempty | hsame
  · have hzero := (ItemStack.isEmpty_iff_count _).mp hempty
    simp only [hempty, Bool.not_true, Bool.false_and, Bool.false_eq_true, if_false, if_true]
    by_cases hover : s.count > m.slotLimit i s
    · have hcount := ItemStack.split_count s (s.count - m.slotLimit i s)
      have hplaced : (s.split (s.count - m.slotLimit i s)).2.count ≤
          m.slotLimit i (s.split (s.count - m.slotLimit i s)).2 := by
        rcases (ItemStack.split_kind s (s.count - m.slotLimit i s)).2 with he | ⟨hid, -⟩
        · rw [(ItemStack.isEmpty_iff_count _).mp he]
          exact Nat.zero_le _
        · rw [m.slotLimit_congr i hid]
          omega
      rw [if_pos hover, trySetSlot_fits hp hplaced]
      refine ⟨_, hplaced, fun k => ?_, ?_, .inl rfl⟩
      · have := ItemStack.split_amount k s (s.count - m.slotLimit i s)
        rw [ItemStack.amount_of_isEmpty k hempty]
        dsimp only
        omega
      · show (s.split (s.count - m.slotLimit i s)).1.count = _
        rw [hcount.1]
        omega
    · rw [if_neg hover, trySetSlot_fits hp (by omega)]
      refine ⟨s, by omega, fun k => ?_, ?_, .inl rfl⟩
      · rw [ItemStack.amount_of_isEmpty k hempty, ItemStack.amount_EMPTY]
        omega
      · rw [ItemStack.count_EMPTY]
        omega
  · have hne : ¬(m.displayStack i).isEmpty := (ItemStack.sameItem_iff.mp hsame).1
    have hid := (ItemStack.sameItem_iff.mp hsame).2.1
    rw [m.slotLimit_congr i hid] at hfits
    simp only [hne, hsame, Bool.not_true, Bool.not_false, Bool.and_false, Bool.false_eq_true,
      if_false, leftover_eq]
    have hmerged : ((m.displayStack i).mergeCapped s (m.slotLimit i s)).1.count ≤
        m.slotLimit i ((m.displayStack i).mergeCapped s (m.slotLimit i s)).1 := by
      have hmax := merge_count_le (m.displayStack i) s hle hpos
      have hkind : ((m.displayStack i).mergeCapped s (m.slotLimit i s)).1.isEmpty ∨
          ((m.displayStack i).mergeCapped s (m.slotLimit i s)).1.itemId = s.itemId := by
        rw [ItemStack.merge_same hsame hs]
        exact (ItemStack.keep_kind _ _).imp_right fun h => h.1.trans hid
      rcases hkind with he | hkind
      · rw [(ItemStack.isEmpty_iff_count _).mp he]
        exact Nat.zero_le _
      · rw [m.slotLimit_congr i hkind]
        omega
    refine ⟨_, hmerged, fun k => ItemStack.merge_amount k _ _ _, ?_, ?_⟩
    · rw [ItemStack.merge_same hsame hs, (ItemStack.split_count s _).2,
        ItemStack.clampLimit_eq hpos hle]
      omega
    · split
      · next heq => exact .inr ⟨rfl, ItemStack.alike_of_partialEq heq⟩
      · exact .inl (trySetSlot_fits hp hmerged)

/-- A placement into a slot that does not take the stack changes nothing. -/
theorem insert_closed {m : Menu} {i : Nat} {s : ItemStack}
    (h : ∀ p, m.slots[i]? = some p → p.mayPlace →
      ¬((m.displayStack i).isEmpty ∨ (m.displayStack i).sameItem s)) : m.insert i s = (s, m) := by
  unfold insert
  by_cases hs : s.isEmpty
  · rw [if_pos hs, (ItemStack.isEmpty_iff s).mp hs]
  · rw [if_neg hs]
    cases hp : m.slots[i]? with
    | none => rfl
    | some p =>
      by_cases hplace : p.mayPlace
      · have hno := h p hp hplace
        rw [not_or] at hno
        simp [hplace, hno.1, hno.2]
      · simp [hplace]

theorem insert_spec {m : Menu} (hm : Sound m) (i : Nat) (s : ItemStack) :
    Balanced [s] [(m.insert i s).1] m (m.insert i s).2 ∧ Kept m (m.insert i s).2 ∧
      (m.insert i s).1.count ≤ s.count := by
  by_cases hs : s.isEmpty
  · have hinsert : m.insert i s = (ItemStack.EMPTY, m) := by
      unfold insert
      rw [if_pos hs]
    rw [hinsert, (ItemStack.isEmpty_iff s).mp hs]
    exact ⟨fun k => rfl, Kept.refl m, le_refl _⟩
  · by_cases hopen : ∃ p, m.slots[i]? = some p ∧ p.mayPlace ∧
        ((m.displayStack i).isEmpty ∨ (m.displayStack i).sameItem s)
    · obtain ⟨p, hp, hplace, hopen⟩ := hopen
      obtain ⟨placed, hfits, hamount, hcount, hmenu⟩ :=
        insert_open hp hs hplace hopen (hm.within.1 i)
      refine ⟨fun k => ?_, ?_, by omega⟩
      · have hk := hamount k
        rcases hmenu with hmenu | ⟨hmenu, halike⟩
        · have hput := putContainer_balanced hp placed k
          rw [hmenu]
          simp only [tally_singleton] at *
          omega
        · rw [halike.amount k] at hk
          rw [hmenu]
          simp only [tally_singleton]
          omega
      · rcases hmenu with hmenu | ⟨hmenu, -⟩
        · rw [hmenu]
          exact putContainer_kept hp hfits
        · rw [hmenu]
          exact Kept.refl m
    · have hinsert : m.insert i s = (s, m) := by
        apply insert_closed
        intro p hp hplace hopen'
        exact hopen ⟨p, hp, hplace, hopen'⟩
      rw [hinsert]
      exact ⟨fun k => rfl, Kept.refl m, le_refl _⟩

/-- The shared block of the placing handlers loses nothing. -/
theorem place_spec {m : Menu} (hm : Sound m) (i n : Nat) :
    Balanced [] (m.place i n).1 m (m.place i n).2 ∧ Kept m (m.place i n).2 := by
  obtain ⟨hsplit, hkept⟩ := splitCursor_spec m n
  have hm₁ := hkept.sound hm
  obtain ⟨hinsert, hkept', -⟩ := insert_spec hm₁ i (m.splitCursor n).1
  unfold place
  dsimp only
  split
  · next he =>
    refine ⟨fun k => ?_, hkept.trans hkept'⟩
    have h1 := hsplit k
    have h2 := hinsert k
    simp only [tally_singleton, tally_nil, ItemStack.amount_of_isEmpty k he] at *
    omega
  · obtain ⟨hreturn, hkept''⟩ := returnToCursor_spec ((m.splitCursor n).2.insert i
      (m.splitCursor n).1).2 ((m.splitCursor n).2.insert i (m.splitCursor n).1).1
    refine ⟨fun k => ?_, (hkept.trans hkept').trans hkept''⟩
    have h1 := hsplit k
    have h2 := hinsert k
    have h3 := hreturn k
    split
    · next he =>
      simp only [tally_singleton, tally_nil, ItemStack.amount_of_isEmpty k he] at *
      omega
    · simp only [tally_singleton, tally_nil] at *
      omega

end Menu
end Apoptosis.L2
