import Apoptosis.Core.Runs
import Apoptosis.L2Items.MenuSpec
/-!
# Clicks move items

What a menu holds before a click is what it holds after it and what the click
dropped, for every identity of items, with two exceptions (`Overfills`):

* a left click that exchanges the cursor with a slot too small for it: the
  write cuts the stack, and the rest is lost;
* a number key held over a slot while the cursor is full and the slot of the
  key is empty and too small: the slot gets its fill, and the cursor stays.

* `conserves_iff`: one click, from a menu within its limits.
* `run_conserves_iff`: any sequence of clicks.
-/
namespace Apoptosis.L2
open Apoptosis.Core Apoptosis.L1.Components

namespace Menu

/-! ## What a handler promises -/

/-- A handler left the menu `r.2`: the limits are kept, and nothing but `dropped` left it. -/
structure Moved (m : Menu) (r : Handled) : Prop where
  kept : Kept m r.2
  balanced : ∀ o, r.1 = .ok o → Balanced [] o.dropped m r.2

theorem Moved.same (m : Menu) {o : ClickOutcome} (h : o.dropped = []) : Moved m (.ok o, m) := by
  refine ⟨Kept.refl m, fun o' ho => ?_⟩
  obtain rfl : o = o' := by injection ho
  rw [h]
  exact Balanced.refl m

theorem Moved.ok {m m' : Menu} {o : ClickOutcome} (hk : Kept m m')
    (hb : Balanced [] o.dropped m m') : Moved m (.ok o, m') := by
  refine ⟨hk, fun o' ho => ?_⟩
  obtain rfl : o = o' := by injection ho
  exact hb

theorem Moved.error {m m' : Menu} {e : ServerError} (hk : Kept m m') : Moved m (.error e, m') :=
  ⟨hk, fun _ ho => by cases ho⟩

/-- The remembered slots of a drag count nowhere. -/
theorem drag_kept (m : Menu) (slots : List Nat) (kind : Option DragType) :
    Kept m { m with dragSlots := slots, dragType := kind } :=
  ⟨⟨rfl, rfl, rfl, rfl, rfl⟩, fun h => ⟨h.noAlias, h.within⟩⟩

theorem mappingOf_ok {m : Menu} {i : Nat} {p : SlotMapping} (h : m.mappingOf i = .ok p) :
    m.slots[i]? = some p := by
  unfold mappingOf at h
  split at h
  · next hq =>
    cases h
    exact hq
  · cases h

theorem mappingOf_eq_ok {m : Menu} {i : Nat} {p : SlotMapping} (h : m.slots[i]? = some p) :
    m.mappingOf i = .ok p := by
  rw [mappingOf, h]

/-! ## The cursor through a write to a slot -/

theorem trySetSlot_cursor (m : Menu) (i : Nat) (s : ItemStack) :
    (m.trySetSlot i s).cursor = m.cursor := by
  cases hp : m.slots[i]? with
  | none => simp only [trySetSlot, setSlot, hp]
  | some p =>
    rw [trySetSlot_eq hp]
    rfl

theorem extract_cursor (m : Menu) (i n : Nat) : (m.extract i n).2.cursor = m.cursor := by
  unfold extract
  dsimp only
  split
  · rfl
  · exact trySetSlot_cursor m i _

theorem insert_cursor (m : Menu) (i : Nat) (s : ItemStack) :
    (m.insert i s).2.cursor = m.cursor := by
  unfold insert
  dsimp only
  repeat' split
  all_goals first | rfl | exact trySetSlot_cursor m i _

/-- What `extract` takes is a part of what the slot showed. -/
theorem extract_taken (m : Menu) (i n : Nat) :
    (m.extract i n).1 = ((m.displayStack i).split n).1 := by
  unfold extract
  dsimp only
  split <;> rfl

/-! ## Pickup and throw -/

theorem Balanced.lost_empty {gained : List ItemStack} {s : ItemStack} {m m' : Menu}
    (h : Balanced gained [s] m m') (hs : s.isEmpty) : Balanced gained [] m m' := by
  intro k
  have hk := h k
  rw [tally_singleton, ItemStack.amount_of_isEmpty k hs] at hk
  exact hk

theorem dropCursor_moved (m : Menu) (n : Nat) : Moved m (m.dropCursor n) := by
  obtain ⟨hbalanced, hkept⟩ := splitCursor_spec m n
  unfold dropCursor
  dsimp only
  split
  · next he => exact Moved.ok hkept (hbalanced.lost_empty he)
  · exact Moved.ok hkept hbalanced

/-- A stack a slot shows fits the cursor. -/
theorem display_le_itemLimit {m : Menu} (hm : Sound m) (i : Nat) :
    (m.displayStack i).count ≤ m.itemLimit (m.displayStack i) :=
  le_trans (hm.within.1 i) (m.slotLimit_le_itemLimit i _)

/-- Taking from a slot onto an empty cursor. -/
theorem takeToCursor_moved {m : Menu} (hm : Sound m) {i : Nat} {p : SlotMapping}
    (hp : m.slots[i]? = some p) (hcursor : m.cursor.isEmpty) (n : Nat) :
    Kept m ((m.extract i n).2.setCursor (m.extract i n).1) ∧
      Balanced [] [] m ((m.extract i n).2.setCursor (m.extract i n).1) := by
  obtain ⟨hbalanced, hkept⟩ := extract_spec hm hp n
  have hfits : (m.extract i n).1.count ≤ (m.extract i n).2.itemLimit (m.extract i n).1 := by
    rw [hkept.frame.itemLimit, extract_taken]
    refine itemLimit_of_kind (m := m) (ItemStack.split_kind (m.displayStack i) n).1 ?_
    have := display_le_itemLimit hm i
    rw [(ItemStack.split_count (m.displayStack i) n).1]
    omega
  rw [setCursor_fits hfits]
  refine ⟨hkept.trans (cursor_kept hfits), fun k => ?_⟩
  have h1 := hbalanced k
  have h2 := cursor_balanced (m.extract i n).2 (m.extract i n).1 k
  rw [extract_cursor] at h2
  simp only [tally_singleton, tally_nil, ItemStack.amount_of_isEmpty k hcursor] at *
  omega

/-- The exchange of the cursor with a slot: what the slot cannot hold is lost. -/
theorem exchange_spec {m : Menu} (hm : Sound m) {i : Nat} {p : SlotMapping}
    (hp : m.slots[i]? = some p) :
    let m' := (m.putContainer p.container p.slot (m.clamped i m.cursor)).setCursor
      (m.displayStack i)
    Kept m m' ∧ Balanced [m.clamped i m.cursor] [m.cursor] m m' := by
  have hclamped := m.clamped_count_le hp m.cursor
  have hput := putContainer_balanced hp (m.clamped i m.cursor)
  have hkept := putContainer_kept hp hclamped
  have hfits : (m.displayStack i).count ≤
      (m.putContainer p.container p.slot (m.clamped i m.cursor)).itemLimit (m.displayStack i) := by
    rw [hkept.frame.itemLimit]
    exact display_le_itemLimit hm i
  dsimp only
  rw [setCursor_fits hfits]
  refine ⟨hkept.trans (cursor_kept hfits), fun k => ?_⟩
  have h1 := hput k
  have h2 := cursor_balanced (m.putContainer p.container p.slot (m.clamped i m.cursor))
    (m.displayStack i) k
  have hcursor : (m.putContainer p.container p.slot (m.clamped i m.cursor)).cursor = m.cursor := rfl
  rw [hcursor] at h2
  simp only [tally_singleton] at *
  omega

/-! ## Loops -/

theorem moveThrough_spec (index : Nat) : ∀ (targets : List Nat) (s : ItemStack)
    (changed : Finset Nat) {m : Menu}, Sound m →
    Balanced [s] [(moveThrough index targets s changed m).1] m
        (moveThrough index targets s changed m).2.2 ∧
      Kept m (moveThrough index targets s changed m).2.2
  | [], s, changed, m, _ => ⟨fun k => rfl, Kept.refl m⟩
  | target :: targets, s, changed, m, hm => by
    unfold moveThrough
    dsimp only
    split
    · exact ⟨fun k => rfl, Kept.refl m⟩
    · split
      · exact moveThrough_spec index targets s changed hm
      · obtain ⟨hinsert, hkept, -⟩ := insert_spec hm target s
        obtain ⟨hrest, hkept'⟩ := moveThrough_spec index targets (m.insert target s).1
          (if ((m.insert target s).2.displayStack target).partialEq ItemStack.EMPTY then changed
            else Insert.insert target changed) (hkept.sound hm)
        refine ⟨fun k => ?_, hkept.trans hkept'⟩
        have h1 := hinsert k
        have h2 := hrest k
        simp only [tally_singleton] at *
        omega

theorem dragGive_spec {m : Menu} (hm : Sound m) (slot give : Nat) (o : ClickOutcome) :
    Balanced o.dropped (dragGive slot give o m).1.dropped m (dragGive slot give o m).2 ∧
      Kept m (dragGive slot give o m).2 := by
  obtain ⟨hplace, hkept⟩ := place_spec hm slot give
  refine ⟨fun k => ?_, hkept⟩
  have := hplace k
  simp only [dragGive, tally_append, tally_nil] at *
  omega

/-- Two drops in a row. -/
theorem Balanced.chain {l₁ l₂ l₃ : List ItemStack} {m m' m'' : Menu} (h : Balanced l₁ l₂ m m')
    (h' : Balanced l₂ l₃ m' m'') : Balanced l₁ l₃ m m'' := by
  intro k
  have h1 := h k
  have h2 := h' k
  omega

theorem dragEach_spec (share : Menu → Nat → Nat) : ∀ (slots : List Nat) (o : ClickOutcome)
    {m : Menu}, Sound m →
    Balanced o.dropped (dragEach share slots o m).1.dropped m (dragEach share slots o m).2 ∧
      Kept m (dragEach share slots o m).2
  | [], o, m, _ => ⟨fun k => rfl, Kept.refl m⟩
  | slot :: slots, o, m, hm => by
    unfold dragEach
    dsimp only
    split
    · exact ⟨fun k => rfl, Kept.refl m⟩
    · split
      · exact dragEach_spec share slots o hm
      · obtain ⟨hgive, hkept⟩ := dragGive_spec hm slot (share m slot) o
        obtain ⟨hrest, hkept'⟩ := dragEach_spec share slots (dragGive slot (share m slot) o m).1
          (hkept.sound hm)
        exact ⟨hgive.chain hrest, hkept.trans hkept'⟩

theorem dragEven_spec (per : Nat) : ∀ (extra : Nat) (accepted : List (Nat × Nat))
    (o : ClickOutcome) {m : Menu}, Sound m →
    Balanced o.dropped (dragEven per extra accepted o m).1.dropped m
        (dragEven per extra accepted o m).2 ∧
      Kept m (dragEven per extra accepted o m).2
  | _, [], o, m, _ => ⟨fun k => rfl, Kept.refl m⟩
  | extra, (slot, room) :: accepted, o, m, hm => by
    unfold dragEven
    dsimp only
    generalize (if extra > 0 ∧ min per room < room then min per room + 1 else min per room) = give
    generalize (if extra > 0 ∧ min per room < room then extra - 1 else extra) = extra'
    split
    · exact dragEven_spec per extra' accepted o hm
    · obtain ⟨hgive, hkept⟩ := dragGive_spec hm slot give o
      obtain ⟨hrest, hkept'⟩ := dragEven_spec per extra' accepted (dragGive slot give o m).1
        (hkept.sound hm)
      exact ⟨hgive.chain hrest, hkept.trans hkept'⟩

/-- What was taken for a gathered stack goes into it whole. -/
theorem merge_room {g moved : ItemStack} {limit : Nat} (hsame : g.sameItem moved)
    (hmoved : ¬moved.isEmpty) (hlimit : limit ≤ 64) (hroom : moved.count ≤ limit - g.count) :
    (∀ k, (g.mergeCapped moved limit).1.amount k = g.amount k + moved.amount k) ∧
      (g.mergeCapped moved limit).1.count = g.count + moved.count ∧
      (g.mergeCapped moved limit).1.itemId = g.itemId ∧
      ¬(g.mergeCapped moved limit).1.isEmpty := by
  have hne : ¬g.isEmpty := (ItemStack.sameItem_iff.mp hsame).1
  have hpos := mt (ItemStack.isEmpty_iff_count moved).mpr hmoved
  have hclamp : ItemStack.clampLimit limit = limit := ItemStack.clampLimit_eq (by omega) hlimit
  have hmin : min (limit - g.count) moved.count = moved.count := Nat.min_eq_right hroom
  have hmerge : g.mergeCapped moved limit = _ := ItemStack.merge_same hsame hmoved
  rw [hclamp, hmin] at hmerge
  have hle : g.count + moved.count ≤ 64 := by omega
  have hcount : (g.mergeCapped moved limit).1.count = g.count + moved.count := by
    rw [hmerge]
    exact ItemStack.keep_count hle hne
  have hnonempty : ¬(g.mergeCapped moved limit).1.isEmpty := by
    rw [ItemStack.isEmpty_iff_count, hcount]
    omega
  refine ⟨fun k => ?_, hcount, ?_, hnonempty⟩
  · have hrest : (g.mergeCapped moved limit).2.isEmpty := by
      rw [ItemStack.isEmpty_iff_count, hmerge, (ItemStack.split_count _ _).2]
      omega
    have hamount := ItemStack.merge_amount k g moved limit
    rw [ItemStack.amount_of_isEmpty k hrest] at hamount
    exact hamount
  · rw [hmerge] at hnonempty ⊢
    rcases ItemStack.keep_kind g (g.count + moved.count) with he | ⟨hid, -⟩
    · exact absurd he hnonempty
    · exact hid

theorem extract_nothing {m : Menu} {i n : Nat} (h : (m.extract i n).1.isEmpty) :
    (m.extract i n).2 = m := by
  rw [extract_taken] at h
  unfold extract
  dsimp only
  rw [if_pos h]

/-- A gathered stack grows by what leaves the slots, and stays within its limit. -/
theorem gather_spec (index limit : Nat) (hlimit : limit ≤ 64) : ∀ (slots : List Nat)
    (g : ItemStack) (changed : Finset Nat) {m : Menu}, Sound m → ¬g.isEmpty → g.count ≤ limit →
    (∀ j ∈ slots, j < m.slots.length) →
    let r := gather index limit slots g changed m
    Balanced [g] [r.1] m r.2.2 ∧ Kept m r.2.2 ∧ r.1.count ≤ limit ∧ r.1.itemId = g.itemId ∧
      r.2.2.cursor = m.cursor
  | [], g, changed, m, _, _, hg, _ => ⟨fun k => rfl, Kept.refl m, hg, rfl, rfl⟩
  | slot :: slots, g, changed, m, hm, hne, hg, hslots => by
    have hskip := gather_spec index limit hlimit slots g changed hm hne hg
      fun j hj => hslots j (List.mem_cons_of_mem _ hj)
    obtain ⟨p, hp⟩ : ∃ p, m.slots[slot]? = some p :=
      ⟨_, List.getElem?_eq_getElem (hslots slot (List.mem_cons_self ..))⟩
    obtain ⟨hextract, hkept⟩ := extract_spec hm hp (limit - g.count)
    unfold gather
    dsimp only
    by_cases hfull : g.count ≥ limit
    · rw [if_pos hfull]
      exact ⟨fun k => rfl, Kept.refl m, hg, rfl, rfl⟩
    rw [if_neg hfull]
    by_cases hself : slot = index
    · rw [if_pos hself]
      exact hskip
    rw [if_neg hself]
    by_cases hother : (m.displayStack slot).isEmpty || !(m.displayStack slot).sameItem g
    · rw [if_pos hother]
      exact hskip
    rw [if_neg hother]
    by_cases hnone : (m.extract slot (limit - g.count)).1.isEmpty
    · rw [if_pos hnone, extract_nothing hnone]
      exact hskip
    rw [if_neg hnone]
    simp only [Bool.or_eq_true, Bool.not_eq_true', not_or, Bool.not_eq_false] at hother
    obtain ⟨-, hid, hc⟩ := ItemStack.sameItem_iff.mp hother.2
    have htaken := extract_taken m slot (limit - g.count)
    have hroom : (m.extract slot (limit - g.count)).1.count ≤ limit - g.count := by
      rw [htaken, (ItemStack.split_count _ _).1]
      exact Nat.min_le_left _ _
    have hsame : g.sameItem (m.extract slot (limit - g.count)).1 := by
      have hkind := (ItemStack.split_kind (m.displayStack slot) (limit - g.count)).1
      rw [← htaken] at hkind
      obtain ⟨hid', hc'⟩ := hkind.resolve_left hnone
      refine ItemStack.sameItem_iff.mpr ⟨hne, hid'.trans hid |>.symm, ?_⟩
      rw [hc']
      exact ItemComponents.partialEq_symm _ _ hc
    obtain ⟨hamount, hcount, hitem, hnonempty⟩ := merge_room hsame hnone hlimit hroom
    obtain ⟨hrest, hkept', hle, hitem', hcursor⟩ := gather_spec index limit hlimit slots
      (g.mergeCapped (m.extract slot (limit - g.count)).1 limit).1 (Insert.insert slot changed)
      (hkept.sound hm) hnonempty (by omega) fun j hj => by
        rw [hkept.frame.slots]
        exact hslots j (List.mem_cons_of_mem _ hj)
    refine ⟨fun k => ?_, hkept.trans hkept', hle, hitem'.trans hitem,
      hcursor.trans (extract_cursor m slot _)⟩
    have h1 := hextract k
    have h2 := hrest k
    rw [tally_singleton, tally_singleton, hamount k] at h2
    simp only [tally_singleton, tally_nil] at *
    omega

/-! ## Left and right clicks -/

/-- The left click that exchanges the cursor with a slot too small for it. -/
def CutsExchange (m : Menu) (i : Nat) : Prop :=
  ¬(m.displayStack i).isEmpty ∧ ¬(m.displayStack i).sameItem m.cursor ∧
    m.slotLimit i m.cursor < m.cursor.count

/-- A handler keeps the limits, and succeeds without moving items exactly when it is `bad`. -/
structure Moves (bad : Prop) (m : Menu) (r : Handled) : Prop where
  kept : Kept m r.2
  balanced : ∀ o, r.1 = .ok o → (Balanced [] o.dropped m r.2 ↔ ¬bad)
  succeeds : bad → ∃ o, r.1 = .ok o

theorem Moved.moves {bad : Prop} {m : Menu} {r : Handled} (h : Moved m r) (hbad : ¬bad) :
    Moves bad m r :=
  ⟨h.kept, fun o ho => iff_of_true (h.balanced o ho) hbad, fun h => absurd h hbad⟩

theorem Moves.of_iff {bad bad' : Prop} {m : Menu} {r : Handled} (h : Moves bad m r)
    (hiff : bad' ↔ bad) : Moves bad' m r := by
  rw [propext hiff]
  exact h

theorem clamped_cut {m : Menu} {i : Nat}
    (hcursor : ¬m.cursor.isEmpty) (hcut : m.slotLimit i m.cursor < m.cursor.count) :
    (m.clamped i m.cursor).amount (m.cursor.itemId, m.cursor.components) =
      m.slotLimit i m.cursor := by
  have hle := le_trans (m.slotLimit_le_itemLimit i m.cursor) (m.itemLimit_le m.cursor)
  have hof : m.cursor.OfKey (m.cursor.itemId, m.cursor.components) := ⟨rfl, SameKey.refl _⟩
  rw [clamped, if_neg (not_or.mpr ⟨hcursor, by omega⟩), ItemStack.amount_keep _ hle hcursor,
    if_pos hof]

theorem exchange_moves {m : Menu} (hm : Sound m) {i : Nat} {p : SlotMapping}
    (hp : m.slots[i]? = some p) (hcursor : ¬m.cursor.isEmpty) {o : ClickOutcome}
    (ho : o.dropped = []) :
    Moves (m.slotLimit i m.cursor < m.cursor.count) m
      (.ok o, (m.putContainer p.container p.slot (m.clamped i m.cursor)).setCursor
        (m.displayStack i)) := by
  obtain ⟨hkept, hbalanced⟩ := exchange_spec hm hp
  refine ⟨hkept, fun o' ho' => ?_, fun _ => ⟨o, rfl⟩⟩
  obtain rfl : o = o' := by injection ho'
  rw [ho]
  constructor
  · intro h hcut
    have h1 := h (m.cursor.itemId, m.cursor.components)
    have h2 := hbalanced (m.cursor.itemId, m.cursor.components)
    simp only [tally_singleton, tally_nil, clamped_cut hcursor hcut, ItemStack.amount_self] at *
    omega
  · intro hfits k
    have h1 := hbalanced k
    rw [clamped_of_le (by omega)] at h1 ⊢
    simp only [tally_singleton, tally_nil] at *
    omega

/-- A click on an existing slot. -/
theorem clickPickup_slot {m : Menu} (hm : Sound m) {c : Click} {i : Nat} {p : SlotMapping}
    (hslot : c.slotIndex = some i) (hp : m.slots[i]? = some p) :
    Moves (p.mayPlace ∧ ¬m.cursor.isEmpty ∧ ¬c.secondary ∧ m.CutsExchange i) m
      (m.clickPickup c) := by
  unfold clickPickup
  rw [hslot]
  dsimp only
  rw [mappingOf_eq_ok hp]
  dsimp only
  by_cases hcursor : m.cursor.isEmpty
  · rw [if_pos hcursor]
    refine Moved.moves ?_ fun h => h.2.1 hcursor
    split
    · exact Moved.same m rfl
    · generalize (if c.secondary then ((m.displayStack i).count + 1) / 2
        else (m.displayStack i).count) = n
      split
      · next hnone =>
        rw [extract_nothing hnone]
        exact Moved.same m rfl
      · obtain ⟨hkept, hbalanced⟩ := takeToCursor_moved hm hp hcursor n
        exact Moved.ok hkept hbalanced
  rw [if_neg hcursor]
  by_cases hplace : p.mayPlace
  · simp only [hplace, Bool.not_true, Bool.false_eq_true, if_false]
    by_cases hempty : (m.displayStack i).isEmpty
    · rw [if_pos hempty]
      obtain ⟨hbalanced, hkept⟩ := place_spec hm i (if c.secondary then 1 else m.cursor.count)
      exact (Moved.ok hkept hbalanced).moves fun h => h.2.2.2.1 hempty
    rw [if_neg hempty]
    by_cases hsame : (m.displayStack i).sameItem m.cursor
    · simp only [hsame, Bool.not_true, Bool.false_eq_true, if_false]
      refine Moved.moves ?_ fun h => h.2.2.2.2.1 hsame
      split
      · exact Moved.same m rfl
      · obtain ⟨hbalanced, hkept⟩ := place_spec hm i
          (if c.secondary then min 1 (m.slotLimit i (m.displayStack i) - (m.displayStack i).count)
            else m.slotLimit i (m.displayStack i) - (m.displayStack i).count)
        exact Moved.ok hkept hbalanced
    · simp only [hsame, Bool.not_false, if_true]
      by_cases hright : c.secondary
      · rw [if_pos hright]
        exact (Moved.same m rfl).moves fun h => h.2.2.1 hright
      · rw [if_neg hright, setSlot_eq hp]
        have hexchange := exchange_moves hm hp hcursor (o := { ClickOutcome.default with
          changedSlots := {i}, cursorChanged := true }) rfl
        refine hexchange.of_iff ?_
        simp [CutsExchange, hempty, hsame, hright, hcursor]
  · simp only [hplace, Bool.not_false, if_true]
    exact (Moved.same m rfl).moves fun h => Bool.false_ne_true h.1

/-! ## Number keys -/

/-- The number key whose slot is empty and too small for the cursor. -/
def CopiesCursor (m : Menu) (i : Nat) (target : SwapTarget) : Prop :=
  ∃ partner, m.swapPartner target = some partner ∧ partner ≠ i ∧
    (m.displayStack partner).isEmpty ∧ m.slotLimit partner m.cursor < m.cursor.count

/-- The slot of a key is in the menu, and takes any item. -/
theorem swapPartner_slot {m : Menu} {target : SwapTarget} {partner : Nat}
    (h : m.swapPartner target = some partner) :
    ∃ p, m.slots[partner]? = some p ∧ p.mayPlace := by
  cases target with
  | hotbar hotbar =>
    obtain ⟨hlt, hfound, -⟩ := List.findIdx?_eq_some_iff_getElem.mp h
    refine ⟨_, List.getElem?_eq_getElem hlt, ?_⟩
    simp only [Bool.and_eq_true, beq_iff_eq] at hfound
    simp [SlotMapping.mayPlace, SlotRole.mayPlace, hfound.1.2]
  | offhand =>
    obtain ⟨hlt, hfound, -⟩ := List.findIdx?_eq_some_iff_getElem.mp h
    refine ⟨_, List.getElem?_eq_getElem hlt, ?_⟩
    simp only [beq_iff_eq] at hfound
    simp [SlotMapping.mayPlace, SlotRole.mayPlace, hfound]

theorem swapSlots_moved {m : Menu} (hm : Sound m) {i j : Nat} {p q : SlotMapping}
    (hp : m.slots[i]? = some p) (hq : m.slots[j]? = some q) (hij : j ≠ i) :
    Moved m (m.swapSlots i j p q) := by
  unfold swapSlots
  dsimp only
  split
  · exact Moved.same m rfl
  split
  · exact Moved.same m rfl
  split
  · exact Moved.same m rfl
  next hb =>
  split
  · exact Moved.same m rfl
  next ha =>
  have hfits {n : Nat} {s : ItemStack}
      (h : ¬((!s.isEmpty && decide (s.count > m.slotLimit n s)) = true)) :
      s.count ≤ m.slotLimit n s := by
    by_cases he : s.isEmpty
    · rw [(ItemStack.isEmpty_iff_count s).mp he]
      exact Nat.zero_le _
    · simpa [he] using h
  have hkept := putContainer_kept hp (hfits hb)
  rw [setSlot_fits hp (hfits hb)]
  dsimp only
  have hq' : (m.putContainer p.container p.slot (m.displayStack j)).slots[j]? = some q := hq
  have hfits' : (m.displayStack i).count ≤
      (m.putContainer p.container p.slot (m.displayStack j)).slotLimit j (m.displayStack i) := by
    rw [hkept.frame.slotLimit]
    exact hfits ha
  rw [setSlot_fits hq' hfits']
  refine Moved.ok (hkept.trans (putContainer_kept hq' hfits')) fun k => ?_
  have h1 := putContainer_balanced hp (m.displayStack j) k
  have h2 := putContainer_balanced hq' (m.displayStack i) k
  rw [(displayStack_put hm.noAlias hp (m.displayStack j)).2 j hij] at h2
  simp only [tally_singleton, tally_nil, ClickOutcome.default] at *
  omega

/-- `clickSwap` with a slot, its partner, and nothing on the way. -/
theorem clickSwap_slot {m : Menu} (hm : Sound m) {c : Click} {i : Nat} {p : SlotMapping}
    {target : SwapTarget} (hslot : c.slotIndex = some i) (htarget : c.swapTarget = some target)
    (hp : m.slots[i]? = some p) :
    Moves (p.mayPlace ∧ ¬m.cursor.isEmpty ∧ m.CopiesCursor i target) m (m.clickSwap c) := by
  unfold clickSwap
  rw [hslot, htarget]
  dsimp only
  rw [mappingOf_eq_ok hp]
  dsimp only
  cases hpartner : m.swapPartner target with
  | none =>
    refine (Moved.same m rfl).moves ?_
    rintro ⟨-, -, partner, hsome, -⟩
    rw [hpartner] at hsome
    cases hsome
  | some partner =>
    have hbad : m.CopiesCursor i target ↔ partner ≠ i ∧ (m.displayStack partner).isEmpty ∧
        m.slotLimit partner m.cursor < m.cursor.count := by
      constructor
      · rintro ⟨partner', hsome, hrest⟩
        rw [hpartner] at hsome
        cases hsome
        exact hrest
      · exact fun h => ⟨partner, hpartner, h⟩
    rw [hbad]
    obtain ⟨q, hq, hqplace⟩ := swapPartner_slot hpartner
    dsimp only
    by_cases hself : partner = i
    · rw [if_pos hself]
      exact (Moved.same m rfl).moves fun h => h.2.2.1 hself
    rw [if_neg hself, mappingOf_eq_ok hq]
    dsimp only
    by_cases hcursor : m.cursor.isEmpty
    · rw [if_pos hcursor]
      exact (swapSlots_moved hm hp hq hself).moves fun h => h.2.1 hcursor
    rw [if_neg hcursor]
    by_cases hinto : (m.displayStack partner).isEmpty && p.mayPlace
    · rw [if_pos hinto]
      simp only [Bool.and_eq_true] at hinto
      obtain ⟨-, -, -, hcount, -⟩ :=
        insert_open hq hcursor hqplace (.inl hinto.1) (hm.within.1 partner)
      obtain ⟨hbalanced, hkept, -⟩ := insert_spec hm partner m.cursor
      have hempty := (ItemStack.isEmpty_iff_count _).mp hinto.1
      by_cases hover : (m.insert partner m.cursor).1.isEmpty
      · rw [if_pos hover]
        have hzero := (ItemStack.isEmpty_iff_count _).mp hover
        refine Moved.moves ?_ fun h => by omega
        have hnothing : (ItemStack.EMPTY).count ≤
            (m.insert partner m.cursor).2.itemLimit ItemStack.EMPTY := Nat.zero_le _
        rw [setCursor_fits hnothing]
        refine Moved.ok (hkept.trans (cursor_kept hnothing)) fun k => ?_
        have h1 := hbalanced k
        have h2 := cursor_balanced (m.insert partner m.cursor).2 ItemStack.EMPTY k
        rw [insert_cursor] at h2
        simp only [tally_singleton, tally_nil, ClickOutcome.default,
          ItemStack.amount_of_isEmpty k hover, ItemStack.amount_EMPTY] at *
        omega
      · rw [if_neg hover]
        have hpos := mt (ItemStack.isEmpty_iff_count _).mpr hover
        refine ⟨hkept, fun o ho => ?_, fun _ => ⟨_, rfl⟩⟩
        obtain rfl : ClickOutcome.default = o := by injection ho
        refine iff_of_false (fun h => ?_) fun h => h ⟨hinto.2, hcursor, hself, hinto.1, by omega⟩
        -- the slot got its fill, and the cursor was not touched
        have h1 := h (m.cursor.itemId, m.cursor.components)
        have h2 := hbalanced (m.cursor.itemId, m.cursor.components)
        have h3 := ItemStack.amount_le_count (m.cursor.itemId, m.cursor.components)
          (m.insert partner m.cursor).1
        have hlimit := m.slotLimit_pos hq hcursor
        simp only [tally_singleton, tally_nil, ClickOutcome.default, ItemStack.amount_self] at *
        omega
    · rw [if_neg hinto]
      simp only [Bool.and_eq_true, not_and] at hinto
      exact (Moved.same m rfl).moves fun h => hinto h.2.2.2.1 h.1

/-! ## Shift-clicks, drags and double clicks -/

theorem clickQuickMove_slot {m : Menu} (hm : Sound m) {c : Click} {i : Nat} {p : SlotMapping}
    (hslot : c.slotIndex = some i) (hp : m.slots[i]? = some p) : Moved m (m.clickQuickMove c) := by
  unfold clickQuickMove
  rw [hslot]
  dsimp only
  rw [mappingOf_eq_ok hp]
  dsimp only
  split
  · exact Moved.same m rfl
  obtain ⟨hextract, hkept⟩ := extract_spec hm hp (m.displayStack i).count
  obtain ⟨hmove, hkept'⟩ := moveThrough_spec i
    (((m.extract i (m.displayStack i).count).2.layout.transferOrder i).flatMap SlotRange.toList)
    (m.extract i (m.displayStack i).count).1 ∅ (hkept.sound hm)
  generalize moveThrough i (((m.extract i (m.displayStack i).count).2.layout.transferOrder i).flatMap
    SlotRange.toList) (m.extract i (m.displayStack i).count).1 ∅
    (m.extract i (m.displayStack i).count).2 = moved at *
  obtain ⟨hback, hkept'', -⟩ := insert_spec ((hkept.trans hkept').sound hm) i moved.1
  split
  · next hnone =>
    have hall : Balanced [] [] m (moved.2.2.insert i moved.1).2 := by
      intro k
      have h1 := hextract k
      have h2 := hmove k
      have h3 := hback.lost_empty hnone k
      simp only [tally_singleton, tally_nil] at *
      omega
    exact Moved.ok ((hkept.trans hkept').trans hkept'') hall
  · exact Moved.error ((hkept.trans hkept').trans hkept'')

theorem dragEnd_moved {m : Menu} (hm : Sound m) (kind : DragType) (slots : List Nat) :
    Moved m (m.dragEnd kind slots) := by
  unfold dragEnd
  dsimp only
  cases kind with
  | one =>
    obtain ⟨hbalanced, hkept⟩ := dragEach_spec (fun _ _ => 1) slots ClickOutcome.default hm
    exact Moved.ok hkept hbalanced
  | full =>
    obtain ⟨hbalanced, hkept⟩ := dragEach_spec dragRoom slots ClickOutcome.default hm
    exact Moved.ok hkept hbalanced
  | even =>
    dsimp only
    split
    · exact Moved.same m rfl
    · obtain ⟨hbalanced, hkept⟩ := dragEven_spec (m.cursor.count / (m.dragAccepted slots).length)
        (m.cursor.count % (m.dragAccepted slots).length) (m.dragAccepted slots)
        ClickOutcome.default hm
      exact Moved.ok hkept hbalanced

theorem clickQuickCraft_moved {m : Menu} (hm : Sound m) (c : Click) :
    Moved m (m.clickQuickCraft c) := by
  unfold clickQuickCraft
  split
  · exact Moved.same m rfl
  · exact Moved.ok (drag_kept m _ _) fun k => rfl
  · split
    · exact Moved.same m rfl
    split
    · exact Moved.same m rfl
    split
    · exact Moved.error (Kept.refl m)
    split
    · exact Moved.ok (drag_kept m _ _) fun k => rfl
    · exact Moved.same m rfl
  · next kind _ =>
    dsimp only
    have hkept := drag_kept m [] none
    split
    · exact Moved.ok hkept fun k => rfl
    · have hend := dragEnd_moved (hkept.sound hm) kind m.dragSlots
      exact ⟨hkept.trans hend.kept, fun o ho => hend.balanced o ho⟩

/-- The menu a double click ends on: the gathered stack goes to the cursor, unless it is there. -/
theorem gatherAll_spec {m : Menu} (hm : Sound m) {g : ItemStack} (hg : ¬g.isEmpty)
    (hfits : g.count ≤ m.itemLimit g) (i : Nat) (changed : Finset Nat) :
    let r := gather i (m.itemLimit g) (List.range m.slots.length) g changed m
    let m' := if r.1.partialEq r.2.2.cursor then r.2.2 else r.2.2.setCursor r.1
    Balanced [g] [m.cursor] m m' ∧ Kept m m' := by
  dsimp only
  obtain ⟨hgather, hkept, hle, hid, hcursor⟩ := gather_spec i (m.itemLimit g) (m.itemLimit_le g)
    (List.range m.slots.length) g changed hm hg hfits fun j hj => List.mem_range.mp hj
  generalize gather i (m.itemLimit g) (List.range m.slots.length) g changed m = r at *
  have hfits' : r.1.count ≤ r.2.2.itemLimit r.1 := by
    rw [hkept.frame.itemLimit, m.itemLimit_congr hid]
    exact hle
  split
  · next heq =>
    refine ⟨fun k => ?_, hkept⟩
    have h1 := hgather k
    have h2 := (ItemStack.alike_of_partialEq heq).amount k
    rw [hcursor] at h2
    simp only [tally_singleton] at *
    omega
  · rw [setCursor_fits hfits']
    refine ⟨fun k => ?_, hkept.trans (cursor_kept hfits')⟩
    have h1 := hgather k
    have h2 := cursor_balanced r.2.2 r.1 k
    rw [hcursor] at h2
    simp only [tally_singleton] at *
    omega

theorem clickPickupAll_slot {m : Menu} (hm : Sound m) {c : Click} {i : Nat} {p : SlotMapping}
    (hslot : c.slotIndex = some i) (hp : m.slots[i]? = some p) : Moved m (m.clickPickupAll c) := by
  -- both starts end in a gathering `r` from a menu `m₁` that gave the stack `g`
  have hfinish {m₁ : Menu} {g : ItemStack} {changed : Finset Nat} (hkept : Kept m m₁)
      (hg : ¬g.isEmpty) (hfits : g.count ≤ m₁.itemLimit g)
      (hstart : Balanced [m₁.cursor] [g] m m₁) :
      let r := gather i (m₁.itemLimit g) (List.range m₁.slots.length) g changed m₁
      Moved m (if r.1.partialEq r.2.2.cursor then
          (.ok { ClickOutcome.default with changedSlots := r.2.1 }, r.2.2)
        else (.ok { ClickOutcome.default with changedSlots := r.2.1, cursorChanged := true },
          r.2.2.setCursor r.1)) := by
    obtain ⟨hbalanced, hkept'⟩ := gatherAll_spec (hkept.sound hm) hg hfits i changed
    dsimp only at *
    generalize gather i (m₁.itemLimit g) (List.range m₁.slots.length) g changed m₁ = r at *
    have hall : Balanced [] [] m (if r.1.partialEq r.2.2.cursor then r.2.2 else
        r.2.2.setCursor r.1) := by
      intro k
      have h1 := hstart k
      have h2 := hbalanced k
      simp only [tally_singleton, tally_nil] at *
      omega
    by_cases heq : r.1.partialEq r.2.2.cursor
    · rw [if_pos heq] at hall hkept' ⊢
      exact Moved.ok (hkept.trans hkept') hall
    · rw [if_neg heq] at hall hkept' ⊢
      exact Moved.ok (hkept.trans hkept') hall
  unfold clickPickupAll
  rw [hslot]
  dsimp only
  rw [mappingOf_eq_ok hp]
  dsimp only
  by_cases hpick : p.mayPickup
  swap
  · simp only [hpick, Bool.not_false, if_true]
    exact Moved.same m rfl
  simp only [hpick, Bool.not_true, Bool.false_eq_true, if_false]
  split
  · exact Moved.same m rfl
  by_cases hcursor : m.cursor.isEmpty
  · obtain ⟨hextract, hkept⟩ := extract_spec hm hp (m.displayStack i).count
    simp only [hcursor, if_true]
    by_cases hnone : (m.extract i (m.displayStack i).count).1.isEmpty
    · rw [if_pos hnone, extract_nothing hnone]
      exact Moved.same m rfl
    rw [if_neg hnone]
    refine hfinish hkept hnone ?_ fun k => ?_
    · rw [hkept.frame.itemLimit, extract_taken]
      refine itemLimit_of_kind (m := m) (ItemStack.split_kind (m.displayStack i) _).1 ?_
      have := display_le_itemLimit hm i
      rw [(ItemStack.split_count (m.displayStack i) _).1]
      omega
    · have h1 := hextract k
      simp only [tally_singleton, tally_nil, extract_cursor,
        ItemStack.amount_of_isEmpty k hcursor] at h1 ⊢
      exact h1
  · simp only [hcursor, Bool.false_eq_true, if_false]
    exact hfinish (Kept.refl m) hcursor hm.within.2 fun k => rfl

/-! ## One click -/

/-- Where items are lost or copied: a click the menu handles, on a slot that takes items, with
items on the cursor. -/
def Overfills (m : Menu) (c : Click) : Prop :=
  c.windowId = m.windowId ∧ c.stateId = m.stateId ∧ ∃ i p, c.slotIndex = some i ∧
    m.slots[i]? = some p ∧ p.mayPlace ∧ ¬m.cursor.isEmpty ∧
    ((c.clickType = .pickup ∧ ¬c.secondary ∧ m.CutsExchange i) ∨
      (c.clickType = .swap ∧ ∃ target, c.swapTarget = some target ∧ m.CopiesCursor i target))

/-- A clone moves nothing in a menu that is not creative. -/
theorem clickClone_survival {m : Menu} (h : m.creative = false) (c : Click) :
    m.clickClone c = (.ok ClickOutcome.default, m) := by
  simp [clickClone, h]

theorem setCursor_kept (m : Menu) (s : ItemStack) : Kept m (m.setCursor s) := by
  unfold setCursor
  dsimp only
  split
  · next h =>
    simp only [Bool.and_eq_true, decide_eq_true_eq] at h
    refine cursor_kept (itemLimit_of_kind (s := s) (ItemStack.split_kind s _).2 ?_)
    rw [ItemStack.shrink, (ItemStack.split_count s _).2]
    omega
  · next h =>
    refine cursor_kept ?_
    by_cases he : s.isEmpty
    · rw [(ItemStack.isEmpty_iff_count s).mp he]
      exact Nat.zero_le _
    · simpa [he] using h

/-- A clone writes no slot, and its stack is cut to fit the cursor. -/
theorem clickClone_kept (m : Menu) (c : Click) : Kept m (m.clickClone c).2 := by
  unfold clickClone
  dsimp only
  split
  · exact Kept.refl m
  split
  · exact Kept.refl m
  split
  · exact Kept.refl m
  split
  · exact Kept.refl m
  generalize (if c.button = 2 then m.itemLimit _ else ItemStack.count _) = n
  split
  · exact Kept.refl m
  · exact setCursor_kept m _

theorem clickThrow_moved {m : Menu} (hm : Sound m) (c : Click) : Moved m (m.clickThrow c) := by
  unfold clickThrow
  dsimp only
  split
  · next i _ =>
    split
    · exact Moved.error (Kept.refl m)
    · next p hmap =>
      split
      · exact Moved.same m rfl
      generalize (if c.secondary then (m.displayStack i).count else 1) = n
      obtain ⟨hbalanced, hkept⟩ := extract_spec hm (mappingOf_ok hmap) n
      split
      · next hnone =>
        rw [extract_nothing hnone]
        exact Moved.same m rfl
      · exact Moved.ok hkept hbalanced
  · split
    · exact Moved.same m rfl
    · exact dropCursor_moved m _

/-- Where a click points. -/
theorem slotIndex_cases (m : Menu) (c : Click) : c.slotIndex = none ∨
    (∃ i, c.slotIndex = some i ∧ m.slots[i]? = none) ∨
      ∃ i p, c.slotIndex = some i ∧ m.slots[i]? = some p := by
  cases hslot : c.slotIndex with
  | none => exact .inl rfl
  | some i =>
    cases hp : m.slots[i]? with
    | none => exact .inr (.inl ⟨i, rfl, hp⟩)
    | some p => exact .inr (.inr ⟨i, p, rfl, hp⟩)

theorem clickQuickMove_moved {m : Menu} (hm : Sound m) (c : Click) :
    Moved m (m.clickQuickMove c) := by
  rcases m.slotIndex_cases c with hslot | ⟨i, hslot, hp⟩ | ⟨i, p, hslot, hp⟩
  · simp only [clickQuickMove, hslot]
    exact Moved.same m rfl
  · simp only [clickQuickMove, hslot, mappingOf, hp]
    exact Moved.error (Kept.refl m)
  · exact clickQuickMove_slot hm hslot hp

theorem clickPickupAll_moved {m : Menu} (hm : Sound m) (c : Click) :
    Moved m (m.clickPickupAll c) := by
  rcases m.slotIndex_cases c with hslot | ⟨i, hslot, hp⟩ | ⟨i, p, hslot, hp⟩
  · simp only [clickPickupAll, hslot]
    exact Moved.same m rfl
  · simp only [clickPickupAll, hslot, mappingOf, hp]
    exact Moved.error (Kept.refl m)
  · exact clickPickupAll_slot hm hslot hp

/-- The part of `Overfills` about a slot, for a handled click on that slot. -/
theorem overfills_at {m : Menu} {c : Click} (hid : c.windowId = m.windowId)
    (hstate : c.stateId = m.stateId) {i : Nat} {p : SlotMapping} (hslot : c.slotIndex = some i)
    (hp : m.slots[i]? = some p) : Overfills m c ↔ p.mayPlace ∧ ¬m.cursor.isEmpty ∧
      ((c.clickType = .pickup ∧ ¬c.secondary ∧ m.CutsExchange i) ∨
        (c.clickType = .swap ∧ ∃ target, c.swapTarget = some target ∧ m.CopiesCursor i target)) := by
  constructor
  · rintro ⟨-, -, i', p', hslot', hp', h⟩
    rw [hslot] at hslot'
    cases hslot'
    rw [hp] at hp'
    cases hp'
    exact h
  · exact fun h => ⟨hid, hstate, i, p, hslot, hp, h⟩

theorem not_overfills_of_slot {m : Menu} {c : Click}
    (h : ∀ i p, c.slotIndex = some i → m.slots[i]? ≠ some p) : ¬Overfills m c := by
  rintro ⟨-, -, i, p, hslot, hp, -⟩
  exact h i p hslot hp

theorem clickPickup_moves {m : Menu} (hm : Sound m) {c : Click} (htype : c.clickType = .pickup)
    (hid : c.windowId = m.windowId) (hstate : c.stateId = m.stateId) :
    Moves (Overfills m c) m (m.clickPickup c) := by
  rcases m.slotIndex_cases c with hslot | ⟨i, hslot, hp⟩ | ⟨i, p, hslot, hp⟩
  · refine Moved.moves ?_ (not_overfills_of_slot fun i p h => by simp [hslot] at h)
    simp only [clickPickup, hslot]
    split
    · exact Moved.same m rfl
    · exact dropCursor_moved m _
  · refine Moved.moves ?_ (not_overfills_of_slot fun i' p h => ?_)
    · simp only [clickPickup, hslot, mappingOf, hp]
      exact Moved.error (Kept.refl m)
    · obtain rfl : i = i' := by simpa [hslot] using h
      simp [hp]
  · refine (clickPickup_slot hm hslot hp).of_iff ?_
    rw [overfills_at hid hstate hslot hp]
    simp [htype]

theorem clickSwap_moves {m : Menu} (hm : Sound m) {c : Click} (htype : c.clickType = .swap)
    (hid : c.windowId = m.windowId) (hstate : c.stateId = m.stateId) :
    Moves (Overfills m c) m (m.clickSwap c) := by
  rcases m.slotIndex_cases c with hslot | ⟨i, hslot, hp⟩ | ⟨i, p, hslot, hp⟩
  · refine Moved.moves ?_ (not_overfills_of_slot fun i p h => by simp [hslot] at h)
    simp only [clickSwap, hslot]
    exact Moved.same m rfl
  · refine Moved.moves ?_ (not_overfills_of_slot fun i' p h => ?_)
    · cases htarget : c.swapTarget with
      | none =>
        simp only [clickSwap, hslot, htarget]
        exact Moved.same m rfl
      | some target =>
        simp only [clickSwap, hslot, htarget, mappingOf, hp]
        exact Moved.error (Kept.refl m)
    · obtain rfl : i = i' := by simpa [hslot] using h
      simp [hp]
  · cases htarget : c.swapTarget with
    | none =>
      refine Moved.moves ?_ ?_
      · simp only [clickSwap, hslot, htarget]
        exact Moved.same m rfl
      · rw [overfills_at hid hstate hslot hp]
        simp [htype, htarget]
    | some target =>
      refine (clickSwap_slot hm hslot htarget hp).of_iff ?_
      rw [overfills_at hid hstate hslot hp]
      simp [htype, htarget]

theorem handle_moves {m : Menu} (hm : Sound m) {c : Click} (hclone : c.clickType ≠ .clone)
    (hid : c.windowId = m.windowId) (hstate : c.stateId = m.stateId) :
    Moves (Overfills m c) m (m.handle c) := by
  have hnever (h : c.clickType ≠ .pickup) (h' : c.clickType ≠ .swap) : ¬Overfills m c := by
    rintro ⟨-, -, i, p, -, -, -, -, h1 | h1⟩
    · exact h h1.1
    · exact h' h1.1
  unfold handle
  split
  · next htype => exact clickPickup_moves hm htype hid hstate
  · next htype => exact (clickQuickMove_moved hm c).moves (hnever (by simp [htype]) (by simp [htype]))
  · next htype => exact clickSwap_moves hm htype hid hstate
  · next htype => exact absurd htype hclone
  · next htype => exact (clickThrow_moved hm c).moves (hnever (by simp [htype]) (by simp [htype]))
  · next htype =>
    exact (clickQuickCraft_moved hm c).moves (hnever (by simp [htype]) (by simp [htype]))
  · next htype =>
    exact (clickPickupAll_moved hm c).moves (hnever (by simp [htype]) (by simp [htype]))

/-- The check of the slot in `apply_click`. -/
theorem slot_checked (m : Menu) (c : Click) :
    ((∃ i, c.slotIndex = some i ∧ m.slots[i]? = none) ∧
      ∃ e, c.slotIndex.mapM m.mappingOf = .error e) ∨
    ∃ p, c.slotIndex.mapM m.mappingOf = .ok p := by
  rcases m.slotIndex_cases c with hslot | ⟨i, hslot, hp⟩ | ⟨i, p, hslot, hp⟩
  · exact .inr ⟨none, by rw [hslot]; rfl⟩
  · refine .inl ⟨⟨i, hslot, hp⟩, .invalidAction s!"slot {i} does not exist in this menu", ?_⟩
    rw [hslot, Option.mapM_some, mappingOf, hp]
    rfl
  · refine .inr ⟨some p, ?_⟩
    rw [hslot, Option.mapM_some, mappingOf_eq_ok hp]
    rfl

/-- What `apply_click` comes to: a refusal, a resync, or the handler and a new state id. -/
theorem applyClick_cases (m : Menu) (c : Click) :
    ((c.windowId ≠ m.windowId ∨ ∃ i, c.slotIndex = some i ∧ m.slots[i]? = none) ∧
      ∃ e, m.applyClick c = (.error e, m)) ∨
    (c.stateId ≠ m.stateId ∧
      m.applyClick c = (.ok { ClickOutcome.default with fullResync := true }, m)) ∨
    (c.windowId = m.windowId ∧ c.stateId = m.stateId ∧
      ((∃ e, (m.handle c).1 = .error e ∧ m.applyClick c = m.handle c) ∨
        ∃ o, (m.handle c).1 = .ok o ∧ m.applyClick c = (.ok o, (m.handle c).2.bumpState))) := by
  unfold applyClick
  by_cases hid : c.windowId ≠ m.windowId
  · rw [if_pos hid]
    exact .inl ⟨.inl hid, _, rfl⟩
  rw [if_neg hid]
  rcases m.slot_checked c with ⟨hnone, e, herr⟩ | ⟨p, hok⟩
  · rw [herr]
    exact .inl ⟨.inr hnone, e, rfl⟩
  rw [hok]
  dsimp only
  by_cases hstate : c.stateId ≠ m.stateId
  · rw [if_pos hstate]
    exact .inr (.inl ⟨hstate, rfl⟩)
  rw [if_neg hstate]
  refine .inr (.inr ⟨not_not.mp hid, not_not.mp hstate, ?_⟩)
  split
  · next e m' h => exact .inl ⟨e, by rw [h], h.symm⟩
  · next o m' h => exact .inr ⟨o, by rw [h], by rw [h]⟩

theorem bumpState_kept (m : Menu) : Kept m m.bumpState :=
  ⟨⟨rfl, rfl, rfl, rfl, rfl⟩, fun h => ⟨h.noAlias, h.within⟩⟩

theorem applyClick_kept {m : Menu} (hm : Sound m) (c : Click) : Kept m (m.applyClick c).2 := by
  rcases m.applyClick_cases c with ⟨-, e, h⟩ | ⟨-, h⟩ | ⟨hid, hstate, h⟩
  · rw [h]
    exact Kept.refl m
  · rw [h]
    exact Kept.refl m
  · have hkept : Kept m (m.handle c).2 := by
      by_cases hclone : c.clickType = .clone
      · simp only [handle, hclone]
        exact clickClone_kept m c
      · exact (handle_moves hm hclone hid hstate).kept
    rcases h with ⟨e, -, h⟩ | ⟨o, -, h⟩
    · rw [h]
      exact hkept
    · rw [h]
      exact hkept.trans (bumpState_kept _)

/-- One click neither makes nor loses items: what it drops is counted; a clone of a menu that is
not creative changes nothing but the state id. -/
def Conserves (m : Menu) (c : Click) : Prop :=
  if c.clickType = .clone then m.creative = false →
    (m.applyClick c).2 = m ∨ (m.applyClick c).2 = m.bumpState
  else ∀ o, (m.applyClick c).1 = .ok o → ∀ k,
    m.total k = (m.applyClick c).2.total k + tally (ItemStack.amount k) o.dropped

theorem clone_conserves (m : Menu) {c : Click} (h : c.clickType = .clone) : Conserves m c := by
  rw [Conserves, if_pos h]
  intro hcreative
  rcases m.applyClick_cases c with ⟨-, e, happly⟩ | ⟨-, happly⟩ | ⟨-, -, happly⟩
  · rw [happly]
    exact .inl rfl
  · rw [happly]
    exact .inl rfl
  · have hhandle : m.handle c = (.ok ClickOutcome.default, m) := by
      simp only [handle, h, clickClone_survival hcreative]
    rcases happly with ⟨e, herr, -⟩ | ⟨o, -, happly⟩
    · rw [hhandle] at herr
      cases herr
    · rw [happly, hhandle]
      exact .inr rfl

theorem conserves_iff {m : Menu} (hm : Sound m) (c : Click) : Conserves m c ↔ ¬Overfills m c := by
  by_cases hclone : c.clickType = .clone
  · refine iff_of_true (clone_conserves m hclone) ?_
    rintro ⟨-, -, i, p, -, -, -, -, h | h⟩
    · rw [hclone] at h
      cases h.1
    · rw [hclone] at h
      cases h.1
  rw [Conserves, if_neg hclone]
  rcases m.applyClick_cases c with ⟨hwhy, e, happly⟩ | ⟨hstale, happly⟩ | ⟨hid, hstate, happly⟩
  · refine iff_of_true (fun o ho => ?_) fun h => ?_
    · rw [happly] at ho
      cases ho
    · obtain ⟨hid, -, i, p, hslot, hp, -⟩ := h
      rcases hwhy with hwindow | ⟨i', hslot', hp'⟩
      · exact hwindow hid
      · obtain rfl : i = i' := by simpa [hslot] using hslot'
        simp [hp] at hp'
  · refine iff_of_true (fun o ho k => ?_) fun h => hstale h.2.1
    rw [happly] at ho ⊢
    cases ho
    simp [ClickOutcome.default]
  · obtain ⟨-, hbalanced, hsucceeds⟩ := handle_moves hm hclone hid hstate
    rcases happly with ⟨e, herr, happly⟩ | ⟨o, hok, happly⟩
    · refine iff_of_true (fun o ho => ?_) fun h => ?_
      · rw [happly, herr] at ho
        cases ho
      · obtain ⟨o, ho⟩ := hsucceeds h
        rw [herr] at ho
        cases ho
    · rw [happly, ← hbalanced o hok]
      constructor
      · intro h k
        have := h o rfl k
        simp only [bumpState, total_stateId, tally_nil] at *
        omega
      · intro h o' ho' k
        cases ho'
        have := h k
        simp only [bumpState, total_stateId, tally_nil] at *
        omega

/-! ## Runs -/

/-- A menu takes its clicks one after another; an error leaves what the handler left. -/
def click (m : Menu) (c : Click) : Menu := (m.applyClick c).2

theorem click_sound (m : Menu) (c : Click) (hm : Sound m) : Sound (m.click c) :=
  (applyClick_kept hm c).sound hm

/-- Over any sequence of clicks from a menu within its limits, every click conserves items exactly
when no click overfills a slot. -/
theorem run_conserves_iff (m : Menu) (hm : Sound m) (clicks : List Click) :
    Along click Conserves m clicks ↔ Along click (fun m c => ¬Overfills m c) m clicks := by
  have hsound : ∀ m c, Sound m → Sound (m.click c) := click_sound
  exact along_iff hsound (fun _ c h => conserves_iff h c) clicks hm

/-- A slot of limit 1 with an item in it, a slot of limit 1 for key 1, and two items of another
kind on the cursor. -/
def narrow : Menu where
  windowId := 0
  stateId := 0
  containers := [⟨.player, [.ofParts 1 1 [] ItemStack.one_legal, .EMPTY], ∅, by decide⟩]
  slots := [⟨0, 0, .storage, 1⟩, ⟨0, 1, .storage, 1⟩]
  layout := ⟨[⟨0, 2⟩], 0⟩
  cursor := .ofParts 2 2 [] ItemStack.two_legal
  stackSizes := .default
  creative := false
  dragSlots := []
  dragType := none
  slotCount := by decide
  mapped := by
    intro p hp
    simp only [List.mem_cons, List.not_mem_nil, or_false] at hp
    rcases hp with rfl | rfl
    · exact ⟨⟨_, rfl, by decide⟩, by decide, by decide⟩
    · exact ⟨⟨_, rfl, by decide⟩, by decide, by decide⟩

theorem narrow_sound : Sound narrow := by
  refine ⟨by decide, fun i => ?_, by decide⟩
  match i with
  | 0 => decide
  | 1 => decide
  | i + 2 => exact Nat.zero_le _

/-- Left click on the full slot, and key 1 over it. -/
def leftClick : Click := ⟨0, 0, 0, 0, .pickup, false, none, none, none⟩
def keyClick : Click := ⟨0, 0, 0, 1, .swap, false, some (.hotbar 1), none, none⟩

theorem run_conserves_narrow : Along click Conserves narrow [leftClick] ↔
    Along click (fun m c => ¬Overfills m c) narrow [leftClick] :=
  run_conserves_iff narrow narrow_sound [leftClick]

theorem narrow_loses_and_copies :
    Menu.new 0 narrow.containers narrow.slots narrow.layout .default =
        .ok { narrow with cursor := .EMPTY } ∧
      Click.new 0 0 0 0 0 = .ok leftClick ∧ Click.new 0 0 0 1 2 = .ok keyClick ∧ Sound narrow ∧
      ¬Conserves narrow leftClick ∧ ¬Conserves narrow keyClick := by
  refine ⟨rfl, by decide, by decide, narrow_sound, ?_, ?_⟩
  · intro h
    have h1 := h _ rfl (2, [])
    revert h1
    decide
  · intro h
    have h1 := h _ rfl (2, [])
    revert h1
    decide

end Menu
end Apoptosis.L2
