import Apoptosis.L2Items.MenuBuild
import Apoptosis.L2Items.MenuConserve
/-!
# Refused clicks (`container/src/menu.rs`)

A click that is refused, or stale, should leave the menu alone. One does not:
a shift-click empties its slot before it looks for room, and what is left over
goes back through `insert`, which a slot that only gives refuses.

* `moveThrough_count`: what a shift-click leaves over.
* `atomic_iff`: one click.
* `refused_clicks_iff`: any sequence of clicks.
-/
namespace Apoptosis.L2
open Apoptosis.Core Apoptosis.L1.Components

namespace Menu

/-! ## Room -/

/-- How many items of the stack the slot takes. -/
def room (m : Menu) (s : ItemStack) (j : Nat) : Nat :=
  match m.slots[j]? with
  | some p =>
    if p.mayPlace && ((m.displayStack j).isEmpty || (m.displayStack j).sameItem s) then
      m.slotLimit j s - (m.displayStack j).count
    else 0
  | none => 0

theorem room_open {m : Menu} {j : Nat} {p : SlotMapping} {s : ItemStack} (hp : m.slots[j]? = some p)
    (hplace : p.mayPlace) (hopen : (m.displayStack j).isEmpty ∨ (m.displayStack j).sameItem s) :
    m.room s j = m.slotLimit j s - (m.displayStack j).count := by
  rw [room, hp]
  exact if_pos (by simpa [hplace] using hopen)

theorem room_closed {m : Menu} {j : Nat} {s : ItemStack}
    (h : ∀ p, m.slots[j]? = some p → p.mayPlace →
      ¬((m.displayStack j).isEmpty ∨ (m.displayStack j).sameItem s)) : m.room s j = 0 := by
  rw [room]
  split
  · next p hp =>
    refine if_neg fun hopen => ?_
    simp only [Bool.and_eq_true, Bool.or_eq_true] at hopen
    exact h p hp hopen.1 hopen.2
  · rfl

/-- A slot has room for a stack by its item and its components. -/
theorem room_congr {m : Menu} {s t : ItemStack} (hid : s.itemId = t.itemId) (hc : s.components = t.components)
    (j : Nat) : m.room s j = m.room t j := by
  have hsame (d : ItemStack) : d.sameItem s = d.sameItem t := by
    rw [ItemStack.sameItem, ItemStack.sameItem, hid, hc]
  simp only [room, hsame, m.slotLimit_congr j hid]

/-- The room of a slot is that of what it shows. -/
theorem room_of_frame {m m' : Menu} (hframe : SameFrame m m') {j : Nat}
    (h : m'.displayStack j = m.displayStack j) (s : ItemStack) : m'.room s j = m.room s j := by
  rw [room, room, hframe.slots, hframe.slotLimit, h]

/-- What an insertion does not take is of the kind of what was offered. -/
theorem insert_kind (m : Menu) (j : Nat) (s : ItemStack) : (m.insert j s).1.isEmpty ∨
    ((m.insert j s).1.itemId = s.itemId ∧ (m.insert j s).1.components = s.components) := by
  unfold insert
  split
  · exact .inl rfl
  next hs =>
  split
  · exact .inr ⟨rfl, rfl⟩
  dsimp only
  split
  · exact .inr ⟨rfl, rfl⟩
  split
  · exact .inr ⟨rfl, rfl⟩
  split
  · split
    · exact (ItemStack.split_kind s _).1
    · exact .inl rfl
  · dsimp only
    rw [leftover_eq]
    rcases ItemStack.merge_cases (m.displayStack j) s with h | ⟨-, hempty⟩ | ⟨-, hsame⟩
    · rw [ItemStack.merge_blocked h]
      exact .inr ⟨rfl, rfl⟩
    · rw [ItemStack.merge_into_empty hempty, if_neg hs]
      exact (ItemStack.split_kind s _).2
    · rw [ItemStack.merge_same hsame hs]
      exact (ItemStack.split_kind s _).2

/-- An insertion takes what there is room for, from no other slot, and where something is left there is no
room any more. -/
theorem insert_room {m : Menu} (hm : Sound m) (j : Nat) (s : ItemStack) :
    (m.insert j s).1.count = s.count - m.room s j ∧
      (∀ k, k ≠ j → (m.insert j s).2.displayStack k = m.displayStack k) ∧
      (¬(m.insert j s).1.isEmpty → (m.insert j s).2.room s j = 0) := by
  by_cases hs : s.isEmpty
  · have hinsert : m.insert j s = (ItemStack.EMPTY, m) := by
      unfold insert
      rw [if_pos hs]
    rw [hinsert, (ItemStack.isEmpty_iff_count s).mp hs]
    exact ⟨(Nat.zero_sub _).symm, fun _ _ => rfl, fun h => absurd rfl h⟩
  by_cases hopen : ∃ p, m.slots[j]? = some p ∧ p.mayPlace ∧
      ((m.displayStack j).isEmpty ∨ (m.displayStack j).sameItem s)
  · obtain ⟨p, hp, hplace, hopen⟩ := hopen
    obtain ⟨placed, hfits, hamount, hcount, hmenu⟩ := insert_open hp hs hplace hopen (hm.within.1 j)
    have hothers : ∀ k, k ≠ j → (m.insert j s).2.displayStack k = m.displayStack k := by
      intro k hk
      rcases hmenu with hmenu | ⟨hmenu, -⟩
      · rw [hmenu]
        exact (displayStack_put hm.noAlias hp placed).2 k hk
      · rw [hmenu]
    refine ⟨by rw [room_open hp hplace hopen]; exact hcount, hothers, fun hleft => ?_⟩
    have hshown : ((m.insert j s).2.displayStack j).Alike placed := by
      rcases hmenu with hmenu | ⟨hmenu, halike⟩
      · rw [hmenu]
        exact (displayStack_put hm.noAlias hp placed).1
      · rw [hmenu]
        exact halike.symm
    -- all of what was offered is of one identity, so the slot holds its limit of it
    have hself := ItemStack.amount_self s
    have hrest : (m.insert j s).1.amount (s.itemId, s.components) = (m.insert j s).1.count := by
      obtain ⟨hid, hc⟩ := (m.insert_kind j s).resolve_left hleft
      rw [← hid, ← hc]
      exact ItemStack.amount_self _
    have hheld : (m.displayStack j).amount (s.itemId, s.components) = (m.displayStack j).count := by
      rcases hopen with hempty | hsame
      · rw [ItemStack.amount_of_isEmpty _ hempty, (ItemStack.isEmpty_iff_count _).mp hempty]
      · exact if_pos ((ItemStack.ofKey_of_sameItem hsame _).mpr ⟨rfl, SameKey.refl _⟩)
    have hk := hamount (s.itemId, s.components)
    rw [hrest, hheld, hself] at hk
    have hplaced := ItemStack.amount_le_count (s.itemId, s.components) placed
    have hfull : m.slotLimit j s ≤ ((m.insert j s).2.displayStack j).count := by
      have hpos := mt (ItemStack.isEmpty_iff_count _).mpr hleft
      rw [hshown.2.1]
      omega
    obtain ⟨-, hkept, -⟩ := insert_spec hm j s
    rw [room, hkept.frame.slots, hp, hkept.frame.slotLimit]
    dsimp only
    rw [Nat.sub_eq_zero_of_le hfull, ite_self]
  · have hclosed : ∀ p, m.slots[j]? = some p → p.mayPlace →
        ¬((m.displayStack j).isEmpty ∨ (m.displayStack j).sameItem s) :=
      fun p hp hplace h => hopen ⟨p, hp, hplace, h⟩
    rw [insert_closed hclosed, room_closed hclosed]
    exact ⟨(Nat.sub_zero _).symm, fun _ _ => rfl, fun _ => rfl⟩

/-! ## What a shift-click leaves over -/

/-- The slots a shift-click on this slot goes through. -/
def destinations (m : Menu) (i : Nat) : Finset Nat :=
  ((m.layout.transferOrder i).flatMap SlotRange.toList).toFinset.erase i

theorem sum_room_insert {f g : Nat → Nat} {rest : Finset Nat} {t : Nat} (hzero : g t = 0)
    (hsame : ∀ j, j ≠ t → g j = f j) : ∑ j ∈ Insert.insert t rest, f j = f t + ∑ j ∈ rest, g j := by
  rw [← Finset.insert_erase (Finset.mem_insert_self t rest), Finset.sum_insert (Finset.notMem_erase _ _),
    Finset.erase_insert_eq_erase, ← Finset.sum_erase rest hzero]
  exact congrArg (f t + ·) (Finset.sum_congr rfl fun j hj => (hsame j (Finset.ne_of_mem_erase hj)).symm)

/-- The loop takes what there is room for in its slots, and leaves the clicked slot alone. -/
theorem moveThrough_count (i : Nat) : ∀ (targets : List Nat) (s : ItemStack) (changed : Finset Nat) {m : Menu},
    Sound m →
    (moveThrough i targets s changed m).1.count = s.count - ∑ j ∈ targets.toFinset.erase i, m.room s j ∧
      ((moveThrough i targets s changed m).1.isEmpty ∨
        ((moveThrough i targets s changed m).1.itemId = s.itemId ∧
          (moveThrough i targets s changed m).1.components = s.components)) ∧
      (moveThrough i targets s changed m).2.2.displayStack i = m.displayStack i
  | [], s, changed, m, _ => by
    simp only [moveThrough, List.toFinset_nil, Finset.erase_empty, Finset.sum_empty, Nat.sub_zero]
    exact ⟨trivial, .inr ⟨trivial, trivial⟩, trivial⟩
  | target :: targets, s, changed, m, hm => by
    unfold moveThrough
    dsimp only
    split
    · next he =>
      rw [(ItemStack.isEmpty_iff_count s).mp he]
      exact ⟨(Nat.zero_sub _).symm, .inl he, rfl⟩
    split
    · next heq =>
      rw [heq, List.toFinset_cons, Finset.erase_insert_eq_erase]
      exact moveThrough_count i targets s changed hm
    next hne =>
    obtain ⟨hcount, hothers, hfull⟩ := insert_room hm target s
    obtain ⟨-, hkept, -⟩ := insert_spec hm target s
    obtain ⟨hrest, hkind, hself⟩ := moveThrough_count i targets (m.insert target s).1
      (if ((m.insert target s).2.displayStack target).partialEq ItemStack.EMPTY then changed
        else Insert.insert target changed) (hkept.sound hm)
    refine ⟨?_, ?_, hself.trans (hothers i (Ne.symm hne))⟩
    · rw [hrest, List.toFinset_cons, Finset.erase_insert_of_ne hne]
      by_cases hleft : (m.insert target s).1.isEmpty
      · have hzero := (ItemStack.isEmpty_iff_count _).mp hleft
        have hle : m.room s target ≤ ∑ j ∈ Insert.insert target (targets.toFinset.erase i), m.room s j :=
          Finset.single_le_sum (fun _ _ => Nat.zero_le _) (Finset.mem_insert_self _ _)
        omega
      · obtain ⟨hid, hc⟩ := (m.insert_kind target s).resolve_left hleft
        have hsum := @sum_room_insert (m.room s) ((m.insert target s).2.room (m.insert target s).1)
          (targets.toFinset.erase i) target ((room_congr hid hc target).trans (hfull hleft))
          fun j hj => (room_congr hid hc j).trans (room_of_frame hkept.frame (hothers j hj) s)
        rw [hsum, hcount]
        omega
    · rcases hkind with he | ⟨hid, hc⟩
      · exact .inl he
      · rcases m.insert_kind target s with he | ⟨hid', hc'⟩
        · have hzero := (ItemStack.isEmpty_iff_count _).mp he
          rw [hzero, Nat.zero_sub] at hrest
          exact .inl ((ItemStack.isEmpty_iff_count _).mpr hrest)
        · exact .inr ⟨hid.trans hid', hc.trans hc'⟩

/-- Taking the whole stack of a slot. -/
theorem extract_all {m : Menu} (hm : Sound m) {i : Nat} {p : SlotMapping} (hp : m.slots[i]? = some p)
    (hne : ¬(m.displayStack i).isEmpty) :
    let r := m.extract i (m.displayStack i).count
    r.1.count = (m.displayStack i).count ∧ r.1.itemId = (m.displayStack i).itemId ∧
      r.1.components = (m.displayStack i).components ∧ (r.2.displayStack i).isEmpty ∧
      ∀ j, j ≠ i → r.2.displayStack j = m.displayStack j := by
  intro r
  have hcount := ItemStack.split_count (m.displayStack i) (m.displayStack i).count
  rw [Nat.min_self, Nat.sub_self] at hcount
  have htaken : r.1 = ((m.displayStack i).split (m.displayStack i).count).1 := extract_taken m i _
  have hfull : ¬r.1.isEmpty := by
    rw [ItemStack.isEmpty_iff_count, htaken, hcount.1, ← ItemStack.isEmpty_iff_count]
    exact hne
  have hkind := (ItemStack.split_kind (m.displayStack i) (m.displayStack i).count).1
  rw [← htaken] at hkind hcount
  obtain ⟨hid, hc⟩ := hkind.resolve_left hfull
  have hmenu : r.2 = m.putContainer p.container p.slot ((m.displayStack i).split (m.displayStack i).count).2 := by
    have hfits : ((m.displayStack i).split (m.displayStack i).count).2.count ≤
        m.slotLimit i ((m.displayStack i).split (m.displayStack i).count).2 := by
      rw [hcount.2]
      exact Nat.zero_le _
    rw [← trySetSlot_fits hp hfits]
    exact congrArg Prod.snd (if_neg (htaken ▸ hfull))
  obtain ⟨hself, hothers⟩ :=
    displayStack_put hm.noAlias hp ((m.displayStack i).split (m.displayStack i).count).2
  rw [← hmenu] at hself hothers
  refine ⟨hcount.1, hid, hc, ?_, hothers⟩
  rw [ItemStack.isEmpty_iff_count, hself.2.1]
  exact hcount.2

/-- A shift-click is refused where its slot only gives and the others have no room for all of it; by then
the slot is empty. -/
theorem clickQuickMove_refused {m : Menu} (hm : Sound m) {c : Click} {i : Nat} {p : SlotMapping}
    (hslot : c.slotIndex = some i) (hp : m.slots[i]? = some p) :
    ((∃ e, (m.clickQuickMove c).1 = .error e) ↔ p.mayPlace = false ∧
      ∑ j ∈ m.destinations i, m.room (m.displayStack i) j < (m.displayStack i).count) ∧
    ∀ e, (m.clickQuickMove c).1 = .error e → (m.clickQuickMove c).2 ≠ m := by
  unfold clickQuickMove
  rw [hslot]
  dsimp only
  rw [mappingOf_eq_ok hp]
  dsimp only
  have hpickup : p.mayPickup = true := rfl
  rw [hpickup, Bool.not_true, Bool.or_false]
  split
  · next hempty =>
    rw [(ItemStack.isEmpty_iff_count _).mp hempty]
    exact ⟨iff_of_false (by rintro ⟨e, he⟩; cases he) fun h => Nat.not_lt_zero _ h.2, fun e he => by cases he⟩
  next hne =>
  obtain ⟨hcount, hid, hc, hempty, hothers⟩ := extract_all hm hp hne
  obtain ⟨-, hkept⟩ := extract_spec hm hp (m.displayStack i).count
  generalize hextract : m.extract i (m.displayStack i).count = taken at *
  obtain ⟨hmoved, hkind, hself⟩ := moveThrough_count i
    ((taken.2.layout.transferOrder i).flatMap SlotRange.toList) taken.1 ∅ (hkept.sound hm)
  obtain ⟨-, hkept'⟩ := moveThrough_spec i ((taken.2.layout.transferOrder i).flatMap SlotRange.toList) taken.1 ∅
    (hkept.sound hm)
  have hsum : ∑ j ∈ ((taken.2.layout.transferOrder i).flatMap SlotRange.toList).toFinset.erase i,
      taken.2.room taken.1 j = ∑ j ∈ m.destinations i, m.room (m.displayStack i) j := by
    rw [destinations, hkept.frame.layout]
    refine Finset.sum_congr rfl fun j hj => ?_
    rw [room_congr hid hc, room_of_frame hkept.frame (hothers j (Finset.ne_of_mem_erase hj))]
  rw [hsum, hcount] at hmoved
  generalize moveThrough i ((taken.2.layout.transferOrder i).flatMap SlotRange.toList) taken.1 ∅ taken.2 = moved at *
  rw [← hself] at hempty
  have hsound := hkept'.sound (hkept.sound hm)
  have hframe := hkept.frame.trans hkept'.frame
  have hp' : moved.2.2.slots[i]? = some p := hframe.slots ▸ hp
  obtain ⟨hleft, -, -⟩ := insert_room hsound i moved.1
  cases hplace : p.mayPlace with
  | true =>
    -- the slot is empty and takes back what it held
    have hall : (moved.2.2.insert i moved.1).1.isEmpty := by
      rw [ItemStack.isEmpty_iff_count, hleft, room_open hp' hplace (.inl hempty),
        (ItemStack.isEmpty_iff_count _).mp hempty]
      rcases hkind with he | ⟨hid', -⟩
      · have := (ItemStack.isEmpty_iff_count _).mp he
        omega
      · have hlimit : moved.2.2.slotLimit i moved.1 = m.slotLimit i (m.displayStack i) := by
          rw [hframe.slotLimit, m.slotLimit_congr i (hid'.trans hid)]
        have := hm.within.1 i
        omega
    rw [if_pos hall]
    exact ⟨iff_of_false (by rintro ⟨e, he⟩; cases he) fun h => Bool.noConfusion h.1, fun e he => by cases he⟩
  | false =>
    have hclosed : ∀ q, moved.2.2.slots[i]? = some q → q.mayPlace →
        ¬((moved.2.2.displayStack i).isEmpty ∨ (moved.2.2.displayStack i).sameItem moved.1) := by
      intro q hq hqplace
      obtain rfl := Option.some.inj (hp'.symm.trans hq)
      rw [hplace] at hqplace
      cases hqplace
    rw [insert_closed hclosed]
    dsimp only
    split
    · next hnone =>
      have hzero := (ItemStack.isEmpty_iff_count _).mp hnone
      exact ⟨iff_of_false (by rintro ⟨e, he⟩; cases he) fun h => by omega, fun e he => by cases he⟩
    · next hsome =>
      have hpos := mt (ItemStack.isEmpty_iff_count _).mpr hsome
      refine ⟨iff_of_true ⟨_, rfl⟩ ⟨rfl, by omega⟩, fun _ _ heq => hne ?_⟩
      rw [← heq]
      exact hempty

/-! ## The other clicks -/

theorem dropCursor_ok (m : Menu) (n : Nat) : ∃ o, (m.dropCursor n).1 = .ok o := by
  unfold dropCursor
  dsimp only
  split <;> exact ⟨_, rfl⟩

theorem clickPickup_ok {m : Menu} {c : Click} (hslot : ∀ i, c.slotIndex = some i → ∃ p, m.slots[i]? = some p) :
    ∃ o, (m.clickPickup c).1 = .ok o := by
  unfold clickPickup
  split
  · split
    · exact ⟨_, rfl⟩
    · exact dropCursor_ok m _
  next i hi =>
  obtain ⟨p, hp⟩ := hslot i hi
  rw [mappingOf_eq_ok hp]
  dsimp only
  split
  · split
    · exact ⟨_, rfl⟩
    · split <;> split <;> exact ⟨_, rfl⟩
  split
  · exact ⟨_, rfl⟩
  split
  · exact ⟨_, rfl⟩
  split
  · split
    · exact ⟨_, rfl⟩
    · rw [setSlot_eq hp]
      exact ⟨_, rfl⟩
  · split <;> exact ⟨_, rfl⟩

theorem swapSlots_ok {m : Menu} {i j : Nat} {p q : SlotMapping} (hp : m.slots[i]? = some p)
    (hq : m.slots[j]? = some q) : ∃ o, (m.swapSlots i j p q).1 = .ok o := by
  have hq' : (m.putContainer p.container p.slot (m.clamped i (m.displayStack j))).slots[j]? = some q := hq
  unfold swapSlots
  dsimp only
  split
  · exact ⟨_, rfl⟩
  split
  · exact ⟨_, rfl⟩
  split
  · exact ⟨_, rfl⟩
  split
  · exact ⟨_, rfl⟩
  rw [setSlot_eq hp]
  dsimp only
  rw [setSlot_eq hq']
  exact ⟨_, rfl⟩

theorem clickSwap_ok {m : Menu} {c : Click} (hslot : ∀ i, c.slotIndex = some i → ∃ p, m.slots[i]? = some p) :
    ∃ o, (m.clickSwap c).1 = .ok o := by
  unfold clickSwap
  split
  · next i target hi htarget =>
    obtain ⟨p, hp⟩ := hslot i hi
    rw [mappingOf_eq_ok hp]
    dsimp only
    split
    · exact ⟨_, rfl⟩
    next partner hpartner =>
    split
    · exact ⟨_, rfl⟩
    obtain ⟨q, hq, -⟩ := swapPartner_slot hpartner
    rw [mappingOf_eq_ok hq]
    dsimp only
    split
    · exact swapSlots_ok hp hq
    split
    · split <;> exact ⟨_, rfl⟩
    · exact ⟨_, rfl⟩
  · exact ⟨_, rfl⟩

theorem clickClone_ok {m : Menu} {c : Click} (hslot : ∀ i, c.slotIndex = some i → ∃ p, m.slots[i]? = some p) :
    ∃ o, (m.clickClone c).1 = .ok o := by
  unfold clickClone
  split
  · exact ⟨_, rfl⟩
  split
  · exact ⟨_, rfl⟩
  next i hi =>
  obtain ⟨p, hp⟩ := hslot i hi
  rw [mappingOf_eq_ok hp]
  dsimp only
  split
  · exact ⟨_, rfl⟩
  next hne =>
  have hcount : 1 ≤ (if c.button = 2 then m.itemLimit (m.displayStack i) else (m.displayStack i).count) ∧
      (if c.button = 2 then m.itemLimit (m.displayStack i) else (m.displayStack i).count) ≤ 64 := by
    split
    · exact ⟨m.itemLimit_pos hne, m.itemLimit_le _⟩
    · exact ⟨Nat.one_le_iff_ne_zero.mpr (mt (ItemStack.isEmpty_iff_count _).mpr hne), ItemStack.count_le _⟩
  rw [ItemStack.withComponents_keep hne hcount.1 hcount.2]
  exact ⟨_, rfl⟩

theorem clickThrow_ok {m : Menu} {c : Click} (hslot : ∀ i, c.slotIndex = some i → ∃ p, m.slots[i]? = some p) :
    ∃ o, (m.clickThrow c).1 = .ok o := by
  unfold clickThrow
  split
  · next i hi =>
    obtain ⟨p, hp⟩ := hslot i hi
    rw [mappingOf_eq_ok hp]
    dsimp only
    split
    · exact ⟨_, rfl⟩
    · split <;> split <;> exact ⟨_, rfl⟩
  · split
    · exact ⟨_, rfl⟩
    · exact dropCursor_ok m _

theorem dragEnd_ok (m : Menu) (kind : DragType) (slots : List Nat) : ∃ o, (m.dragEnd kind slots).1 = .ok o := by
  unfold dragEnd
  cases kind with
  | one => exact ⟨_, rfl⟩
  | full => exact ⟨_, rfl⟩
  | even =>
    dsimp only
    split <;> exact ⟨_, rfl⟩

theorem clickQuickCraft_ok {m : Menu} {c : Click} (hslot : ∀ i, c.slotIndex = some i → ∃ p, m.slots[i]? = some p) :
    ∃ o, (m.clickQuickCraft c).1 = .ok o := by
  unfold clickQuickCraft
  split
  · exact ⟨_, rfl⟩
  · exact ⟨_, rfl⟩
  · split
    · exact ⟨_, rfl⟩
    split
    · exact ⟨_, rfl⟩
    next i hi =>
    obtain ⟨p, hp⟩ := hslot i hi
    rw [mappingOf_eq_ok hp]
    dsimp only
    split <;> exact ⟨_, rfl⟩
  · dsimp only
    split
    · exact ⟨_, rfl⟩
    · exact dragEnd_ok _ _ _

theorem clickPickupAll_ok {m : Menu} {c : Click} (hslot : ∀ i, c.slotIndex = some i → ∃ p, m.slots[i]? = some p) :
    ∃ o, (m.clickPickupAll c).1 = .ok o := by
  unfold clickPickupAll
  split
  · exact ⟨_, rfl⟩
  next i hi =>
  obtain ⟨p, hp⟩ := hslot i hi
  rw [mappingOf_eq_ok hp]
  dsimp only
  split
  · exact ⟨_, rfl⟩
  split
  · exact ⟨_, rfl⟩
  -- whatever the gathering starts from
  generalize (if m.cursor.isEmpty = true then _ else _ : ItemStack × Finset Nat × Menu) = start
  split
  · exact ⟨_, rfl⟩
  · split <;> exact ⟨_, rfl⟩

/-- Only a shift-click is refused by its handler. -/
theorem handle_ok {m : Menu} {c : Click} (hslot : ∀ i, c.slotIndex = some i → ∃ p, m.slots[i]? = some p)
    (htype : c.clickType ≠ .quickMove) : ∃ o, (m.handle c).1 = .ok o := by
  unfold handle
  split
  · exact clickPickup_ok hslot
  · next h => exact absurd h htype
  · exact clickSwap_ok hslot
  · exact clickClone_ok hslot
  · exact clickThrow_ok hslot
  · exact clickQuickCraft_ok hslot
  · exact clickPickupAll_ok hslot

/-! ## Refusals -/

/-- A click that is refused, or stale, leaves the menu as it was. -/
structure Atomic (m : Menu) (c : Click) : Prop where
  refused : ∀ e, (m.applyClick c).1 = .error e → (m.applyClick c).2 = m
  stale : c.stateId ≠ m.stateId → (m.applyClick c).2 = m

/-- A shift-click, in step, on a slot that only gives, of more than the slots it goes through have room for. -/
def Spills (m : Menu) (c : Click) : Prop :=
  c.windowId = m.windowId ∧ c.stateId = m.stateId ∧ c.clickType = .quickMove ∧
    ∃ i p, c.slotIndex = some i ∧ m.slots[i]? = some p ∧ p.mayPlace = false ∧
      ∑ j ∈ m.destinations i, m.room (m.displayStack i) j < (m.displayStack i).count

theorem applyClick_unknown {m : Menu} {c : Click} {i : Nat} (hslot : c.slotIndex = some i)
    (hp : m.slots[i]? = none) : ∃ e, m.applyClick c = (.error e, m) := by
  rcases m.slot_checked c with ⟨-, e, herr⟩ | ⟨p, hok⟩
  · unfold applyClick
    rw [herr]
    split <;> exact ⟨_, rfl⟩
  · rw [hslot, Option.mapM_some, mappingOf, hp] at hok
    cases hok

theorem atomic_of_unchanged {m : Menu} {c : Click} {r : ServerResult ClickOutcome} (h : m.applyClick c = (r, m)) :
    Atomic m c :=
  ⟨fun _ _ => by rw [h], fun _ => by rw [h]⟩

/-- A click in step is refused by its handler or not at all. -/
theorem atomic_iff_handle {m : Menu} {c : Click} (hstate : c.stateId = m.stateId)
    (h : (∃ e, (m.handle c).1 = .error e ∧ m.applyClick c = m.handle c) ∨
      ∃ o, (m.handle c).1 = .ok o ∧ m.applyClick c = (.ok o, (m.handle c).2.bumpState)) :
    Atomic m c ↔ ∀ e, (m.handle c).1 = .error e → (m.handle c).2 = m := by
  rcases h with ⟨e, -, happly⟩ | ⟨o, hok, happly⟩
  · rw [← happly]
    exact ⟨fun h => h.refused, fun h => ⟨h, fun hne => absurd hstate hne⟩⟩
  · refine iff_of_true ⟨fun e herr => ?_, fun hne => absurd hstate hne⟩ fun e herr => ?_
    · rw [happly] at herr
      exact nomatch herr
    · rw [hok] at herr
      exact nomatch herr

theorem atomic_iff {m : Menu} (hm : Sound m) (c : Click) : Atomic m c ↔ ¬Spills m c := by
  rcases m.slotIndex_cases c with hslot | ⟨i, hslot, hp⟩ | ⟨i, p, hslot, hp⟩
  · have hkept : ¬Spills m c := by
      rintro ⟨-, -, -, i, p, hslot', -⟩
      cases hslot.symm.trans hslot'
    refine iff_of_true ?_ hkept
    rcases m.applyClick_cases c with ⟨-, e, happly⟩ | ⟨-, happly⟩ | ⟨-, hstate, happly⟩
    · exact atomic_of_unchanged happly
    · exact atomic_of_unchanged happly
    · refine (atomic_iff_handle hstate happly).mpr fun e herr => ?_
      by_cases htype : c.clickType = .quickMove
      · simp only [handle, htype, clickQuickMove, hslot] at herr
        cases herr
      · obtain ⟨o, hok⟩ := handle_ok (m := m) (fun i hi => by cases hslot.symm.trans hi) htype
        cases herr.symm.trans hok
  · obtain ⟨e, happly⟩ := applyClick_unknown hslot hp
    refine iff_of_true (atomic_of_unchanged happly) ?_
    rintro ⟨-, -, -, i', p, hslot', hp', -⟩
    obtain rfl := Option.some.inj (hslot.symm.trans hslot')
    cases hp.symm.trans hp'
  · rcases m.applyClick_cases c with ⟨hwhy, e, happly⟩ | ⟨hstale, happly⟩ | ⟨hid, hstate, happly⟩
    · refine iff_of_true (atomic_of_unchanged happly) ?_
      rintro ⟨hid, -, -, i', p', hslot', hp', -⟩
      rcases hwhy with hwindow | ⟨i'', hslot'', hp''⟩
      · exact hwindow hid
      · obtain rfl := Option.some.inj (hslot'.symm.trans hslot'')
        cases hp'.symm.trans hp''
    · exact iff_of_true (atomic_of_unchanged happly) fun h => hstale h.2.1
    rw [atomic_iff_handle hstate happly]
    by_cases htype : c.clickType = .quickMove
    · have hhandle : m.handle c = m.clickQuickMove c := by simp only [handle, htype]
      obtain ⟨hrefused, hchanged⟩ := clickQuickMove_refused hm hslot hp
      have hspills : Spills m c ↔ p.mayPlace = false ∧
          ∑ j ∈ m.destinations i, m.room (m.displayStack i) j < (m.displayStack i).count := by
        constructor
        · rintro ⟨-, -, -, i', p', hslot', hp', hspills⟩
          obtain rfl := Option.some.inj (hslot.symm.trans hslot')
          obtain rfl := Option.some.inj (hp.symm.trans hp')
          exact hspills
        · exact fun h => ⟨hid, hstate, htype, i, p, hslot, hp, h⟩
      rw [hhandle, hspills, ← hrefused]
      refine ⟨?_, fun h e herr => absurd ⟨e, herr⟩ h⟩
      rintro h ⟨e, herr⟩
      exact hchanged e herr (h e herr)
    · have hslots : ∀ i, c.slotIndex = some i → ∃ p, m.slots[i]? = some p := by
        intro i' hi
        obtain rfl := Option.some.inj (hslot.symm.trans hi)
        exact ⟨p, hp⟩
      obtain ⟨o, hok⟩ := handle_ok hslots htype
      exact iff_of_true (fun e herr => by cases herr.symm.trans hok) fun h => htype h.2.2.1

/-- A menu of the server, whatever it holds. -/
def OfServer (m : Menu) : Prop := ∃ m₀, Built m₀ ∧ m.slots = m₀.slots

theorem OfServer.sound {m : Menu} (h : m.OfServer) (hwithin : m.WithinLimits) : Sound m := by
  obtain ⟨m₀, hbuilt, hslots⟩ := h
  exact ⟨noAlias_of_slots hslots hbuilt.noAlias, hwithin⟩

/-- For every menu of the server within its limits, and every sequence of clicks: each click that is refused
or stale leaves the menu as it was, exactly when no click spills. -/
theorem refused_clicks_iff (m : Menu) (hserver : m.OfServer) (hwithin : m.WithinLimits) (clicks : List Click) :
    Along click Atomic m clicks ↔ Along click (fun m c => ¬Spills m c) m clicks := by
  have hsound : ∀ m c, Sound m → Sound (m.click c) := click_sound
  exact along_iff hsound (fun _ c h => atomic_iff h c) clicks (hserver.sound hwithin)

/-! ## A full inventory -/

def fullPlayer : Container := ⟨.player, List.replicate 41 (.ofParts 2 64 [] (by decide)), ∅, by decide⟩

/-- A furnace with two items in its output. -/
def smelted : Container := ⟨.furnace, [.EMPTY, .EMPTY, .ofParts 1 2 [] ItemStack.two_legal], ∅, by decide⟩

/-- The furnace, as a player with a full inventory sees it. -/
def fullFurnace : Menu := ((furnace 1 smelted fullPlayer .default).toOption).getD narrow

theorem fullFurnace_built : furnace 1 smelted fullPlayer .default = .ok fullFurnace := by
  have hbuilt : ((furnace 1 smelted fullPlayer .default).toOption).isSome = true := by decide +kernel
  cases h : furnace 1 smelted fullPlayer .default with
  | error e =>
    rw [h] at hbuilt
    exact nomatch hbuilt
  | ok m =>
    rw [fullFurnace, h]
    rfl

theorem fullFurnace_within : fullFurnace.WithinLimits := by
  have hshown : ∀ i < 39, (fullFurnace.displayStack i).count ≤
      fullFurnace.slotLimit i (fullFurnace.displayStack i) := by decide +kernel
  have hslots : fullFurnace.slots.length = 39 := by decide +kernel
  refine ⟨fun i => ?_, by decide +kernel⟩
  rcases lt_or_ge i 39 with hlt | hge
  · exact hshown i hlt
  · rw [displayStack, List.getElem?_eq_none (hslots ▸ hge)]
    exact Nat.zero_le _

theorem fullFurnace_ofServer : fullFurnace.OfServer := ⟨fullFurnace, .furnace fullFurnace_built, rfl⟩

/-- A shift-click on the output. -/
def shiftClick : Click := ⟨1, 0, 2, 0, .quickMove, false, none, none, none⟩

theorem refused_clicks_fullFurnace : Along click Atomic fullFurnace [shiftClick] ↔
    Along click (fun m c => ¬Spills m c) fullFurnace [shiftClick] :=
  refused_clicks_iff fullFurnace fullFurnace_ofServer fullFurnace_within [shiftClick]

/-- The shift-click is refused, and the two items are gone. -/
theorem fullFurnace_loses : Click.new 1 0 2 0 1 = .ok shiftClick ∧
    (fullFurnace.applyClick shiftClick).1.toOption = none ∧
    fullFurnace.total (1, []) = 2 ∧ (fullFurnace.applyClick shiftClick).2.total (1, []) = 0 ∧
    ¬∀ (m : Menu) (c : Click), m.OfServer → m.WithinLimits → Atomic m c := by
  have hrefused : (fullFurnace.applyClick shiftClick).1.toOption = none := by decide +kernel
  have hbefore : fullFurnace.total (1, []) = 2 := by decide +kernel
  have hafter : (fullFurnace.applyClick shiftClick).2.total (1, []) = 0 := by decide +kernel
  refine ⟨by decide, hrefused, hbefore, hafter, fun h => ?_⟩
  have hatomic := h fullFurnace shiftClick fullFurnace_ofServer fullFurnace_within
  cases happly : (fullFurnace.applyClick shiftClick).1 with
  | ok o =>
    rw [happly] at hrefused
    exact nomatch hrefused
  | error e =>
    rw [hatomic.refused e happly, hbefore] at hafter
    exact absurd hafter (by decide)

end Menu
end Apoptosis.L2
