import Mathlib.Tactic
/-!
# First-fit matching

Items are placed one by one, each into the first free slot that takes it, with
no backtracking. Whatever that places, it places rightly. It finds every
perfect matching exactly when a slot that shares an item with a later one takes
nothing the later one does not: an item that has a choice then loses nothing by
the first.

* `firstFit_sound`: what was placed.
* `matches_iff_equiv`: a matching as a bijection.
* `Nested.firstFit_complete`: nested slots are filled whenever they can be.
* `exists_stuck`: slots that are not nested can be filled, and are not.
* `Alike`: the slots that are nested in whatever order.
-/
namespace Apoptosis.Core.FirstFit
open scoped List

variable {α S : Type} (fits : α → S → Bool)

/-- The slots left free, if every item finds one. -/
def firstFit : List α → List S → Option (List S)
  | [], slots => some slots
  | a :: items, slots => if slots.any (fits a) then firstFit items (slots.eraseP (fits a)) else none

/-- Every item has a slot of its own, and no slot is left. -/
def Matches (items : List α) (slots : List S) : Prop :=
  ∃ taken : List S, taken.Perm slots ∧ List.Forall₂ (fun a s => fits a s) items taken

/-- A slot that shares an item with a later one takes nothing the later one does not. -/
def Nested (slots : List S) : Prop :=
  slots.Pairwise fun s s' => (∃ a, fits a s ∧ fits a s') → ∀ b, fits b s → fits b s'

variable {fits}

theorem firstFit_sound {items : List α} {slots rest : List S} (h : firstFit fits items slots = some rest) :
    ∃ taken, (taken ++ rest).Perm slots ∧ List.Forall₂ (fun a s => fits a s) items taken := by
  induction items generalizing slots with
  | nil =>
    cases h
    exact ⟨[], .refl _, .nil⟩
  | cons a items ih =>
    rw [firstFit] at h
    split at h
    · next hany =>
      obtain ⟨taken, hperm, hall⟩ := ih h
      obtain ⟨s, hs, hfits⟩ := List.any_eq_true.mp hany
      obtain ⟨s, l₁, l₂, -, hfits, rfl, herase⟩ := List.exists_of_eraseP hs hfits
      rw [herase] at hperm
      refine ⟨s :: taken, ?_, .cons hfits hall⟩
      exact (hperm.cons s).trans List.perm_middle.symm
    · exact nomatch h

theorem firstFit_matches {items : List α} {slots : List S} (h : firstFit fits items slots = some []) :
    Matches fits items slots := by
  obtain ⟨taken, hperm, hall⟩ := firstFit_sound h
  rw [List.append_nil] at hperm
  exact ⟨taken, hperm, hall⟩

theorem Matches.length_eq {items : List α} {slots : List S} (h : Matches fits items slots) :
    items.length = slots.length := by
  obtain ⟨taken, hperm, hall⟩ := h
  exact hall.length_eq.trans hperm.length_eq

theorem matches_map {β : Type} {f : β → α} {items : List β} {slots : List S} :
    Matches fits (items.map f) slots ↔ Matches (fun b s => fits (f b) s) items slots := by
  simp only [Matches, List.forall₂_map_left_iff]

/-- A matching numbers the slots by the items. -/
theorem matches_iff_equiv {items : List α} {slots : List S} : Matches fits items slots ↔
    ∃ e : Fin items.length ≃ Fin slots.length, ∀ i, fits (items.get i) (slots.get (e i)) := by
  constructor
  · intro ⟨taken, hperm, hall⟩
    have hslots : List.Forall₂ (fun s j => s = slots.get j) slots (List.finRange slots.length) := by
      rw [List.forall₂_iff_get]
      exact ⟨List.length_finRange.symm, fun i hi hi' => by simp⟩
    obtain ⟨numbers, hnumbers, hrange⟩ := List.perm_comp_forall₂ hperm hslots
    have hnodup : numbers.Nodup := hrange.nodup_iff.mpr (List.nodup_finRange _)
    have hcount : items.length = numbers.length := hall.length_eq.trans hnumbers.length_eq
    let e : Fin items.length → Fin slots.length := fun i => numbers.get (i.cast hcount)
    have hinj : Function.Injective e := fun i j h => by
      simpa [Fin.ext_iff] using List.nodup_iff_injective_get.mp hnodup h
    have hcard : Fintype.card (Fin items.length) = Fintype.card (Fin slots.length) := by
      rw [Fintype.card_fin, Fintype.card_fin, hcount, hrange.length_eq, List.length_finRange]
    refine ⟨Equiv.ofBijective e ((Fintype.bijective_iff_injective_and_card e).mpr ⟨hinj, hcard⟩), fun i => ?_⟩
    have hi : i.val < taken.length := hall.length_eq ▸ i.isLt
    have htaken := hnumbers.get (i := i.val) hi (hcount ▸ i.isLt)
    have hfits := hall.get i.isLt hi
    rw [htaken] at hfits
    exact hfits
  · intro ⟨e, he⟩
    refine ⟨(List.ofFn e).map slots.get, ?_, ?_⟩
    · have hperm : (List.ofFn e).Perm (List.finRange slots.length) := by
        refine (List.perm_ext_iff_of_nodup (List.nodup_ofFn.mpr e.injective) (List.nodup_finRange _)).mpr fun j => ?_
        rw [List.mem_ofFn]
        exact ⟨fun _ => List.mem_finRange j, fun _ => e.surjective j⟩
      have hmap := hperm.map slots.get
      rwa [List.map_get_finRange] at hmap
    · rw [List.forall₂_iff_get]
      refine ⟨by simp, fun i hi hi' => ?_⟩
      simpa using he ⟨i, hi⟩

/-- Placing the same number of items as there are slots leaves none free. -/
theorem firstFit_eq_nil {items : List α} {slots rest : List S} (h : firstFit fits items slots = some rest)
    (hlength : items.length = slots.length) : rest = [] := by
  obtain ⟨taken, hperm, hall⟩ := firstFit_sound h
  have hcount := hperm.length_eq
  rw [List.length_append, ← hall.length_eq, hlength] at hcount
  exact List.length_eq_zero_iff.mp (by omega)

/-- Items and slots in any other orders match as well. -/
theorem Matches.perm {items items' : List α} {slots slots' : List S} (h : Matches fits items slots)
    (hitems : items'.Perm items) (hslots : slots'.Perm slots) : Matches fits items' slots' := by
  obtain ⟨taken, hperm, hall⟩ := h
  obtain ⟨taken', hall', hperm'⟩ := List.perm_comp_forall₂ hitems hall
  exact ⟨taken', hperm'.trans (hperm.trans hslots.symm), hall'⟩

/-- Slots in the order of their items are filled. -/
theorem firstFit_aligned {items : List α} {slots : List S}
    (h : List.Forall₂ (fun a s => fits a s) items slots) : firstFit fits items slots = some [] := by
  induction h with
  | nil => rfl
  | @cons a s items slots hfits _ ih =>
    have hany : (s :: slots).any (fits a) := List.any_eq_true.mpr ⟨s, .head _, hfits⟩
    rw [firstFit, if_pos hany, List.eraseP_cons_of_pos hfits]
    exact ih

/-- Another slot takes the place of one in a matching, when it takes all that one does. -/
theorem forall₂_replace {R : α → S → Prop} {s s' : S} (hsub : ∀ b, R b s → R b s') :
    ∀ {items : List α} {l₁ l₂ : List S}, List.Forall₂ R items (l₁ ++ s :: l₂) →
      List.Forall₂ R items (l₁ ++ s' :: l₂)
  | _, [], _, .cons h htail => .cons (hsub _ h) htail
  | _, _ :: _, _, .cons h htail => .cons h (forall₂_replace hsub htail)

/-- Nested slots: the first slot that takes an item can be given it in some matching. -/
theorem Nested.firstFit_complete {items : List α} {slots : List S} (h : Nested fits slots)
    (hm : Matches fits items slots) : firstFit fits items slots = some [] := by
  induction items generalizing slots with
  | nil =>
    rw [List.length_eq_zero_iff.mp hm.length_eq.symm]
    rfl
  | cons a items ih =>
    obtain ⟨taken, hperm, hall⟩ := hm
    cases hall with
    | @cons _ s' _ taken' hfits' hall =>
      have hmem : s' ∈ slots := hperm.subset (.head _)
      obtain ⟨s, l₁, l₂, hbefore, hfits, hslots, herase⟩ := List.exists_of_eraseP hmem hfits'
      rw [firstFit, if_pos (List.any_eq_true.mpr ⟨s', hmem, hfits'⟩), herase]
      rw [hslots] at hperm h hmem
      have hnested : Nested fits (l₁ ++ l₂) :=
        List.Pairwise.sublist (List.append_sublist_append_left l₁ |>.mpr (List.sublist_cons_self s l₂)) h
      refine ih hnested ?_
      by_cases hsame : s' = s
      · rw [hsame] at hperm
        exact ⟨taken', List.perm_cons s |>.mp (hperm.trans List.perm_middle), hall⟩
      · -- `s` is before `s'`, so what `s` was given in the matching can go to `s'`
        have hlater : s' ∈ l₂ := by
          rcases List.mem_append.mp hmem with hin | hin
          · exact absurd hfits' (by simp [hbefore s' hin])
          · exact (List.mem_cons.mp hin).resolve_left hsame
        have hsub : ∀ b, fits b s → fits b s' := by
          have hpair := (List.pairwise_append.mp h).2.1
          exact (List.pairwise_cons.mp hpair).1 s' hlater ⟨a, hfits, hfits'⟩
        have hs : s ∈ taken' := by
          have := hperm.symm.subset (List.mem_append_right l₁ (.head l₂))
          exact (List.mem_cons.mp this).resolve_left fun he => hsame he.symm
        obtain ⟨r₁, r₂, rfl⟩ := List.append_of_mem hs
        refine ⟨r₁ ++ s' :: r₂, ?_, forall₂_replace hsub hall⟩
        have hswap : s :: (r₁ ++ s' :: r₂) ~ s :: (l₁ ++ l₂) :=
          calc s :: (r₁ ++ s' :: r₂)
            _ ~ s :: s' :: (r₁ ++ r₂) := List.perm_middle.cons s
            _ ~ s' :: s :: (r₁ ++ r₂) := .swap ..
            _ ~ s' :: (r₁ ++ s :: r₂) := List.perm_middle.symm.cons s'
            _ ~ l₁ ++ s :: l₂ := hperm
            _ ~ s :: (l₁ ++ l₂) := List.perm_middle
        exact (List.perm_cons s).mp hswap

/-! ## Slots that are not nested -/

/-- Enough of one item fill every slot of a row that takes it, and no other. -/
theorem firstFit_replicate (x : α) (row slots : List S) :
    firstFit fits (List.replicate (row.countP (fits x)) x) (row ++ slots) =
      some (row.filter (fun s => !fits x s) ++ slots) := by
  generalize hn : row.countP (fits x) = n
  induction n generalizing row with
  | zero =>
    have hnone := List.countP_eq_zero.mp hn
    rw [List.filter_eq_self.mpr fun s hs => by simpa using hnone s hs]
    rfl
  | succ n ih =>
    obtain ⟨s, hs, hfits⟩ := List.countP_pos_iff.mp (show 0 < row.countP (fits x) by omega)
    obtain ⟨s, l₁, l₂, -, hfits, rfl, herase⟩ := List.exists_of_eraseP hs hfits
    have hmem : s ∈ l₁ ++ s :: l₂ := List.mem_append_right l₁ (.head l₂)
    have hcount : (l₁ ++ l₂).countP (fits x) = n := by
      rw [List.countP_append, List.countP_cons_of_pos hfits] at hn
      rw [List.countP_append]
      omega
    have hany : ((l₁ ++ s :: l₂) ++ slots).any (fits x) :=
      List.any_eq_true.mpr ⟨s, List.mem_append_left _ hmem, hfits⟩
    rw [List.replicate_succ, firstFit, if_pos hany, List.eraseP_append_left hfits _ hmem, herase,
      ih (l₁ ++ l₂) hcount]
    simp [hfits]

theorem firstFit_append {items items' : List α} {slots : List S} :
    firstFit fits (items ++ items') slots = (firstFit fits items slots).bind (firstFit fits items') := by
  induction items generalizing slots with
  | nil => rfl
  | cons a items ih =>
    rw [List.cons_append, firstFit, firstFit]
    split
    · exact ih
    · rfl

/-- More of one item than there are slots for it are not placed. -/
theorem firstFit_none_of_count [DecidableEq α] {items : List α} {slots : List S} (y : α)
    (hlength : items.length = slots.length) (hcount : slots.countP (fits y) < items.count y) :
    firstFit fits items slots = none := by
  cases hfit : firstFit fits items slots with
  | none => rfl
  | some rest =>
    exfalso
    rw [firstFit_eq_nil hfit hlength] at hfit
    obtain ⟨taken, hperm, hall⟩ := firstFit_matches hfit
    have hle : items.count y ≤ taken.countP (fits y) := by
      clear hfit hlength hcount hperm
      induction hall with
      | nil => exact le_rfl
      | @cons a s _ _ h _ ih =>
        rw [List.count_cons, List.countP_cons]
        by_cases ha : a = y
        · subst ha
          simp only [beq_self_eq_true, if_true, if_pos h]
          omega
        · simp only [beq_iff_eq, ha, if_false]
          omega
    rw [hperm.countP_eq] at hle
    omega

/-- Slots of which any two that share an item take the same. -/
def Alike (fits : α → S → Bool) (slots : List S) : Prop :=
  slots.Pairwise fun s s' => (∃ a, fits a s ∧ fits a s') → ∀ b, fits b s ↔ fits b s'

theorem Alike.perm {slots slots' : List S} (h : Alike fits slots) (hperm : slots'.Perm slots) :
    Alike fits slots' := by
  refine (hperm.pairwise_iff ?_).mpr h
  intro s s' hpair ⟨a, ha, ha'⟩ b
  exact (hpair ⟨a, ha', ha⟩ b).symm

theorem Alike.nested {slots : List S} (h : Alike fits slots) : Nested fits slots :=
  h.imp fun hpair hshare b => (hpair hshare b).mp

/-- Nested in both directions. -/
theorem alike_of_nested {slots : List S} (h : Nested fits slots) (h' : Nested fits slots.reverse) :
    Alike fits slots := by
  have hback := List.pairwise_reverse.mp h'
  refine List.Pairwise.imp₂ (fun s s' hpair hpair' ⟨a, ha, ha'⟩ b => ?_) h hback
  exact ⟨hpair ⟨a, ha, ha'⟩ b, hpair' ⟨a, ha', ha⟩ b⟩

section Crowd

variable (fits) (x y : α) (pick : S → α)

/-- What a slot is filled with where it does not take `x`. -/
def filler (t : S) : α := if fits y t then y else pick t

/-- Items for the slots `row ++ s' :: after`: an `x` for every slot of the row that takes one, a
`y`, and a filler for every other slot but `s'`. -/
def crowd (row after : List S) : List α :=
  List.replicate (row.countP (fits x)) x ++
    y :: (row.filter (fun t => !fits x t) ++ after).map (filler fits y pick)

variable {fits x y pick} {before between after : List S} {s s' : S}

theorem fits_filler {t : S} (h : fits (pick t) t) : fits (filler fits y pick t) t := by
  unfold filler
  split
  · assumption
  · exact h

theorem forall₂_replicate {slots : List S} (h : ∀ t ∈ slots, fits x t) :
    List.Forall₂ (fun a t => fits a t) (List.replicate slots.length x) slots := by
  induction slots with
  | nil => exact .nil
  | cons t slots ih => exact .cons (h t (.head _)) (ih fun t' ht' => h t' (.tail _ ht'))

/-- The crowd fills the slots, with the last `x` in `s'` and the `y` in `s`. -/
theorem crowd_matches (hx : fits x s) (hx' : fits x s') (hy : fits y s)
    (hpick : ∀ t ∈ before ++ s :: between ++ s' :: after, fits (pick t) t) :
    Matches fits (crowd fits x y pick (before ++ s :: between) after)
      (before ++ s :: between ++ s' :: after) := by
  set row := before ++ s :: between with hrow
  set shared := before.filter (fits x) ++ between.filter (fits x) ++ [s'] with hshared
  set others := row.filter (fun t => !fits x t) ++ after with hothers
  have hcount : row.countP (fits x) = shared.length := by
    rw [hrow, List.countP_append, List.countP_cons_of_pos hx]
    simp only [hshared, List.length_append, List.length_singleton, List.countP_eq_length_filter]
    omega
  have hxs : List.Forall₂ (fun a t => fits a t) (List.replicate (row.countP (fits x)) x) shared := by
    rw [hcount]
    refine forall₂_replicate fun t ht => ?_
    simp only [hshared, List.mem_append, List.mem_filter, List.mem_singleton] at ht
    rcases ht with (ht | ht) | ht
    · exact ht.2
    · exact ht.2
    · rw [ht]
      exact hx'
  have hfill : ∀ t ∈ others, fits (filler fits y pick t) t := by
    intro t ht
    refine fits_filler (hpick t ?_)
    rcases List.mem_append.mp ht with hin | hin
    · exact List.mem_append_left _ (List.mem_of_mem_filter hin)
    · exact List.mem_append_right _ (.tail _ hin)
  have hrest : List.Forall₂ (fun a t => fits a t) (others.map (filler fits y pick)) others := by
    rw [List.forall₂_map_left_iff]
    exact List.forall₂_same.mpr hfill
  refine ⟨shared ++ s :: others, ?_, List.rel_append hxs (.cons hy hrest)⟩
  have hsplit : before.filter (fits x) ++ s :: between.filter (fits x) ++ row.filter (fun t => !fits x t) ~ row := by
    have hfilter : row.filter (fits x) = before.filter (fits x) ++ s :: between.filter (fits x) := by
      rw [hrow, List.filter_append, List.filter_cons_of_pos hx]
    rw [← hfilter]
    exact List.filter_append_perm (fits x) row
  calc shared ++ s :: others
    _ ~ s' :: (before.filter (fits x) ++ s :: between.filter (fits x) ++ row.filter (fun t => !fits x t)) ++ after := by
      rw [← Multiset.coe_eq_coe]
      simp only [hshared, hothers, ← Multiset.coe_add, ← Multiset.cons_coe, ← Multiset.singleton_add,
        Multiset.coe_nil]
      abel
    _ ~ s' :: row ++ after := (hsplit.cons s').append_right after
    _ ~ row ++ s' :: after := List.perm_middle.symm

/-- First fit gives every `x` away within the row, and then has a `y` too many. -/
theorem crowd_stuck [DecidableEq α] (hy' : ¬ fits y s') (row : List S) :
    firstFit fits (crowd fits x y pick row after) (row ++ s' :: after) = none := by
  rw [crowd, firstFit_append, firstFit_replicate, Option.bind_some]
  refine firstFit_none_of_count y ?_ ?_
  · simp only [List.length_cons, List.length_map, List.length_append]
    omega
  · have hcopies (others : List S) : others.countP (fits y) ≤ (others.map (filler fits y pick)).count y := by
      rw [List.count, List.countP_map]
      refine List.countP_mono_left fun t _ ht => ?_
      simp [filler, ht]
    rw [List.countP_append, List.countP_cons_of_neg hy', ← List.countP_append, List.count_cons_self]
    exact Nat.lt_succ_of_le (hcopies _)

end Crowd

/-- Slots that are not nested, each of which takes something, can be filled by items that
first fit does not place. -/
theorem exists_stuck [DecidableEq α] {slots : List S} (h : ¬ Nested fits slots)
    (hsome : ∀ s ∈ slots, ∃ a, fits a s) :
    ∃ items, Matches fits items slots ∧ firstFit fits items slots = none := by
  unfold Nested at h
  rw [List.pairwise_iff_getElem] at h
  push Not at h
  obtain ⟨i, j, hi, hj, hij, ⟨x, hx, hx'⟩, y, hy, hy'⟩ := h
  have hfront : slots.take i ++ slots[i] :: (slots.take j).drop (i + 1) = slots.take j := by
    have htake : (slots.take j).take i = slots.take i := by rw [List.take_take, Nat.min_eq_left hij.le]
    have hlt : i < (slots.take j).length := by
      rw [List.length_take]
      omega
    have hget : (slots.take j)[i] = slots[i] := List.getElem_take
    rw [← htake, ← hget, List.getElem_cons_drop, List.take_append_drop]
  have hslots : slots = slots.take i ++ slots[i] :: (slots.take j).drop (i + 1) ++ slots[j] :: slots.drop (j + 1) := by
    rw [hfront, List.getElem_cons_drop, List.take_append_drop]
  have : Nonempty α := ⟨x⟩
  choose! pick hpick using hsome
  refine ⟨crowd fits x y pick (slots.take i ++ slots[i] :: (slots.take j).drop (i + 1)) (slots.drop (j + 1)), ?_, ?_⟩
  · rw [hslots] at hpick
    have hm := crowd_matches hx hx' hy hpick
    rwa [← hslots] at hm
  · have hstuck := @crowd_stuck _ _ _ x _ pick (slots.drop (j + 1)) _ _ hy'
      (slots.take i ++ slots[i] :: (slots.take j).drop (i + 1))
    rwa [← hslots] at hstuck

end Apoptosis.Core.FirstFit
