import Apoptosis.Core.Tally
import Mathlib.Tactic
/-!
# Ordered maps

A map as its entries in ascending key order: what a loop over a `BTreeMap`
sees is the list, what a lookup sees is `get?`. The order is a field.

* `get?_insert`, `get?_erase`: one write, by lookup.
* `mem_entries`: the entries are the lookups that succeed.
* `firstMin_spec`: the first entry of least value, in key order.
-/
namespace Apoptosis.Core

variable {κ ν : Type*} [LinearOrder κ]

/-- Entries in ascending order of their keys. -/
abbrev Ascending (l : List (κ × ν)) : Prop := l.Pairwise fun a b => a.1 < b.1

/-- One pass to the place of the key. -/
def insertEntry (k : κ) (v : ν) : List (κ × ν) → List (κ × ν)
  | [] => [(k, v)]
  | (k', v') :: l =>
    if k < k' then (k, v) :: (k', v') :: l
    else if k = k' then (k, v) :: l
    else (k', v') :: insertEntry k v l

def lookupEntry (k : κ) : List (κ × ν) → Option ν
  | [] => none
  | (k', v) :: l => if k' = k then some v else lookupEntry k l

theorem mem_insertEntry {k : κ} {v : ν} {l : List (κ × ν)} {e : κ × ν}
    (h : e ∈ insertEntry k v l) : e = (k, v) ∨ e ∈ l := by
  induction l with
  | nil => exact .inl (by simpa [insertEntry] using h)
  | cons a l ih =>
    obtain ⟨k', v'⟩ := a
    unfold insertEntry at h
    split at h
    · simpa using h
    split at h
    · rcases List.mem_cons.mp h with h | h
      · exact .inl h
      · exact .inr (List.mem_cons_of_mem _ h)
    · rcases List.mem_cons.mp h with h | h
      · exact .inr (by simp [h])
      · exact (ih h).imp_right (List.mem_cons_of_mem _)

theorem Ascending.insertEntry (k : κ) (v : ν) {l : List (κ × ν)} (h : Ascending l) :
    Ascending (insertEntry k v l) := by
  induction l with
  | nil => exact List.pairwise_singleton ..
  | cons a l ih =>
    obtain ⟨k', v'⟩ := a
    obtain ⟨hhead, htail⟩ := List.pairwise_cons.mp h
    unfold Core.insertEntry
    split
    · next hlt =>
      refine List.pairwise_cons.mpr ⟨fun e he => ?_, h⟩
      rcases List.mem_cons.mp he with rfl | he
      · exact hlt
      · exact hlt.trans (hhead e he)
    split
    · next heq =>
      subst heq
      exact List.pairwise_cons.mpr ⟨hhead, htail⟩
    · next hge hne =>
      refine List.pairwise_cons.mpr ⟨fun e he => ?_, ih htail⟩
      rcases mem_insertEntry he with rfl | he
      · exact lt_of_le_of_ne (not_lt.mp hge) (Ne.symm hne)
      · exact hhead e he

theorem lookup_insertEntry (k k' : κ) (v : ν) (l : List (κ × ν)) :
    lookupEntry k' (insertEntry k v l) = if k = k' then some v else lookupEntry k' l := by
  induction l with
  | nil => simp [insertEntry, lookupEntry]
  | cons a l ih =>
    obtain ⟨k'', v''⟩ := a
    unfold insertEntry
    split
    · simp [lookupEntry]
    split
    · next heq =>
      subst heq
      simp only [lookupEntry]
      split <;> rfl
    · next hne =>
      simp only [lookupEntry, ih]
      by_cases h : k'' = k'
      · subst h
        simp [hne]
      · simp [h]

theorem lookup_eq_some {k : κ} {v : ν} {l : List (κ × ν)} (h : Ascending l) :
    lookupEntry k l = some v ↔ (k, v) ∈ l := by
  induction l with
  | nil => simp [lookupEntry]
  | cons a l ih =>
    obtain ⟨k', v'⟩ := a
    obtain ⟨hhead, htail⟩ := List.pairwise_cons.mp h
    simp only [lookupEntry, List.mem_cons, Prod.mk.injEq]
    by_cases hk : k' = k
    · subst hk
      have hno : (k', v) ∉ l := fun hmem => lt_irrefl k' (hhead (k', v) hmem)
      simp [hno, eq_comm]
    · simp [hk, Ne.symm hk, ih htail]

/-! ## The map -/

@[ext] structure OrdMap (κ : Type*) [LinearOrder κ] (ν : Type*) where
  entries : List (κ × ν)
  sorted : Ascending entries

namespace OrdMap

def empty : OrdMap κ ν := ⟨[], List.Pairwise.nil⟩

def get? (m : OrdMap κ ν) (k : κ) : Option ν := lookupEntry k m.entries

def insert (m : OrdMap κ ν) (k : κ) (v : ν) : OrdMap κ ν :=
  ⟨insertEntry k v m.entries, m.sorted.insertEntry k v⟩

def erase (m : OrdMap κ ν) (k : κ) : OrdMap κ ν :=
  ⟨m.entries.filter (·.1 ≠ k), m.sorted.filter _⟩

/-- A write to a value that is there. -/
def modify (m : OrdMap κ ν) (k : κ) (f : ν → ν) : OrdMap κ ν :=
  match m.get? k with
  | none => m
  | some v => m.insert k (f v)

def mapValues (f : ν → ν) (m : OrdMap κ ν) : OrdMap κ ν :=
  ⟨m.entries.map fun e => (e.1, f e.2), List.pairwise_map.mpr m.sorted⟩

/-- The entries that pass a test. -/
def retain (p : κ → ν → Bool) (m : OrdMap κ ν) : OrdMap κ ν :=
  ⟨m.entries.filter fun e => p e.1 e.2, m.sorted.filter _⟩

def size (m : OrdMap κ ν) : Nat := m.entries.length

def keys (m : OrdMap κ ν) : Finset κ := (m.entries.map Prod.fst).toFinset

@[simp] theorem get?_empty (k : κ) : (empty : OrdMap κ ν).get? k = none := rfl

theorem mem_entries {m : OrdMap κ ν} {k : κ} {v : ν} : (k, v) ∈ m.entries ↔ m.get? k = some v :=
  (lookup_eq_some m.sorted).symm

theorem get?_insert (m : OrdMap κ ν) (k k' : κ) (v : ν) :
    (m.insert k v).get? k' = if k = k' then some v else m.get? k' :=
  lookup_insertEntry k k' v m.entries

theorem get?_erase (m : OrdMap κ ν) (k k' : κ) :
    (m.erase k).get? k' = if k = k' then none else m.get? k' := by
  apply Option.ext
  intro v
  rw [← mem_entries]
  by_cases h : k = k'
  · subst h
    simp [erase]
  · simp [erase, Ne.symm h, h, mem_entries]

theorem get?_modify (m : OrdMap κ ν) (k k' : κ) (f : ν → ν) :
    (m.modify k f).get? k' = if k = k' then (m.get? k').map f else m.get? k' := by
  unfold modify
  cases h : m.get? k with
  | none =>
    dsimp only
    split
    · rename_i heq
      rw [← heq, h]
      rfl
    · rfl
  | some v =>
    dsimp only
    rw [get?_insert]
    split
    · rename_i heq
      rw [← heq, h, Option.map_some]
    · rfl

theorem get?_mapValues (f : ν → ν) (m : OrdMap κ ν) (k : κ) :
    (m.mapValues f).get? k = (m.get? k).map f := by
  have hlist (l : List (κ × ν)) :
      lookupEntry k (l.map fun e => (e.1, f e.2)) = (lookupEntry k l).map f := by
    induction l with
    | nil => rfl
    | cons e l ih =>
      rw [List.map_cons, lookupEntry, lookupEntry, ih]
      split <;> rfl
  exact hlist m.entries

theorem get?_retain (p : κ → ν → Bool) (m : OrdMap κ ν) (k : κ) :
    (m.retain p).get? k = (m.get? k).filter (p k) := by
  refine Option.ext fun v => ?_
  rw [← mem_entries, Option.filter_eq_some_iff, ← mem_entries]
  exact List.mem_filter

theorem mem_keys {m : OrdMap κ ν} {k : κ} : k ∈ m.keys ↔ ∃ v, m.get? k = some v := by
  simp [keys, mem_entries]

theorem get?_eq_none {m : OrdMap κ ν} {k : κ} : m.get? k = none ↔ k ∉ m.keys := by
  rw [mem_keys, not_exists]
  exact Option.eq_none_iff_forall_ne_some

theorem keys_insert (m : OrdMap κ ν) (k : κ) (v : ν) :
    (m.insert k v).keys = Insert.insert k m.keys := by
  ext k'
  rw [mem_keys, Finset.mem_insert, mem_keys]
  simp only [get?_insert]
  by_cases h : k = k'
  · simp [h]
  · simp [h, Ne.symm h]

theorem keys_modify (m : OrdMap κ ν) (k : κ) (f : ν → ν) : (m.modify k f).keys = m.keys := by
  unfold modify
  split
  · rfl
  · next v h => rw [keys_insert, Finset.insert_eq_of_mem (mem_keys.mpr ⟨v, h⟩)]

theorem keys_erase (m : OrdMap κ ν) (k : κ) : (m.erase k).keys = m.keys.erase k := by
  ext k'
  rw [mem_keys, Finset.mem_erase, mem_keys]
  simp only [get?_erase]
  by_cases h : k = k'
  · simp [h]
  · simp [h, Ne.symm h]

theorem size_eq_card (m : OrdMap κ ν) : m.size = m.keys.card := by
  have hnodup : (m.entries.map Prod.fst).Nodup :=
    (List.pairwise_map.mpr m.sorted).imp ne_of_lt
  rw [keys, List.toFinset_card_of_nodup hnodup, List.length_map, size]

theorem ext_get? {m m' : OrdMap κ ν} (h : ∀ k, m.get? k = m'.get? k) : m = m' := by
  have hmem (e : κ × ν) : e ∈ m.entries ↔ e ∈ m'.entries := by
    rw [show e = (e.1, e.2) from rfl, mem_entries, mem_entries, h]
  have hperm : m.entries.Perm m'.entries :=
    (List.perm_ext_iff_of_nodup (m.sorted.imp fun h heq => by subst heq; exact lt_irrefl _ h)
      (m'.sorted.imp fun h heq => by subst heq; exact lt_irrefl _ h)).mpr hmem
  exact OrdMap.ext (hperm.eq_of_pairwise (fun a b _ _ h h' => absurd h (lt_asymm h'))
    m.sorted m'.sorted)

/-! ## Writes undone -/

theorem insert_insert (m : OrdMap κ ν) (k : κ) (v v' : ν) :
    (m.insert k v).insert k v' = m.insert k v' := by
  apply ext_get?
  intro k'
  simp only [get?_insert]
  split <;> rfl

theorem insert_self {m : OrdMap κ ν} {k : κ} {v : ν} (h : m.get? k = some v) : m.insert k v = m := by
  apply ext_get?
  intro k'
  rw [get?_insert]
  split
  · next heq => rw [← heq, h]
  · rfl

theorem erase_insert_of_none {m : OrdMap κ ν} {k : κ} (h : m.get? k = none) (v : ν) :
    (m.insert k v).erase k = m := by
  apply ext_get?
  intro k'
  rw [get?_erase, get?_insert]
  split
  · next heq => rw [← heq, h]
  · rfl

theorem insert_erase_of_some {m : OrdMap κ ν} {k : κ} {v : ν} (h : m.get? k = some v) :
    (m.erase k).insert k v = m := by
  apply ext_get?
  intro k'
  rw [get?_insert, get?_erase]
  split
  · next heq => rw [← heq, h]
  · rfl

/-- One write moves a total by the written entry less the replaced one. -/
theorem tally_insert {M : Type*} [AddCommMonoid M] (f : κ × ν → M) (m : OrdMap κ ν) (k : κ) (v : ν) :
    tally f (m.insert k v).entries + (m.get? k).elim 0 (fun old => f (k, old)) =
      tally f m.entries + f (k, v) := by
  have hlist (l : List (κ × ν)) (hl : Ascending l) : tally f (insertEntry k v l) +
      (lookupEntry k l).elim 0 (fun old => f (k, old)) = tally f l + f (k, v) := by
    induction l with
    | nil => simp [insertEntry, lookupEntry]
    | cons a l ih =>
      obtain ⟨k', v'⟩ := a
      obtain ⟨hhead, htail⟩ := List.pairwise_cons.mp hl
      have ih := ih htail
      unfold insertEntry lookupEntry
      split
      · next hlt =>
        have hnone : lookupEntry k l = none := by
          rw [Option.eq_none_iff_forall_ne_some]
          intro old hold
          exact absurd (hhead _ ((lookup_eq_some htail).mp hold)) (lt_asymm hlt)
        rw [if_neg hlt.ne', hnone]
        simp only [tally_cons, Option.elim_none, add_zero]
        abel
      split
      · next heq =>
        subst heq
        rw [if_pos rfl]
        simp only [tally_cons, Option.elim_some]
        abel
      · next hne =>
        rw [if_neg (Ne.symm hne)]
        simp only [tally_cons]
        rw [add_assoc, ih, add_assoc]
  exact hlist m.entries m.sorted

/-- A total is a sum over the keys. -/
theorem tally_eq_sum {M : Type*} [AddCommMonoid M] (f : κ × ν → M) (m : OrdMap κ ν) :
    tally f m.entries = ∑ k ∈ m.keys, (m.get? k).elim 0 fun v => f (k, v) := by
  have hnodup : (m.entries.map Prod.fst).Nodup :=
    List.pairwise_map.mpr (m.sorted.imp fun h => h.ne)
  rw [keys, List.sum_toFinset _ hnodup, List.map_map, tally]
  refine congrArg List.sum (List.map_congr_left fun e he => ?_)
  rw [Function.comp_apply, mem_entries.mp he]
  rfl

theorem tally_erase (f : κ × ν → Nat) (m : OrdMap κ ν) (k : κ) :
    tally f (m.erase k).entries + (m.get? k).elim 0 (fun old => f (k, old)) =
      tally f m.entries := by
  have hlist (l : List (κ × ν)) (hl : Ascending l) : tally f (l.filter (·.1 ≠ k)) +
      (lookupEntry k l).elim 0 (fun old => f (k, old)) = tally f l := by
    induction l with
    | nil => rfl
    | cons a l ih =>
      obtain ⟨k', v'⟩ := a
      obtain ⟨hhead, htail⟩ := List.pairwise_cons.mp hl
      unfold lookupEntry
      by_cases hk : k' = k
      · subst hk
        have hall : l.filter (·.1 ≠ k') = l :=
          List.filter_eq_self.mpr fun e he => by simp [(hhead e he).ne']
        rw [List.filter_cons_of_neg (by simp), if_pos rfl, hall]
        simp only [tally_cons, Option.elim_some]
        omega
      · have ih := ih htail
        rw [List.filter_cons_of_pos (by simpa using hk), if_neg hk]
        simp only [tally_cons]
        omega
  exact hlist m.entries m.sorted

end OrdMap

/-! ## The first least entry -/

/-- `iter().min_by_key(value)`: the first entry of least value. -/
def firstMin [LinearOrder ν] : List (κ × ν) → Option (κ × ν)
  | [] => none
  | e :: l =>
    match firstMin l with
    | none => some e
    | some m => if m.2 < e.2 then some m else some e

omit [LinearOrder κ] in
theorem firstMin_isSome [LinearOrder ν] : ∀ {l : List (κ × ν)}, l ≠ [] → ∃ m, firstMin l = some m
  | e :: l, _ => by
    unfold firstMin
    cases firstMin l with
    | none => exact ⟨e, rfl⟩
    | some m =>
      dsimp only
      split
      · exact ⟨m, rfl⟩
      · exact ⟨e, rfl⟩

/-- Entries of equal value are told apart by their keys. -/
theorem firstMin_spec [LinearOrder ν] {l : List (κ × ν)} {m : κ × ν} (h : firstMin l = some m)
    (hl : Ascending l) : m ∈ l ∧ ∀ e ∈ l, m.2 < e.2 ∨ (m.2 = e.2 ∧ m.1 ≤ e.1) := by
  induction l generalizing m with
  | nil => cases h
  | cons e l ih =>
    obtain ⟨hhead, htail⟩ := List.pairwise_cons.mp hl
    unfold firstMin at h
    cases hrest : firstMin l with
    | none =>
      have hnil : l = [] := by
        by_contra hne
        obtain ⟨m', hm'⟩ := firstMin_isSome hne
        rw [hrest] at hm'
        cases hm'
      rw [hrest] at h
      cases h
      subst hnil
      simp
    | some m' =>
      obtain ⟨hmem, hle⟩ := ih hrest htail
      rw [hrest] at h
      dsimp only at h
      split at h
      · next hlt =>
        cases h
        refine ⟨List.mem_cons_of_mem _ hmem, fun a ha => ?_⟩
        rcases List.mem_cons.mp ha with rfl | ha
        · exact .inl hlt
        · exact hle a ha
      · next hge =>
        cases h
        refine ⟨List.mem_cons_self .., fun a ha => ?_⟩
        rcases List.mem_cons.mp ha with rfl | ha
        · exact .inr ⟨rfl, le_refl _⟩
        · rcases (not_lt.mp hge).lt_or_eq with hlt | heq
          · rcases hle a ha with h' | ⟨h', -⟩
            · exact .inl (hlt.trans h')
            · exact .inl (h' ▸ hlt)
          · rcases hle a ha with h' | ⟨h', -⟩
            · exact .inl (heq ▸ h')
            · exact .inr ⟨heq.trans h', (hhead a ha).le⟩

end Apoptosis.Core
