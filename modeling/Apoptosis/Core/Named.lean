import Apoptosis.Core.OrdMap
/-!
# Lists with an index

Things in the order they came, and an index from their names to their places.
A thing that comes under a name already taken replaces the one before it.

* `get?_insert`: one insertion, by lookup.
-/
namespace Apoptosis.Core

variable {κ ν : Type*} [LinearOrder κ] {name : ν → κ}

/-- A list whose index holds each name once, at the place of the thing that has it. -/
structure Named (name : ν → κ) where
  items : List ν
  index : OrdMap κ Nat
  indexed : ∀ k i, index.get? k = some i ↔ ∃ v, items[i]? = some v ∧ name v = k

namespace Named

def empty : Named name := ⟨[], .empty, by simp⟩

def get? (m : Named name) (k : κ) : Option ν := (m.index.get? k).bind fun i => m.items[i]?

theorem get?_eq_some {m : Named name} {k : κ} {v : ν} :
    m.get? k = some v ↔ v ∈ m.items ∧ name v = k := by
  rw [get?, Option.bind_eq_some_iff]
  constructor
  · intro ⟨i, hi, hv⟩
    obtain ⟨v', hv', hname⟩ := (m.indexed k i).mp hi
    obtain rfl : v' = v := Option.some.inj (hv'.symm.trans hv)
    exact ⟨List.mem_of_getElem? hv, hname⟩
  · intro ⟨hmem, hname⟩
    obtain ⟨i, hi⟩ := List.mem_iff_getElem?.mp hmem
    exact ⟨i, (m.indexed k i).mpr ⟨v, hi, hname⟩, hi⟩

theorem get?_eq_none {m : Named name} {k : κ} : m.get? k = none ↔ ∀ v ∈ m.items, name v ≠ k := by
  rw [Option.eq_none_iff_forall_ne_some]
  constructor
  · intro h v hv hname
    exact h v (get?_eq_some.mpr ⟨hv, hname⟩)
  · intro h v hv
    obtain ⟨hmem, hname⟩ := get?_eq_some.mp hv
    exact h v hmem hname

theorem index_isSome {m : Named name} {k : κ} : (m.index.get? k).isSome = (m.get? k).isSome := by
  rw [get?]
  cases h : m.index.get? k with
  | none => rfl
  | some i =>
    obtain ⟨v, hv, -⟩ := (m.indexed k i).mp h
    simp [hv]

/-- The thing takes the place of the one with its name, or comes last. -/
def insert (m : Named name) (v : ν) : Named name :=
  match hget : m.index.get? (name v) with
  | some i =>
    { items := m.items.set i v
      index := m.index
      indexed := by
        obtain ⟨old, hold, hname⟩ := (m.indexed _ i).mp hget
        have hlt : i < m.items.length := (List.getElem?_eq_some_iff.mp hold).1
        intro k j
        by_cases hij : i = j
        · subst hij
          rw [List.getElem?_set_self hlt, m.indexed]
          simp [hold, hname]
        · rw [List.getElem?_set_ne hij]
          exact m.indexed k j }
  | none =>
    { items := m.items ++ [v]
      index := m.index.insert (name v) m.items.length
      indexed := by
        intro k j
        rw [OrdMap.get?_insert]
        rcases lt_trichotomy j m.items.length with hlt | rfl | hgt
        · rw [List.getElem?_append_left hlt, ← m.indexed]
          split
          · next heq =>
            subst heq
            rw [hget]
            simp [hlt.ne']
          · rfl
        · split
          · next heq => simp [heq]
          · next hne =>
            constructor
            · intro hk
              obtain ⟨w, hw, -⟩ := (m.indexed k _).mp hk
              simp at hw
            · intro ⟨w, hw, hname⟩
              simp at hw
              exact absurd (hw ▸ hname) hne
        · have hout : (m.items ++ [v])[j]? = none := by simp; omega
          have hout' : m.items[j]? = none := by simp; omega
          rw [hout]
          split
          · simp; omega
          · rw [m.indexed, hout'] }

theorem mem_items_insert {m : Named name} {v w : ν} :
    w ∈ (m.insert v).items ↔ w = v ∨ w ∈ m.items ∧ name w ≠ name v := by
  unfold insert
  split
  · next i hget =>
    obtain ⟨old, hold, hname⟩ := (m.indexed _ i).mp hget
    have hlt : i < m.items.length := (List.getElem?_eq_some_iff.mp hold).1
    -- The place `i` is the only one whose thing has the name.
    have hother : ∀ j u, m.items[j]? = some u → (name u = name v ↔ j = i) := by
      intro j u hu
      constructor
      · intro hsame
        have hj := (m.indexed _ j).mpr ⟨u, hu, hsame⟩
        exact Option.some.inj (hj.symm.trans hget)
      · rintro rfl
        obtain rfl : old = u := Option.some.inj (hold.symm.trans hu)
        exact hname
    simp only [List.mem_iff_getElem?]
    constructor
    · intro ⟨j, hj⟩
      by_cases hij : i = j
      · subst hij
        rw [List.getElem?_set_self hlt] at hj
        exact .inl (Option.some.inj hj).symm
      · rw [List.getElem?_set_ne hij] at hj
        exact .inr ⟨⟨j, hj⟩, fun h => hij ((hother j w hj).mp h).symm⟩
    · rintro (rfl | ⟨⟨j, hj⟩, hne⟩)
      · exact ⟨i, List.getElem?_set_self hlt⟩
      · have hij : i ≠ j := fun h => hne ((hother j w hj).mpr h.symm)
        exact ⟨j, by rw [List.getElem?_set_ne hij, hj]⟩
  · next hget =>
    have hnone : m.get? (name v) = none := by rw [get?, hget]; rfl
    have hfresh := get?_eq_none.mp hnone
    simp only [List.mem_append, List.mem_singleton]
    constructor
    · rintro (hw | rfl)
      · exact .inr ⟨hw, hfresh w hw⟩
      · exact .inl rfl
    · rintro (rfl | ⟨hw, -⟩)
      · exact .inr rfl
      · exact .inl hw

theorem get?_insert (m : Named name) (v : ν) (k : κ) :
    (m.insert v).get? k = if name v = k then some v else m.get? k := by
  refine Option.ext fun w => ?_
  rw [get?_eq_some, mem_items_insert]
  by_cases hk : name v = k
  · subst hk
    rw [if_pos rfl, Option.some_inj]
    constructor
    · rintro ⟨rfl | ⟨-, hne⟩, hname⟩
      · rfl
      · exact absurd hname hne
    · rintro rfl
      exact ⟨.inl rfl, rfl⟩
  · rw [if_neg hk, get?_eq_some]
    constructor
    · rintro ⟨rfl | ⟨hw, -⟩, hname⟩
      · exact absurd hname hk
      · exact ⟨hw, hname⟩
    · rintro ⟨hw, rfl⟩
      exact ⟨.inr ⟨hw, Ne.symm hk⟩, rfl⟩

end Named

end Apoptosis.Core
