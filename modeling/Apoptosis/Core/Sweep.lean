import Mathlib.Data.Finset.Sort
import Mathlib.Data.Prod.Lex
import Mathlib.Tactic
/-!
# Sweeps over an ordered set

A sweep takes a bounded number of elements from an ordered set, starting after
a cursor and wrapping around, and leaves the cursor on the last one it took.
`turn` says where the sweep meets an element.

* `mem_take_rotation`, `behind_take`: a sweep takes the elements whose turn
  comes first.
* `behind_sweep`: elements that wait keep their place before all that were
  taken, also when those come back.
-/
namespace Apoptosis.Core

variable {α : Type*} [LinearOrder α]

/-- The elements after the cursor, then those up to it. -/
def rotation (s : Finset α) : Option α → List α
  | some c => (s.filter (c < ·)).sort ++ (s.filter (· ≤ c)).sort
  | none => s.sort

/-- The place of an element in the rotation: the second round comes after the first. -/
def turn (cursor : Option α) (x : α) : Bool ×ₗ α :=
  toLex (cursor.any (x ≤ ·), x)

theorem turn_lt_iff (cursor : Option α) (x y : α) : turn cursor x < turn cursor y ↔
    (cursor.any (x ≤ ·) = false ∧ cursor.any (y ≤ ·) = true) ∨
      (cursor.any (x ≤ ·) = cursor.any (y ≤ ·) ∧ x < y) := by
  rw [turn, turn, Prod.Lex.toLex_lt_toLex, Bool.lt_iff]

theorem mem_rotation {s : Finset α} {cursor : Option α} {x : α} :
    x ∈ rotation s cursor ↔ x ∈ s := by
  cases cursor with
  | none => exact Finset.mem_sort _
  | some c =>
    simp only [rotation, List.mem_append, Finset.mem_sort, Finset.mem_filter, ← and_or_left,
      and_iff_left_iff_imp]
    exact fun _ => lt_or_ge c x

theorem rotation_sorted (s : Finset α) (cursor : Option α) :
    (rotation s cursor).Pairwise fun x y => turn cursor x < turn cursor y := by
  have hsort (t : Finset α) : t.sort.Pairwise (· < ·) := t.sortedLT_sort.pairwise
  cases cursor with
  | none =>
    refine (hsort s).imp fun {x y} h => ?_
    simp [turn_lt_iff, h]
  | some c =>
    refine List.pairwise_append.mpr ⟨?_, ?_, ?_⟩
    · refine (hsort _).imp_of_mem fun {x y} hx hy h => ?_
      rw [Finset.mem_sort, Finset.mem_filter] at hx hy
      simp [turn_lt_iff, h, not_le.mpr hx.2, not_le.mpr hy.2]
    · refine (hsort _).imp_of_mem fun {x y} hx hy h => ?_
      rw [Finset.mem_sort, Finset.mem_filter] at hx hy
      simp [turn_lt_iff, h, hx.2, hy.2]
    · intro x hx y hy
      rw [Finset.mem_sort, Finset.mem_filter] at hx hy
      simp [turn_lt_iff, not_le.mpr hx.2, hy.2]

theorem rotation_nodup (s : Finset α) (cursor : Option α) : (rotation s cursor).Nodup :=
  (rotation_sorted s cursor).imp fun {x y} h heq => by
    subst heq
    exact lt_irrefl _ h

theorem length_rotation (s : Finset α) (cursor : Option α) :
    (rotation s cursor).length = s.card := by
  rw [← List.toFinset_card_of_nodup (rotation_nodup s cursor)]
  congr 1
  ext x
  rw [List.mem_toFinset, mem_rotation]

/-- What a sweep leaves comes after what it took. -/
theorem turn_lt_of_left {s : Finset α} {cursor : Option α} {cap : Nat} {x y : α}
    (hx : x ∈ (rotation s cursor).take cap) (hy : y ∈ s)
    (hleft : y ∉ (rotation s cursor).take cap) : turn cursor x < turn cursor y := by
  have hsorted := rotation_sorted s cursor
  rw [← List.take_append_drop cap (rotation s cursor)] at hsorted
  have hy' : y ∈ rotation s cursor := mem_rotation.mpr hy
  rw [← List.take_append_drop cap (rotation s cursor), List.mem_append] at hy'
  exact (List.pairwise_append.mp hsorted).2.2 x hx y (hy'.resolve_left hleft)

/-- The cursor after a sweep that took `taken`. -/
def cursorAfter (cursor : Option α) (taken : List α) : Option α := taken.getLast?.or cursor

theorem turn_le_getLast {s : Finset α} {cursor : Option α} {cap : Nat} {x c : α}
    (hc : ((rotation s cursor).take cap).getLast? = some c)
    (hx : x ∈ (rotation s cursor).take cap) : turn cursor x ≤ turn cursor c := by
  have hsorted := (rotation_sorted s cursor).sublist (List.take_sublist cap _)
  obtain ⟨l, hl⟩ := List.getLast?_eq_some_iff.mp hc
  rw [hl] at hx hsorted
  rcases List.mem_append.mp hx with hx | hx
  · exact ((List.pairwise_append.mp hsorted).2.2 x hx c (List.mem_singleton_self c)).le
  · rw [List.mem_singleton.mp hx]

/-- From the new cursor on, what lay ahead of it comes before all else. -/
theorem turn_from {cursor : Option α} {c u r : α} (hu : turn cursor c < turn cursor u)
    (hr : turn cursor r ≤ turn cursor c ∨ turn cursor u < turn cursor r) :
    turn (some c) u < turn (some c) r := by
  rw [← not_lt, turn_lt_iff] at hr
  rw [turn_lt_iff] at *
  cases cursor with
  | none =>
    simp only [Option.any_none, Option.any_some] at *
    grind
  | some d =>
    simp only [Option.any_some, decide_eq_true_eq, decide_eq_false_iff_not] at *
    grind

/-! ## Fairness -/

/-- All of `waiting` comes before all of `served`. -/
def Ahead (cursor : Option α) (waiting served : Finset α) : Prop :=
  ∀ u ∈ waiting, ∀ r ∈ served, turn cursor u < turn cursor r

/-- A sweep takes from those waiting as long as there are any, and keeps the rest ahead of all it
ever took. -/
theorem ahead_sweep {pending waiting served : Finset α} {cursor : Option α} (cap : Nat)
    (hwaiting : waiting ⊆ pending) (hpending : pending ⊆ waiting ∪ served)
    (hahead : Ahead cursor waiting served) :
    let taken := (rotation pending cursor).take cap
    (waiting \ taken.toFinset).card ≤ waiting.card - cap ∧
      Ahead (cursorAfter cursor taken) (waiting \ taken.toFinset) (served ∪ taken.toFinset) := by
  intro taken
  constructor
  · by_cases hall : waiting ⊆ taken.toFinset
    · rw [Finset.sdiff_eq_empty_iff_subset.mpr hall, Finset.card_empty]
      exact Nat.zero_le _
    · -- someone still waits, so all that was taken was waiting, and it is `cap` many
      obtain ⟨u, hu, hleft⟩ := Finset.not_subset.mp hall
      rw [List.mem_toFinset] at hleft
      have hfrom : taken.toFinset ⊆ waiting := by
        intro x hx
        rw [List.mem_toFinset] at hx
        have hmem : x ∈ pending := mem_rotation.mp (List.mem_of_mem_take hx)
        rcases Finset.mem_union.mp (hpending hmem) with h | h
        · exact h
        · exact absurd (turn_lt_of_left hx (hwaiting hu) hleft) (lt_asymm (hahead u hu x h))
      have hlen : taken.length = cap := by
        rw [List.length_take]
        apply min_eq_left
        by_contra hshort
        have hwhole : taken = rotation pending cursor := List.take_of_length_le (by omega)
        rw [hwhole, mem_rotation] at hleft
        exact hleft (hwaiting hu)
      have hnodup : taken.Nodup := (rotation_nodup pending cursor).sublist (List.take_sublist ..)
      rw [Finset.card_sdiff_of_subset hfrom, List.toFinset_card_of_nodup hnodup, hlen]
  · intro u hu r hr
    rw [Finset.mem_sdiff, List.mem_toFinset] at hu
    rw [Finset.mem_union, List.mem_toFinset] at hr
    cases hlast : taken.getLast? with
    | none =>
      have hnil : taken = [] := List.getLast?_eq_none_iff.mp hlast
      rw [cursorAfter, hlast]
      rcases hr with hr | hr
      · exact hahead u hu.1 r hr
      · rw [hnil] at hr
        cases hr
    | some c =>
      have hc : c ∈ taken := List.mem_of_getLast? hlast
      rw [cursorAfter, hlast]
      refine turn_from (turn_lt_of_left hc (hwaiting hu.1) hu.2) ?_
      rcases hr with hr | hr
      · exact .inr (hahead u hu.1 r hr)
      · exact .inl (turn_le_getLast hlast hr)

end Apoptosis.Core
