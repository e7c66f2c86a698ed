import Mathlib.Tactic
/-!
# Loops that may fail

A loop over a list that stops at the first error. What it makes of the whole
list, it makes of each element.

* `mapM_ok_iff`: it succeeds with the results of its elements.
* `mapM_isOk`: it succeeds when no element fails.
* `mapM_zipIdx_ok`: with the elements numbered.
* `mapM_map_back`: what undoes a function, on a list.
-/
namespace Apoptosis.Core.Fallible

variable {ε α β : Type} {f : α → Except ε β}

theorem mapM_ok_iff {as : List α} {bs : List β} :
    as.mapM f = .ok bs ↔ List.Forall₂ (fun a b => f a = .ok b) as bs := by
  induction as generalizing bs with
  | nil =>
    rw [List.mapM_nil, List.forall₂_nil_left_iff]
    exact ⟨fun h => (Except.ok.inj h).symm, fun h => congrArg Except.ok h.symm⟩
  | cons a as ih =>
    rw [List.mapM_cons, List.forall₂_cons_left_iff]
    constructor
    · intro h
      cases ha : f a with
      | error e =>
        rw [ha] at h
        exact nomatch h
      | ok b =>
        rw [ha] at h
        cases hrest : as.mapM f with
        | error e =>
          rw [hrest] at h
          exact nomatch h
        | ok bs' =>
          rw [hrest] at h
          exact ⟨b, bs', rfl, ih.mp hrest, (Except.ok.inj h).symm⟩
    · intro ⟨b, bs', ha, hrest, heq⟩
      rw [ha, ih.mpr hrest, heq]
      rfl

/-- Every result is one of an element's. -/
theorem exists_of_mapM {as : List α} {bs : List β} (h : as.mapM f = .ok bs) : ∀ b ∈ bs, ∃ a ∈ as, f a = .ok b := by
  have hall := mapM_ok_iff.mp h
  intro b hb
  obtain ⟨i, hi, rfl⟩ := List.getElem_of_mem hb
  have hlt : i < as.length := hall.length_eq ▸ hi
  exact ⟨as[i], List.getElem_mem hlt, hall.get hlt hi⟩

theorem mapM_isOk {as : List α} (h : ∀ a ∈ as, ∃ b, f a = .ok b) : ∃ bs, as.mapM f = .ok bs := by
  induction as with
  | nil => exact ⟨[], rfl⟩
  | cons a as ih =>
    obtain ⟨b, hb⟩ := h a (.head _)
    obtain ⟨bs, hbs⟩ := ih fun a' ha' => h a' (.tail _ ha')
    exact ⟨b :: bs, by rw [List.mapM_cons, hb, hbs]; rfl⟩

theorem mapM_zipIdx_ok {g : α × Nat → Except ε β} {as : List α} {bs : List β}
    (h : as.zipIdx.mapM g = .ok bs) : bs.length = as.length ∧
      ∀ i a, as[i]? = some a → ∃ b, bs[i]? = some b ∧ g (a, i) = .ok b := by
  have hall := mapM_ok_iff.mp h
  have hlength := hall.length_eq
  rw [List.length_zipIdx] at hlength
  refine ⟨hlength.symm, fun i a ha => ?_⟩
  obtain ⟨hlt, heq⟩ := List.getElem?_eq_some_iff.mp ha
  have hlt' : i < bs.length := by omega
  refine ⟨bs[i], List.getElem?_eq_getElem hlt', ?_⟩
  have hi := hall.get (i := i) (by rwa [List.length_zipIdx]) hlt'
  simpa [heq] using hi

/-- What undoes a function element by element undoes it on a list. -/
theorem mapM_map_back {g : β → α} {bs : List β} (h : ∀ b ∈ bs, f (g b) = .ok b) : (bs.map g).mapM f = .ok bs := by
  rw [mapM_ok_iff, List.forall₂_map_left_iff, List.forall₂_same]
  exact h

end Apoptosis.Core.Fallible
