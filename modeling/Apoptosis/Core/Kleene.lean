import Mathlib.Tactic
/-!
# Disjunction of answers that may be missing

Kleene's: true as soon as one answer is, false where every answer is, and
missing otherwise. It depends on which answers there are, not on their order.
-/
namespace Apoptosis.Core

def kleeneAny (answers : List (Option Bool)) : Option Bool :=
  if some true ∈ answers then some true else if none ∈ answers then none else some false

variable {answers answers' : List (Option Bool)}

theorem kleeneAny_congr (htrue : some true ∈ answers ↔ some true ∈ answers')
    (hnone : none ∈ answers ↔ none ∈ answers') : kleeneAny answers = kleeneAny answers' := by
  simp only [kleeneAny, htrue, hnone]

theorem kleeneAny_perm (h : answers.Perm answers') : kleeneAny answers = kleeneAny answers' :=
  kleeneAny_congr h.mem_iff h.mem_iff

theorem kleeneAny_eq_true : kleeneAny answers = some true ↔ some true ∈ answers := by
  unfold kleeneAny
  split_ifs <;> simp_all

theorem eq_false_of_kleeneAny (h : kleeneAny answers = some false) {answer : Option Bool}
    (hanswer : answer ∈ answers) : answer = some false := by
  unfold kleeneAny at h
  by_cases htrue : some true ∈ answers
  · simp [htrue] at h
  · by_cases hnone : none ∈ answers
    · simp [htrue, hnone] at h
    · match answer with
      | some false => rfl
      | some true => exact absurd hanswer htrue
      | none => exact absurd hanswer hnone

end Apoptosis.Core
