import Mathlib.Tactic
/-!
# Token buckets

A bucket of at most `cap` tokens regains them with time and is asked for one
at a time. `regain` is what some time brings; `Metered` is what a history of
requests and the level after it have to satisfy, whatever is kept to compute
that level.

* `regain_regain`: time brings the same in one piece or in two.
* `Metered.taken_le`: in any span of time no more is taken than a full bucket
  and what the span brings.
-/
namespace Apoptosis.Core.TokenBucket

variable {K : Type*} [Field K] [LinearOrder K] [IsStrictOrderedRing K]

/-- A level after a gain, up to the capacity. -/
def regain (cap level gain : K) : K := min cap (level + gain)

section
variable {cap level gain gain' : K}

omit [IsStrictOrderedRing K] in
theorem regain_le : regain cap level gain ≤ cap := min_le_left _ _

omit [IsStrictOrderedRing K] in
theorem regain_le_add : regain cap level gain ≤ level + gain := min_le_right _ _

theorem regain_nonneg (hcap : 0 ≤ cap) (hlevel : 0 ≤ level) (hgain : 0 ≤ gain) :
    0 ≤ regain cap level gain := le_min hcap (add_nonneg hlevel hgain)

omit [IsStrictOrderedRing K] in
theorem regain_zero (h : level ≤ cap) : regain cap level 0 = level := by
  rw [regain, add_zero, min_eq_right h]

omit [IsStrictOrderedRing K] in
theorem regain_full (h : cap ≤ level + gain) : regain cap level gain = cap := min_eq_left h

theorem regain_regain (h : 0 ≤ gain') :
    regain cap (regain cap level gain) gain' = regain cap level (gain + gain') := by
  unfold regain
  rw [← min_add_add_right, ← min_assoc, min_eq_left (le_add_of_nonneg_right h), add_assoc]

end

/-! ## What is taken in a span of time -/

/-- From some time on, a level of at most `cap` that regains at most one token each `period`. -/
structure Meter (cap period : K) (start : Nat) (level : Nat → K) : Prop where
  nonneg : ∀ now, start ≤ now → 0 ≤ level now
  le_cap : ∀ now, start ≤ now → level now ≤ cap
  regains : ∀ now later, start ≤ now → now ≤ later →
    level later ≤ level now + (later - now : Nat) / period

variable {E : Type*} (time : E → Nat) (took : E → Bool)

/-- A history of requests in the order of their times, with the level that it leaves. -/
inductive Metered (cap period : K) : List E → (Nat → K) → Prop
  | nil {level : Nat → K} (h : Meter cap period 0 level) : Metered cap period [] level
  | snoc {history : List E} {level level' : Nat → K} {e : E} (h : Metered cap period history level)
      (hlast : ∀ e' ∈ history, time e' ≤ time e) (hlevel : Meter cap period (time e) level')
      (hpays : level' (time e) + (if took e then 1 else 0) ≤ level (time e)) :
      Metered cap period (history ++ [e]) level'

/-- The requests of a history at `[first, last]` that took a token. -/
def taken (first last : Nat) (history : List E) : Nat :=
  history.countP fun e => first ≤ time e ∧ time e ≤ last ∧ took e

variable {time took} {cap period : K} {history : List E} {level : Nat → K} {first last : Nat}

theorem taken_snoc (e : E) : taken time took first last (history ++ [e]) =
    taken time took first last history +
      if first ≤ time e ∧ time e ≤ last ∧ took e then 1 else 0 := by
  simp [taken, List.countP_append, List.countP_singleton]

theorem taken_eq_zero (h : ∀ e ∈ history, ¬(first ≤ time e ∧ time e ≤ last)) :
    taken time took first last history = 0 := by
  refine List.countP_eq_zero.mpr fun e he htook => h e he ?_
  have hspan := of_decide_eq_true htook
  exact ⟨hspan.1, hspan.2.1⟩

theorem taken_congr {last' : Nat}
    (h : ∀ e ∈ history, time e ≤ last ↔ time e ≤ last') :
    taken time took first last history = taken time took first last' history := by
  refine List.countP_congr fun e he => ?_
  simp only [decide_eq_true_eq, h e he]

namespace Metered

/-- What was taken since `first` and what is left. -/
theorem taken_add_level_le (h : Metered time took cap period history level) (hperiod : 0 < period) :
    ∀ now, (∀ e ∈ history, time e ≤ now) → first ≤ now →
      (taken time took first now history : K) + level now ≤ cap + (now - first : Nat) / period := by
  induction h with
  | nil h =>
    intro now _ _
    have hcap := h.le_cap now (Nat.zero_le _)
    have hgain : (0 : K) ≤ (now - first : Nat) / period := div_nonneg (Nat.cast_nonneg _) hperiod.le
    simp only [taken, List.countP_nil, Nat.cast_zero]
    linarith
  | @snoc history level level' e h hlast hlevel hpays ih =>
    intro now hall hfirst
    have hnow : time e ≤ now := hall e (by simp)
    by_cases hspan : first ≤ time e
    · have hbefore := ih (time e) hlast hspan
      have hlater := hlevel.regains (time e) now le_rfl hnow
      have hsplit : (now - first : Nat) = (time e - first) + (now - time e) := by omega
      have hsame : taken time took first now history = taken time took first (time e) history :=
        taken_congr fun e' he' => iff_of_true (hall e' (by simp [he'])) (hlast e' he')
      rw [taken_snoc, hsplit, hsame]
      simp only [hspan, hnow, true_and]
      push_cast
      rw [add_div]
      linarith
    · have hnone : taken time took first now (history ++ [e]) = 0 := by
        refine taken_eq_zero fun e' he' hin => hspan (hin.1.trans ?_)
        rcases List.mem_append.mp he' with he' | he'
        · exact hlast e' he'
        · rw [List.mem_singleton.mp he']
      have hcap := hlevel.le_cap now hnow
      have hgain : (0 : K) ≤ (now - first : Nat) / period := div_nonneg (Nat.cast_nonneg _) hperiod.le
      rw [hnone, Nat.cast_zero]
      linarith

/-- In any span of time no more is taken than a full bucket and what the span brings. -/
theorem taken_le (h : Metered time took cap period history level) (hperiod : 0 < period)
    (first span : Nat) :
    (taken time took first (first + span) history : K) ≤ cap + span / period := by
  induction h with
  | nil h =>
    have hfull := (h.nonneg 0 le_rfl).trans (h.le_cap 0 le_rfl)
    have hgain : (0 : K) ≤ span / period := div_nonneg (Nat.cast_nonneg _) hperiod.le
    simp only [taken, List.countP_nil, Nat.cast_zero]
    linarith
  | @snoc history level level' e h hlast hlevel hpays ih =>
    by_cases hspan : time e ≤ first + span
    · have hall : ∀ e' ∈ history ++ [e], time e' ≤ first + span := by
        intro e' he'
        rcases List.mem_append.mp he' with he' | he'
        · exact (hlast e' he').trans hspan
        · rwa [List.mem_singleton.mp he']
      have hsum := taken_add_level_le (.snoc h hlast hlevel hpays) hperiod (first + span) hall
        (Nat.le_add_right first span)
      have hleft := hlevel.nonneg (first + span) hspan
      rw [Nat.add_sub_cancel_left] at hsum
      linarith
    · rw [taken_snoc, if_neg (by simp [hspan]), add_zero]
      exact ih

end Metered
end Apoptosis.Core.TokenBucket
