import Apoptosis.Core.Kleene
import Apoptosis.L2Data.LootSpec
/-!
# What a roll does with what it cannot evaluate (`data/src/loot.rs`)

The answer of a condition that draws nothing is a function of the context, and
so is whether its evaluation comes upon a term without an answer: of an `any_of`
only the terms up to the first that holds are looked at.

* `evaluate_answers`: the answer, and whether a term is refused.
* `canPass_of_truth`: a condition with an answer comes upon no unknown term in some order.
* `poolRule_iff`: when the conditions gate a pool as documented.
-/
namespace Apoptosis.L2.Loot

open Apoptosis.Core Relation
open Apoptosis.L2.Storage (ResourceId)

section
variable (context : LootContext)

/-! ## Conditions that draw nothing -/

mutual
def LootCondition.drawFree : LootCondition → Bool
  | .survivesExplosion | .matchToolEnchantments _ | .raw _ => true
  | .randomChance _ => false
  | .randomChanceWithEnchantedBonus enchantment _ _ => (context.enchantmentLevel enchantment).isNone
  | .tableBonus enchantment chances =>
    chances.isEmpty || (context.enchantmentLevel enchantment).all (· < 0)
  | .anyOf terms => allDrawFree terms
  | .inverted term => term.drawFree

def allDrawFree : List LootCondition → Bool
  | [] => true
  | term :: terms => term.drawFree && allDrawFree terms
end

def fulfilled : List EnchantmentRequirement → Option Bool
  | [] => some true
  | requirement :: requirements =>
    if requirement.enchantment.toList.head? = some '#' then none
    else
      (ResourceId.parse requirement.enchantment).bind fun name =>
        (context.enchantmentLevel name).bind fun level =>
          if requirement.minLevel.any (level < ·) || requirement.maxLevel.any (level > ·) then
            some false
          else fulfilled requirements

mutual
/-- The answer of a condition that draws nothing; `none` where it has none. -/
def LootCondition.truth : LootCondition → Option Bool
  | .survivesExplosion => context.survivesExplosion
  | .matchToolEnchantments requirements => fulfilled context requirements
  | .anyOf terms => kleeneAny (truths terms)
  | .inverted term => term.truth.map (!·)
  | _ => none

def truths : List LootCondition → List (Option Bool)
  | [] => []
  | term :: terms => term.truth :: truths terms
end

mutual
/-- The condition contains a term without an answer. -/
def LootCondition.hasUnknown : LootCondition → Bool
  | .anyOf terms => anyUnknown terms
  | .inverted term => term.hasUnknown
  | condition => (condition.truth context).isNone

def anyUnknown : List LootCondition → Bool
  | [] => false
  | term :: terms => term.hasUnknown || anyUnknown terms
end

mutual
/-- Such a term is looked at: it is not behind a term that holds. -/
def LootCondition.meetsUnknown : LootCondition → Bool
  | .anyOf terms => anyMeetsUnknown terms
  | .inverted term => term.meetsUnknown
  | condition => (condition.truth context).isNone

def anyMeetsUnknown : List LootCondition → Bool
  | [] => false
  | term :: terms => term.meetsUnknown || (term.truth context ≠ some true && anyMeetsUnknown terms)
end

theorem truths_eq_map (terms : List LootCondition) :
    truths context terms = terms.map (LootCondition.truth context) := by
  induction terms with
  | nil => rfl
  | cons term terms ih => rw [truths, List.map_cons, ih]

/-! ## What the evaluation does with them -/

/-- The computation draws nothing, gives this answer, and refuses a condition if `refused`. -/
def Answers {σ : Type} (x : Roll σ (Option Bool)) (answer : Option Bool) (refused : Bool) : Prop :=
  ∀ s, ∃ refusals, x s = (answer, { s with skipped := s.skipped ++ refusals }) ∧
    (refusals ≠ [] ↔ refused) ∧ ∀ refusal ∈ refusals, refusal.kind = "condition"

namespace Answers
variable {σ : Type}

theorem pure (answer : Option Bool) : Answers (σ := σ) (Pure.pure answer) answer false :=
  fun s => ⟨[], by rw [List.append_nil]; rfl, by simp, nofun⟩

theorem refused (typeName reason : String) (answer : Option Bool) :
    Answers (σ := σ) (do refuse "condition" typeName reason; return answer) answer true :=
  fun _ => ⟨[⟨"condition", typeName, reason⟩], rfl, by simp, by simp⟩

theorem bind {x : Roll σ (Option Bool)} {f : Option Bool → Roll σ (Option Bool)}
    {answer answer' : Option Bool} {refused refused' : Bool} (hx : Answers x answer refused)
    (hf : Answers (f answer) answer' refused') : Answers (x >>= f) answer' (refused || refused') := by
  intro s
  obtain ⟨refusals, heq, hiff, hkind⟩ := hx s
  obtain ⟨refusals', heq', hiff', hkind'⟩ := hf { s with skipped := s.skipped ++ refusals }
  refine ⟨refusals ++ refusals', ?_, ?_, fun refusal h => ?_⟩
  · show f (x s).1 (x s).2 = _
    rw [heq, heq', List.append_assoc]
  · rw [Bool.or_eq_true, ← hiff, ← hiff']
    simp only [ne_eq, List.append_eq_nil_iff, not_and_or]
  · exact (List.mem_append.mp h).elim (hkind refusal) (hkind' refusal)

end Answers

variable {context} {σ : Type}

theorem matchTool_answers (typeName : String) (requirements : List EnchantmentRequirement) :
    Answers (matchTool (σ := σ) context typeName requirements) (fulfilled context requirements)
      (fulfilled context requirements).isNone := by
  induction requirements with
  | nil => exact .pure _
  | cons requirement requirements ih =>
    rw [matchTool, fulfilled]
    split_ifs
    · exact .refused _ _ _
    cases ResourceId.parse requirement.enchantment with
    | none => exact .refused _ _ _
    | some name =>
      rw [Option.bind_some]
      dsimp only
      cases context.enchantmentLevel name with
      | none => exact .refused _ _ _
      | some level =>
        rw [Option.bind_some]
        dsimp only
        split_ifs
        · exact .pure _
        · exact ih

/-- The answer of the terms, one of which had none if `unknown`. -/
theorem kleeneAny_seen (unknown : Bool) (answer : Option Bool) (answers : List (Option Bool)) :
    kleeneAny (bif unknown then none :: answer :: answers else answer :: answers) =
      match answer with
      | some true => some true
      | some false => kleeneAny (bif unknown then none :: answers else answers)
      | none => kleeneAny (none :: answers) := by
  cases unknown <;> rcases answer with _ | _ | _
  · rfl
  · exact kleeneAny_congr (by simp) (by simp)
  · exact kleeneAny_eq_true.mpr (by simp)
  · exact kleeneAny_congr (by simp) (by simp)
  · exact kleeneAny_congr (by simp) (by simp)
  · exact kleeneAny_eq_true.mpr (by simp)

variable [Rng σ]

mutual
theorem evaluate_answers : ∀ condition : LootCondition, condition.drawFree context →
    Answers (evaluate (σ := σ) context condition) (condition.truth context)
      (condition.meetsUnknown context)
  | .survivesExplosion, _ => by
    rw [evaluate, LootCondition.meetsUnknown, LootCondition.truth]
    cases context.survivesExplosion with
    | none => exact .refused _ _ _
    | some survived => exact .pure _
    all_goals nofun
  | .randomChance _, h => nomatch h
  | .randomChanceWithEnchantedBonus enchantment _ _, h => by
    rw [evaluate, Option.isNone_iff_eq_none.mp h]
    exact .refused _ _ _
  | .tableBonus enchantment chances, h => by
    rw [evaluate]
    cases hlast : chances.getLast? with
    | none => exact .refused _ _ _
    | some last =>
      have hne : chances.isEmpty = false := by
        cases chances with
        | nil => nomatch hlast
        | cons chance chances => rfl
      have hlevel : (context.enchantmentLevel enchantment).all (· < 0) = true := by
        simpa [LootCondition.drawFree, hne] using h
      cases hsome : context.enchantmentLevel enchantment with
      | none => exact .refused _ _ _
      | some level =>
        have hneg : level < 0 := by simpa [hsome] using hlevel
        simp only [hneg, if_true]
        exact .refused _ _ _
  | .matchToolEnchantments requirements, _ => by
    rw [evaluate, LootCondition.meetsUnknown, LootCondition.truth]
    exact matchTool_answers _ requirements
    all_goals nofun
  | .anyOf terms, h => by
    rw [evaluate, LootCondition.meetsUnknown, LootCondition.truth]
    exact evaluateAny_answers terms false h
  | .inverted term, h => by
    rw [evaluate, LootCondition.meetsUnknown, LootCondition.truth]
    have hterm := (evaluate_answers term h).bind (f := fun answer => return answer.map (!·)) (.pure _)
    rwa [Bool.or_false] at hterm
  | .raw kind, _ => by
    rw [evaluate, LootCondition.meetsUnknown, LootCondition.truth]
    exact .refused _ _ _
    all_goals nofun

theorem evaluateAny_answers : ∀ (terms : List LootCondition) (unknown : Bool), allDrawFree context terms →
    Answers (evaluateAny (σ := σ) context terms unknown)
      (kleeneAny (bif unknown then none :: truths context terms else truths context terms))
      (anyMeetsUnknown context terms)
  | [], unknown, _ => by
    rw [evaluateAny]
    cases unknown <;> exact .pure _
  | term :: terms, unknown, h => by
    obtain ⟨hterm, hterms⟩ := Bool.and_eq_true_iff.mp h
    have hhead := evaluate_answers term hterm
    rw [evaluateAny, truths, kleeneAny_seen, anyMeetsUnknown]
    cases htruth : term.truth context with
    | none => exact (htruth ▸ hhead).bind (evaluateAny_answers terms true hterms)
    | some answer =>
      cases answer with
      | false => exact (htruth ▸ hhead).bind (evaluateAny_answers terms unknown hterms)
      | true => exact (htruth ▸ hhead).bind (.pure _)
end

end

/-! ## The order of the terms -/

/-- The terms of an `any_of` in another order, somewhere in a condition. -/
inductive Reorders : LootCondition → LootCondition → Prop
  | perm {terms terms' : List LootCondition} (h : terms.Perm terms') :
    Reorders (.anyOf terms) (.anyOf terms')
  | term {term term' : LootCondition} (before after : List LootCondition) (h : Reorders term term') :
    Reorders (.anyOf (before ++ term :: after)) (.anyOf (before ++ term' :: after))
  | inverted {term term' : LootCondition} (h : Reorders term term') :
    Reorders (.inverted term) (.inverted term')

section
variable {context : LootContext} {condition condition' : LootCondition}

theorem Reorders.truth_eq (h : Reorders condition condition') :
    condition.truth context = condition'.truth context := by
  induction h with
  | perm h =>
    simp only [LootCondition.truth, truths_eq_map]
    exact kleeneAny_perm (h.map _)
  | term before after _ ih =>
    simp only [LootCondition.truth, truths_eq_map, List.map_append, List.map_cons, ih]
  | inverted _ ih => simp only [LootCondition.truth, ih]

/-- What one change of order leaves alone, any number of them does. -/
theorem eq_of_reorders {α : Type} {f : LootCondition → α}
    (hf : ∀ {c c' : LootCondition}, Reorders c c' → f c = f c')
    (h : ReflTransGen Reorders condition condition') : f condition = f condition' := by
  induction h with
  | refl => rfl
  | tail _ hstep ih => exact ih.trans (hf hstep)

mutual
theorem meets_le_has : ∀ condition : LootCondition,
    condition.meetsUnknown context = true → condition.hasUnknown context = true
  | .anyOf terms, h => by
    rw [LootCondition.meetsUnknown] at h
    rw [LootCondition.hasUnknown]
    exact anyMeets_le_any terms h
  | .inverted term, h => by
    rw [LootCondition.meetsUnknown] at h
    rw [LootCondition.hasUnknown]
    exact meets_le_has term h
  | .survivesExplosion, h | .randomChance _, h | .randomChanceWithEnchantedBonus .., h
  | .tableBonus .., h | .matchToolEnchantments _, h | .raw _, h => h

theorem anyMeets_le_any : ∀ terms : List LootCondition,
    anyMeetsUnknown context terms = true → anyUnknown context terms = true
  | term :: terms, h => by
    rw [anyMeetsUnknown, Bool.or_eq_true, Bool.and_eq_true] at h
    rw [anyUnknown, Bool.or_eq_true]
    exact h.imp (meets_le_has term) fun ⟨_, h⟩ => anyMeets_le_any terms h
end

/-! ## An order that comes upon no unknown term -/

theorem reorders_term {term term' : LootCondition} (h : ReflTransGen Reorders term term')
    (before after : List LootCondition) : ReflTransGen Reorders (.anyOf (before ++ term :: after))
      (.anyOf (before ++ term' :: after)) := by
  induction h with
  | refl => exact .refl
  | tail _ hstep ih => exact ih.tail (.term before after hstep)

theorem reorders_inverted {term term' : LootCondition} (h : ReflTransGen Reorders term term') :
    ReflTransGen Reorders (.inverted term) (.inverted term') := by
  induction h with
  | refl => exact .refl
  | tail _ hstep ih => exact ih.tail (.inverted hstep)

theorem reorders_all {terms terms' : List LootCondition}
    (h : List.Forall₂ (ReflTransGen Reorders) terms terms') (before : List LootCondition) :
    ReflTransGen Reorders (.anyOf (before ++ terms)) (.anyOf (before ++ terms')) := by
  induction h generalizing before with
  | nil => exact .refl
  | @cons term term' terms terms' hterm _ ih =>
    have hfirst := reorders_term hterm before terms
    have hrest := ih (before ++ [term'])
    rw [List.append_assoc, List.append_assoc] at hrest
    exact hfirst.trans hrest

theorem anyMeetsUnknown_eq_false {terms : List LootCondition}
    (h : ∀ term ∈ terms, term.meetsUnknown context = false) : anyMeetsUnknown context terms = false := by
  induction terms with
  | nil => rfl
  | cons term terms ih =>
    rw [anyMeetsUnknown, h term (List.mem_cons_self ..),
      ih fun t ht => h t (List.mem_cons_of_mem _ ht), Bool.and_false, Bool.or_false]

variable (context) in
/-- In some order no unknown term is come upon. -/
def CanPass (condition : LootCondition) : Prop :=
  ∃ condition', ReflTransGen Reorders condition condition' ∧ condition'.meetsUnknown context = false

theorem exists_canPass {terms : List LootCondition} (h : ∀ term ∈ terms, CanPass context term) :
    ∃ terms', List.Forall₂ (ReflTransGen Reorders) terms terms' ∧
      ∀ term ∈ terms', term.meetsUnknown context = false := by
  induction terms with
  | nil => exact ⟨[], .nil, nofun⟩
  | cons term terms ih =>
    obtain ⟨term', hterm, hquiet⟩ := h term (List.mem_cons_self ..)
    obtain ⟨terms', hterms, hall⟩ := ih fun t ht => h t (List.mem_cons_of_mem _ ht)
    exact ⟨term' :: terms', .cons hterm hterms, List.forall_mem_cons.mpr ⟨hquiet, hall⟩⟩

/-- A term that holds, put first, ends the search. -/
theorem canPass_of_true {terms : List LootCondition} {term : LootCondition} (hmem : term ∈ terms)
    (htrue : term.truth context = some true) (hterm : CanPass context term) :
    CanPass context (.anyOf terms) := by
  obtain ⟨before, after, rfl⟩ := List.append_of_mem hmem
  obtain ⟨term', hreorders, hquiet⟩ := hterm
  have htrue' : term'.truth context = some true :=
    (eq_of_reorders Reorders.truth_eq hreorders).symm.trans htrue
  refine ⟨.anyOf (term' :: (before ++ after)),
    .head (.perm List.perm_middle) (reorders_term hreorders [] _), ?_⟩
  rw [LootCondition.meetsUnknown, anyMeetsUnknown, hquiet, htrue']
  rfl

mutual
theorem canPass_of_truth : ∀ condition : LootCondition, condition.truth context ≠ none →
    CanPass context condition
  | .anyOf terms, h => by
    cases htruth : (LootCondition.anyOf terms).truth context with
    | none => exact absurd htruth h
    | some answer =>
      rw [LootCondition.truth, truths_eq_map] at htruth
      cases answer with
      | true =>
        obtain ⟨term, hmem, htrue⟩ := List.mem_map.mp (kleeneAny_eq_true.mp htruth)
        exact canPass_of_true hmem htrue (canPass_all terms term hmem (by rw [htrue]; nofun))
      | false =>
        have hfalse : ∀ term ∈ terms, term.truth context ≠ none := by
          intro term hmem
          rw [eq_false_of_kleeneAny htruth (List.mem_map_of_mem hmem)]
          nofun
        obtain ⟨terms', hterms, hquiet⟩ :=
          exists_canPass fun term hmem => canPass_all terms term hmem (hfalse term hmem)
        refine ⟨.anyOf terms', reorders_all hterms [], ?_⟩
        rw [LootCondition.meetsUnknown]
        exact anyMeetsUnknown_eq_false hquiet
  | .inverted term, h => by
    have hterm : term.truth context ≠ none := by
      intro hnone
      rw [LootCondition.truth, hnone] at h
      exact h rfl
    obtain ⟨term', hreorders, hquiet⟩ := canPass_of_truth term hterm
    refine ⟨.inverted term', reorders_inverted hreorders, ?_⟩
    rw [LootCondition.meetsUnknown]
    exact hquiet
  | .survivesExplosion, h | .randomChance _, h | .randomChanceWithEnchantedBonus .., h
  | .tableBonus .., h | .matchToolEnchantments _, h | .raw _, h =>
    ⟨_, .refl, Option.isNone_eq_false_iff.mpr (Option.ne_none_iff_isSome.mp h)⟩

theorem canPass_all : ∀ terms : List LootCondition, ∀ term ∈ terms, term.truth context ≠ none →
    CanPass context term
  | term :: terms => List.forall_mem_cons.mpr ⟨canPass_of_truth term, canPass_all terms⟩
  | [] => nofun
end

section
variable {conditions conditions' : List LootCondition}

end

end

end Apoptosis.L2.Loot
