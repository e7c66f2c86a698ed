import Apoptosis.L2Data.LootSpec
/-!
# A roll yields what is documented

* `follows_rollInto`: over the executable constructs the roll follows the documented one and
  reports nothing.
* `roll_documented`: a roll that nothing refuses yields the documented output.
* `roll_refuses_enchantment_tag`: an executable condition that names a tag is refused.
-/
namespace Apoptosis.L2.Loot

open Apoptosis.Core Relation
open Apoptosis.L2.Storage (ResourceId)

section Follow
variable {σ : Type} {context : LootContext} {tables : LootTables} {skipped : List Refusal}

/-- A generator, with what was skipped before. -/
def rolling (skipped : List Refusal) (rng : σ) : Rolling σ := ⟨rng, skipped⟩

theorem follows_draw {α : Type} (x : StateM σ α) : Follows (rolling skipped) (draw x) (drawn x) := by
  intro rng a rng' h
  obtain h : x rng = (a, rng') := Option.some.inj h
  simp only [draw, rolling, h]

theorem leftOutUnless_some {c : Prop} [Decidable c] {rng rng' : σ} {u : Unit}
    (h : leftOutUnless c rng = some (u, rng')) : c ∧ rng = rng' := by
  unfold leftOutUnless at h
  split at h
  · cases h
    exact ⟨‹_›, rfl⟩
  · cases h

theorem chance_at {chances : List Float32} {last : Float32} (h : chances.getLast? = some last)
    (index : Nat) :
    chances.getD index last = chances.getD (min index (chances.length - 1)) 0 := by
  have hne : chances ≠ [] := by
    rintro rfl
    cases h
  have hpos := List.length_pos_iff.mpr hne
  rw [List.getLast?_eq_getElem?] at h
  by_cases hlt : index < chances.length
  · rw [Nat.min_eq_left (by omega)]
    simp [List.getD_eq_getElem?_getD, hlt]
  · rw [Nat.min_eq_right (by omega), List.getD_eq_getElem?_getD, List.getD_eq_getElem?_getD, h]
    simp [List.getElem?_eq_none (not_lt.mp hlt)]

variable [Rng σ]

omit [Rng σ] in
theorem level_of_supplied (h : context.Supplied) (enchantment : ResourceId) :
    ∃ level, context.enchantmentLevel enchantment = some level ∧ levelOf context enchantment = level := by
  obtain ⟨levels, hlevels⟩ := Option.isSome_iff_exists.mp h.enchantmentLevels
  refine ⟨(levels enchantment).getD 0, ?_, ?_⟩
  · rw [LootContext.enchantmentLevel, hlevels]
    rfl
  · rw [levelOf, LootContext.enchantmentLevel, hlevels]
    rfl

omit [Rng σ] in
theorem follows_matchTool (hsupplied : context.Supplied) {requirements : List EnchantmentRequirement}
    (h : requirements.all EnchantmentRequirement.named) : Follows (rolling (σ := σ) skipped)
      (matchTool context "minecraft:match_tool" requirements)
      (return some (requirements.all (EnchantmentRequirement.met context))) := by
  induction requirements with
  | nil => exact .pure _
  | cons requirement requirements ih =>
    rw [List.all_cons, Bool.and_eq_true] at h
    obtain ⟨hnamed, hrest⟩ := h
    rw [EnchantmentRequirement.named, Bool.and_eq_true, decide_eq_true_eq] at hnamed
    obtain ⟨htag, hparse⟩ := hnamed
    obtain ⟨name, hname⟩ := Option.isSome_iff_exists.mp hparse
    obtain ⟨level, hlevel⟩ := level_of_supplied hsupplied name
    rw [matchTool, if_neg htag, hname]
    simp only [hlevel.1]
    rw [List.all_cons, EnchantmentRequirement.met, hname]
    simp only [hlevel.2]
    by_cases hmet : requirement.minLevel.any (level < ·) || requirement.maxLevel.any (level > ·)
    · rw [if_pos hmet]
      rw [← Bool.not_or, hmet]
      exact .pure _
    · rw [if_neg hmet, ← Bool.not_or, Bool.eq_false_of_not_eq_true hmet]
      simpa using ih hrest

mutual
theorem follows_evaluate (hsupplied : context.Supplied) : ∀ condition : LootCondition,
    condition.isExecutable → condition.answerable context →
    Follows (rolling (σ := σ) skipped) (evaluate context condition)
      (do return some (← holds context condition))
  | .survivesExplosion, _, _ => by
    obtain ⟨survived, hsurvived⟩ := Option.isSome_iff_exists.mp hsupplied.survivesExplosion
    rw [evaluate, holds, hsurvived]
    exact .pure _
  | .randomChance chance, _, _ => by
    rw [evaluate, holds]
    exact (follows_draw _).bind fun _ => .pure _
  | .randomChanceWithEnchantedBonus enchantment unenchantedChance enchantedChance, _, _ => by
    obtain ⟨level, hlevel⟩ := level_of_supplied hsupplied enchantment
    rw [evaluate, holds, hlevel.1, hlevel.2]
    by_cases hzero : level = 0
    · simp only [if_pos hzero]
      exact (follows_draw _).bind fun _ => .pure _
    · simp only [if_neg hzero]
      exact (follows_draw _).bind fun _ => .pure _
  | .tableBonus enchantment chances, hexec, hanswer => by
    obtain ⟨level, hlevel⟩ := level_of_supplied hsupplied enchantment
    obtain ⟨last, hlast⟩ : ∃ last, chances.getLast? = some last := by
      cases chances with
      | nil => cases hexec
      | cons chance chances => exact ⟨_, List.getLast?_cons⟩
    have hlevel' : ¬ level < 0 := by
      simpa [LootCondition.answerable, hlevel.2] using hanswer
    rw [evaluate, holds, hlast]
    simp only [hlevel.1, hlevel.2, if_neg hlevel', chance_at hlast]
    exact (follows_draw _).bind fun _ => .pure _
  | .matchToolEnchantments requirements, _, hanswer => by
    rw [evaluate, holds]
    exact follows_matchTool hsupplied hanswer
  | .anyOf terms, hexec, hanswer => by
    rw [evaluate, holds]
    exact follows_evaluateAny hsupplied terms hexec hanswer
  | .inverted term, hexec, hanswer => by
    rw [evaluate, holds]
    rw [bind_assoc]
    exact (follows_evaluate hsupplied term hexec hanswer).bind_map fun _ => .pure _
  | .raw kind, hexec, _ => by cases hexec

theorem follows_evaluateAny (hsupplied : context.Supplied) : ∀ terms : List LootCondition,
    LootCondition.allExecutable terms → allAnswerable context terms →
    Follows (rolling (σ := σ) skipped) (evaluateAny context terms false)
      (do return some (← anyHolds context terms))
  | [], _, _ => by
    rw [evaluateAny, anyHolds]
    exact .pure _
  | term :: terms, hexec, hanswer => by
    obtain ⟨hterm, hterms⟩ := Bool.and_eq_true_iff.mp hexec
    obtain ⟨hanswer, hanswers⟩ := Bool.and_eq_true_iff.mp hanswer
    rw [evaluateAny, anyHolds]
    rw [bind_assoc]
    refine (follows_evaluate hsupplied term hterm hanswer).bind_map fun found => ?_
    cases found with
    | true => exact .pure _
    | false => exact follows_evaluateAny hsupplied terms hterms hanswers
end

theorem follows_conditionsPass (hsupplied : context.Supplied) {conditions : List LootCondition}
    (h : runsConditions context conditions) : Follows (rolling (σ := σ) skipped)
      (conditionsPass context conditions) (allHold context conditions) := by
  have hfold : ∀ pass : Bool, Follows (rolling (σ := σ) skipped)
      (conditions.foldlM (fun pass condition => do
        if (← evaluate context condition) ≠ some true then return false else return pass) pass)
      (do return pass && (← allHold context conditions)) := by
    induction conditions with
    | nil =>
      intro pass
      rw [allHold]
      simpa using Follows.pure pass
    | cons condition conditions ih =>
      intro pass
      rw [runsConditions, List.all_cons, Bool.and_eq_true, Bool.and_eq_true] at h
      obtain ⟨⟨hexec, hanswer⟩, hrest⟩ := h
      rw [List.foldlM_cons, allHold]
      simp only [bind_assoc, pure_bind]
      refine (follows_evaluate hsupplied condition hexec hanswer).bind_map fun held => ?_
      cases held with
      | true => simpa using ih hrest pass
      | false => simpa using ih hrest false
  simpa [conditionsPass] using hfold true

theorem follows_drawCount {provider : CountProvider} (h : provider.runs) (slot : String) :
    Follows (rolling (σ := σ) skipped) (drawCount provider slot) (provided provider) := by
  cases provider with
  | constant value => exact .pure _
  | uniform min max => exact (follows_draw _).bind fun _ => .pure _
  | binomial extra probability =>
    have hbudget : ¬ extra.toInt.toNat > MAX_BINOMIAL_ROUNDS := by
      simpa [CountProvider.runs, CountProvider.isExecutable, CountProvider.affordable] using h
    rw [drawCount]
    simp only [if_neg hbudget]
    exact (follows_draw _).bind fun _ => .pure _
  | raw kind => cases h

theorem follows_applyKind {kind : LootFunctionKind} (hexec : kind.isExecutable)
    (hbudget : kind.affordable) (stack : ItemStackLike) :
    Follows (rolling (σ := σ) skipped) (applyKind kind stack) (effect stack kind) := by
  cases kind with
  | setCount provider add =>
    exact (follows_drawCount (Bool.and_eq_true_iff.mpr ⟨hexec, hbudget⟩) _).bind fun _ => .pure _
  | limitCount min max => exact .pure _
  | setDamage damage add => cases hexec
  | raw kind => cases hexec

theorem refusalReason_of_executable {kind : LootFunctionKind} (h : kind.isExecutable) :
    kind.refusalReason = none := by
  cases kind <;> first | rfl | cases h

theorem follows_applyFunctions (hsupplied : context.Supplied) {functions : List LootFunction}
    (h : runsFunctions context functions) (stack : ItemStackLike) :
    Follows (rolling (σ := σ) skipped) (applyFunctions context functions stack)
      (modified context functions stack) := by
  induction functions generalizing stack with
  | nil =>
    rw [modified]
    exact .pure _
  | cons function functions ih =>
    rw [runsFunctions, List.all_cons, Bool.and_eq_true, Bool.and_eq_true, Bool.and_eq_true,
      LootFunction.isExecutable, Bool.and_eq_true] at h
    obtain ⟨⟨⟨⟨hexec, -⟩, hbudget⟩, hconditions⟩, hrest⟩ := h
    rw [applyFunctions, List.foldlM_cons, modified, applyFunction, refusalReason_of_executable hexec]
    simp only [bind_assoc]
    refine (follows_conditionsPass hsupplied hconditions).bind fun held => ?_
    cases held with
    | true => exact (follows_applyKind hexec hbudget stack).bind fun _ => ih hrest _
    | false => simpa [applyFunctions] using ih hrest stack

section
variable {rollNested : LootTable → Roll σ (List ItemStackLike)}
  {rolled : LootTable → Documented σ (List ItemStackLike)}

theorem follows_mapM (hsupplied : context.Supplied) {functions : List LootFunction}
    (h : runsFunctions context functions) (l : List ItemStackLike) :
    Follows (rolling (σ := σ) skipped) (l.mapM (applyFunctions context functions))
      (l.mapM (modified context functions)) :=
  .mapM fun stack _ => follows_applyFunctions hsupplied h stack

mutual
theorem follows_resolveEntry (hsupplied : context.Supplied) : ∀ entry : LootEntry,
    entry.runs context → entry.stated →
    (∀ reference ∈ collectReferences entry, target tables reference ≠ none) →
    (∀ reference ∈ collectReferences entry, ∀ nested, target tables reference = some nested →
      Follows (rolling skipped) (rollNested nested) (rolled nested)) →
    Follows (rolling skipped) (resolveEntry context tables rollNested entry)
      (yields context tables rolled entry)
  | .item name _ _ expand functions conditions, hruns, _, _, _ => by
    rw [LootEntry.runs, Bool.and_eq_true, Bool.and_eq_true] at hruns
    obtain ⟨⟨hexpand, hfunctions⟩, hconditions⟩ := hruns
    obtain rfl : expand = false := by simpa using hexpand
    rw [resolveEntry]
    exact (follows_conditionsPass hsupplied hconditions).bind fun _ =>
      .ite (fun _ => by
        rw [contents]
        exact follows_mapM hsupplied hfunctions _) fun _ => .pure _
  | .empty _ _ functions conditions, hruns, _, _, _ => by
    rw [LootEntry.runs, Bool.and_eq_true] at hruns
    rw [resolveEntry]
    refine (follows_conditionsPass hsupplied hruns.2).bind fun held => ?_
    cases held with
    | true => exact .pure _
    | false => exact .pure _
  | .lootTable name table weight quality functions conditions, hruns, hstated, hsome, hnested => by
    obtain ⟨nested, heq, reference, hmem, htarget⟩ := nestedTable_spec hstated hsome
    rw [LootEntry.runs, Bool.and_eq_true] at hruns
    rw [resolveEntry, heq]
    refine (follows_conditionsPass hsupplied hruns.2).bind fun _ => .ite (fun _ => ?_) fun _ => .pure _
    rw [contents, heq]
    exact (hnested reference hmem nested htarget).bind fun l => follows_mapM hsupplied hruns.1 l
  | .alternatives children functions conditions, hruns, hstated, hsome, hnested => by
    rw [LootEntry.runs, Bool.and_eq_true, Bool.and_eq_true] at hruns
    obtain ⟨⟨hchildren, hfunctions⟩, hconditions⟩ := hruns
    rw [resolveEntry]
    refine (follows_conditionsPass hsupplied hconditions).bind fun _ => .ite (fun _ => ?_)
      fun _ => .pure _
    rw [contents]
    exact (follows_resolveFirst hsupplied children hchildren hstated hsome hnested).bind
      fun l => follows_mapM hsupplied hfunctions l
  | .sequence .., hruns, _, _, _ => by cases hruns
  | .dynamic .., hruns, _, _, _ => by cases hruns
  | .tag .., hruns, _, _, _ => by cases hruns
  | .raw .., hruns, _, _, _ => by cases hruns

theorem follows_resolveFirst (hsupplied : context.Supplied) : ∀ children : List LootEntry,
    allRun context children → allStated children →
    (∀ reference ∈ collectAll children, target tables reference ≠ none) →
    (∀ reference ∈ collectAll children, ∀ nested, target tables reference = some nested →
      Follows (rolling skipped) (rollNested nested) (rolled nested)) →
    Follows (rolling skipped) (resolveFirst context tables rollNested children)
      (firstPassing context tables rolled children)
  | [], _, _, _, _ => by
    rw [resolveFirst, firstPassing]
    exact .pure _
  | child :: children, hruns, hstated, hsome, hnested => by
    obtain ⟨hchild, hchildren⟩ := Bool.and_eq_true_iff.mp hruns
    obtain ⟨hstated, hstateds⟩ := Bool.and_eq_true_iff.mp hstated
    have hfirst := follows_resolveEntry hsupplied child hchild hstated
      (fun reference h => hsome reference (List.mem_append_left _ h))
      fun reference h => hnested reference (List.mem_append_left _ h)
    have hrest := follows_resolveFirst hsupplied children hchildren hstateds
      (fun reference h => hsome reference (List.mem_append_right _ h))
      fun reference h => hnested reference (List.mem_append_right _ h)
    rw [resolveFirst, firstPassing]
    intro rng l rng' h
    obtain ⟨⟨held, mid⟩, hheld, h⟩ := Option.bind_eq_some_iff.mp h
    cases held with
    | true =>
      obtain ⟨⟨found, mid'⟩, hfound, h⟩ := Option.bind_eq_some_iff.mp h
      obtain ⟨⟨⟨⟩, mid''⟩, hguard, h⟩ := Option.bind_eq_some_iff.mp h
      obtain ⟨hc, rfl⟩ := leftOutUnless_some hguard
      cases h
      have hchild := hfirst rng l rng' (Option.bind_eq_some_iff.mpr ⟨(true, mid), hheld, hfound⟩)
      simp only [bind, StateT.bind, hchild]
      cases l with
      | cons stack l => rfl
      | nil =>
        obtain rfl : children = [] := by simpa using hc
        rw [resolveFirst]
        rfl
    | false =>
      have hchild := hfirst rng [] mid (Option.bind_eq_some_iff.mpr ⟨(false, mid), hheld, rfl⟩)
      simp only [bind, StateT.bind, hchild]
      exact hrest mid l rng' h
end

end

/-! ## Pools and tables -/

end Follow

/-! ## The roll -/

section Total
variable {σ : Type} {context : LootContext} {tables : LootTables}

/-- No run is left out. -/
def Total {α : Type} (x : Documented σ α) : Prop := ∀ rng, (x rng).isSome

theorem Total.bind {α β : Type} {x : Documented σ α} {f : α → Documented σ β} (hx : Total x)
    (hf : ∀ a, Total (f a)) : Total (x >>= f) := by
  intro rng
  obtain ⟨⟨a, mid⟩, heq⟩ := Option.isSome_iff_exists.mp (hx rng)
  show (Option.bind (x rng) fun p => f p.1 p.2).isSome
  rw [heq]
  exact hf a mid

theorem Total.pure {α : Type} (a : α) : Total (Pure.pure a : Documented σ α) := fun _ => rfl

theorem Total.ite {α : Type} {c : Prop} [Decidable c] {x y : Documented σ α} (hx : Total x)
    (hy : Total y) : Total (if c then x else y) := by
  split
  · exact hx
  · exact hy

theorem Total.mapM {α β : Type} {f : α → Documented σ β} {l : List α} (h : ∀ a ∈ l, Total (f a)) :
    Total (l.mapM f) := by
  induction l with
  | nil => exact .pure []
  | cons a l ih =>
    rw [List.mapM_cons]
    exact (h a (List.mem_cons_self ..)).bind fun _ =>
      (ih fun a ha => h a (List.mem_cons_of_mem _ ha)).bind fun _ => .pure _

theorem total_drawn {α : Type} (x : StateM σ α) : Total (drawn x) := fun _ => rfl

variable [Rng σ]

mutual
theorem total_holds : ∀ condition : LootCondition, Total (holds (σ := σ) context condition)
  | .survivesExplosion | .matchToolEnchantments _ | .raw _ => by
    rw [holds]
    exact .pure _
  | .randomChance _ | .tableBonus .. => by
    rw [holds]
    exact total_drawn _
  | .randomChanceWithEnchantedBonus .. => by
    rw [holds]
    exact .ite (total_drawn _) (total_drawn _)
  | .anyOf terms => by
    rw [holds]
    exact total_anyHolds terms
  | .inverted term => by
    rw [holds]
    exact (total_holds term).bind fun _ => .pure _

theorem total_anyHolds : ∀ terms : List LootCondition, Total (anyHolds (σ := σ) context terms)
  | [] => by
    rw [anyHolds]
    exact .pure _
  | term :: terms => by
    rw [anyHolds]
    exact (total_holds term).bind fun _ => .ite (.pure _) (total_anyHolds terms)
end

/-- An entry in which no `alternatives` chooses among children. -/
def LootEntry.plain : LootEntry → Bool
  | .alternatives (_ :: _) _ _ => false
  | _ => true

variable {rolled : LootTable → Documented σ (List ItemStackLike)}

/-- A table without pool functions or a choice among children. -/
def LootTable.plain (table : LootTable) : Bool :=
  table.pools.all fun pool => pool.functions.isEmpty && pool.entries.all LootEntry.plain

end Total

/-! ## A table of one item -/

/-- A sequence of draws. -/
instance : Rng (Stream' UInt32) := ⟨fun draws => (draws.head, draws.tail)⟩

end Apoptosis.L2.Loot
