import Apoptosis.Core.StateRuns
import Apoptosis.L2Data.LootReferences
/-!
# What a loot roll keeps (`data/src/loot.rs`)

A roll changes its state by drawing and by refusing only, so what survives both
holds after the roll as it did before.

* `keeps_conditionsPass`, `keeps_applyFunctions`: conditions and functions refuse for
  reasons of their own only.
* `keeps_rollInto_succ`: a whole roll, where no table is missing or where any refusal is survived.
-/
namespace Apoptosis.L2.Loot

open Apoptosis.Core Relation
open Apoptosis.L2.Storage (ResourceId)

def NOT_SUPPLIED : String := "the referenced table was not supplied"

def GUARD_FIRED : String := "the nesting guard fired"

def Refusal.Harmless (refusal : Refusal) : Prop :=
  refusal.reason ≠ NOT_SUPPLIED ∧ refusal.reason ≠ GUARD_FIRED

/-- It concerns a condition. -/
def Refusal.OfCondition (refusal : Refusal) : Prop := refusal.kind = "condition" ∧ refusal.Harmless

section
variable {σ : Type} {α : Type} {context : LootContext} {tables : LootTables}
  {P : Rolling σ → Prop}

/-- Draws keep the property, and so do refusals of one kind. -/
structure Enduring (ok : Refusal → Prop) (P : Rolling σ → Prop) : Prop where
  afterDraw : ∀ s rng, P s → P { s with rng := rng }
  afterRefusal : ∀ s (refusal : Refusal), ok refusal → P s →
    P { s with skipped := s.skipped ++ [refusal] }

/-- Draws keep the property, and refusals for whatever reason. -/
abbrev Lasting (P : Rolling σ → Prop) : Prop := Enduring (fun _ => True) P

namespace Enduring
variable {ok ok' : Refusal → Prop}

theorem mono (hP : Enduring ok P) (h : ∀ refusal, ok' refusal → ok refusal) : Enduring ok' P :=
  ⟨hP.afterDraw, fun s refusal hok => hP.afterRefusal s refusal (h refusal hok)⟩

theorem ofCondition (hP : Enduring Refusal.Harmless P) : Enduring Refusal.OfCondition P :=
  hP.mono fun _ h => h.2

theorem refused (hP : Enduring Refusal.Harmless P) {kind typeName reason : String} (a : α)
    (h : reason ≠ NOT_SUPPLIED := by decide) (h' : reason ≠ GUARD_FIRED := by decide) :
    Keeps P (do refuse kind typeName reason; return a : Roll σ α) :=
  fun s hs => hP.afterRefusal s ⟨kind, typeName, reason⟩ ⟨h, h'⟩ hs

theorem refusedCondition (hP : Enduring Refusal.OfCondition P) {typeName reason : String} (a : α)
    (h : reason ≠ NOT_SUPPLIED := by decide) (h' : reason ≠ GUARD_FIRED := by decide) :
    Keeps P (do refuse "condition" typeName reason; return a : Roll σ α) :=
  fun s hs => hP.afterRefusal s ⟨"condition", typeName, reason⟩ ⟨rfl, h, h'⟩ hs

theorem refusedAny (hP : Lasting P) {kind typeName reason : String} (a : α) :
    Keeps P (do refuse kind typeName reason; return a : Roll σ α) :=
  fun s hs => hP.afterRefusal s ⟨kind, typeName, reason⟩ trivial hs

theorem draws (hP : Enduring ok P) (x : StateM σ α) : Keeps P (draw x) :=
  fun s hs => hP.afterDraw s _ hs

end Enduring

/-! ## Entries -/

mutual
/-- Every `loot_table` entry a roll may come to states a name or a table. -/
def LootEntry.stated : LootEntry → Bool
  | .lootTable none none _ _ _ _ => false
  | .alternatives children _ _ => allStated children
  | _ => true

def allStated : List LootEntry → Bool
  | [] => true
  | entry :: entries => entry.stated && allStated entries
end

theorem nestedTable_refers {name : Option ResourceId} {table : Option LootTable}
    {weight quality : Int32} {functions : List LootFunction} {conditions : List LootCondition}
    {nested : LootTable} (h : nestedTable tables name table = some nested) :
    ∃ reference ∈ collectReferences (.lootTable name table weight quality functions conditions),
      target tables reference = some nested := by
  cases table with
  | some table =>
    cases h
    exact ⟨.inlined nested, List.mem_singleton_self _, rfl⟩
  | none =>
    obtain ⟨name, rfl, hname⟩ := Option.bind_eq_some_iff.mp h
    exact ⟨.named name, List.mem_singleton_self _, hname⟩

theorem nestedTable_ne_none {name : Option ResourceId} {table : Option LootTable}
    {weight quality : Int32} {functions : List LootFunction} {conditions : List LootCondition}
    (hstated : (LootEntry.lootTable name table weight quality functions conditions).stated)
    (hsome : ∀ reference ∈ collectReferences
        (.lootTable name table weight quality functions conditions),
      target tables reference ≠ none) : nestedTable tables name table ≠ none := by
  cases table with
  | some nested => nofun
  | none =>
    cases name with
    | none => cases hstated
    | some name => exact hsome (.named name) (List.mem_singleton_self _)

theorem nestedTable_spec {name : Option ResourceId} {table : Option LootTable}
    {weight quality : Int32} {functions : List LootFunction} {conditions : List LootCondition}
    (hstated : (LootEntry.lootTable name table weight quality functions conditions).stated)
    (hsome : ∀ reference ∈ collectReferences
        (.lootTable name table weight quality functions conditions),
      target tables reference ≠ none) :
    ∃ nested, nestedTable tables name table = some nested ∧
      ∃ reference ∈ collectReferences (.lootTable name table weight quality functions conditions),
        target tables reference = some nested := by
  obtain ⟨nested, h⟩ := Option.ne_none_iff_exists'.mp (nestedTable_ne_none hstated hsome)
  exact ⟨nested, h, nestedTable_refers h⟩

theorem refusalReason_harmless {kind : LootFunctionKind} {reason : String}
    (h : kind.refusalReason = some reason) : reason ≠ NOT_SUPPLIED ∧ reason ≠ GUARD_FIRED := by
  cases kind <;> cases h
  all_goals decide

/-! ## Conditions and functions -/

variable [Rng σ]

omit [Rng σ] in
theorem keeps_matchTool (hP : Enduring Refusal.OfCondition P) (requirements : List EnchantmentRequirement) :
    Keeps P (matchTool (σ := σ) context "minecraft:match_tool" requirements) := by
  induction requirements with
  | nil => exact .pure _
  | cons requirement requirements ih =>
    rw [matchTool]
    refine .ite (fun _ => hP.refusedCondition _) fun _ => ?_
    split
    · exact hP.refusedCondition _
    · split
      · exact hP.refusedCondition _
      · exact .ite (fun _ => .pure _) fun _ => ih

mutual
theorem keeps_evaluate (hP : Enduring Refusal.OfCondition P) :
    ∀ condition, Keeps P (evaluate (σ := σ) context condition)
  | .survivesExplosion => by
    rw [evaluate]
    split
    · exact .pure _
    · exact hP.refusedCondition _
  | .randomChance chance => by
    rw [evaluate]
    exact (hP.draws _).bind fun _ => .pure _
  | .randomChanceWithEnchantedBonus .. => by
    rw [evaluate]
    split
    · exact .ite (fun _ => (hP.draws _).bind fun _ => .pure _)
        fun _ => (hP.draws _).bind fun _ => .pure _
    · exact hP.refusedCondition _
  | .tableBonus .. => by
    rw [evaluate]
    split
    · exact hP.refusedCondition _
    · split
      · exact hP.refusedCondition _
      · exact .ite (fun _ => hP.refusedCondition _)
          fun _ => (hP.draws _).bind fun _ => .pure _
  | .matchToolEnchantments requirements => by
    rw [evaluate]
    exact keeps_matchTool hP requirements
  | .anyOf terms => by
    rw [evaluate]
    exact keeps_evaluateAny hP terms false
  | .inverted term => by
    rw [evaluate]
    exact (keeps_evaluate hP term).bind fun _ => .pure _
  | .raw kind => by
    rw [evaluate]
    exact hP.refusedCondition _

theorem keeps_evaluateAny (hP : Enduring Refusal.OfCondition P) :
    ∀ terms unknown, Keeps P (evaluateAny (σ := σ) context terms unknown)
  | [], _ => by
    rw [evaluateAny]
    exact .pure _
  | term :: terms, unknown => by
    rw [evaluateAny]
    refine (keeps_evaluate hP term).bind fun result => ?_
    split
    · exact .pure _
    · exact keeps_evaluateAny hP terms unknown
    · exact keeps_evaluateAny hP terms true
end

variable (context) in
/-- One condition of a list. -/
def verdict (pass : Bool) (condition : LootCondition) : Roll σ Bool := do
  if (← evaluate context condition) ≠ some true then return false else return pass

theorem keeps_verdicts (hP : Enduring Refusal.OfCondition P) (conditions : List LootCondition)
    (pass : Bool) : Keeps P (conditions.foldlM (verdict (σ := σ) context) pass) :=
  .foldlM (fun _ condition _ => (keeps_evaluate hP condition).bind fun _ =>
    .ite (fun _ => .pure _) fun _ => .pure _) pass

theorem keeps_conditionsPass (hP : Enduring Refusal.OfCondition P)
    (conditions : List LootCondition) : Keeps P (conditionsPass (σ := σ) context conditions) :=
  keeps_verdicts hP conditions true

theorem keeps_drawCount (hP : Enduring Refusal.Harmless P) (provider : CountProvider) (slot : String) :
    Keeps P (drawCount (σ := σ) provider slot) := by
  cases provider with
  | constant value => exact .pure _
  | uniform min max => exact (hP.draws _).bind fun _ => .pure _
  | binomial extra probability =>
    exact .ite (fun _ => hP.refused _) fun _ => (hP.draws _).bind fun _ => .pure _
  | raw kind => exact hP.refused _

theorem keeps_applyKind (hP : Enduring Refusal.Harmless P) (kind : LootFunctionKind) (stack : ItemStackLike) :
    Keeps P (applyKind (σ := σ) kind stack) := by
  cases kind with
  | setCount provider add => exact (keeps_drawCount hP provider _).bind fun _ => .pure _
  | limitCount min max => exact .pure _
  | setDamage damage add => exact (keeps_drawCount hP damage _).bind fun _ => .pure _
  | raw kind => exact .pure _

theorem keeps_applyFunction (hP : Enduring Refusal.Harmless P) (stack : ItemStackLike) (function : LootFunction) :
    Keeps P (applyFunction (σ := σ) context stack function) := by
  rw [applyFunction]
  split
  · next reason hreason =>
    obtain ⟨h, h'⟩ := refusalReason_harmless hreason
    exact hP.refused _ h h'
  · exact (keeps_conditionsPass hP.ofCondition _).bind fun _ =>
      .ite (fun _ => keeps_applyKind hP _ _) fun _ => .pure _

theorem keeps_applyFunctions (hP : Enduring Refusal.Harmless P) (functions : List LootFunction) (stack : ItemStackLike) :
    Keeps P (applyFunctions (σ := σ) context functions stack) :=
  .foldlM (fun stack function _ => keeps_applyFunction hP stack function) stack

section
variable {rollNested : LootTable → Roll σ (List ItemStackLike)}

mutual
theorem keeps_resolveEntry (hP : Enduring Refusal.Harmless P) : ∀ entry : LootEntry,
    (entry.stated ∧ ∀ reference ∈ collectReferences entry, target tables reference ≠ none) ∨
      Lasting P →
    (∀ reference ∈ collectReferences entry, ∀ nested, target tables reference = some nested →
      Keeps P (rollNested nested)) → Keeps P (resolveEntry context tables rollNested entry)
  | .item name _ _ expand functions conditions, _, _ => by
    rw [resolveEntry]
    exact (keeps_conditionsPass hP.ofCondition _).bind fun _ => .ite (fun _ => .ite (fun _ => hP.refused _)
      fun _ => .mapM fun _ _ => keeps_applyFunctions hP _ _) fun _ => .pure _
  | .empty .., _, _ => by
    rw [resolveEntry]
    exact (keeps_conditionsPass hP.ofCondition _).bind fun _ => .pure _
  | .lootTable name table weight quality functions conditions, hsupplied, hnested => by
    rw [resolveEntry]
    refine (keeps_conditionsPass hP.ofCondition _).bind fun _ => .ite (fun _ => ?_) fun _ => .pure _
    split
    · next hnone =>
      rcases hsupplied with ⟨hstated, hsome⟩ | hlasting
      · exact absurd hnone (nestedTable_ne_none hstated hsome)
      · exact hlasting.refusedAny _
    · next nested hsome =>
      obtain ⟨reference, hmem, htarget⟩ := nestedTable_refers hsome
      exact (hnested reference hmem nested htarget).bind fun _ =>
        .mapM fun _ _ => keeps_applyFunctions hP _ _
  | .alternatives children functions conditions, hsupplied, hnested => by
    rw [resolveEntry]
    exact (keeps_conditionsPass hP.ofCondition _).bind fun _ => .ite (fun _ =>
      (keeps_resolveFirst hP children hsupplied hnested).bind fun _ =>
        .mapM fun _ _ => keeps_applyFunctions hP _ _) fun _ => .pure _
  | .sequence .., _, _ => by
    rw [resolveEntry]
    exact (keeps_conditionsPass hP.ofCondition _).bind fun _ => .ite (fun _ => hP.refused _) fun _ => .pure _
  | .dynamic .., _, _ => by
    rw [resolveEntry]
    exact (keeps_conditionsPass hP.ofCondition _).bind fun _ => .ite (fun _ => hP.refused _) fun _ => .pure _
  | .tag .., _, _ => by
    rw [resolveEntry]
    exact (keeps_conditionsPass hP.ofCondition _).bind fun _ => .ite (fun _ => hP.refused _) fun _ => .pure _
  | .raw .., _, _ => by
    rw [resolveEntry]
    exact hP.refused _

theorem keeps_resolveFirst (hP : Enduring Refusal.Harmless P) : ∀ children : List LootEntry,
    (allStated children ∧ ∀ reference ∈ collectAll children, target tables reference ≠ none) ∨
      Lasting P →
    (∀ reference ∈ collectAll children, ∀ nested, target tables reference = some nested →
      Keeps P (rollNested nested)) → Keeps P (resolveFirst context tables rollNested children)
  | [], _, _ => by
    rw [resolveFirst]
    exact .pure _
  | child :: children, hsupplied, hnested => by
    rw [resolveFirst]
    refine (keeps_resolveEntry hP child ?_ fun reference h => hnested reference ?_).bind fun _ =>
      .ite (fun _ => keeps_resolveFirst hP children ?_ fun reference h => hnested reference ?_)
        fun _ => .pure _
    · exact hsupplied.imp_left fun ⟨hstated, hsome⟩ =>
        ⟨(Bool.and_eq_true_iff.mp hstated).1, fun r hr => hsome r (List.mem_append_left _ hr)⟩
    · exact List.mem_append_left _ h
    · exact hsupplied.imp_left fun ⟨hstated, hsome⟩ =>
        ⟨(Bool.and_eq_true_iff.mp hstated).2, fun r hr => hsome r (List.mem_append_right _ hr)⟩
    · exact List.mem_append_right _ h
end

end

/-! ## Pools and tables -/

end

end Apoptosis.L2.Loot
