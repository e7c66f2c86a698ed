import Apoptosis.Core.Traces
import Apoptosis.L2Data.LootKeeps
/-!
# The functions a loot roll applies (`data/src/loot.rs`)

Every application of a function in a roll, in order: the stack, the function
and the state it starts in.

* `rollScoped_reports`: what an application refuses is in the outcome.
-/
namespace Apoptosis.L2.Loot

open Apoptosis.Core
open Apoptosis.L2.Storage (ResourceId)

structure Application (σ : Type) where
  stack : ItemStackLike
  function : LootFunction
  state : Rolling σ

section
variable {σ : Type} [Rng σ] (context : LootContext)

abbrev Trace (σ : Type) := Rolling σ → List (Application σ)

def functionTrace (functions : List LootFunction) (stack : ItemStackLike) : Trace σ :=
  traceFold (applyFunction context) (fun stack function s => [⟨stack, function, s⟩]) functions stack

def stackTrace (functions : List LootFunction) : List ItemStackLike → Trace σ :=
  traceMap (applyFunctions context functions) (functionTrace context functions)

section
variable (tables : LootTables) (rollNested : LootTable → Roll σ (List ItemStackLike))
  (nestedTrace : LootTable → Trace σ)

/-- What follows the conditions of an entry. -/
def passedTrace (conditions : List LootCondition) (trace : Trace σ) : Trace σ :=
  traceBind (conditionsPass context conditions) silent fun passed => if passed then trace else silent

mutual
def entryTrace : LootEntry → Trace σ
  | .item name _ _ expand functions conditions =>
    passedTrace context conditions
      (if expand then silent else stackTrace context functions [ItemStackLike.mk name 1 none])
  | .lootTable name «inline» _ _ functions conditions =>
    passedTrace context conditions
      (match nestedTable tables name «inline» with
      | none => silent
      | some nested => traceBind (rollNested nested) (nestedTrace nested)
          (stackTrace context functions))
  | .alternatives children functions conditions =>
    passedTrace context conditions
      (traceBind (resolveFirst context tables rollNested children) (firstTrace children)
        (stackTrace context functions))
  | _ => silent

def firstTrace : List LootEntry → Trace σ
  | [] => silent
  | child :: children =>
    traceBind (resolveEntry context tables rollNested child) (entryTrace child) fun chosen =>
      if chosen.isEmpty then firstTrace children else silent
end

end

section
variable (resolve : LootEntry → Roll σ (List ItemStackLike)) (resolveTrace : LootEntry → Trace σ)

end

/-- Refusals are only added. -/
def Extends (s s' : Rolling σ) : Prop := s.skipped <+: s'.skipped

def Application.finish (a : Application σ) : Rolling σ := (applyFunction context a.stack a.function a.state).2

omit [Rng σ] in
theorem lasting_extends (s : Rolling σ) : Lasting (Extends s) :=
  ⟨fun _ _ h => h, fun _ _ _ h => h.trans (List.prefix_append ..)⟩

omit [Rng σ] in
theorem enduring_extends {ok : Refusal → Prop} (s : Rolling σ) : Enduring ok (Extends s) :=
  (lasting_extends s).mono fun _ _ => trivial

abbrev Seen {α : Type} (x : Roll σ α) (trace : Trace σ) : Prop :=
  Traced Extends (Application.finish context) x trace

variable {context}

theorem seen_applyFunction (stack : ItemStackLike) (function : LootFunction) :
    Seen (σ := σ) context (applyFunction context stack function)
      fun s => [⟨stack, function, s⟩] :=
  Traced.step (Application.mk stack function)
    (fun s => keeps_applyFunction (enduring_extends s) stack function) (fun _ => List.prefix_rfl)
    fun _ => rfl

theorem seen_applyFunctions (functions : List LootFunction) (stack : ItemStackLike) :
    Seen (σ := σ) context (applyFunctions context functions stack)
      (functionTrace context functions stack) :=
  .foldlM seen_applyFunction functions stack

theorem seen_stacks (functions : List LootFunction) (produced : List ItemStackLike) :
    Seen (σ := σ) context (produced.mapM (applyFunctions context functions))
      (stackTrace context functions produced) :=
  .mapM (seen_applyFunctions functions) produced

theorem seen_passed {conditions : List LootCondition} {x : Roll σ (List ItemStackLike)}
    {trace : Trace σ} (h : Seen context x trace) :
    Seen context (do if ← conditionsPass context conditions then x else return [])
      (passedTrace context conditions trace) := by
  have hconditions : Seen (σ := σ) context (conditionsPass context conditions) silent :=
    .silent fun s => keeps_conditionsPass (σ := σ) (enduring_extends s) conditions
  exact hconditions.bind fun passed => .ite (fun _ => h) fun _ => .pure []

theorem seen_refused {α : Type} (kind typeName reason : String) (a : α) :
    Seen (σ := σ) context (do refuse kind typeName reason; return a) silent :=
  .silent fun s => (lasting_extends (σ := σ) s).refusedAny a

section
variable {tables : LootTables} {rollNested : LootTable → Roll σ (List ItemStackLike)}
  {nestedTrace : LootTable → Trace σ}

theorem seen_resolveEntry_silent
    (hnested : ∀ nested, Seen context (rollNested nested) (nestedTrace nested)) (entry : LootEntry) :
    Seen context (resolveEntry context tables rollNested entry) silent :=
  .silent fun s => keeps_resolveEntry (enduring_extends s) entry (.inr (lasting_extends s))
    fun _ _ nested _ => (hnested nested).keeps s

mutual
theorem seen_resolveEntry
    (hnested : ∀ nested, Seen context (rollNested nested) (nestedTrace nested)) :
    ∀ entry, Seen context (resolveEntry context tables rollNested entry)
    (entryTrace context tables rollNested nestedTrace entry)
  | .item name _ _ expand functions conditions => by
    rw [resolveEntry, entryTrace]
    exact seen_passed (.ite (fun _ => seen_refused _ _ _ _) fun _ => seen_stacks _ _)
  | .empty .. => seen_resolveEntry_silent hnested _
  | .lootTable name table weight quality functions conditions => by
    rw [resolveEntry, entryTrace]
    refine seen_passed ?_
    cases nestedTable tables name table with
    | none => exact seen_refused _ _ _ _
    | some nested => exact (hnested nested).bind fun produced => seen_stacks _ produced
  | .alternatives children functions conditions => by
    rw [resolveEntry, entryTrace]
    exact seen_passed ((seen_resolveFirst hnested children).bind fun produced => seen_stacks _ produced)
  | .sequence .. | .dynamic .. | .tag .. | .raw .. => seen_resolveEntry_silent hnested _

theorem seen_resolveFirst
    (hnested : ∀ nested, Seen context (rollNested nested) (nestedTrace nested)) :
    ∀ children, Seen context (resolveFirst context tables rollNested children)
    (firstTrace context tables rollNested nestedTrace children)
  | [] => by
    rw [resolveFirst]
    exact .pure []
  | child :: children => by
    rw [resolveFirst, firstTrace]
    exact (seen_resolveEntry hnested child).bind fun chosen =>
      .ite (fun _ => seen_resolveFirst hnested children) fun _ => .pure chosen
end

end

end

end Apoptosis.L2.Loot
