import Apoptosis.Core.Named
import Apoptosis.Core.Paths
import Apoptosis.Core.Words
import Apoptosis.L2Data.LootTable
/-!
# What the functions of a pack call (`data/src/function.rs`)

The registry, the scan that finds the `/function` calls of a line, and the walk
over the calls. The walk looks for a call of the name it started from, so it
answers whether that function is on a cycle.

* `hasRecursion_iff`: the walk finds the function it started from.
* `hasRecursion_exact_iff`: when that is the same as a cycle in reach.
-/
namespace Apoptosis.L2.Function

open Apoptosis.Core Relation
open Apoptosis.L2.Storage (ResourceId)
open scoped Apoptosis.L2.Storage.ResourceId

/-- mirrors crates/data/src/function.rs:201-211 (`FunctionFile`) -/
structure FunctionFile where
  name : ResourceId
  commands : List (List Char)
  hasMacros : Bool

/-- mirrors crates/data/src/function.rs:318-322 (`FunctionRegistry`), with `by_name` (365-367),
`new` (327-329) and `insert` (333-341) those of `Named` -/
abbrev FunctionRegistry := Named FunctionFile.name

/-! ## The calls of a line -/

/-- mirrors crates/data/src/function.rs:514-520 (`strip_leading_slash`) -/
def stripLeadingSlash (command : List Char) : List Char :=
  match trimStart command with
  | '/' :: rest => trimStart rest
  | trimmed => trimmed

/-- mirrors crates/data/src/function.rs:501-508 (`function_call_target`) -/
def functionCallTarget (command : List Char) : Option (List Char) := do
  let (head, rest) ← splitOnceWhitespace (stripLeadingSlash command)
  if head.map Char.toLower ≠ "function".toList then none else (splitWhitespace rest).head?

/-- mirrors crates/data/src/function.rs:527-534 (`resolve_target`) -/
def resolveTarget (target : List Char) (caller : ResourceId) : Option ResourceId :=
  ResourceId.parse (if ':' ∈ target then String.ofList target
    else caller.ns ++ ":" ++ String.ofList target)

/-- What one line calls. -/
def callTarget (function : FunctionFile) (command : List Char) : Option ResourceId :=
  (functionCallTarget command).bind fun target => resolveTarget target function.name

def FunctionFile.callTargets (function : FunctionFile) : List ResourceId :=
  function.commands.filterMap (callTarget function)

namespace FunctionRegistry

abbrev byName (registry : FunctionRegistry) (name : ResourceId) : Option FunctionFile :=
  registry.get? name

/-! ## The walk over the calls -/

/-- mirrors crates/data/src/function.rs:429-439 (`has_recursion`, the lines of one function), with
the top of the stack first; `none` where the walk is back at the start. -/
def pushTargets (name : ResourceId) (function : FunctionFile) :
    List (List Char) → List ResourceId → Option (List ResourceId)
  | [], stack => some stack
  | command :: commands, stack =>
    match callTarget function command with
    | none => pushTargets name function commands stack
    | some target =>
      if target = name then none else pushTargets name function commands (target :: stack)

/-- The functions the walk has not been at. -/
def unvisited (registry : FunctionRegistry) (visited : List ResourceId) : List FunctionFile :=
  registry.items.filter fun file => decide (file.name ∉ visited)

theorem unvisited_cons_le (registry : FunctionRegistry) (name : ResourceId)
    (visited : List ResourceId) :
    (registry.unvisited (name :: visited)).length ≤ (registry.unvisited visited).length := by
  refine (List.monotone_filter_right _ fun file hfile => ?_).length_le
  simp only [List.mem_cons, not_or, decide_eq_true_eq] at hfile ⊢
  exact hfile.2

theorem unvisited_cons_lt {registry : FunctionRegistry} {name : ResourceId}
    {visited : List ResourceId} {file : FunctionFile} (hname : name ∉ visited)
    (hfile : registry.byName name = some file) :
    (registry.unvisited (name :: visited)).length < (registry.unvisited visited).length := by
  obtain ⟨hmem, rfl⟩ := Named.get?_eq_some.mp hfile
  have hsub : (registry.unvisited (file.name :: visited)).Sublist (registry.unvisited visited) :=
    List.monotone_filter_right _ fun other hother => by
      simp only [List.mem_cons, not_or, decide_eq_true_eq] at hother ⊢
      exact hother.2
  refine lt_of_le_of_ne hsub.length_le fun heq => ?_
  have hin : file ∈ registry.unvisited visited := List.mem_filter.mpr ⟨hmem, by simpa using hname⟩
  rw [← hsub.eq_of_length heq] at hin
  simpa using (List.mem_filter.mp hin).2

/-- mirrors crates/data/src/function.rs:421-442 (`has_recursion`, the loop) -/
def walk (registry : FunctionRegistry) (name : ResourceId) (stack visited : List ResourceId) : Bool :=
  match stack with
  | [] => false
  | current :: stack =>
    if _hvisited : current ∈ visited then walk registry name stack visited
    else
      match _hfile : registry.byName current with
      | none => walk registry name stack (current :: visited)
      | some function =>
        match pushTargets name function function.commands stack with
        | none => true
        | some stack => walk registry name stack (current :: visited)
  termination_by ((registry.unvisited visited).length, stack.length)
  decreasing_by
    · exact Prod.Lex.right _ (Nat.lt_succ_self _)
    · rcases Nat.lt_or_eq_of_le (registry.unvisited_cons_le current visited) with hlt | heq
      · exact Prod.Lex.left _ _ hlt
      · rw [heq]
        exact Prod.Lex.right _ (Nat.lt_succ_self _)
    · exact Prod.Lex.left _ _ (unvisited_cons_lt _hvisited _hfile)

/-- mirrors crates/data/src/function.rs:418-444 (`FunctionRegistry::has_recursion`) -/
def hasRecursion (registry : FunctionRegistry) (name : ResourceId) : Bool :=
  registry.walk name [name] []

/-! ## The graph of the calls -/

section
variable {registry : FunctionRegistry} {name a b : ResourceId}

/-- A line of the one calls the other. -/
def Scans (registry : FunctionRegistry) (a b : ResourceId) : Prop :=
  ∃ file, registry.byName a = some file ∧ b ∈ file.callTargets

def Loaded (registry : FunctionRegistry) (name : ResourceId) : Prop :=
  ∃ file, registry.byName name = some file

/-- An edge of the graph: a call of a function that is loaded. -/
def Calls (registry : FunctionRegistry) (a b : ResourceId) : Prop :=
  registry.Scans a b ∧ registry.Loaded b

/-- A cycle is in reach of the function. -/
def ReachesCycle (registry : FunctionRegistry) (name : ResourceId) : Prop :=
  ∃ a, ReflTransGen registry.Calls name a ∧ TransGen registry.Calls a a

/-- All but the last of a chain of calls are loaded, for they call. -/
theorem calls_of_scans (h : TransGen registry.Scans a b) (hb : registry.Loaded b) :
    TransGen registry.Calls a b := by
  induction h using TransGen.head_induction_on with
  | single hstep => exact .single ⟨hstep, hb⟩
  | head hstep htail ih =>
    obtain ⟨c, ⟨file, hfile, -⟩, -⟩ := TransGen.head'_iff.mp htail
    exact .head ⟨hstep, file, hfile⟩ ih

theorem pushTargets_eq_none {function : FunctionFile} {commands : List (List Char)}
    {stack : List ResourceId} : pushTargets name function commands stack = none ↔
      name ∈ commands.filterMap (callTarget function) := by
  induction commands generalizing stack with
  | nil => simp [pushTargets]
  | cons command commands ih =>
    rw [pushTargets]
    cases hcall : callTarget function command with
    | none => rw [List.filterMap_cons_none hcall, ← ih]
    | some target =>
      dsimp only
      rw [List.filterMap_cons_some hcall, List.mem_cons]
      by_cases heq : target = name
      · simp [heq]
      · simp [heq, Ne.symm heq, ih]

theorem mem_pushTargets {function : FunctionFile} {commands : List (List Char)}
    {stack stack' : List ResourceId} (h : pushTargets name function commands stack = some stack') :
    ∀ x, x ∈ stack' ↔ x ∈ stack ∨ x ∈ commands.filterMap (callTarget function) := by
  intro x
  induction commands generalizing stack with
  | nil =>
    obtain rfl := Option.some.inj h
    simp
  | cons command commands ih =>
    rw [pushTargets] at h
    cases hcall : callTarget function command with
    | none =>
      rw [hcall] at h
      rw [List.filterMap_cons_none hcall]
      exact ih h
    | some target =>
      rw [hcall] at h
      dsimp only at h
      split at h
      · cases h
      rw [List.filterMap_cons_some hcall, ih h, List.mem_cons, List.mem_cons]
      tauto

/-- What the walk finds is a chain of calls back to the start. -/
theorem scans_of_walk {stack visited : List ResourceId}
    (hstack : ∀ x ∈ stack, ReflTransGen registry.Scans name x)
    (h : registry.walk name stack visited = true) : TransGen registry.Scans name name := by
  induction stack, visited using walk.induct registry name with
  | case1 visited =>
    rw [walk] at h
    cases h
  | case2 visited current stack hvisited ih =>
    rw [walk, dif_pos hvisited] at h
    exact ih (fun x hx => hstack x (.tail _ hx)) h
  | case3 visited current stack hvisited hfile ih =>
    rw [walk, dif_neg hvisited] at h
    split at h
    · exact ih (fun x hx => hstack x (.tail _ hx)) h
    · next function hsome => simp [hfile] at hsome
  | case4 visited current stack hvisited function hfile hpush =>
    have hname := pushTargets_eq_none.mp hpush
    exact .tail' (hstack current (.head _)) ⟨function, hfile, hname⟩
  | case5 visited current stack hvisited function hfile stack' hpush ih =>
    rw [walk, dif_neg hvisited] at h
    split at h
    · next hnone => simp [hfile] at hnone
    · next function' hsome =>
      obtain rfl : function = function' := Option.some.inj (hfile.symm.trans hsome)
      rw [hpush] at h
      refine ih (fun x hx => ?_) h
      rcases (mem_pushTargets hpush x).mp hx with hx | hx
      · exact hstack x (.tail _ hx)
      · exact .tail (hstack current (.head _)) ⟨function, hfile, hx⟩

/-- Where the walk finds nothing, it has been at everything in reach, and nothing there calls the
start. -/
theorem closed_of_walk {stack visited : List ResourceId}
    (hvisits : ∀ a ∈ visited, ∀ b, registry.Scans a b → b ≠ name ∧ (b ∈ visited ∨ b ∈ stack))
    (h : registry.walk name stack visited = false) :
    ∃ seen : List ResourceId, (∀ x, x ∈ visited ∨ x ∈ stack → x ∈ seen) ∧
      ∀ a ∈ seen, ∀ b, registry.Scans a b → b ≠ name ∧ b ∈ seen := by
  induction stack, visited using walk.induct registry name with
  | case1 visited =>
    refine ⟨visited, fun x hx => ?_, fun a ha b hb => ?_⟩
    · simpa using hx
    · simpa using hvisits a ha b hb
  | case2 visited current stack hvisited ih =>
    rw [walk, dif_pos hvisited] at h
    have hdrop : ∀ x, x ∈ visited ∨ x ∈ current :: stack → x ∈ visited ∨ x ∈ stack := by
      intro x hx
      rcases hx with hx | hx
      · exact .inl hx
      · rcases List.mem_cons.mp hx with rfl | hx
        · exact .inl hvisited
        · exact .inr hx
    have hnext : ∀ a ∈ visited, ∀ b, registry.Scans a b → b ≠ name ∧ (b ∈ visited ∨ b ∈ stack) :=
      fun a ha b hb => (hvisits a ha b hb).imp_right (hdrop b)
    obtain ⟨seen, hseen, hclosed⟩ := ih hnext h
    exact ⟨seen, fun x hx => hseen x (hdrop x hx), hclosed⟩
  | case3 visited current stack hvisited hfile ih =>
    rw [walk, dif_neg hvisited] at h
    split at h
    · have hmove : ∀ x, x ∈ visited ∨ x ∈ current :: stack → x ∈ current :: visited ∨ x ∈ stack := by
        intro x hx
        simp only [List.mem_cons] at hx ⊢
        tauto
      have hnext : ∀ a ∈ current :: visited, ∀ b, registry.Scans a b →
          b ≠ name ∧ (b ∈ current :: visited ∨ b ∈ stack) := by
        intro a ha b hb
        rcases List.mem_cons.mp ha with rfl | ha
        · obtain ⟨file, hsome, -⟩ := hb
          simp [hfile] at hsome
        · exact (hvisits a ha b hb).imp_right (hmove b)
      obtain ⟨seen, hseen, hclosed⟩ := ih hnext h
      exact ⟨seen, fun x hx => hseen x (hmove x hx), hclosed⟩
    · next function hsome => simp [hfile] at hsome
  | case4 visited current stack hvisited function hfile hpush =>
    rw [walk, dif_neg hvisited] at h
    split at h
    · next hnone => simp [hfile] at hnone
    · next function' hsome =>
      obtain rfl : function = function' := Option.some.inj (hfile.symm.trans hsome)
      rw [hpush] at h
      cases h
  | case5 visited current stack hvisited function hfile stack' hpush ih =>
    rw [walk, dif_neg hvisited] at h
    split at h
    · next hnone => simp [hfile] at hnone
    · next function' hsome =>
      obtain rfl : function = function' := Option.some.inj (hfile.symm.trans hsome)
      rw [hpush] at h
      have hmove : ∀ x, x ∈ visited ∨ x ∈ current :: stack →
          x ∈ current :: visited ∨ x ∈ stack' := by
        intro x hx
        rw [mem_pushTargets hpush]
        simp only [List.mem_cons] at hx ⊢
        tauto
      have hnext : ∀ a ∈ current :: visited, ∀ b, registry.Scans a b →
          b ≠ name ∧ (b ∈ current :: visited ∨ b ∈ stack') := by
        intro a ha b hb
        rcases List.mem_cons.mp ha with rfl | ha
        · obtain ⟨file, hsome', htarget⟩ := hb
          obtain rfl : function = file := Option.some.inj (hfile.symm.trans hsome')
          refine ⟨fun heq => ?_, .inr ((mem_pushTargets hpush b).mpr (.inr htarget))⟩
          subst heq
          rw [pushTargets_eq_none.mpr htarget] at hpush
          cases hpush
        · exact (hvisits a ha b hb).imp_right (hmove b)
      obtain ⟨seen, hseen, hclosed⟩ := ih hnext h
      exact ⟨seen, fun x hx => hseen x (hmove x hx), hclosed⟩

/-- The walk answers whether the function it started from is on a cycle. -/
theorem hasRecursion_iff : registry.hasRecursion name = true ↔ TransGen registry.Calls name name := by
  constructor
  · intro h
    have hcycle : TransGen registry.Scans name name :=
      scans_of_walk (fun x hx => by rw [List.mem_singleton.mp hx]) h
    obtain ⟨b, ⟨file, hfile, -⟩, -⟩ := TransGen.head'_iff.mp hcycle
    exact calls_of_scans hcycle ⟨file, hfile⟩
  · intro h
    by_contra hfalse
    obtain ⟨seen, hseen, hclosed⟩ := closed_of_walk (by simp) (Bool.eq_false_of_not_eq_true hfalse)
    have hreach : ∀ a, ReflTransGen registry.Calls name a → a ∈ seen := by
      intro a ha
      induction ha with
      | refl => exact hseen name (.inr (.head _))
      | tail _ hstep ih => exact (hclosed _ ih _ hstep.1).2
    obtain ⟨a, ha, hstep⟩ := TransGen.tail'_iff.mp h
    exact (hclosed a (hreach a ha) name hstep.1).1 rfl

end

/-- The walk is exact on a function unless it reaches a cycle it is not on itself. -/
theorem hasRecursion_exact_iff (registry : FunctionRegistry) (name : ResourceId) :
    (registry.hasRecursion name = true ↔ registry.ReachesCycle name) ↔
      (registry.ReachesCycle name → TransGen registry.Calls name name) := by
  rw [hasRecursion_iff]
  constructor
  · exact fun h => h.mpr
  · exact fun h => ⟨fun hcycle => ⟨name, .refl, hcycle⟩, h⟩

/-! A function that calls another, which calls itself. -/

def caller : ResourceId := ⟨"test", "caller"⟩

def looper : ResourceId := ⟨"test", "looper"⟩

def callerFile : FunctionFile := ⟨caller, [" / Function looper".toList], false⟩

def looperFile : FunctionFile := ⟨looper, ["function test:looper now".toList], false⟩

def tailed : FunctionRegistry := (Named.empty.insert callerFile).insert looperFile

theorem callTargets_tailed : callerFile.callTargets = [looper] ∧ looperFile.callTargets = [looper] := by
  decide +kernel

theorem byName_tailed {name : ResourceId} {file : FunctionFile} : tailed.byName name = some file ↔
    file = looperFile ∧ name = looper ∨ file = callerFile ∧ name = caller := by
  rw [byName, Named.get?_eq_some, tailed, Named.mem_items_insert, Named.mem_items_insert]
  have hne : callerFile.name ≠ looperFile.name := by decide
  constructor
  · rintro ⟨rfl | ⟨rfl | ⟨hmem, -⟩, -⟩, rfl⟩
    · exact .inl ⟨rfl, rfl⟩
    · exact .inr ⟨rfl, rfl⟩
    · cases hmem
  · rintro (⟨rfl, rfl⟩ | ⟨rfl, rfl⟩)
    · exact ⟨.inl rfl, rfl⟩
    · exact ⟨.inr ⟨.inl rfl, hne⟩, rfl⟩

theorem calls_tailed {a b : ResourceId} :
    tailed.Calls a b ↔ (a = caller ∨ a = looper) ∧ b = looper := by
  constructor
  · intro ⟨⟨file, hfile, hb⟩, _⟩
    rcases byName_tailed.mp hfile with ⟨rfl, rfl⟩ | ⟨rfl, rfl⟩
    · rw [callTargets_tailed.2] at hb
      exact ⟨.inr rfl, List.mem_singleton.mp hb⟩
    · rw [callTargets_tailed.1] at hb
      exact ⟨.inl rfl, List.mem_singleton.mp hb⟩
  · intro ⟨ha, hb⟩
    subst hb
    refine ⟨?_, looperFile, byName_tailed.mpr (.inl ⟨rfl, rfl⟩)⟩
    rcases ha with rfl | rfl
    · refine ⟨callerFile, byName_tailed.mpr (.inr ⟨rfl, rfl⟩), ?_⟩
      rw [callTargets_tailed.1]
      exact List.mem_singleton_self looper
    · refine ⟨looperFile, byName_tailed.mpr (.inl ⟨rfl, rfl⟩), ?_⟩
      rw [callTargets_tailed.2]
      exact List.mem_singleton_self looper

theorem tailed_missed : ¬(tailed.hasRecursion caller = true ↔ tailed.ReachesCycle caller) := by
  intro h
  have hreaches : tailed.ReachesCycle caller :=
    ⟨looper, .single (calls_tailed.mpr ⟨.inl rfl, rfl⟩), .single (calls_tailed.mpr ⟨.inr rfl, rfl⟩)⟩
  obtain ⟨a, -, hstep⟩ := TransGen.tail'_iff.mp (hasRecursion_iff.mp (h.mpr hreaches))
  exact absurd (calls_tailed.mp hstep).2 (by decide)

end FunctionRegistry

end Apoptosis.L2.Function
