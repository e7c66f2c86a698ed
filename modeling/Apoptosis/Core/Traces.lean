import Apoptosis.Core.StateRuns
/-!
# The steps a computation takes on its way

A trace lists steps of a computation over a state, in order, beside the
computation. `Traced R end x t`: where `x` starts in `s`, what each step of `t s`
ends in is related to what `x` ends in. The relation is one that every part of
the computation keeps, such as that a log has only grown. Each way to put
computations together has its trace and its rule.
-/
namespace Apoptosis.Core

universe u
variable {τ α β : Type u} {ε : Type u}

def silent : τ → List ε := fun _ => []

def traceBind (x : StateM τ α) (first : τ → List ε) (next : α → τ → List ε) (s : τ) : List ε :=
  first s ++ next (x s).1 (x s).2

def traceMap (f : α → StateM τ β) (each : α → τ → List ε) : List α → τ → List ε
  | [] => silent
  | a :: l => traceBind (f a) (each a) fun _ => traceMap f each l

def traceFold (f : β → α → StateM τ β) (each : β → α → τ → List ε) : List α → β → τ → List ε
  | [], _ => silent
  | a :: l, b => traceBind (f b a) (each b a) fun b => traceFold f each l b

structure Traced (R : τ → τ → Prop) (finish : ε → τ) (x : StateM τ α) (trace : τ → List ε) : Prop where
  keeps : ∀ s, Keeps (R s) x
  reaches : ∀ s, ∀ step ∈ trace s, R (finish step) (x s).2

namespace Traced
variable {R : τ → τ → Prop} {finish : ε → τ}

theorem silent {x : StateM τ α} (h : ∀ s, Keeps (R s) x) : Traced R finish x silent := ⟨h, nofun⟩

theorem pure (a : α) : Traced R finish (Pure.pure a) Core.silent := silent fun _ => .pure a

theorem bind {x : StateM τ α} {f : α → StateM τ β} {first : τ → List ε} {next : α → τ → List ε}
    (hx : Traced R finish x first) (hf : ∀ a, Traced R finish (f a) (next a)) :
    Traced R finish (x >>= f) (traceBind x first next) := by
  refine ⟨fun s => (hx.keeps s).bind fun a => (hf a).keeps s, fun s step hstep => ?_⟩
  obtain hfirst | hnext := List.mem_append.mp hstep
  · exact (hf (x s).1).keeps _ _ (hx.reaches s step hfirst)
  · exact (hf (x s).1).reaches _ step hnext

theorem ite {c : Prop} [Decidable c] {x y : StateM τ α} {first second : τ → List ε}
    (hx : c → Traced R finish x first) (hy : ¬c → Traced R finish y second) :
    Traced R finish (if c then x else y) (if c then first else second) := by
  split
  · exact hx ‹_›
  · exact hy ‹_›

/-- The computation is a step itself. -/
theorem step {x : StateM τ α} (e : τ → ε) (hkeeps : ∀ s, Keeps (R s) x) (hrefl : ∀ s, R s s)
    (h : ∀ s, finish (e s) = (x s).2) : Traced R finish x fun s => [e s] := by
  refine ⟨hkeeps, fun s step hstep => ?_⟩
  rw [List.mem_singleton.mp hstep, h s]
  exact hrefl _

theorem mapM {f : α → StateM τ β} {each : α → τ → List ε} (h : ∀ a, Traced R finish (f a) (each a))
    (l : List α) : Traced R finish (l.mapM f) (traceMap f each l) := by
  induction l with
  | nil => exact pure []
  | cons a l ih =>
    rw [List.mapM_cons]
    refine (h a).bind fun b => ⟨fun s => (ih.keeps s).bind fun _ => .pure _, ih.reaches⟩

theorem foldlM {f : β → α → StateM τ β} {each : β → α → τ → List ε}
    (h : ∀ b a, Traced R finish (f b a) (each b a)) (l : List α) (b : β) :
    Traced R finish (l.foldlM f b) (traceFold f each l b) := by
  induction l generalizing b with
  | nil => exact pure b
  | cons a l ih =>
    rw [List.foldlM_cons]
    exact (h b a).bind ih

end Traced

end Apoptosis.Core
