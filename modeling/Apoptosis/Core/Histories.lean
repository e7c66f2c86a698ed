import Apoptosis.Core.Runs
/-!
# Runs of a guarded machine, seen from their end

A run is `Along` a guard when every label is allowed in the state it is taken
in. What holds of a run and of the state it ends in, whichever allowed label
comes next, holds of every allowed run.

* `along_snoc`, `run_snoc`: one more label.
* `along_at`: each label of an allowed run is allowed where it stands.
* `along_history`: the induction.
-/
namespace Apoptosis.Core

variable {σ ι : Type*} {step : σ → ι → σ} {P : σ → ι → Prop} {s : σ}

theorem run_snoc (ls : List ι) (l : ι) : run step s (ls ++ [l]) = step (run step s ls) l :=
  run_append ls [l] s

theorem along_snoc {ls : List ι} {l : ι} :
    Along step P s (ls ++ [l]) ↔ Along step P s ls ∧ P (run step s ls) l := by
  rw [along_append, Along, Along, and_true]

theorem along_at {before after : List ι} {l : ι} (h : Along step P s (before ++ l :: after)) :
    Along step P s before ∧ P (run step s before) l := by
  rw [along_append, Along] at h
  exact ⟨h.1, h.2.1⟩

theorem along_history {R : List ι → σ → Prop} (hnil : R [] s)
    (hsnoc : ∀ ls l, R ls (run step s ls) → P (run step s ls) l → R (ls ++ [l]) (step (run step s ls) l))
    {ls : List ι} (h : Along step P s ls) : R ls (run step s ls) := by
  induction ls using List.reverseRecOn with
  | nil => exact hnil
  | append_singleton ls l ih =>
    obtain ⟨hls, hl⟩ := along_snoc.mp h
    rw [run_snoc]
    exact hsnoc ls l (ih hls) hl

end Apoptosis.Core
