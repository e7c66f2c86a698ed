import Mathlib.Tactic
/-!
# Runs of a machine

A machine takes one label at a time. `Along P` says that `P` holds of every
step a run takes, in the state the step starts from.

* `run_inv`: what every step keeps, every run keeps.
* `along_of_inv`: what the invariant gives of a step holds of every step.
* `along_iff`: predicates that agree where an invariant holds agree along runs.
* `run_balance`: an account that balances over each step balances over the run.
-/
namespace Apoptosis.Core

variable {σ ι : Type*} (step : σ → ι → σ)

def run : σ → List ι → σ
  | s, [] => s
  | s, l :: ls => run (step s l) ls

def Along (P : σ → ι → Prop) : σ → List ι → Prop
  | _, [] => True
  | s, l :: ls => P s l ∧ Along P (step s l) ls

variable {step} {Inv : σ → Prop} {P Q : σ → ι → Prop}

theorem run_append (ls ls' : List ι) (s : σ) : run step s (ls ++ ls') = run step (run step s ls) ls' := by
  induction ls generalizing s with
  | nil => rfl
  | cons l ls ih => exact ih (step s l)

theorem run_inv (hstep : ∀ s l, Inv s → Inv (step s l)) (ls : List ι) {s : σ} (h : Inv s) :
    Inv (run step s ls) := by
  induction ls generalizing s with
  | nil => exact h
  | cons l ls ih => exact ih (hstep s l h)

theorem run_eq_foldl (ls : List ι) (s : σ) : run step s ls = ls.foldl step s := by
  induction ls generalizing s with
  | nil => rfl
  | cons l ls ih => exact ih (step s l)

/-- The invariant may rest on what the run's steps satisfy. -/
theorem run_inv_along (hstep : ∀ s l, Inv s → P s l → Inv (step s l)) {ls : List ι} {s : σ}
    (h : Inv s) (hls : Along step P s ls) : Inv (run step s ls) := by
  induction ls generalizing s with
  | nil => exact h
  | cons l ls ih => exact ih (hstep s l h hls.1) hls.2

theorem along_of_inv (hstep : ∀ s l, Inv s → Inv (step s l)) (hinv : ∀ s l, Inv s → P s l)
    (ls : List ι) {s : σ} (h : Inv s) : Along step P s ls := by
  induction ls generalizing s with
  | nil => trivial
  | cons l ls ih => exact ⟨hinv s l h, ih (hstep s l h)⟩

theorem along_iff (hstep : ∀ s l, Inv s → Inv (step s l)) (hiff : ∀ s l, Inv s → (P s l ↔ Q s l))
    (ls : List ι) {s : σ} (h : Inv s) : Along step P s ls ↔ Along step Q s ls := by
  induction ls generalizing s with
  | nil => exact Iff.rfl
  | cons l ls ih => exact and_congr (hiff s l h) (ih (hstep s l h))

theorem along_congr (hiff : ∀ s l, P s l ↔ Q s l) (ls : List ι) (s : σ) :
    Along step P s ls ↔ Along step Q s ls := by
  induction ls generalizing s with
  | nil => exact Iff.rfl
  | cons l ls ih => exact and_congr (hiff s l) (ih (step s l))

theorem along_append (ls ls' : List ι) (s : σ) :
    Along step P s (ls ++ ls') ↔ Along step P s ls ∧ Along step P (run step s ls) ls' := by
  induction ls generalizing s with
  | nil => exact (true_and _).to_iff.symm
  | cons l ls ih => rw [List.cons_append, Along, ih, Along, and_assoc, run]

/-- As `along_iff`, where the invariant rests on what the run's steps satisfy. -/
theorem along_iff_of (hstep : ∀ s l, Inv s → Q s l → Inv (step s l))
    (hiff : ∀ s l, Inv s → (P s l ↔ Q s l)) (ls : List ι) {s : σ} (h : Inv s) :
    Along step P s ls ↔ Along step Q s ls := by
  induction ls generalizing s with
  | nil => exact Iff.rfl
  | cons l ls ih =>
    simp only [Along, hiff s l h]
    exact and_congr_right fun hq => ih (hstep s l h hq)

/-- As `along_iff_of`, for the labels of one list. -/
theorem along_iff_on {L : ι → Prop} (hstep : ∀ s l, L l → Inv s → Q s l → Inv (step s l))
    (hiff : ∀ s l, L l → Inv s → (P s l ↔ Q s l)) {ls : List ι} (hls : ∀ l ∈ ls, L l) {s : σ} (h : Inv s) :
    Along step P s ls ↔ Along step Q s ls := by
  induction ls generalizing s with
  | nil => exact Iff.rfl
  | cons l ls ih =>
    have hl := hls l (.head _)
    simp only [Along, hiff s l hl h]
    exact and_congr_right fun hq => ih (fun l' hl' => hls l' (.tail _ hl')) (hstep s l hl h hq)

/-- What each step of a run keeps holds at its end. -/
theorem run_of_along {R : σ → Prop} {ls : List ι} {s : σ} (h : R s)
    (hls : Along step (fun s l => R s → R (step s l)) s ls) : R (run step s ls) := by
  induction ls generalizing s with
  | nil => exact h
  | cons l ls ih => exact ih (hls.1 h) hls.2

theorem along_of_all (h : ∀ s l, P s l) (ls : List ι) (s : σ) : Along step P s ls := by
  induction ls generalizing s with
  | nil => trivial
  | cons l ls ih => exact ⟨h s l, ih (step s l)⟩

theorem along_mono (himp : ∀ s l, P s l → Q s l) {ls : List ι} {s : σ} (hls : Along step P s ls) :
    Along step Q s ls := by
  induction ls generalizing s with
  | nil => trivial
  | cons l ls ih => exact ⟨himp s l hls.1, ih hls.2⟩

theorem along_imp (hstep : ∀ s l, Inv s → P s l → Inv (step s l))
    (himp : ∀ s l, Inv s → P s l → Q s l) {ls : List ι} {s : σ} (h : Inv s)
    (hls : Along step P s ls) : Along step Q s ls := by
  induction ls generalizing s with
  | nil => trivial
  | cons l ls ih => exact ⟨himp s l h hls.1, ih (hstep s l h hls.1) hls.2⟩

/-! ## Totals over a run -/

variable (step)

/-- The sum of what each step counts for, in the state it starts from. -/
def total (f : σ → ι → Nat) : σ → List ι → Nat
  | _, [] => 0
  | s, l :: ls => f s l + total f (step s l) ls

variable {step}

theorem run_balance {f h : σ → ι → Nat} {g : σ → Nat}
    (hstep : ∀ s l, f s l + g (step s l) = g s + h s l) (ls : List ι) (s : σ) :
    total step f s ls + g (run step s ls) = g s + total step h s ls := by
  induction ls generalizing s with
  | nil => exact Nat.zero_add _
  | cons l ls ih =>
    have hhead := hstep s l
    have htail := ih (step s l)
    simp only [total, run]
    omega

end Apoptosis.Core
