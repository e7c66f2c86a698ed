import Apoptosis.Core.Runs
import Mathlib.Tactic
/-!
# Transfers that copy

Each holder has an amount. A transfer `(keep, drop)` adds to `keep` what `drop`
has and marks `drop` as dropped, but leaves it its amount, and a holder that is
dropped still gives and takes. What a holder had at first is then counted once
for each chain of later and later transfers from it to a holder that is left.

* `remaining_run`: what is left after a run, as a sum over the first amounts.
-/
namespace Apoptosis.Core.Copies

variable {ι M : Type*} [DecidableEq ι] [AddCommMonoid M]

@[ext] structure Holders (ι M : Type*) where
  amount : ι → M
  dropped : ι → Bool

def copy (h : Holders ι M) (t : ι × ι) : Holders ι M :=
  ⟨Function.update h.amount t.1 (h.amount t.1 + h.amount t.2), Function.update h.dropped t.2 true⟩

/-- What the holders that are not dropped have. -/
def remaining (s : Finset ι) (h : Holders ι M) : M := ∑ i ∈ s, if h.dropped i then 0 else h.amount i

/-- The chains from a holder to one that is left, each transfer later than the one before. -/
def chains (dropped : ι → Bool) : List (ι × ι) → ι → List (List ι)
  | [], i => if dropped i then [] else [[i]]
  | (keep, drop) :: ts, i =>
    chains dropped ts i ++ if i = drop then (chains dropped ts keep).map (i :: ·) else []

theorem length_chains_cons (dropped : ι → Bool) (keep drop : ι) (ts : List (ι × ι)) (i : ι) :
    (chains dropped ((keep, drop) :: ts) i).length =
      (chains dropped ts i).length + if i = drop then (chains dropped ts keep).length else 0 := by
  rw [chains, List.length_append]
  split
  · rw [List.length_map]
  · rfl

theorem run_dropped (ts : List (ι × ι)) (h : Holders ι M) (i : ι) :
    (run copy h ts).dropped i = (h.dropped i || ts.any fun t => t.2 = i) := by
  induction ts generalizing h with
  | nil => exact (Bool.or_false _).symm
  | cons t ts ih =>
    rw [run, ih, List.any_cons]
    by_cases heq : t.2 = i
    · simp [copy, heq]
    · simp [copy, heq, Function.update_of_ne (Ne.symm heq)]

/-- A transfer moves the count of chains from the amounts to the holders. -/
theorem sum_chains_copy (dropped : ι → Bool) (ts : List (ι × ι)) {s : Finset ι} {t : ι × ι} (hkeep : t.1 ∈ s)
    (hdrop : t.2 ∈ s) (h : Holders ι M) :
    ∑ i ∈ s, (chains dropped ts i).length • (copy h t).amount i =
      ∑ i ∈ s, (chains dropped (t :: ts) i).length • h.amount i := by
  obtain ⟨keep, drop⟩ := t
  have hamount (i : ι) : (copy h (keep, drop)).amount i = h.amount i + if i = keep then h.amount drop else 0 := by
    by_cases heq : i = keep
    · rw [if_pos heq, heq]
      exact Function.update_self ..
    · rw [if_neg heq, add_zero]
      exact Function.update_of_ne heq ..
  calc ∑ i ∈ s, (chains dropped ts i).length • (copy h (keep, drop)).amount i
      = ∑ i ∈ s, ((chains dropped ts i).length • h.amount i +
          if i = keep then (chains dropped ts keep).length • h.amount drop else 0) := by
        refine Finset.sum_congr rfl fun i _ => ?_
        rw [hamount, nsmul_add]
        split
        · next heq => rw [heq]
        · rw [nsmul_zero]
    _ = ∑ i ∈ s, (chains dropped ts i).length • h.amount i + (chains dropped ts keep).length • h.amount drop := by
        rw [Finset.sum_add_distrib, Finset.sum_ite_eq', if_pos hkeep]
    _ = ∑ i ∈ s, ((chains dropped ts i).length • h.amount i +
          if i = drop then (chains dropped ts keep).length • h.amount drop else 0) := by
        rw [Finset.sum_add_distrib, Finset.sum_ite_eq', if_pos hdrop]
    _ = ∑ i ∈ s, (chains dropped ((keep, drop) :: ts) i).length • h.amount i := by
        refine Finset.sum_congr rfl fun i _ => ?_
        rw [length_chains_cons, add_nsmul]
        split
        · next heq => rw [heq]
        · rw [zero_nsmul]

theorem sum_chains_run (dropped : ι → Bool) {ts : List (ι × ι)} {s : Finset ι}
    (hts : ∀ t ∈ ts, t.1 ∈ s ∧ t.2 ∈ s) (h : Holders ι M) :
    ∑ i ∈ s, (chains dropped [] i).length • (run copy h ts).amount i =
      ∑ i ∈ s, (chains dropped ts i).length • h.amount i := by
  induction ts generalizing h with
  | nil => rfl
  | cons t ts ih =>
    obtain ⟨hkeep, hdrop⟩ := hts t (.head _)
    rw [run, ih fun t ht => hts t (.tail _ ht)]
    exact sum_chains_copy dropped ts hkeep hdrop h

/-- After a run each first amount is there once for each of its chains. -/
theorem remaining_run {ts : List (ι × ι)} {s : Finset ι} (hts : ∀ t ∈ ts, t.1 ∈ s ∧ t.2 ∈ s) (h : Holders ι M) :
    remaining s (run copy h ts) =
      ∑ i ∈ s, (chains (fun i => h.dropped i || ts.any fun t => t.2 = i) ts i).length • h.amount i := by
  rw [← sum_chains_run _ hts h]
  refine Finset.sum_congr rfl fun i _ => ?_
  rw [run_dropped, chains]
  split
  · exact (zero_nsmul _).symm
  · exact (one_nsmul _).symm

end Apoptosis.Core.Copies
