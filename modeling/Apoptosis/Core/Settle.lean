import Mathlib.Data.Finset.Card
import Mathlib.Order.Bounds.Basic
import Mathlib.Tactic
/-!
# Networks that settle

The cells of a network hold levels, and a cell can take its next level, which
the levels near it decide. The rule is graded: whether the next level reaches
`v` depends only on which cells are above `v`. Cells then take their next
levels in any order and still come to rest, and the rest is the distance to
the sources.

* `weight_recompute`: a change makes the weight of the network smaller.
* `settledBut_recompute`: only the cells near a change can come out of place.
* `settled_eq`: a settled cell holds what is left of the full level at its
  distance from a source.
-/
namespace Apoptosis.Core.Settle

variable {α : Type*} [DecidableEq α]

/-- The cell takes its next level. -/
def recompute {S : Type*} (next : (α → S) → α → S) (x : α → S) (p : α) : α → S :=
  Function.update x p (next x p)

/-! ## Only the cells near a change can come out of place -/

section Pending

variable {S : Type*} {near : α → List α} {next : (α → S) → α → S}

/-- A cell's next state is read off those near it. -/
def Local (cells : α → Prop) (near : α → List α) (next : (α → S) → α → S) : Prop :=
  ∀ x y p, cells p → (∀ q ∈ near p, x q = y q) → next x p = next y p

/-- Every cell holds its next state, but for those in `pending`. -/
def SettledBut (cells : α → Prop) (next : (α → S) → α → S) (x : α → S) (pending : α → Prop) : Prop :=
  ∀ p, cells p → next x p = x p ∨ pending p

variable {cells : α → Prop} {x : α → S} {p : α} {pending pending' : α → Prop}

theorem settledBut_recompute (hlocal : Local cells near next)
    (hback : ∀ q, p ∈ near q → q ∈ near p) (hpending : ∀ q, pending q → q = p ∨ pending' q)
    (hnear : ∀ q ∈ near p, pending' q) (h : SettledBut cells next x pending) :
    SettledBut cells next (recompute next x p) pending' := by
  intro q hq
  by_cases hread : p ∈ near q
  · exact .inr (hnear q (hback q hread))
  have hsame : next (recompute next x p) q = next x q := by
    refine hlocal _ _ _ hq fun r hr => Function.update_of_ne ?_ _ _
    rintro rfl
    exact hread hr
  rw [hsame]
  by_cases hqp : q = p
  · subst hqp
    rw [recompute, Function.update_self]
    exact .inl rfl
  rw [recompute, Function.update_of_ne hqp]
  rcases h q hq with h | h
  · exact .inl h
  · exact .inr ((hpending q h).resolve_left hqp)

end Pending

/-! ## Every change makes the network lighter -/

section Weight

variable {cells : Finset α} {next : (α → Nat) → α → Nat}

/-- Whether a cell's next level reaches `v` depends on which cells are above `v`. -/
def Graded (cells : Finset α) (next : (α → Nat) → α → Nat) : Prop :=
  ∀ v x y, (∀ q ∈ cells, ∀ w, v < w → (w ≤ x q ↔ w ≤ y q)) → ∀ p ∈ cells, (v ≤ next x p ↔ v ≤ next y p)

/-- The cells on the wrong side of `v`. -/
def wrong (cells : Finset α) (next : (α → Nat) → α → Nat) (x : α → Nat) (v : Nat) : Finset α :=
  cells.filter fun p => ¬(v ≤ x p ↔ v ≤ next x p)

/-- The wrong cells of the levels up to `top`, a higher level outweighing all below it. -/
def weight (cells : Finset α) (next : (α → Nat) → α → Nat) (x : α → Nat) : Nat → Nat
  | 0 => 0
  | top + 1 => weight cells next x top + (wrong cells next x (top + 1)).card * (cells.card + 1) ^ top

omit [DecidableEq α] in
theorem weight_lt (x : α → Nat) (top : Nat) : weight cells next x top < (cells.card + 1) ^ top := by
  induction top with
  | zero => simp [weight]
  | succ top ih =>
    have hcard : (wrong cells next x (top + 1)).card ≤ cells.card := Finset.card_filter_le _ _
    have hmul := Nat.mul_le_mul_right ((cells.card + 1) ^ top) hcard
    rw [weight, pow_succ, Nat.mul_succ, Nat.mul_comm _ cells.card]
    omega

theorem weight_recompute (hgraded : Graded cells next) {x : α → Nat} {p : α} (hp : p ∈ cells)
    (hchange : next x p ≠ x p) {top : Nat} (hx : x p ≤ top) (hnext : next x p ≤ top) :
    weight cells next (recompute next x p) top < weight cells next x top := by
  set m := max (x p) (next x p) with hm
  -- Above `m` the cell is on neither side before or after, so nothing there changes.
  have hsides : ∀ q, ∀ w, m < w → (w ≤ recompute next x p q ↔ w ≤ x q) := by
    intro q w hw
    by_cases hq : q = p
    · subst hq
      rw [recompute, Function.update_self]
      omega
    · rw [recompute, Function.update_of_ne hq]
  have hnexts : ∀ v, m ≤ v → ∀ q ∈ cells, (v ≤ next (recompute next x p) q ↔ v ≤ next x q) :=
    fun v hv q hq => hgraded v _ _ (fun r _ w hw => hsides r w (by omega)) q hq
  have habove : ∀ v, m < v → wrong cells next (recompute next x p) v = wrong cells next x v := by
    intro v hv
    refine Finset.filter_congr fun q hq => ?_
    rw [hsides q v hv, hnexts v (by omega) q hq]
  have hat : (wrong cells next (recompute next x p) m).card < (wrong cells next x m).card := by
    refine Finset.card_lt_card (Finset.ssubset_iff_subset_ne.mpr ⟨fun q hq => ?_, fun heq => ?_⟩)
    · obtain ⟨hq, hwrong⟩ := Finset.mem_filter.mp hq
      refine Finset.mem_filter.mpr ⟨hq, fun hright => hwrong ?_⟩
      rw [hnexts m le_rfl q hq]
      by_cases hqp : q = p
      · subst hqp
        rw [recompute, Function.update_self]
      · rw [recompute, Function.update_of_ne hqp]
        exact hright
    · have hmem : p ∈ wrong cells next x m := Finset.mem_filter.mpr ⟨hp, by omega⟩
      rw [← heq] at hmem
      refine (Finset.mem_filter.mp hmem).2 ?_
      rw [hnexts m le_rfl p hp, recompute, Function.update_self]
  have hpos : 0 < m := by omega
  have hlighter : ∀ k, m ≤ k → weight cells next (recompute next x p) k < weight cells next x k := by
    intro k hk
    induction k, hk using Nat.le_induction with
    | base =>
      obtain ⟨n, hn⟩ : ∃ n, m = n + 1 := ⟨m - 1, by omega⟩
      rw [hn] at hat ⊢
      have hbelow := @weight_lt _ cells next (recompute next x p) n
      have hmul := Nat.mul_le_mul_right ((cells.card + 1) ^ n) (Nat.succ_le_of_lt hat)
      rw [Nat.succ_mul] at hmul
      rw [weight, weight]
      omega
    | succ k hk ih =>
      rw [weight, weight, habove (k + 1) (by omega)]
      omega
  exact hlighter top (by omega)

end Weight

/-! ## Distances -/

section Distance

variable {cells : Finset α} {near : α → List α} {source : α → Prop} {full : Nat}
  {next : (α → Nat) → α → Nat}

/-- The full level at a source, and one less than any level near. -/
def Spreads (cells : Finset α) (near : α → List α) (source : α → Prop) (full : Nat)
    (next : (α → Nat) → α → Nat) : Prop :=
  ∀ x, ∀ p ∈ cells, ∀ v, 0 < v →
    (v ≤ next x p ↔ (source p ∧ v ≤ full) ∨ ∃ q ∈ near p, q ∈ cells ∧ v + 1 ≤ x q)

omit [DecidableEq α] in
theorem Spreads.graded (h : Spreads cells near source full next) : Graded cells next := by
  intro v x y hxy p hp
  rcases Nat.eq_zero_or_pos v with rfl | hv
  · simp
  rw [h x p hp v hv, h y p hp v hv]
  have hread : (∃ q ∈ near p, q ∈ cells ∧ v + 1 ≤ x q) ↔ ∃ q ∈ near p, q ∈ cells ∧ v + 1 ≤ y q := by
    constructor
    · intro ⟨q, hq, hcell, hle⟩
      exact ⟨q, hq, hcell, (hxy q hcell (v + 1) (by omega)).mp hle⟩
    · intro ⟨q, hq, hcell, hle⟩
      exact ⟨q, hq, hcell, (hxy q hcell (v + 1) (by omega)).mpr hle⟩
  rw [hread]

/-- The rule itself. -/
def spread (cells : Finset α) (near : α → List α) (source : α → Prop) [DecidablePred source] (full : Nat)
    (x : α → Nat) (p : α) : Nat :=
  (near p).foldr (fun q best => if q ∈ cells then max (x q - 1) best else best)
    (if source p then full else 0)

theorem le_spread [DecidablePred source] {x : α → Nat} {p : α} {v : Nat} (hv : 0 < v) :
    v ≤ spread cells near source full x p ↔
      (source p ∧ v ≤ full) ∨ ∃ q ∈ near p, q ∈ cells ∧ v + 1 ≤ x q := by
  unfold spread
  generalize near p = ps
  induction ps with
  | nil =>
    by_cases hsource : source p
    · simp [hsource]
    · simp [hsource]
      omega
  | cons q ps ih =>
    rw [List.foldr_cons]
    by_cases hq : q ∈ cells
    · rw [if_pos hq, le_max_iff, ih]
      simp only [List.mem_cons, exists_eq_or_imp, hq, true_and]
      rw [show v ≤ x q - 1 ↔ v + 1 ≤ x q by omega]
      tauto
    · rw [if_neg hq, ih]
      simp only [List.mem_cons, exists_eq_or_imp, hq, false_and, false_or]

theorem spread_congr [DecidablePred source] {x y : α → Nat} {p : α} (h : ∀ q ∈ near p, x q = y q) :
    spread cells near source full x p = spread cells near source full y p := by
  unfold spread
  generalize near p = ps at h
  induction ps with
  | nil => rfl
  | cons q ps ih =>
    rw [List.foldr_cons, List.foldr_cons, ih fun r hr => h r (.tail _ hr), h q (.head _)]

theorem spread_spreads [DecidablePred source] :
    Spreads cells near source full (spread cells near source full) :=
  fun _ _ _ _ hv => le_spread hv

/-- A path of `n` steps through cells to a source. -/
inductive Path (cells : α → Prop) (near : α → List α) (source : α → Prop) : Nat → α → Prop
  | here {p} : cells p → source p → Path cells near source 0 p
  | step {n p q} : cells p → q ∈ near p → Path cells near source n q → Path cells near source (n + 1) p

omit [DecidableEq α] in
theorem Path.cell {cells : α → Prop} {n : Nat} {p : α} (h : Path cells near source n p) : cells p := by
  cases h with
  | here hp _ => exact hp
  | step hp _ _ => exact hp

omit [DecidableEq α] in
/-- A settled cell reaches `v` exactly when a path leaves that much of the full level. -/
theorem settled_le_iff (hspreads : Spreads cells near source full next) {x : α → Nat}
    (hfull : ∀ p ∈ cells, x p ≤ full) (hsettled : ∀ p ∈ cells, next x p = x p) {p : α} (hp : p ∈ cells)
    {v : Nat} (hv : 0 < v) : v ≤ x p ↔ ∃ n, Path (· ∈ cells) near source n p ∧ n + v ≤ full := by
  -- The levels are settled from the full one down.
  obtain ⟨k, hk⟩ : ∃ k, k = full + 1 - v := ⟨_, rfl⟩
  induction k generalizing v p with
  | zero =>
    constructor
    · intro hle
      have := hfull p hp
      omega
    · intro ⟨n, _, hle⟩
      omega
  | succ k ih =>
    rw [← hsettled p hp, hspreads x p hp v hv]
    constructor
    · rintro (⟨hsource, hle⟩ | ⟨q, hq, hcell, hle⟩)
      · exact ⟨0, .here hp hsource, by omega⟩
      · obtain ⟨n, hpath, hn⟩ := (ih hcell (by omega) (by omega)).mp hle
        exact ⟨n + 1, .step hp hq hpath, by omega⟩
    · intro ⟨n, hpath, hn⟩
      cases hpath with
      | here _ hsource => exact .inl ⟨hsource, by omega⟩
      | step _ hq hpath =>
        exact .inr ⟨_, hq, hpath.cell, (ih hpath.cell (by omega) (by omega)).mpr ⟨_, hpath, by omega⟩⟩

omit [DecidableEq α] in
theorem settled_eq (hspreads : Spreads cells near source full next) {x : α → Nat}
    (hfull : ∀ p ∈ cells, x p ≤ full) (hsettled : ∀ p ∈ cells, next x p = x p) {p : α} (hp : p ∈ cells) :
    (∀ d, IsLeast {n | Path (· ∈ cells) near source n p} d → x p = full - d) ∧
    ((∀ n, ¬Path (· ∈ cells) near source n p) → x p = 0) := by
  have hreach : ∀ v, 0 < v → (v ≤ x p ↔ ∃ n, Path (· ∈ cells) near source n p ∧ n + v ≤ full) :=
    fun v hv => settled_le_iff hspreads hfull hsettled hp hv
  constructor
  · intro d ⟨hd, hleast⟩
    refine le_antisymm ?_ ?_
    · rcases Nat.eq_zero_or_pos (x p) with hzero | hpos
      · omega
      obtain ⟨n, hpath, hn⟩ := (hreach (x p) hpos).mp le_rfl
      have := hleast hpath
      omega
    · rcases Nat.eq_zero_or_pos (full - d) with hzero | hpos
      · omega
      exact (hreach _ hpos).mpr ⟨d, hd, by omega⟩
  · intro hnone
    by_contra hpos
    obtain ⟨n, hpath, -⟩ := (hreach (x p) (Nat.pos_of_ne_zero hpos)).mp le_rfl
    exact hnone n hpath

end Distance

end Apoptosis.Core.Settle
