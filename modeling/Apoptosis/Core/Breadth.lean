import Mathlib.Tactic
/-!
# Breadth-first search from several sources, up to a limit

A queue of the cells that have a distance and whose neighbours have not been
visited. A neighbour that may be entered and was never seen gets the next
distance; from the limit on no neighbour is visited.

* `visit_mid`: one neighbour of the cell that was taken from the queue.
* `turn_invariant`: one cell of the queue.
* `search_total`: with enough turns the queue runs empty.
* `exhausted`: with nothing queued, distances up to the limit are least.
-/
namespace Apoptosis.Core.Breadth

variable {α : Type*} [DecidableEq α]

structure Search (α : Type*) where
  distance : α → Option Nat
  queue : List α
  seen : α → Bool

/-- A source is at no distance, and entering a cell from a neighbour takes one step. -/
inductive Reach (source : α → Prop) (enter : α → Bool) (steps : α → List α) : Nat → α → Prop
  | source {a : α} : source a → Reach source enter steps 0 a
  | step {n : Nat} {a b : α} : Reach source enter steps n a → b ∈ steps a → enter b = true →
      Reach source enter steps (n + 1) b

def visit (enter : α → Bool) (here : Nat) (s : Search α) (next : α) : Search α :=
  if s.seen next then s
  else if enter next then
    ⟨Function.update s.distance next (some (here + 1)), s.queue ++ [next],
      Function.update s.seen next true⟩
  else { s with seen := Function.update s.seen next true }

/-- The turn of a cell that was taken from the queue. -/
def turn (enter : α → Bool) (steps : α → List α) (limit : Nat) (s : Search α) (cell : α) : Search α :=
  let here := (s.distance cell).getD 0
  if limit ≤ here then s else (steps cell).foldl (visit enter here) s

/-- The turns until the queue is empty, if the fuel lasts. -/
def search (enter : α → Bool) (steps : α → List α) (limit : Nat) : Nat → Search α → Option (Search α)
  | 0, s => if s.queue = [] then some s else none
  | fuel + 1, s => match s.queue with
    | [] => some s
    | cell :: rest =>
      search enter steps limit fuel (turn enter steps limit { s with queue := rest } cell)

/-- The state in which only the sources are known. -/
def start (sources : List α) : Search α where
  distance a := if a ∈ sources then some 0 else none
  queue := sources
  seen a := a ∈ sources

variable {enter : α → Bool} {steps : α → List α} {limit : Nat} {sources : List α}
  {s : Search α} {a b : α} {d low : Nat}

/-! ## The invariant -/

/-- Distances are reached, and what was seen and may be entered has one. -/
structure Sound (enter : α → Bool) (steps : α → List α) (limit : Nat) (sources : List α)
    (s : Search α) : Prop where
  reached : ∀ a d, s.distance a = some d → Reach (· ∈ sources) enter steps d a ∧ d ≤ limit
  seen : ∀ a d, s.distance a = some d → s.seen a = true
  known : ∀ a, s.seen a = true → enter a = true → ∃ d, s.distance a = some d
  queued : ∀ a ∈ s.queue, ∃ d, s.distance a = some d
  sources : ∀ a ∈ sources, s.distance a = some 0

/-- The queue is in order and spans two levels; what has left it is not above the lower. -/
structure Ordered (s : Search α) (low : Nat) : Prop where
  front : ∀ a ∈ s.queue, ∀ d, s.distance a = some d → low ≤ d ∧ d ≤ low + 1
  sorted : s.queue.Pairwise fun a b => ∀ d d', s.distance a = some d → s.distance b = some d' → d ≤ d'
  done : ∀ a d, s.distance a = some d → a ∉ s.queue → d ≤ low

/-- What has left the queue has brought its neighbours within one step, but for the pairs waived. -/
def Settled (enter : α → Bool) (steps : α → List α) (limit : Nat) (waived : α → α → Prop)
    (s : Search α) : Prop :=
  ∀ a d, s.distance a = some d → a ∉ s.queue → d < limit → ∀ b ∈ steps a, enter b = true →
    waived a b ∨ ∃ d', s.distance b = some d' ∧ d' ≤ d + 1

structure Invariant (enter : α → Bool) (steps : α → List α) (limit : Nat) (sources : List α)
    (s : Search α) : Prop where
  sound : Sound enter steps limit sources s
  ordered : ∃ low, Ordered s low
  settled : Settled enter steps limit (fun _ _ => False) s

/-- Halfway through the neighbours of a cell at a distance. -/
structure Mid (enter : α → Bool) (steps : α → List α) (limit : Nat) (sources : List α)
    (cell : α) (here : Nat) (todo : List α) (s : Search α) : Prop where
  sound : Sound enter steps limit sources s
  ordered : Ordered s here
  settled : Settled enter steps limit (fun a b => a = cell ∧ b ∈ todo) s
  cell : s.distance cell = some here
  below : here < limit

theorem start_invariant (sources : List α) :
    Invariant enter steps limit sources (start sources) := by
  have hzero {a : α} {d : Nat} (h : (start sources).distance a = some d) : a ∈ sources ∧ d = 0 := by
    unfold start at h
    dsimp only at h
    split at h
    · next hmem => exact ⟨hmem, (Option.some.inj h).symm⟩
    · exact nomatch h
  refine ⟨⟨fun a d h => ?_, fun a d h => ?_, fun a h _ => ?_, fun a h => ?_, fun a h => ?_⟩,
    ⟨0, fun a _ d h => ?_, ?_, fun a d h _ => ?_⟩, fun a d h hnot => ?_⟩
  · obtain ⟨hmem, rfl⟩ := hzero h
    exact ⟨.source hmem, Nat.zero_le _⟩
  · exact decide_eq_true (hzero h).1
  · exact ⟨0, if_pos (of_decide_eq_true h)⟩
  · exact ⟨0, if_pos h⟩
  · exact if_pos h
  · have := (hzero h).2
    omega
  · refine List.pairwise_of_forall fun a b d d' h _ => ?_
    have := (hzero h).2
    omega
  · exact (hzero h).2.le
  · exact absurd (hzero h).1 hnot

/-- Taking the cell from the queue whose turn it is. -/
theorem Invariant.take {cell : α} {rest : List α} (h : Invariant enter steps limit sources s)
    (hqueue : s.queue = cell :: rest) : ∃ here, s.distance cell = some here ∧
      Sound enter steps limit sources { s with queue := rest } ∧
      Ordered { s with queue := rest } here ∧
      Settled enter steps limit (fun a b => a = cell ∧ b ∈ steps cell) { s with queue := rest } := by
  obtain ⟨low, hordered⟩ := h.ordered
  obtain ⟨here, hhere⟩ := h.sound.queued cell (hqueue ▸ List.mem_cons_self ..)
  have hlow := hordered.front cell (hqueue ▸ List.mem_cons_self ..) here hhere
  obtain ⟨hfirst, hsorted⟩ := List.pairwise_cons.mp (hqueue ▸ hordered.sorted)
  refine ⟨here, hhere, ⟨h.sound.reached, h.sound.seen, h.sound.known, fun a ha =>
    h.sound.queued a (hqueue ▸ List.mem_cons_of_mem _ ha), h.sound.sources⟩,
    ⟨fun a ha d hd => ⟨hfirst a ha here d hhere hd, ?_⟩, hsorted, fun a d hd hnot => ?_⟩, ?_⟩
  · have := hordered.front a (hqueue ▸ List.mem_cons_of_mem _ ha) d hd
    omega
  · by_cases hcell : a = cell
    · subst hcell
      exact (Option.some.inj (hd.symm.trans hhere)).le
    · have := hordered.done a d hd (by
        rw [hqueue]
        exact fun hmem => (List.mem_cons.mp hmem).elim hcell hnot)
      omega
  · intro a d hd hnot hlt b hb henter
    by_cases hcell : a = cell
    · exact .inl ⟨hcell, hcell ▸ hb⟩
    · refine .inr (((h.settled a d hd ?_ hlt b hb henter)).resolve_left id)
      rw [hqueue]
      exact fun hmem => (List.mem_cons.mp hmem).elim hcell hnot

/-! ## One neighbour -/

/-- What is left to do, as a number that every turn lowers. -/
def potential (width limit : Nat) (s : Search α) : Nat :=
  (s.queue.map fun a => (width + 1) ^ (limit + 1 - (s.distance a).getD 0)).sum

theorem visit_mid {cell next : α} {here : Nat} {todo : List α}
    (h : Mid enter steps limit sources cell here (next :: todo) s) (hnext : next ∈ steps cell)
    (width : Nat) :
    Mid enter steps limit sources cell here todo (visit enter here s next) ∧
      potential width limit (visit enter here s next) ≤
        potential width limit s + (width + 1) ^ (limit - here) := by
  obtain ⟨hsound, hordered, hsettled, hcell, hbelow⟩ := h
  by_cases hseen : s.seen next = true
  · -- a neighbour that was seen has a distance already, and none above the next level
    rw [visit, if_pos hseen]
    refine ⟨⟨hsound, hordered, fun a d hd hnot hlt b hb henter => ?_, hcell, hbelow⟩,
      Nat.le_add_right ..⟩
    rcases hsettled a d hd hnot hlt b hb henter with ⟨rfl, hmem⟩ | hfound
    · rcases List.mem_cons.mp hmem with rfl | hmem
      · obtain ⟨d', hd'⟩ := hsound.known b hseen henter
        cases hcell.symm.trans hd
        refine .inr ⟨d', hd', ?_⟩
        by_cases hqueued : b ∈ s.queue
        · exact (hordered.front b hqueued d' hd').2
        · have := hordered.done b d' hd' hqueued
          omega
      · exact .inl ⟨rfl, hmem⟩
    · exact .inr hfound
  have hnone : s.distance next = none := by
    cases hd : s.distance next with
    | none => rfl
    | some d => exact absurd (hsound.seen next d hd) hseen
  have hne {a : α} {d : Nat} (hd : s.distance a = some d) : a ≠ next := by
    rintro rfl
    exact nomatch hnone.symm.trans hd
  by_cases henter : enter next = true
  · rw [visit, if_neg hseen, if_pos henter]
    have hother {a : α} {d : Nat} (hd : s.distance a = some d) :
        Function.update s.distance next (some (here + 1)) a = some d := by
      rw [Function.update_of_ne (hne hd), hd]
    have hcases {a : α} {d : Nat}
        (hd : Function.update s.distance next (some (here + 1)) a = some d) :
        a = next ∧ d = here + 1 ∨ s.distance a = some d := by
      by_cases heq : a = next
      · subst heq
        rw [Function.update_self] at hd
        exact .inl ⟨rfl, (Option.some.inj hd).symm⟩
      · rw [Function.update_of_ne heq] at hd
        exact .inr hd
    refine ⟨⟨⟨fun a d hd => ?_, fun a d hd => ?_, fun a ha henter' => ?_, fun a ha => ?_,
      fun a ha => hother (hsound.sources a ha)⟩, ⟨fun a ha d hd => ?_, ?_, fun a d hd hnot => ?_⟩,
      fun a d hd hnot hlt b hb henter' => ?_, hother hcell, hbelow⟩, ?_⟩
    · rcases hcases hd with ⟨rfl, rfl⟩ | hd
      · exact ⟨.step (hsound.reached cell here hcell).1 hnext henter, by omega⟩
      · exact hsound.reached a d hd
    · dsimp only
      rcases hcases hd with ⟨rfl, -⟩ | hd
      · exact Function.update_self ..
      · rw [Function.update_of_ne (hne hd)]
        exact hsound.seen a d hd
    · dsimp only at ha
      by_cases heq : a = next
      · subst heq
        exact ⟨here + 1, Function.update_self ..⟩
      · rw [Function.update_of_ne heq] at ha
        obtain ⟨d, hd⟩ := hsound.known a ha henter'
        exact ⟨d, hother hd⟩
    · rcases List.mem_append.mp ha with ha | ha
      · obtain ⟨d, hd⟩ := hsound.queued a ha
        exact ⟨d, hother hd⟩
      · rw [List.mem_singleton.mp ha]
        exact ⟨here + 1, Function.update_self ..⟩
    · rcases List.mem_append.mp ha with ha | ha
      · obtain ⟨d', hd'⟩ := hsound.queued a ha
        cases (hother hd').symm.trans hd
        exact hordered.front a ha _ hd'
      · cases List.mem_singleton.mp ha
        cases (Function.update_self ..).symm.trans hd
        omega
    · refine List.pairwise_append.mpr ⟨?_, List.pairwise_singleton .., fun a ha b hb d d' hd hd' => ?_⟩
      · refine hordered.sorted.imp_of_mem fun {a b} ha hb hle d d' hd hd' => ?_
        obtain ⟨da, hda⟩ := hsound.queued a ha
        obtain ⟨db, hdb⟩ := hsound.queued b hb
        cases (hother hda).symm.trans hd
        cases (hother hdb).symm.trans hd'
        exact hle _ _ hda hdb
      · obtain ⟨da, hda⟩ := hsound.queued a ha
        cases (hother hda).symm.trans hd
        cases List.mem_singleton.mp hb
        cases (Function.update_self ..).symm.trans hd'
        exact (hordered.front a ha _ hda).2
    · rw [List.mem_append, List.mem_singleton, not_or] at hnot
      exact hordered.done a d ((hcases hd).resolve_left fun h => hnot.2 h.1) hnot.1
    · rw [List.mem_append, List.mem_singleton, not_or] at hnot
      have hda := (hcases hd).resolve_left fun h => hnot.2 h.1
      rcases hsettled a d hda hnot.1 hlt b hb henter' with ⟨rfl, hmem⟩ | ⟨d', hd', hle⟩
      · rcases List.mem_cons.mp hmem with rfl | hmem
        · cases hcell.symm.trans hda
          exact .inr ⟨here + 1, Function.update_self .., le_rfl⟩
        · exact .inl ⟨rfl, hmem⟩
      · exact .inr ⟨d', hother hd', hle⟩
    · have hkeep : s.queue.map (fun a => (width + 1) ^ (limit + 1 -
            (Function.update s.distance next (some (here + 1)) a).getD 0)) =
          s.queue.map fun a => (width + 1) ^ (limit + 1 - (s.distance a).getD 0) := by
        refine List.map_congr_left fun a ha => ?_
        obtain ⟨d, hd⟩ := hsound.queued a ha
        rw [hother hd, hd]
      have hlast : limit + 1 - (here + 1) = limit - here := by omega
      rw [potential]
      dsimp only
      rw [List.map_append, hkeep, List.sum_append, List.map_singleton, List.sum_singleton,
        Function.update_self, Option.getD_some, hlast]
      exact le_rfl
  · rw [visit, if_neg hseen, if_neg henter]
    refine ⟨⟨⟨hsound.reached, fun a d hd => ?_, fun a ha henter' => ?_, hsound.queued,
      hsound.sources⟩, ⟨hordered.front, hordered.sorted, hordered.done⟩,
      fun a d hd hnot hlt b hb henter' => ?_, hcell, hbelow⟩, Nat.le_add_right ..⟩
    · dsimp only
      rw [Function.update_of_ne (hne hd)]
      exact hsound.seen a d hd
    · dsimp only at ha
      have hne : a ≠ next := by
        rintro rfl
        exact henter henter'
      rw [Function.update_of_ne hne] at ha
      exact hsound.known a ha henter'
    · refine (hsettled a d hd hnot hlt b hb henter').imp_left fun ⟨hself, hmem⟩ => ⟨hself, ?_⟩
      refine (List.mem_cons.mp hmem).resolve_left ?_
      rintro rfl
      exact henter henter'

/-- The neighbours of a cell, one after another. -/
theorem visitAll_mid {cell : α} {here : Nat} (width : Nat) (todo : List α)
    (hsub : ∀ b ∈ todo, b ∈ steps cell) (h : Mid enter steps limit sources cell here todo s) :
    Mid enter steps limit sources cell here [] (todo.foldl (visit enter here) s) ∧
      potential width limit (todo.foldl (visit enter here) s) ≤
        potential width limit s + todo.length * (width + 1) ^ (limit - here) := by
  induction todo generalizing s with
  | nil => exact ⟨h, by simp⟩
  | cons next todo ih =>
    obtain ⟨hmid, hpotential⟩ := visit_mid h (hsub next (List.mem_cons_self ..)) width
    obtain ⟨hmid', hpotential'⟩ := ih (fun b hb => hsub b (List.mem_cons_of_mem _ hb)) hmid
    refine ⟨hmid', hpotential'.trans ?_⟩
    rw [List.length_cons, Nat.add_mul, Nat.one_mul]
    omega

/-! ## The whole search -/

theorem turn_invariant {cell : α} {rest : List α} {width : Nat}
    (hwidth : ∀ a, (steps a).length ≤ width) (h : Invariant enter steps limit sources s)
    (hqueue : s.queue = cell :: rest) :
    Invariant enter steps limit sources (turn enter steps limit { s with queue := rest } cell) ∧
      potential width limit (turn enter steps limit { s with queue := rest } cell) <
        potential width limit s := by
  obtain ⟨here, hhere, hsound, hordered, hsettled⟩ := h.take hqueue
  have hless : potential width limit { s with queue := rest } +
      (width + 1) ^ (limit + 1 - here) = potential width limit s := by
    rw [potential, potential, hqueue, List.map_cons, List.sum_cons, hhere, Option.getD_some,
      Nat.add_comm]
  have hpos : 0 < (width + 1) ^ (limit + 1 - here) := by positivity
  rw [turn]
  dsimp only
  rw [hhere, Option.getD_some]
  split
  · next hlimit =>
    refine ⟨⟨hsound, ⟨here, hordered⟩, fun a d hd hnot hlt b hb henter => ?_⟩, by omega⟩
    rcases hsettled a d hd hnot hlt b hb henter with ⟨rfl, -⟩ | hfound
    · cases hhere.symm.trans hd
      omega
    · exact .inr hfound
  · next hlimit =>
    obtain ⟨hmid, hpotential⟩ := visitAll_mid width (steps cell) (fun _ hb => hb)
      ⟨hsound, hordered, hsettled, hhere, by omega⟩
    refine ⟨⟨hmid.sound, ⟨here, hmid.ordered⟩, fun a d hd hnot hlt b hb henter => ?_⟩, ?_⟩
    · refine .inr ((hmid.settled a d hd hnot hlt b hb henter).resolve_left fun h => ?_)
      exact nomatch h.2
    · -- the neighbours together weigh less than the cell did
      have hsplit : limit + 1 - here = limit - here + 1 := by omega
      have hle : (steps cell).length * (width + 1) ^ (limit - here) ≤
          width * (width + 1) ^ (limit - here) := Nat.mul_le_mul_right _ (hwidth cell)
      rw [hsplit, Nat.pow_succ, Nat.mul_add, Nat.mul_one, Nat.mul_comm _ width] at hless
      have hpos' : 0 < (width + 1) ^ (limit - here) := by positivity
      omega

/-- With enough turns the queue runs empty. -/
theorem search_total {width fuel : Nat} (hwidth : ∀ a, (steps a).length ≤ width)
    (h : Invariant enter steps limit sources s) (hfuel : potential width limit s ≤ fuel) :
    ∃ final, search enter steps limit fuel s = some final ∧
      Invariant enter steps limit sources final ∧ final.queue = [] := by
  induction fuel generalizing s with
  | zero =>
    have hempty : s.queue = [] := by
      cases hqueue : s.queue with
      | nil => rfl
      | cons cell rest =>
        have := (turn_invariant hwidth h hqueue).2
        omega
    exact ⟨s, if_pos hempty, h, hempty⟩
  | succ fuel ih =>
    rw [search]
    split
    · next hempty => exact ⟨s, rfl, h, hempty⟩
    · next cell rest hqueue =>
      obtain ⟨hinv, hless⟩ := turn_invariant hwidth h hqueue
      exact ih hinv (by omega)

theorem potential_start (width limit : Nat) (sources : List α) :
    potential width limit (start sources) = sources.length * (width + 1) ^ (limit + 1) := by
  have hweight : sources.map (fun a =>
      (width + 1) ^ (limit + 1 - ((start sources).distance a).getD 0)) =
      sources.map fun _ => (width + 1) ^ (limit + 1) := by
    refine List.map_congr_left fun a ha => ?_
    have hzero : (start sources).distance a = some 0 := if_pos ha
    rw [hzero]
    rfl
  rw [potential]
  show (sources.map _).sum = _
  rw [hweight, List.map_const', List.sum_replicate, smul_eq_mul]

omit [DecidableEq α] in
/-- With nothing queued, what is reached within the limit has no greater distance. -/
theorem exhausted (h : Invariant enter steps limit sources s) (hempty : s.queue = []) {n : Nat}
    (hreach : Reach (· ∈ sources) enter steps n a) (hn : n ≤ limit) :
    ∃ d, s.distance a = some d ∧ d ≤ n := by
  induction hreach with
  | source hmem => exact ⟨0, h.sound.sources _ hmem, le_rfl⟩
  | step _ hb henter ih =>
    obtain ⟨d, hd, hle⟩ := ih (by omega)
    obtain ⟨d', hd', hle'⟩ := (h.settled _ d hd (by rw [hempty]; exact nofun) (by omega) _ hb
      henter).resolve_left id
    exact ⟨d', hd', by omega⟩

end Apoptosis.Core.Breadth
