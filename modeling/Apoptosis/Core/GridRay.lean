import Mathlib.Algebra.Order.Floor.Ring
import Mathlib.Tactic
/-!
# A ray through a grid of cells

A ray passes from a cell to the one behind the wall it reaches first.

* `Ray.within_of_leave`, `Ray.within_next`: the ray is in a cell until it leaves it, and then in the next.
* `Ray.entered`: it is in the next cell at no earlier time.
* `Ray.traverses`: the cells it passes up to a time, in order, with no cell left out.
-/
namespace Apoptosis.Core

variable {ι K : Type*} [Field K] [LinearOrder K]

structure Ray (ι K : Type*) where
  origin : ι → K
  dir : ι → K

/-- A cell, the time it is entered at, and the axis of the wall that is crossed into it. -/
structure Visit (ι K : Type*) where
  cell : ι → Int
  time : K
  across : Option ι

namespace Ray

def point (r : Ray ι K) (t : K) (a : ι) : K := r.origin a + t * r.dir a

/-- The ray is in the cell, or on its border. -/
def Within (r : Ray ι K) (cell : ι → Int) (t : K) : Prop :=
  ∀ a, (cell a : K) ≤ r.point t a ∧ r.point t a ≤ cell a + 1

theorem start_within [FloorRing K] (r : Ray ι K) : r.Within (fun a => ⌊r.origin a⌋) 0 := by
  intro a
  rw [point, zero_mul, add_zero]
  exact ⟨Int.floor_le _, (Int.lt_floor_add_one _).le⟩

/-- The ray is inside the cell. -/
def Inside (r : Ray ι K) (cell : ι → Int) (t : K) : Prop :=
  ∀ a, (cell a : K) < r.point t a ∧ r.point t a < cell a + 1

/-- The wall of the cell that the ray comes to along an axis. -/
def wall (r : Ray ι K) (cell : ι → Int) (a : ι) : Int := if 0 < r.dir a then cell a + 1 else cell a

def leave (r : Ray ι K) (cell : ι → Int) (a : ι) : K := (r.wall cell a - r.origin a) / r.dir a

def step (r : Ray ι K) (a : ι) : Int := if 0 < r.dir a then 1 else -1

section
variable [DecidableEq ι]

/-- The cell behind the wall. -/
def next (r : Ray ι K) (cell : ι → Int) (a : ι) : ι → Int := Function.update cell a (cell a + r.step a)

@[simp] theorem next_self (r : Ray ι K) (cell : ι → Int) (a : ι) : r.next cell a a = cell a + r.step a :=
  Function.update_self ..

theorem next_of_ne (r : Ray ι K) (cell : ι → Int) {a b : ι} (h : b ≠ a) : r.next cell a b = cell b :=
  Function.update_of_ne h ..

end

/-! ## Walls -/

variable {r : Ray ι K} {cell : ι → Int} {a : ι} {s t : K}

theorem point_leave (hdir : r.dir a ≠ 0) : r.point (r.leave cell a) a = r.wall cell a := by
  unfold point leave
  rw [div_mul_cancel₀ _ hdir]
  ring

theorem leave_next_of_ne [DecidableEq ι] {b : ι} (h : b ≠ a) :
    r.leave (r.next cell a) b = r.leave cell b := by
  unfold leave wall
  rw [next_of_ne r cell h]

variable [IsStrictOrderedRing K]

theorem point_le_of_pos (hdir : 0 < r.dir a) (h : s ≤ t) : r.point s a ≤ r.point t a :=
  add_le_add_right (mul_le_mul_of_nonneg_right h hdir.le) _

theorem point_le_of_neg (hdir : r.dir a < 0) (h : s ≤ t) : r.point t a ≤ r.point s a :=
  add_le_add_right (mul_le_mul_of_nonpos_right h hdir.le) _

theorem point_lt_of_pos (hdir : 0 < r.dir a) (h : s < t) : r.point s a < r.point t a :=
  add_lt_add_right (mul_lt_mul_of_pos_right h hdir) _

theorem point_lt_of_neg (hdir : r.dir a < 0) (h : s < t) : r.point t a < r.point s a :=
  add_lt_add_right (mul_lt_mul_of_neg_right h hdir) _

/-- A ray that is in a cell has not left it. -/
theorem le_leave (h : r.Within cell t) (hdir : r.dir a ≠ 0) : t ≤ r.leave cell a := by
  by_contra hlt
  have hwall : r.point (r.leave cell a) a = r.wall cell a := point_leave hdir
  rcases lt_or_gt_of_ne hdir with hneg | hpos
  · have := point_lt_of_neg hneg (not_le.mp hlt)
    rw [hwall, wall, if_neg hneg.not_gt] at this
    exact absurd (h a).1 (not_le.mpr this)
  · have := point_lt_of_pos hpos (not_le.mp hlt)
    rw [hwall, wall, if_pos hpos, Int.cast_add, Int.cast_one] at this
    exact absurd (h a).2 (not_le.mpr this)

/-- The ray stays in the cell until it leaves it. -/
theorem within_of_leave (h : r.Within cell t) (hle : t ≤ s)
    (hleave : ∀ a, r.dir a ≠ 0 → s ≤ r.leave cell a) : r.Within cell s := by
  intro a
  rcases lt_trichotomy (r.dir a) 0 with hneg | hzero | hpos
  · have := point_le_of_neg hneg (hleave a hneg.ne)
    rw [point_leave hneg.ne, wall, if_neg hneg.not_gt] at this
    exact ⟨this, (point_le_of_neg hneg hle).trans (h a).2⟩
  · have : r.point s a = r.point t a := by rw [point, point, hzero, mul_zero, mul_zero]
    rw [this]
    exact h a
  · have := point_le_of_pos hpos (hleave a hpos.ne')
    rw [point_leave hpos.ne', wall, if_pos hpos, Int.cast_add, Int.cast_one] at this
    exact ⟨(h a).1.trans (point_le_of_pos hpos hle), this⟩

/-- A cell the ray is inside of is the only one it is in. -/
theorem Inside.unique {cell' : ι → Int} (h : r.Inside cell t) (h' : r.Within cell' t) : cell' = cell := by
  funext a
  have hlow : (cell' a : K) < ((cell a + 1 : Int) : K) := by
    push_cast
    exact (h' a).1.trans_lt (h a).2
  have hhigh : (cell a : K) < ((cell' a + 1 : Int) : K) := by
    push_cast
    exact (h a).1.trans_le (h' a).2
  rw [Int.cast_lt] at hlow hhigh
  omega

variable [DecidableEq ι]

/-- Behind the wall, the ray is in the next cell. -/
theorem within_next (h : r.Within cell (r.leave cell a)) (hdir : r.dir a ≠ 0) :
    r.Within (r.next cell a) (r.leave cell a) := by
  intro b
  by_cases hb : b = a
  · subst hb
    rw [point_leave hdir, next_self, wall, step]
    rcases lt_or_gt_of_ne hdir with hneg | hpos
    · rw [if_neg hneg.not_gt, if_neg hneg.not_gt]
      push_cast
      exact ⟨by linarith, by linarith⟩
    · rw [if_pos hpos, if_pos hpos]
      push_cast
      exact ⟨by linarith, by linarith⟩
  · rw [next_of_ne r cell hb]
    exact h b

/-- It is there no earlier. -/
theorem leave_le (h : r.Within (r.next cell a) s) (hdir : r.dir a ≠ 0) : r.leave cell a ≤ s := by
  by_contra hlt
  have hwall : r.point (r.leave cell a) a = r.wall cell a := point_leave hdir
  have hin := h a
  rw [next_self, step] at hin
  rcases lt_or_gt_of_ne hdir with hneg | hpos
  · have := point_lt_of_neg hneg (not_le.mp hlt)
    rw [hwall, wall, if_neg hneg.not_gt] at this
    rw [if_neg hneg.not_gt] at hin
    push_cast at hin
    linarith [hin.2]
  · have := point_lt_of_pos hpos (not_le.mp hlt)
    rw [hwall, wall, if_pos hpos] at this
    rw [if_pos hpos] at hin
    push_cast at hin this
    linarith [hin.1]

theorem leave_next_self (hdir : r.dir a ≠ 0) :
    r.leave (r.next cell a) a = r.leave cell a + |1 / r.dir a| := by
  unfold leave wall
  rw [next_self, step]
  rcases lt_or_gt_of_ne hdir with hneg | hpos
  · rw [if_neg hneg.not_gt, if_neg hneg.not_gt, if_neg hneg.not_gt,
      abs_of_neg (one_div_neg.mpr hneg)]
    push_cast
    field_simp
    ring
  · rw [if_pos hpos, if_pos hpos, if_pos hpos, abs_of_pos (one_div_pos.mpr hpos)]
    push_cast
    field_simp
    ring

/-! ## The cells that are passed -/

/-- The wall that is crossed next is one the ray comes to first. -/
structure Picks (r : Ray ι K) (pick : (ι → Int) → Option ι) : Prop where
  first : ∀ cell a, pick cell = some a → r.dir a ≠ 0 ∧ ∀ b, r.dir b ≠ 0 → r.leave cell a ≤ r.leave cell b
  still : ∀ cell, pick cell = none → ∀ b, r.dir b = 0

/-- The cells that are entered after the given one, up to a time. -/
def visits (r : Ray ι K) (pick : (ι → Int) → Option ι) (reach : K) : Nat → (ι → Int) → List (Visit ι K)
  | 0, _ => []
  | fuel + 1, cell =>
    match pick cell with
    | none => []
    | some a =>
      if reach < r.leave cell a then []
      else ⟨r.next cell a, r.leave cell a, some a⟩ :: visits r pick reach fuel (r.next cell a)

variable {pick : (ι → Int) → Option ι} {reach time : K}

theorem visits_met (hpick : r.Picks pick) (fuel : Nat) (h : r.Within cell time) {v : Visit ι K}
    (hv : v ∈ r.visits pick reach fuel cell) :
    time ≤ v.time ∧ v.time ≤ reach ∧ r.Within v.cell v.time ∧ ∀ s, r.Within v.cell s → v.time ≤ s := by
  induction fuel generalizing cell time with
  | zero => exact absurd hv List.not_mem_nil
  | succ fuel ih =>
    rw [visits] at hv
    split at hv
    · exact absurd hv List.not_mem_nil
    · next a hp =>
      obtain ⟨hdir, hfirst⟩ := hpick.first cell a hp
      split at hv
      · exact absurd hv List.not_mem_nil
      · next hreach =>
        have hle := le_leave h hdir
        have hin := within_next (within_of_leave h hle hfirst) hdir
        rcases List.mem_cons.mp hv with rfl | hv
        · exact ⟨hle, not_lt.mp hreach, hin, fun s hs => leave_le hs hdir⟩
        · obtain ⟨hlow, hrest⟩ := ih hin hv
          exact ⟨hle.trans hlow, hrest⟩

theorem visits_chain (hpick : r.Picks pick) (fuel : Nat) (h : r.Within cell time) (across : Option ι) :
    (⟨cell, time, across⟩ :: r.visits pick reach fuel cell).IsChain fun v w => v.time ≤ w.time ∧
      ∃ a, w.across = some a ∧ r.dir a ≠ 0 ∧ w.cell = r.next v.cell a := by
  induction fuel generalizing cell time across with
  | zero => exact .singleton _
  | succ fuel ih =>
    rw [visits]
    split
    · exact .singleton _
    · next a hp =>
      obtain ⟨hdir, hfirst⟩ := hpick.first cell a hp
      split
      · exact .singleton _
      · have hle := le_leave h hdir
        exact .cons_cons ⟨hle, a, rfl, hdir, rfl⟩ (ih (within_next (within_of_leave h hle hfirst) hdir) (some a))

section
variable [FloorRing K]

/-- The walls along an axis that are still to be crossed. -/
def ahead (r : Ray ι K) (reach : K) (cell : ι → Int) (a : ι) : Nat :=
  if r.dir a = 0 then 0
  else if 0 < r.dir a then (⌊r.point reach a⌋ - cell a).toNat
  else (cell a - ⌈r.point reach a⌉ + 1).toNat

theorem ahead_next {reach : K} (hdir : r.dir a ≠ 0) (hle : r.leave cell a ≤ reach) :
    r.ahead reach (r.next cell a) a < r.ahead reach cell a := by
  unfold ahead
  rw [if_neg hdir, if_neg hdir, next_self, step]
  rcases lt_or_gt_of_ne hdir with hneg | hpos
  · have := point_le_of_neg hneg hle
    rw [point_leave hdir, wall, if_neg hneg.not_gt] at this
    have := Int.ceil_le.mpr this
    rw [if_neg hneg.not_gt, if_neg hneg.not_gt, if_neg hneg.not_gt]
    omega
  · have := point_le_of_pos hpos hle
    rw [point_leave hdir, wall, if_pos hpos] at this
    have := Int.le_floor.mpr this
    rw [if_pos hpos, if_pos hpos, if_pos hpos]
    omega

omit [IsStrictOrderedRing K] in
theorem ahead_next_of_ne {reach : K} {b : ι} (h : b ≠ a) :
    r.ahead reach (r.next cell a) b = r.ahead reach cell b := by
  unfold ahead
  rw [next_of_ne r cell h]

variable [Fintype ι]

def rank (r : Ray ι K) (reach : K) (cell : ι → Int) : Nat := ∑ a, r.ahead reach cell a

theorem rank_next {reach : K} (hdir : r.dir a ≠ 0) (hle : r.leave cell a ≤ reach) :
    r.rank reach (r.next cell a) < r.rank reach cell := by
  refine Finset.sum_lt_sum (fun b _ => ?_) ⟨a, Finset.mem_univ a, ahead_next hdir hle⟩
  by_cases hb : b = a
  · rw [hb]
    exact (ahead_next hdir hle).le
  · exact (ahead_next_of_ne hb).le

/-- The cells that the ray passes up to a time. -/
structure Traverses (r : Ray ι K) (reach : K) (passed : List (Visit ι K)) : Prop where
  head : ∃ visits, passed = ⟨fun a => ⌊r.origin a⌋, 0, none⟩ :: visits
  met : ∀ v ∈ passed, 0 ≤ v.time ∧ v.time ≤ reach ∧ r.Within v.cell v.time
  entered : ∀ v ∈ passed, ∀ s, 0 ≤ s → r.Within v.cell s → v.time ≤ s
  chain : passed.IsChain fun v w => v.time ≤ w.time ∧
    ∃ a, w.across = some a ∧ r.dir a ≠ 0 ∧ w.cell = r.next v.cell a
  complete : ∀ cell t, 0 ≤ t → t ≤ reach → r.Inside cell t → ∃ v ∈ passed, v.cell = cell

/-- The cells that the ray passes up to a time, from the one it starts in. -/
def passed (r : Ray ι K) (pick : (ι → Int) → Option ι) (reach : K) : List (Visit ι K) :=
  ⟨fun a => ⌊r.origin a⌋, 0, none⟩ ::
    r.visits pick reach (r.rank reach fun a => ⌊r.origin a⌋) fun a => ⌊r.origin a⌋

/-- Up to the end, the ray is always in a cell that it has passed. -/
theorem visits_complete (hpick : r.Picks pick) (fuel : Nat) (h : r.Within cell time)
    (hfuel : r.rank reach cell ≤ fuel) (across : Option ι) {t : K} (hle : time ≤ t) (hreach : t ≤ reach) :
    ∃ v ∈ (⟨cell, time, across⟩ :: r.visits pick reach fuel cell : List (Visit ι K)), r.Within v.cell t := by
  induction fuel generalizing cell time across with
  | zero =>
    refine ⟨_, List.mem_cons_self .., within_of_leave h hle fun a hdir => ?_⟩
    by_contra hlt
    exact absurd ((rank_next hdir ((not_le.mp hlt).le.trans hreach)).trans_le hfuel) (Nat.not_lt_zero _)
  | succ fuel ih =>
    cases hp : pick cell with
    | none =>
      exact ⟨_, List.mem_cons_self .., within_of_leave h hle fun a hdir => absurd (hpick.still cell hp a) hdir⟩
    | some a =>
      obtain ⟨hdir, hfirst⟩ := hpick.first cell a hp
      by_cases ht : t ≤ r.leave cell a
      · exact ⟨_, List.mem_cons_self .., within_of_leave h hle fun b hb => ht.trans (hfirst b hb)⟩
      · have hin : r.leave cell a ≤ reach := (not_le.mp ht).le.trans hreach
        have hrank := rank_next hdir hin
        have hwithin := within_next (within_of_leave h (le_leave h hdir) hfirst) hdir
        obtain ⟨v, hv, hvt⟩ := ih hwithin (by omega) (some a) (not_le.mp ht).le
        refine ⟨v, List.mem_cons_of_mem _ ?_, hvt⟩
        rw [visits, hp]
        dsimp only
        rwa [if_neg (not_lt.mpr hin)]

theorem traverses (hpick : r.Picks pick) (hreach : 0 ≤ reach) : r.Traverses reach (r.passed pick reach) where
  head := ⟨_, rfl⟩
  met v hv := by
    rcases List.mem_cons.mp hv with rfl | hv
    · exact ⟨le_rfl, hreach, r.start_within⟩
    · obtain ⟨hlow, hhigh, hin, -⟩ := visits_met hpick _ r.start_within hv
      exact ⟨hlow, hhigh, hin⟩
  entered v hv s hs hin := by
    rcases List.mem_cons.mp hv with rfl | hv
    · exact hs
    · exact (visits_met hpick _ r.start_within hv).2.2.2 s hin
  chain := visits_chain hpick _ r.start_within none
  complete cell t ht hle hinside := by
    obtain ⟨v, hv, hwithin⟩ := visits_complete hpick _ r.start_within le_rfl none ht hle
    exact ⟨v, hv, hinside.unique hwithin⟩

end

end Ray

end Apoptosis.Core
