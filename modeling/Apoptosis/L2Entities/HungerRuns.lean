import Apoptosis.L2Entities.Hunger
/-!
# Runs of hunger and health (`entity/src/player.rs`)

Every run keeps the bounds and reports a death once. A tick takes health below
its floor where the last point of starvation reaches past it, and takes
saturation that was not spent: what is above five, and a point from the dead.

* `Survivor.perform`: every operation keeps the bounds.
* `tick_kept_iff`: when a tick keeps its floor and the saturation.
* `hunger_run_iff`: the runs in which every step keeps them.
* `bread_lost`: a tick that takes what `eat` stored.
-/
namespace Apoptosis.L2.Entities
open Apoptosis.Core

def died (outcome : Option DamageOutcome) : Bool := outcome.any (·.died)

/-- An operation of a run, with the states around it. -/
structure Performed where
  before : Player
  op : Op
  after : Player
  outcome : Option DamageOutcome

/-- The operations follow one another from the player on. -/
def Follow : Player → List Performed → Prop
  | _, [] => True
  | p, s :: ss => s.before = p ∧ p.perform s.op = some (s.after, s.outcome) ∧ Follow s.after ss

/-- The player that a run ends with. -/
def lastOf : Player → List Performed → Player
  | p, [] => p
  | _, s :: ss => lastOf s.after ss

/-! ## What is claimed of a step -/

/-- Starvation leaves at least the floor, or what there was. -/
def FloorKept (before after : Player) : Scalar → Prop
  | .finite floor => min before.health floor ≤ after.health
  | .posInf => before.health ≤ after.health
  | .negInf | .nan => True

/-- The saturation a step spends: a point for 4.0 exhaustion, and one for a regeneration at full food. -/
def Performed.spent (s : Performed) : Nat :=
  match s.op with
  | .tickFoodEx exhaustionDelta _ =>
    pointsDue s.before exhaustionDelta + if s.before.health < s.after.health ∧ s.after.food = 20 then 1 else 0
  | _ => 0

/-- Saturation leaves by being spent or by the food level, and health stays above the floor of a tick. -/
structure Performed.Kept (s : Performed) : Prop where
  saturation : min (s.before.saturation - s.spent) s.after.food ≤ s.after.saturation
  floor : ∀ delta starveFloor, s.op = .tickFoodEx delta starveFloor → FloorKept s.before s.after starveFloor

/-- The condition on the state before the step. -/
def Meets (p : Player) : Op → Prop
  | .tickFoodEx exhaustionDelta starveFloor =>
    p.saturation - pointsDue p exhaustionDelta ≤ 5 ∧
      ¬(p.health = 0 ∧ p.food = 20 ∧ 0 < p.saturation - pointsDue p exhaustionDelta) ∧
      ¬(p.food + ⌈p.saturation⌉₊ ≤ pointsDue p exhaustionDelta ∧
        ∃ floor, starveFloor = .finite floor ∧ 0 < floor ∧ floor < p.health ∧ p.health < floor + 1)
  | .setFood food => p.saturation ≤ 5 ∨ food.val ≤ 5
  | _ => True

namespace Survivor

variable {p p' : Player}

theorem eat_spec (h : Survivor p) {nutrition : I32} {restored : Scalar} {r : Int × ℚ}
    (hs : p.eat nutrition restored = some (p', r)) :
    Survivor p' ∧ p'.health = p.health ∧ p.saturation ≤ p'.saturation := by
  have hnonneg := h.food_nonneg
  have hfood := h.food_le
  obtain ⟨saturation, hsat, heq⟩ := Option.map_eq_some_iff.mp hs
  obtain ⟨rfl, -⟩ := Prod.mk.inj heq
  have hmore : p.food ≤ (if nutrition.val > 0 then max 0 (min (I32.clamp (p.food + nutrition.val)).val MAX_FOOD)
      else p.food) := by
    split
    · have := nutrition.property
      have hval : (I32.clamp (p.food + nutrition.val)).val = max (-2 ^ 31) (min (p.food + nutrition.val) (2 ^ 31 - 1)) :=
        rfl
      rw [hval, MAX_FOOD]
      omega
    · exact le_rfl
  have hless : (if nutrition.val > 0 then max 0 (min (I32.clamp (p.food + nutrition.val)).val MAX_FOOD)
      else p.food) ≤ 20 := by
    split
    · rw [MAX_FOOD]
      omega
    · exact hfood
  generalize (if nutrition.val > 0 then max 0 (min (I32.clamp (p.food + nutrition.val)).val MAX_FOOD)
      else p.food) = food at hsat hmore hless
  have hcast : (p.food : ℚ) ≤ food := by exact_mod_cast hmore
  have hle : p.saturation ≤ food := h.saturation_le.trans hcast
  have hmid : p.saturation ≤ saturation ∧ saturation ≤ food := by
    split at hsat
    · next q =>
      split at hsat
      · next hpos =>
        rw [clampTo_of_le _ (h.saturation_nonneg.trans hle)] at hsat
        obtain rfl := Option.some.inj hsat
        exact ⟨le_max_of_le_right (le_min (by linarith) hle), max_le (h.saturation_nonneg.trans hle) (min_le_right _ _)⟩
      · exact Option.some.inj hsat ▸ ⟨le_rfl, hle⟩
    · exact Option.some.inj hsat ▸ ⟨le_rfl, hle⟩
  exact ⟨⟨h.mode, h.health_nonneg, h.health_le, hnonneg.trans hmore, hless, h.saturation_nonneg.trans hmid.1, hmid.2⟩,
    rfl, hmid.1⟩

theorem setFood (h : Survivor p) (food : Int) :
    Survivor (p.setFood food) ∧ (p.setFood food).health = p.health ∧
      (p.setFood food).saturation = min p.saturation (min ((p.setFood food).food : ℚ) 5) := by
  have hclamp : 0 ≤ max 0 (min food MAX_FOOD) ∧ max 0 (min food MAX_FOOD) ≤ 20 := by
    rw [MAX_FOOD]
    omega
  have hcast : (0 : ℚ) ≤ (max 0 (min food MAX_FOOD) : Int) := by exact_mod_cast hclamp.1
  have hsat : max 0 (min p.saturation (Player.maxSaturation (max 0 (min food MAX_FOOD)))) =
      min p.saturation (min ((max 0 (min food MAX_FOOD) : Int) : ℚ) 5) := by
    rw [maxSaturation_eq hclamp.1 hclamp.2]
    exact max_eq_right (le_min h.saturation_nonneg (le_min hcast (by norm_num)))
  refine ⟨⟨h.mode, h.health_nonneg, h.health_le, hclamp.1, hclamp.2, le_max_left _ _, ?_⟩, rfl, hsat⟩
  exact hsat.trans_le ((min_le_right _ _).trans (min_le_left _ _))

theorem addExhaustion_eq (p : Player) (amount : Scalar) :
    ∃ exhaustion, p.addExhaustion amount = { p with exhaustion } := by
  cases amount with
  | finite amount =>
    rw [Player.addExhaustion]
    split
    · exact ⟨_, rfl⟩
    · exact ⟨p.exhaustion, rfl⟩
  | posInf | negInf | nan => exact ⟨p.exhaustion, rfl⟩

/-- A tick is its spending, its regeneration and its starvation. -/
theorem tick_spec (h : Survivor p) {delta starveFloor : Scalar} {outcome : DamageOutcome}
    (hs : p.tickFoodEx delta starveFloor = some (p', outcome)) :
    ∃ r, Regenerated (p.spendAccrued delta) r ∧ Survivor r ∧
      p' = { r with
        health := if r.food = 0 ∧ starveFloor.below r.health then max (r.health - 1) 0 else r.health } ∧
      (outcome.died ↔ 0 < r.health ∧ p'.health = 0) := by
  have hspent := h.spendAccrued delta
  obtain ⟨exhaustion, heq⟩ := h.spendAccrued_spec delta
  have hfive : (p.spendAccrued delta).saturation ≤ 5 := by
    rw [heq]
    exact min_le_right _ _
  have hregen := hspent.regenerate hfive
  refine ⟨_, hspent.regenerate_spec hfive, hregen, ?_⟩
  rw [Player.tickFoodEx] at hs
  generalize (p.spendAccrued delta).regenerate = r at hs hregen ⊢
  split at hs
  · next hstarve =>
    rw [if_pos hstarve]
    obtain ⟨health, rfl, -, -, hdied⟩ := hregen.applyDamage_spec hs
    obtain ⟨outcome', heq'⟩ := hregen.starve_eq
    rw [heq'] at hs
    exact ⟨(Prod.mk.inj (Option.some.inj hs)).1.symm, hdied⟩
  · next hnot =>
    rw [if_neg hnot]
    obtain ⟨rfl, rfl⟩ := Prod.mk.inj (Option.some.inj hs)
    exact ⟨rfl, iff_of_false Bool.false_ne_true fun hz => hz.1.ne' hz.2⟩

end Survivor

namespace Regenerated

variable {q r : Player}

/-- Regeneration neither kills nor wakes. -/
theorem health_pos (h : Regenerated q r) (hq : 0 ≤ q.health) : q.health ≤ r.health ∧ (q.health = 0 → r.health = 0) := by
  cases h with
  | saturated health hr _ _ hrise hdead =>
    rw [hr]
    refine ⟨?_, hdead⟩
    rcases hq.eq_or_lt with hz | hz
    · exact hz.symm.trans_le (hdead hz.symm).ge
    · exact (hrise hz).le
  | fed health hr _ _ hrise hdead => exact hr.symm ▸ ⟨hrise, hdead⟩
  | still hr => exact hr.symm ▸ ⟨le_rfl, id⟩

/-- Only a player that regeneration left alone has no food. -/
theorem food_zero (h : Regenerated q r) : r.food = 0 ↔ q.food = 0 ∧ r = q := by
  cases h with
  | saturated health hr hfull =>
    have hfood : r.food = q.food := by rw [hr]
    omega
  | fed health hr h18 =>
    have hfood : r.food = q.food - 1 := by rw [hr]
    omega
  | still hr => exact hr.symm ▸ (and_iff_left rfl).symm

end Regenerated

/-- Every operation keeps the bounds, and the one that ends a life reports it. -/
theorem Survivor.perform {p p' : Player} (h : Survivor p) {op : Op} {outcome : Option DamageOutcome}
    (hs : p.perform op = some (p', outcome)) :
    Survivor p' ∧ (died outcome ↔ 0 < p.health ∧ p'.health = 0) ∧ (p.health = 0 → p'.health = 0) := by
  have hsame {q : Player} (hq : Survivor q) (heq : q.health = p.health) :
      Survivor q ∧ (died none ↔ 0 < p.health ∧ q.health = 0) ∧ (p.health = 0 → q.health = 0) :=
    ⟨hq, iff_of_false Bool.false_ne_true fun hz => hz.1.ne' (heq.symm.trans hz.2), fun hz => heq.trans hz⟩
  cases op with
  | eat nutrition restored =>
    obtain ⟨r, hr, heq⟩ := Option.map_eq_some_iff.mp hs
    obtain ⟨rfl, rfl⟩ := Prod.mk.inj heq
    obtain ⟨hq, hhealth, -⟩ := h.eat_spec hr
    exact hsame hq hhealth
  | addExhaustion amount =>
    obtain ⟨rfl, rfl⟩ := Prod.mk.inj (Option.some.inj hs)
    obtain ⟨exhaustion, heq⟩ := Survivor.addExhaustion_eq p amount
    rw [heq]
    exact hsame ⟨h.mode, h.health_nonneg, h.health_le, h.food_nonneg, h.food_le, h.saturation_nonneg, h.saturation_le⟩
      rfl
  | tickFoodEx delta starveFloor =>
    obtain ⟨⟨q, o⟩, hr, heq⟩ := Option.map_eq_some_iff.mp hs
    obtain ⟨rfl, rfl⟩ := Prod.mk.inj heq
    obtain ⟨r, hregen, hsurv, hq, hdied⟩ := h.tick_spec hr
    obtain ⟨exhaustion, hspent⟩ := h.spendAccrued_spec delta
    have hhealth : (p.spendAccrued delta).health = p.health := by rw [hspent]
    obtain ⟨hrise, hdead⟩ := hregen.health_pos (hhealth.symm ▸ h.health_nonneg)
    rw [hhealth] at hrise hdead
    have hbounds : 0 ≤ q.health ∧ q.health ≤ r.health := by
      have := hsurv.health_nonneg
      rw [hq]
      dsimp only
      split
      · exact ⟨le_max_right _ _, max_le (by linarith) this⟩
      · exact ⟨this, le_rfl⟩
    have hr20 := hsurv.health_le
    refine ⟨?_, ?_, fun hz => le_antisymm (hbounds.2.trans_eq (hdead hz)) hbounds.1⟩
    · rw [hq] at hbounds ⊢
      exact hsurv.of_health hbounds.1 (hbounds.2.trans hr20)
    · refine hdied.trans (and_congr_left fun _ => ?_)
      exact ⟨fun hpos => h.health_nonneg.lt_of_ne fun hz => hpos.ne' (hdead hz.symm), fun hpos => hpos.trans_le hrise⟩
  | setFood food =>
    obtain ⟨rfl, rfl⟩ := Prod.mk.inj (Option.some.inj hs)
    obtain ⟨hq, hhealth, -⟩ := h.setFood food.val
    exact hsame hq hhealth
  | heal amount =>
    obtain ⟨rfl, rfl⟩ := Prod.mk.inj (Option.some.inj hs)
    obtain ⟨health, heq, hrise, hle, hdead⟩ := h.heal_spec amount
    rw [heq]
    exact ⟨h.of_health (h.health_nonneg.trans hrise) hle,
      iff_of_false Bool.false_ne_true fun hz => (hz.1.trans_le hrise).ne' hz.2, hdead⟩
  | applyDamage amount source armor =>
    obtain ⟨⟨q, o⟩, hr, heq⟩ := Option.map_eq_some_iff.mp hs
    obtain ⟨rfl, rfl⟩ := Prod.mk.inj heq
    obtain ⟨health, rfl, hnonneg, hle, hdied⟩ := h.applyDamage_spec hr
    exact ⟨h.of_health hnonneg (hle.trans h.health_le), hdied, fun hz => le_antisymm (hle.trans_eq hz) hnonneg⟩

/-! ## When a tick keeps its floor and the saturation -/

/-- The points that the exhaustion of a tick spends leave no food. -/
theorem Survivor.food_spent {p : Player} (h : Survivor p) (n : Nat) :
    max (p.food - (n - ⌈p.saturation⌉₊ : ℕ)) 0 = 0 ↔ p.food + ⌈p.saturation⌉₊ ≤ n := by
  have hnonneg := h.food_nonneg
  have hceil : (⌈p.saturation⌉₊ : Int) ≤ p.food := by
    have : ⌈p.saturation⌉₊ ≤ p.food.toNat := by
      refine Nat.ceil_le.mpr (h.saturation_le.trans_eq ?_)
      exact_mod_cast (Int.toNat_of_nonneg hnonneg).symm
    omega
  omega

section

variable {p p' : Player} {delta starveFloor : Scalar} {outcome : DamageOutcome}

theorem floor_kept_iff (h : Survivor p) (hs : p.tickFoodEx delta starveFloor = some (p', outcome)) :
    FloorKept p p' starveFloor ↔ ¬(p.food + ⌈p.saturation⌉₊ ≤ pointsDue p delta ∧
      ∃ floor, starveFloor = .finite floor ∧ 0 < floor ∧ floor < p.health ∧ p.health < floor + 1) := by
  obtain ⟨r, hregen, hsurv, hp', -⟩ := h.tick_spec hs
  obtain ⟨exhaustion, hspent⟩ := h.spendAccrued_spec delta
  have hhealth : (p.spendAccrued delta).health = p.health := by rw [hspent]
  have hfood : r.food = 0 ↔ p.food + ⌈p.saturation⌉₊ ≤ pointsDue p delta ∧ r = p.spendAccrued delta := by
    rw [hregen.food_zero, hspent, ← h.food_spent]
  by_cases hzero : r.food = 0
  · obtain ⟨hgone, hr⟩ := hfood.mp hzero
    have hrhealth : r.health = p.health := by rw [hr, hhealth]
    have hafter : p'.health = if starveFloor.below p.health then max (p.health - 1) 0 else p.health := by
      rw [hp', ← hrhealth]
      simp only [hzero, true_and]
    rw [and_iff_right hgone]
    cases starveFloor with
    | finite floor =>
      simp only [FloorKept, hafter, Scalar.below, decide_eq_true_eq, Scalar.finite.injEq, exists_eq_left']
      grind
    | posInf => simp [FloorKept, hafter, Scalar.below]
    | negInf | nan => simp [FloorKept]
  · have hkept : p.health ≤ p'.health := by
      rw [hp']
      simp only [hzero, false_and, if_false]
      exact hhealth ▸ (hregen.health_pos (hhealth.symm ▸ h.health_nonneg)).1
    refine iff_of_true ?_ fun hcon => ?_
    · cases starveFloor with
      | finite floor => exact (min_le_left _ _).trans hkept
      | posInf => exact hkept
      | negInf | nan => trivial
    · have hq : (p.spendAccrued delta).food = 0 := by
        rw [hspent]
        exact (h.food_spent _).mpr hcon.1
      cases hregen with
      | saturated health hr hfull => omega
      | fed health hr h18 => omega
      | still hr => exact hzero (hr ▸ hq)

/-- Where no saturation is paid for health, all that is above five is lost. -/
theorem uncut_iff {due food : ℚ} (hfood : 5 < due → 5 < food) :
    min due food ≤ min (max due 0) 5 ↔ due ≤ 5 := by
  constructor
  · intro hle
    by_contra hgt
    exact absurd (hle.trans (min_le_right _ _)) (not_le.mpr (lt_min (not_le.mp hgt) (hfood (not_le.mp hgt))))
  · intro hle
    exact (min_le_left _ _).trans (le_min (le_max_left _ _) hle)

theorem saturation_kept_iff (h : Survivor p) (hs : p.tickFoodEx delta starveFloor = some (p', outcome)) :
    min (p.saturation - (pointsDue p delta + if p.health < p'.health ∧ p'.food = 20 then 1 else 0 : ℕ)) p'.food ≤
        p'.saturation ↔
      p.saturation - pointsDue p delta ≤ 5 ∧
        ¬(p.health = 0 ∧ p.food = 20 ∧ 0 < p.saturation - pointsDue p delta) := by
  obtain ⟨r, hregen, hsurv, hp', -⟩ := h.tick_spec hs
  obtain ⟨exhaustion, hspent⟩ := h.spendAccrued_spec delta
  have hhealth : (p.spendAccrued delta).health = p.health := by rw [hspent]
  have hsat : (p.spendAccrued delta).saturation = min (max (p.saturation - pointsDue p delta) 0) 5 := by rw [hspent]
  have hfood : (p.spendAccrued delta).food = max (p.food - (pointsDue p delta - ⌈p.saturation⌉₊ : ℕ)) 0 := by
    rw [hspent]
  have hfood0 := h.food_nonneg
  have hfood20 := h.food_le
  have hsatfood := h.saturation_le
  -- while saturation is left no food is spent
  have hunspent : 0 < p.saturation - pointsDue p delta → (p.spendAccrued delta).food = p.food := by
    intro hpos
    have hn : pointsDue p delta ≤ ⌈p.saturation⌉₊ := by
      have : (pointsDue p delta : ℚ) ≤ ⌈p.saturation⌉₊ := (by linarith : (_ : ℚ) ≤ p.saturation).trans (Nat.le_ceil _)
      exact_mod_cast this
    rw [hfood]
    omega
  have hdue : (0 : ℚ) ≤ pointsDue p delta := Nat.cast_nonneg _
  generalize (pointsDue p delta) = n at hsat hfood hunspent hdue ⊢
  have hp'food : p'.food = r.food := by rw [hp']
  have hp'sat : p'.saturation = r.saturation := by rw [hp']
  -- nothing was paid for health
  have hunpaid : r.saturation = min (max (p.saturation - n) 0) 5 →
      ¬(p.health < p'.health ∧ p'.food = 20) → (5 < p.saturation - n → (5 : ℚ) < r.food) →
      ((p.spendAccrued delta).food = 20 → 0 < (p.spendAccrued delta).saturation → p.health = 20) →
      (min (p.saturation - (n + if p.health < p'.health ∧ p'.food = 20 then 1 else 0 : ℕ)) p'.food ≤ p'.saturation ↔
        p.saturation - n ≤ 5 ∧ ¬(p.health = 0 ∧ p.food = 20 ∧ 0 < p.saturation - n)) := by
    intro hrsat hno hhigh hmore
    rw [if_neg hno, hp'sat, hrsat, hp'food, Nat.add_zero, uncut_iff hhigh]
    refine (and_iff_left ?_).symm
    rintro ⟨hdead, hfull, hpos⟩
    have := hmore ((hunspent hpos).trans hfull) (by rw [hsat]; exact lt_min (lt_max_of_lt_left hpos) (by norm_num))
    linarith
  cases hregen with
  | saturated health hr hfull hpos hrise hdead =>
    have hrfood : r.food = 20 := by rw [hr, hfull]
    have hrsat : r.saturation = max (min (max (p.saturation - n) 0) 5 - 1) 0 := by rw [hr, hsat]
    have hp'health : p'.health = health := by
      rw [hp', hr]
      simp [hfull]
    have hleft : 0 < p.saturation - n := by
      rw [hsat] at hpos
      exact (lt_max_iff.mp (lt_min_iff.mp hpos).1).resolve_right (lt_irrefl _)
    rw [hhealth] at hrise hdead
    rw [hp'food, hrfood, hp'sat, hrsat, hp'health]
    rcases h.health_nonneg.eq_or_lt with hz | halive
    · have hno : ¬(p.health < health ∧ (20 : Int) = 20) := by
        rw [hdead hz.symm, ← hz]
        exact fun hlt => lt_irrefl _ hlt.1
      have hpfull : p.food = 20 := (hunspent hleft).symm.trans hfull
      rw [if_neg hno, Nat.add_zero]
      refine iff_of_false (fun hle => ?_) fun hcon => hcon.2 ⟨hz.symm, hpfull, hleft⟩
      push_cast at hle
      grind
    · rw [if_pos ⟨hrise halive, rfl⟩, and_iff_left (fun hcon => halive.ne' hcon.1)]
      push_cast
      grind
  | fed health hr h18 hmore =>
    have hrfood : r.food = (p.spendAccrued delta).food - 1 := by rw [hr]
    have hrsat : r.saturation = (p.spendAccrued delta).saturation := by rw [hr]
    have hle : (p.spendAccrued delta).food ≤ p.food := by omega
    refine hunpaid (hrsat.trans hsat) (by omega) (fun _ => ?_) (hhealth ▸ hmore)
    have : (17 : ℚ) ≤ r.food := by exact_mod_cast (by omega : (17 : Int) ≤ r.food)
    linarith
  | still hr hmore =>
    have hrsat : r.saturation = (p.spendAccrued delta).saturation := by rw [hr]
    have hno : ¬p.health < p'.health := by
      have := h.health_nonneg
      rw [hp', hr]
      dsimp only
      rw [hhealth]
      split
      · exact not_lt.mpr (max_le (by linarith) this)
      · exact lt_irrefl _
    refine hunpaid (hrsat.trans hsat) (fun hcon => hno hcon.1) (fun hgt => ?_) (hhealth ▸ hmore)
    rw [hr, hunspent (by linarith)]
    linarith

end

/-! ## Runs -/

theorem performed_of_follow {p : Player} {ss : List Performed} (hss : Follow p ss) :
    ∀ s ∈ ss, s.before.perform s.op = some (s.after, s.outcome) := by
  induction ss generalizing p with
  | nil => exact fun s hs => absurd hs List.not_mem_nil
  | cons s ss ih =>
    obtain ⟨rfl, hs, hrest⟩ := hss
    exact List.forall_mem_cons.mpr ⟨hs, ih hrest⟩

theorem kept_iff {s : Performed} (h : Survivor s.before)
    (hs : s.before.perform s.op = some (s.after, s.outcome)) : s.Kept ↔ Meets s.before s.op := by
  obtain ⟨p, op, p', outcome⟩ := s
  dsimp only at h hs
  -- an operation that is no tick keeps the saturation that it does not lower
  have hother (hspent : (⟨p, op, p', outcome⟩ : Performed).spent = 0)
      (hfloor : ∀ delta starveFloor, op ≠ .tickFoodEx delta starveFloor) :
      (⟨p, op, p', outcome⟩ : Performed).Kept ↔ min p.saturation p'.food ≤ p'.saturation := by
    refine ⟨fun hkept => ?_, fun hle => ⟨?_, fun delta starveFloor heq => absurd heq (hfloor _ _)⟩⟩
    · simpa [hspent] using hkept.saturation
    · simpa [hspent] using hle
  have hkeeps (hspent : (⟨p, op, p', outcome⟩ : Performed).spent = 0)
      (hfloor : ∀ delta starveFloor, op ≠ .tickFoodEx delta starveFloor) (hle : p.saturation ≤ p'.saturation)
      (hmeets : Meets p op) : (⟨p, op, p', outcome⟩ : Performed).Kept ↔ Meets p op :=
    iff_of_true ((hother hspent hfloor).mpr ((min_le_left _ _).trans hle)) hmeets
  cases op with
  | eat nutrition restored =>
    obtain ⟨r, hr, heq⟩ := Option.map_eq_some_iff.mp hs
    obtain ⟨rfl, -⟩ := Prod.mk.inj heq
    exact hkeeps rfl (fun _ _ => nofun) (h.eat_spec hr).2.2 trivial
  | addExhaustion amount =>
    obtain ⟨exhaustion, heq⟩ := Survivor.addExhaustion_eq p amount
    obtain ⟨rfl, -⟩ := Prod.mk.inj (Option.some.inj hs)
    exact hkeeps rfl (fun _ _ => nofun) (by rw [heq]) trivial
  | tickFoodEx delta starveFloor =>
    obtain ⟨⟨q, o⟩, hr, heq⟩ := Option.map_eq_some_iff.mp hs
    obtain ⟨rfl, -⟩ := Prod.mk.inj heq
    refine Iff.trans ⟨fun hkept => ⟨hkept.saturation, hkept.floor _ _ rfl⟩, fun hkept => ⟨hkept.1, ?_⟩⟩
      ((and_congr (saturation_kept_iff h hr) (floor_kept_iff h hr)).trans and_assoc)
    rintro delta' starveFloor' heq'
    obtain ⟨rfl, rfl⟩ := Op.tickFoodEx.inj heq'
    exact hkept.2
  | setFood food =>
    obtain ⟨rfl, -⟩ := Prod.mk.inj (Option.some.inj hs)
    rw [hother rfl fun _ _ => nofun, (h.setFood food.val).2.2]
    have hfive : (5 : ℚ) < ((p.setFood food.val).food : ℚ) ↔ 5 < food.val := by
      have : (p.setFood food.val).food = max 0 (min food.val 20) := rfl
      rw [this]
      exact_mod_cast (by omega : (5 : Int) < max 0 (min food.val 20) ↔ 5 < food.val)
    simp only [Meets]
    grind
  | heal amount =>
    obtain ⟨health, heq, -⟩ := h.heal_spec amount
    obtain ⟨rfl, -⟩ := Prod.mk.inj (Option.some.inj hs)
    exact hkeeps rfl (fun _ _ => nofun) (by rw [heq]) trivial
  | applyDamage amount source armor =>
    obtain ⟨⟨q, o⟩, hr, heq⟩ := Option.map_eq_some_iff.mp hs
    obtain ⟨rfl, -⟩ := Prod.mk.inj heq
    obtain ⟨health, rfl, -⟩ := h.applyDamage_spec hr
    exact hkeeps rfl (fun _ _ => nofun) le_rfl trivial

/-- The bounds hold throughout, each life ends with one report, and the dead stay dead. -/
theorem follow_bounds {p : Player} {ss : List Performed} (h : Survivor p) (hss : Follow p ss) :
    (∀ s ∈ ss, Survivor s.before ∧ Survivor s.after ∧ (died s.outcome ↔ 0 < s.before.health ∧ s.after.health = 0)) ∧
      (ss.countP fun s => died s.outcome) + (if 0 < (lastOf p ss).health then 1 else 0) =
        if 0 < p.health then 1 else 0 := by
  induction ss generalizing p with
  | nil => exact ⟨fun s hs => absurd hs List.not_mem_nil, Nat.zero_add _⟩
  | cons s ss ih =>
    obtain ⟨rfl, hs, hrest⟩ := hss
    obtain ⟨hafter, hdied, hdead⟩ := h.perform hs
    obtain ⟨hbounds, hcount⟩ := ih hafter hrest
    refine ⟨fun t ht => ?_, ?_⟩
    · rcases List.mem_cons.mp ht with rfl | ht
      · exact ⟨h, hafter, hdied⟩
      · exact hbounds t ht
    · rw [List.countP_cons, lastOf, add_right_comm, hcount]
      have h0 := h.health_nonneg
      have h0' := hafter.health_nonneg
      by_cases halive : 0 < s.before.health
      · by_cases halive' : 0 < s.after.health
        · have : ¬died s.outcome := fun hd => halive'.ne' (hdied.mp hd).2
          rw [if_pos halive', if_neg this, if_pos halive]
        · have : died s.outcome := hdied.mpr ⟨halive, le_antisymm (not_lt.mp halive') h0'⟩
          rw [if_neg halive', if_pos this, if_pos halive]
      · have hz := hdead (le_antisymm (not_lt.mp halive) h0)
        have : ¬died s.outcome := fun hd => halive (hdied.mp hd).1
        rw [if_neg (by rw [hz]; exact lt_irrefl _), if_neg this, if_neg halive]

/-- In every run the bounds hold and each life ends with one report. A run keeps
the floors and the saturation at every step exactly when every step meets the
condition in the state before it. -/
theorem hunger_run_iff (p : Player) (ss : List Performed) (h : Survivor p) (hss : Follow p ss) :
    ((∀ s ∈ ss, Survivor s.after ∧ (died s.outcome ↔ 0 < s.before.health ∧ s.after.health = 0)) ∧
      (ss.countP fun s => died s.outcome) + (if 0 < (lastOf p ss).health then 1 else 0) =
        if 0 < p.health then 1 else 0) ∧
    ((∀ s ∈ ss, s.Kept) ↔ ∀ s ∈ ss, Meets s.before s.op) := by
  obtain ⟨hbounds, hcount⟩ := follow_bounds h hss
  refine ⟨⟨fun s hs => (hbounds s hs).2, hcount⟩, forall₂_congr fun s hs => ?_⟩
  exact kept_iff (hbounds s hs).1 (performed_of_follow hss s hs)

/-- A player at full health, with no exhaustion. -/
def rested (food : Int) (saturation : ℚ) : Player := ⟨.survival, 20, food, saturation, 0, .finite 0, I32.zero, I32.zero⟩

/-- Five hunger points and some saturation are eaten, and a tick without exhaustion follows. -/
def bread (saturation : ℚ) : List Performed :=
  [⟨rested 10 0, .eat ⟨5, by decide⟩ (.finite saturation), rested 15 saturation, none⟩,
    ⟨rested 15 saturation, .tickFoodEx (.finite 0) (.finite 0), rested 15 (min saturation 5),
      some ⟨false, false, 0, 20⟩⟩]

theorem rested_survivor : Survivor (rested 10 0) := by
  constructor <;> norm_num [rested]

theorem follow_bread {saturation : ℚ} (hpos : 0 < saturation) (hle : saturation ≤ 15) :
    Follow (rested 10 0) (bread saturation) := by
  have heat : (rested 10 0).eat ⟨5, by decide⟩ (.finite saturation) = some (rested 15 saturation, 5, saturation) := by
    have hclamp : clampTo (0 + saturation) 0 ((15 : Int) : ℚ) = some saturation := by
      rw [clampTo_of_le _ (by norm_num), zero_add, min_eq_left (by exact_mod_cast hle), max_eq_right hpos.le]
    have hfood : (if (5 : Int) > 0 then max 0 (min (I32.clamp (10 + 5)).val MAX_FOOD) else 10) = 15 := rfl
    simp only [Player.eat, rested, hfood]
    rw [if_pos hpos, hclamp, Option.map_some, sub_zero]
    rfl
  have htick : (rested 15 saturation).tickFoodEx (.finite 0) (.finite 0) =
      some (rested 15 (min saturation 5), ⟨false, false, 0, 20⟩) := by
    have hspend : spendExhaustion 0 saturation 15 = (0, saturation, 15) := by
      rw [spendExhaustion, if_neg (by norm_num [EXHAUSTION_PER_POINT])]
    have hmax : Player.maxSaturation 15 = 5 := by
      rw [maxSaturation_eq (by norm_num) (by norm_num)]
      norm_num
    have hspent : (rested 15 saturation).spendAccrued (.finite 0) = rested 15 (min saturation 5) := by
      simp only [Player.spendAccrued, Player.accrued, rested, gt_iff_lt, lt_irrefl, if_false, hspend, hmax]
      rw [max_eq_right (le_min hpos.le (by norm_num))]
    have hregen : (rested 15 (min saturation 5)).regenerate = rested 15 (min saturation 5) := by
      rw [Player.regenerate, if_neg (by simp [rested, MAX_FOOD]), if_neg (by simp [rested, Player.isRegenerating,
        REGEN_FOOD_THRESHOLD])]
    rw [Player.tickFoodEx, hspent, hregen]
    exact if_neg (by simp [rested])
  exact ⟨rfl, by rw [Player.perform, heat]; rfl, rfl, by rw [Player.perform, htick]; rfl, trivial⟩

/-- What is eaten up to five points is kept. -/
theorem hunger_run_iff_bread : Follow (rested 10 0) (bread 4) ∧ ∀ s ∈ bread 4, s.Kept := by
  have hfollow : Follow (rested 10 0) (bread 4) := follow_bread (by norm_num) (by norm_num)
  refine ⟨hfollow, (hunger_run_iff (rested 10 0) (bread 4) rested_survivor hfollow).2.mpr ?_⟩
  have hdue : pointsDue (rested 15 4) (.finite 0) = 0 := by norm_num [pointsDue, rested, Scalar.orZero]
  simp only [bread, List.forall_mem_cons, Meets, true_and, hdue]
  norm_num [rested]

/-- The sixth point of saturation is gone after a tick without exhaustion or regeneration. -/
theorem bread_lost :
    ¬∀ (p : Player) (ss : List Performed), Survivor p → Follow p ss → ∀ s ∈ ss, s.Kept := by
  intro h
  have hkept := (h (rested 10 0) (bread 6) rested_survivor (follow_bread (by norm_num) (by norm_num)) _
    (.tail _ (.head _))).saturation
  have hdue : pointsDue (rested 15 6) (.finite 0) = 0 := by norm_num [pointsDue, rested, Scalar.orZero]
  simp only [Performed.spent, hdue] at hkept
  norm_num [rested] at hkept

end Apoptosis.L2.Entities
