import Apoptosis.Core.Ladder
import Apoptosis.L2Entities.Player
/-!
# Experience (`entity/src/player.rs`)

A level and a bar stand for points: the requirements of the levels below, and
the bar's part of the next one. `add_experience` spends what it was given and
what the bar held against the requirements.

* `spend_height`: the loop keeps the points represented, and its rest is below the next requirement.
* `spend_none`: the loop runs past the last level from there only.
* `addExperience_additive_iff`: when two gifts of points are as good as one.
* `lastLevel_overflows`: a gift at the last level that is not added.
-/
namespace Apoptosis.L2.Entities
open Apoptosis.Core

/-- mirrors crates/entity/src/player.rs:797-818 (`experience_needed_for_level`) -/
def experienceNeededForLevel (level : Int) : Int :=
  let level := if level < 0 then 0 else level
  if level ≤ 15 then 2 * level + 7
  else if level ≤ 30 then 5 * level - 38
  else
    let needed := (I32.clamp ((I32.clamp (9 * level)).val - 158)).val
    if needed < 0 then 0 else needed

theorem clamp_val (i : Int) : (I32.clamp i).val = max (-2 ^ 31) (min i (2 ^ 31 - 1)) := rfl

theorem needed_pos (level : Int) : 0 < experienceNeededForLevel level := by
  simp only [experienceNeededForLevel, clamp_val]
  grind

/-- The requirement of the levels where nine times the level saturates. -/
def neededAtMost : Int := 2 ^ 31 - 1 - 158

theorem needed_high {level : Int} (h : 2 ^ 31 - 2 ≤ level) : experienceNeededForLevel level = neededAtMost := by
  simp only [experienceNeededForLevel, clamp_val, neededAtMost]
  grind

/-- The loop of `add_experience`; `none` is a level past the last one. -/
def spend (level : I32) (remaining gained : Int) : Option (I32 × Int × Int) :=
  let needed := experienceNeededForLevel level.val
  if needed ≤ 0 ∨ remaining < needed then some (level, remaining, gained)
  else
    match level.checkedAdd I32.one with
    | none => none
    | some next => spend next (remaining - needed) (gained + 1)
termination_by remaining.toNat
decreasing_by omega

/-- The requirements as the costs of a ladder. -/
def requirement (level : Nat) : Int := experienceNeededForLevel level

theorem requirement_nonneg (level : Nat) : 0 ≤ requirement level := (needed_pos level).le

theorem requirement_toNat {level : Int} (h : 0 ≤ level) :
    requirement level.toNat = experienceNeededForLevel level := by
  rw [requirement, Int.toNat_of_nonneg h]

theorem spend_height {level : I32} {remaining gained : Int} {level' : I32} {remaining' gained' : Int}
    (hlevel : 0 ≤ level.val) (hrem : 0 ≤ remaining)
    (h : spend level remaining gained = some (level', remaining', gained')) :
    level.val ≤ level'.val ∧ 0 ≤ remaining' ∧ remaining' < experienceNeededForLevel level'.val ∧
      height requirement level'.val.toNat + remaining' = height requirement level.val.toNat + remaining ∧
      gained' = gained + (level'.val - level.val) := by
  fun_induction spend level remaining gained with
  | case1 level remaining gained needed hstop =>
    simp only [Option.some.injEq, Prod.mk.injEq] at h
    obtain ⟨rfl, rfl, rfl⟩ := h
    have hpos : 0 < needed := needed_pos level.val
    exact ⟨le_rfl, hrem, by omega, rfl, by omega⟩
  | case2 => cases h
  | case3 level remaining gained needed hgo next hnext ih =>
    have hpos : 0 < needed := needed_pos level.val
    obtain ⟨hnone, -⟩ | ⟨b, hb, hval⟩ := level.checkedAdd_one
    · rw [hnone] at hnext
      cases hnext
    · obtain rfl : b = next := Option.some.inj (hb.symm.trans hnext)
      obtain ⟨h1, h2, h3, h4, h5⟩ := ih (by omega) (by omega) h
      refine ⟨by omega, h2, h3, ?_, by omega⟩
      have hsucc : height requirement (level.val.toNat + 1) = height requirement level.val.toNat + needed := by
        rw [height_succ, requirement_toNat hlevel]
      have hnat : b.val.toNat = level.val.toNat + 1 := by omega
      rw [hnat, hsucc] at h4
      omega

/-- Below the last level two requirements that high are never there to spend. -/
theorem spend_none {level : I32} {remaining gained : Int} (hrem : remaining < 2 ^ 31) :
    spend level remaining gained = none ↔ level = I32.MAX ∧ neededAtMost ≤ remaining := by
  have htop {level : I32} (h : level = I32.MAX) : experienceNeededForLevel level.val = neededAtMost :=
    needed_high (by subst h; decide)
  fun_induction spend level remaining gained with
  | case1 level remaining gained needed hstop =>
    simp only [reduceCtorEq, false_iff, not_and, not_le]
    intro hmax
    have hpos : 0 < needed := needed_pos level.val
    have hneeded : needed = neededAtMost := htop hmax
    omega
  | case2 level remaining gained needed hgo hnext =>
    obtain ⟨-, hmax⟩ | ⟨b, hb, -⟩ := level.checkedAdd_one
    · have hneeded : needed = neededAtMost := htop hmax
      exact ⟨fun _ => ⟨hmax, by omega⟩, fun _ => rfl⟩
    · rw [hb] at hnext
      cases hnext
  | case3 level remaining gained needed hgo next hnext ih =>
    have hpos : 0 < needed := needed_pos level.val
    obtain ⟨hnone, -⟩ | ⟨b, hb, hval⟩ := level.checkedAdd_one
    · rw [hnone] at hnext
      cases hnext
    obtain rfl : b = next := Option.some.inj (hb.symm.trans hnext)
    refine (ih (by omega)).trans ⟨?_, ?_⟩
    · rintro ⟨rfl, hle⟩
      have hlevel : level.val = 2 ^ 31 - 2 := by
        have : I32.MAX.val = 2 ^ 31 - 1 := rfl
        omega
      have hneeded : needed = neededAtMost := needed_high hlevel.ge
      have : neededAtMost = 2 ^ 31 - 1 - 158 := rfl
      omega
    · rintro ⟨rfl, -⟩
      have : I32.MAX.val = 2 ^ 31 - 1 := rfl
      have := b.property
      omega

/-- The bar holds `k` whole points of its level's requirement. -/
structure Held (p : Player) (k : Int) : Prop where
  level_nonneg : 0 ≤ p.level.val
  nonneg : 0 ≤ k
  lt : k < experienceNeededForLevel p.level.val
  bar : p.experience = .finite (k / experienceNeededForLevel p.level.val)

/-- The points that the level and the bar stand for. -/
def represented (p : Player) : ℚ :=
  height requirement p.level.val.toNat + p.experience.orZero * experienceNeededForLevel p.level.val

namespace Held

variable {p p' : Player} {k k' : Int}

theorem bar_mul (h : Held p k) : p.experience.orZero * experienceNeededForLevel p.level.val = k := by
  have hne : (experienceNeededForLevel p.level.val : ℚ) ≠ 0 := by exact_mod_cast (needed_pos p.level.val).ne'
  rw [h.bar]
  exact div_mul_cancel₀ _ hne

theorem represented_eq (h : Held p k) : represented p = ((height requirement p.level.val.toNat + k : Int) : ℚ) := by
  rw [represented, h.bar_mul]
  push_cast
  rfl

theorem bar_mem (h : Held p k) : 0 ≤ p.experience.orZero ∧ p.experience.orZero < 1 := by
  have hpos : (0 : ℚ) < experienceNeededForLevel p.level.val := by exact_mod_cast needed_pos p.level.val
  rw [h.bar]
  exact ⟨div_nonneg (by exact_mod_cast h.nonneg) hpos.le, (div_lt_one hpos).mpr (by exact_mod_cast h.lt)⟩

/-- Players that stand for the same points have the same level and the same bar. -/
theorem eq_of_height (h : Held p k) (h' : Held p' k')
    (heq : height requirement p.level.val.toNat + k = height requirement p'.level.val.toNat + k') :
    p.level = p'.level ∧ p.experience = p'.experience := by
  have hmem : 0 ≤ k ∧ k < requirement p.level.val.toNat := ⟨h.nonneg, by rw [requirement_toNat h.level_nonneg]; exact h.lt⟩
  have hmem' : 0 ≤ k' ∧ k' < requirement p'.level.val.toNat :=
    ⟨h'.nonneg, by rw [requirement_toNat h'.level_nonneg]; exact h'.lt⟩
  obtain ⟨hlevel, rfl⟩ := standing_unique requirement_nonneg hmem hmem' heq
  have h0 := h.level_nonneg
  have h0' := h'.level_nonneg
  have hval : p.level = p'.level := Subtype.ext (by omega)
  exact ⟨hval, by rw [h.bar, h'.bar, hval]⟩

end Held

/-- mirrors crates/entity/src/player.rs:850-887 (`add_experience`), with the levels gained;
`none` is an overflow of the level. -/
def addExperience (p : Player) (points : I32) : Option (Player × Int) :=
  if points.val ≤ 0 then some (p, 0)
  else
    let totalExperience := p.totalExperience.saturatingAdd points
    let level := if p.level.val < 0 then I32.zero else p.level
    let experience := p.experience.orZero
    let needed := max (experienceNeededForLevel level.val) 1
    let banked := I32.clamp ⌈max 0 (min 1 experience) * needed⌉
    match spend level (points.saturatingAdd banked).val 0 with
    | none => none
    | some (level, remaining, gained) =>
      let needed := experienceNeededForLevel level.val
      let experience : ℚ := if needed > 0 then max 0 (min 1 (remaining / needed)) else 0
      some ({ p with totalExperience, level, experience := .finite experience }, gained)

/-! ## One gift -/

/-- What the loop of `add_experience` starts with. -/
def toSpend (p : Player) (points : I32) : Int :=
  let level := if p.level.val < 0 then I32.zero else p.level
  (points.saturatingAdd
    (I32.clamp ⌈max 0 (min 1 p.experience.orZero) * max (experienceNeededForLevel level.val) 1⌉)).val

theorem addExperience_eq {p : Player} {points : I32} (hpos : 0 < points.val) :
    addExperience p points =
      (spend (if p.level.val < 0 then I32.zero else p.level) (toSpend p points) 0).map
        fun (level, remaining, gained) =>
          ({ p with
            totalExperience := p.totalExperience.saturatingAdd points
            level
            experience := .finite (max 0 (min 1 (remaining / experienceNeededForLevel level.val))) }, gained) := by
  rw [addExperience, if_neg (by omega)]
  simp only [toSpend, Int.cast_max, Int.cast_one]
  split
  · next h => rw [h]; rfl
  · next level remaining gained h =>
    rw [h, if_pos (by exact_mod_cast needed_pos level.val)]
    rfl

/-- The banked points are no more than the requirement, so the sum saturates at the top only. -/
theorem toSpend_lt (p : Player) (points : I32) : toSpend p points < 2 ^ 31 := (I32.saturatingAdd _ _).property.2

/-- At the last level the saturation of the sum makes no difference. -/
theorem toSpend_last {p : Player} {points : I32} (h : p.level = I32.MAX) :
    neededAtMost ≤ toSpend p points ↔
      2 ^ 31 - 1 - 158 ≤ points.val + ⌈max 0 (min 1 p.experience.orZero) * (2 ^ 31 - 1 - 158)⌉ := by
  have hneeded : experienceNeededForLevel p.level.val = 2 ^ 31 - 1 - 158 := needed_high (by rw [h]; decide)
  have hbanked : 0 ≤ ⌈max 0 (min 1 p.experience.orZero) * (2 ^ 31 - 1 - 158 : ℚ)⌉ ∧
      ⌈max 0 (min 1 p.experience.orZero) * (2 ^ 31 - 1 - 158 : ℚ)⌉ ≤ 2 ^ 31 - 1 - 158 := by
    have hbar : 0 ≤ max 0 (min 1 p.experience.orZero) := le_max_left _ _
    have hbar' : max 0 (min 1 p.experience.orZero) ≤ 1 := max_le zero_le_one (min_le_left _ _)
    have hlast : (0 : ℚ) ≤ 2 ^ 31 - 1 - 158 := by norm_num
    refine ⟨Int.ceil_nonneg (mul_nonneg hbar hlast), Int.ceil_le.mpr ?_⟩
    exact (mul_le_of_le_one_left hlast hbar').trans_eq (by norm_num)
  have hlevel : ¬p.level.val < 0 := by rw [h]; decide
  have hmax : ((max (2 ^ 31 - 1 - 158) 1 : Int) : ℚ) = 2 ^ 31 - 1 - 158 := by norm_num
  have := points.property
  rw [toSpend, if_neg hlevel, hneeded, hmax, I32.saturatingAdd_val, I32.clamp_of_mem (by omega) (by omega),
    neededAtMost]
  omega

theorem addExperience_none {p : Player} {points : I32} (hpos : 0 < points.val) :
    addExperience p points = none ↔ p.level = I32.MAX ∧ neededAtMost ≤ toSpend p points := by
  rw [addExperience_eq hpos, Option.map_eq_none_iff, spend_none (toSpend_lt p points)]
  refine and_congr_left fun _ => ?_
  split
  · next h =>
    refine iff_of_false (fun hz => absurd (congrArg Subtype.val hz) (by decide)) fun hmax => ?_
    rw [hmax] at h
    exact absurd h (by decide)
  · rfl

namespace Held

variable {p p' : Player} {k k' : Int} {points : I32}

/-- Rounding up gives the whole points back. -/
theorem toSpend_eq (h : Held p k) (hpos : 0 < points.val) (hsum : k + points.val < 2 ^ 31) :
    toSpend p points = k + points.val := by
  have hnonneg := h.nonneg
  obtain ⟨hbar, hbar'⟩ := h.bar_mem
  have hneeded := needed_pos p.level.val
  have hmax : max (experienceNeededForLevel p.level.val) 1 = experienceNeededForLevel p.level.val := by omega
  have hbanked : (I32.clamp k).val = k := I32.clamp_of_mem (by omega) (by omega)
  rw [toSpend, if_neg (not_lt.mpr h.level_nonneg), hmax, min_eq_right hbar'.le, max_eq_right hbar, h.bar_mul,
    Int.ceil_intCast, I32.saturatingAdd_of_mem (by rw [hbanked]; omega) (by rw [hbanked]; omega), hbanked,
    add_comm]

theorem addExperience_spec (h : Held p k) (hpos : 0 < points.val) (hsum : k + points.val < 2 ^ 31)
    {gained : Int} (hadd : addExperience p points = some (p', gained)) :
    ∃ k', Held p' k' ∧
      height requirement p'.level.val.toNat + k' = height requirement p.level.val.toNat + k + points.val ∧
      k' ≤ k + points.val ∧
      p' = { p with
        totalExperience := p.totalExperience.saturatingAdd points
        level := p'.level
        experience := p'.experience } ∧
      gained = p'.level.val - p.level.val := by
  have hnonneg := h.nonneg
  rw [addExperience_eq hpos, if_neg (not_lt.mpr h.level_nonneg), h.toSpend_eq hpos hsum,
    Option.map_eq_some_iff] at hadd
  obtain ⟨⟨level, remaining, gained'⟩, hspend, heq⟩ := hadd
  obtain ⟨rfl, rfl⟩ := Prod.mk.inj heq
  obtain ⟨hlevel, hrem, hlt, hheight, hgained⟩ := spend_height h.level_nonneg (by omega) hspend
  have hneeded : (0 : ℚ) < experienceNeededForLevel level.val := by exact_mod_cast needed_pos level.val
  have hle : height requirement p.level.val.toNat ≤ height requirement level.val.toNat :=
    height_mono requirement_nonneg (by omega)
  refine ⟨remaining, ⟨h.level_nonneg.trans hlevel, hrem, hlt, ?_⟩, by dsimp only; omega, by omega, rfl, by dsimp only; omega⟩
  have hrem' : (0 : ℚ) ≤ remaining := by exact_mod_cast hrem
  have hlt' : (remaining : ℚ) < experienceNeededForLevel level.val := by exact_mod_cast hlt
  have hfrac : 0 ≤ (remaining : ℚ) / experienceNeededForLevel level.val := div_nonneg hrem' hneeded.le
  have hone : (remaining : ℚ) / experienceNeededForLevel level.val ≤ 1 := (div_le_one hneeded).mpr hlt'.le
  simp only [min_eq_right hone, max_eq_right hfrac]

end Held

/-! ## Two gifts -/

/-- Two gifts are as good as one, and the points represented grow by what is given. -/
def Additive (p : Player) (a b : I32) : Prop :=
  ∃ r₁ r₂ r, addExperience p a = some r₁ ∧ addExperience r₁.1 b = some r₂ ∧
    addExperience p (a.saturatingAdd b) = some r ∧ r₂.1 = r.1 ∧
    represented r₂.1 = represented p + a.val + b.val ∧
    ∀ bar ∈ [r₁.1.experience, r₂.1.experience, r.1.experience], ∃ q : ℚ, bar = .finite q ∧ 0 ≤ q ∧ q < 1

theorem Held.bar_finite {p : Player} {k : Int} (h : Held p k) :
    ∃ q : ℚ, p.experience = .finite q ∧ 0 ≤ q ∧ q < 1 := by
  have := h.bar_mem
  rw [h.bar] at this
  exact ⟨_, h.bar, this⟩

variable {p : Player} {k : Int} {a b : I32}

theorem Held.none_iff (h : Held p k) (ha : 0 < a.val) (hsum : k + a.val < 2 ^ 31) :
    addExperience p a = none ↔ p.level = I32.MAX ∧ neededAtMost ≤ k + a.val := by
  rw [addExperience_none ha, h.toSpend_eq ha hsum]

/-- To reach the last level is to have spent the requirement below it. -/
theorem height_last {level : Int} (hlevel : 0 ≤ level) (hlt : level < 2 ^ 31 - 1) :
    height requirement level.toNat + neededAtMost ≤ height requirement (2 ^ 31 - 1 : Int).toNat := by
  have hlast : (2 ^ 31 - 1 : Int).toNat = (2 ^ 31 - 2 : Int).toNat + 1 := rfl
  rw [hlast, height_succ, requirement_toNat (by norm_num), needed_high le_rfl]
  exact add_le_add_left (height_mono requirement_nonneg (by omega)) _

theorem Held.additive (h : Held p k) (ha : 0 < a.val) (hb : 0 < b.val)
    (htotal : p.totalExperience.val + a.val + b.val < 2 ^ 31) (hsum : k + a.val + b.val < 2 ^ 31)
    (hlast : ¬(p.level = I32.MAX ∧ neededAtMost ≤ k + a.val + b.val)) : Additive p a b := by
  have hk := h.nonneg
  have hab : (a.saturatingAdd b).val = a.val + b.val := I32.saturatingAdd_of_mem (by omega) (by omega)
  -- the first gift, and the sum
  have hfirst : addExperience p a ≠ none := fun hnone =>
    have := (h.none_iff ha (by omega)).mp hnone
    hlast ⟨this.1, by omega⟩
  have hboth : addExperience p (a.saturatingAdd b) ≠ none := fun hnone =>
    have := (h.none_iff (by omega) (by omega)).mp hnone
    hlast ⟨this.1, by omega⟩
  obtain ⟨⟨p₁, g₁⟩, h₁⟩ := Option.ne_none_iff_exists'.mp hfirst
  obtain ⟨⟨p₃, g₃⟩, h₃⟩ := Option.ne_none_iff_exists'.mp hboth
  obtain ⟨k₁, held₁, height₁, hk₁, hp₁, hg₁⟩ := h.addExperience_spec ha (by omega) h₁
  obtain ⟨k₃, held₃, height₃, -, hp₃, -⟩ := h.addExperience_spec (by omega) (by omega) h₃
  -- the second gift
  have hsecond : addExperience p₁ b ≠ none := by
    intro hnone
    obtain ⟨hmax, hle⟩ := (held₁.none_iff hb (by omega)).mp hnone
    have hval : p₁.level.val = 2 ^ 31 - 1 := congrArg Subtype.val hmax
    rw [hval] at height₁
    have := p.level.property
    by_cases hp : p.level.val = 2 ^ 31 - 1
    · rw [hp] at height₁
      exact hlast ⟨Subtype.ext hp, by omega⟩
    · have := height_last h.level_nonneg (by omega)
      have : neededAtMost = 2 ^ 31 - 1 - 158 := rfl
      omega
  obtain ⟨⟨p₂, g₂⟩, h₂⟩ := Option.ne_none_iff_exists'.mp hsecond
  obtain ⟨k₂, held₂, height₂, -, hp₂, -⟩ := held₁.addExperience_spec hb (by omega) h₂
  have hheight : height requirement p₂.level.val.toNat + k₂ = height requirement p₃.level.val.toNat + k₃ := by
    rw [height₂, height₁, height₃, hab, add_assoc]
  obtain ⟨hlevel, hbar⟩ := held₂.eq_of_height held₃ hheight
  refine ⟨_, _, _, h₁, h₂, h₃, ?_, ?_, ?_⟩
  · have hadd : (p.totalExperience.saturatingAdd a).saturatingAdd b =
        p.totalExperience.saturatingAdd (a.saturatingAdd b) := by
      have := p.totalExperience.property
      have hone : (p.totalExperience.saturatingAdd a).val = p.totalExperience.val + a.val :=
        I32.saturatingAdd_of_mem (by omega) (by omega)
      apply Subtype.ext
      rw [I32.saturatingAdd_of_mem (by omega) (by omega), hone, I32.saturatingAdd_of_mem (by omega) (by omega),
        hab, add_assoc]
    rw [hp₂, hp₁, hp₃, hlevel, hbar, hadd]
  · rw [held₂.represented_eq, h.represented_eq, height₂, height₁]
    push_cast
    rfl
  · simp only [List.mem_cons, List.not_mem_nil, or_false]
    rintro bar (rfl | rfl | rfl)
    · exact held₁.bar_finite
    · exact held₂.bar_finite
    · exact held₃.bar_finite

/-- Two gifts of which no sum saturates are as good as one, except that the loop
steps past the last level where they fill its bar; for any bar it returns
except there. -/
theorem addExperience_additive_iff (p : Player) :
    (∀ (k : Int) (a b : I32), Held p k → 0 < a.val → 0 < b.val →
      p.totalExperience.val + a.val + b.val < 2 ^ 31 → k + a.val + b.val < 2 ^ 31 →
      (Additive p a b ↔ ¬(p.level = I32.MAX ∧ 2 ^ 31 - 1 - 158 ≤ k + a.val + b.val))) ∧
    ∀ points : I32, (∃ r, addExperience p points = some r) ↔
      ¬(0 < points.val ∧ p.level = I32.MAX ∧
        2 ^ 31 - 1 - 158 ≤ points.val + ⌈max 0 (min 1 p.experience.orZero) * (2 ^ 31 - 1 - 158)⌉) := by
  refine ⟨fun k a b h ha hb htotal hsum => ⟨?_, h.additive ha hb htotal hsum⟩, fun points => ?_⟩
  · rintro ⟨r₁, r₂, r, -, -, hr, -⟩ ⟨hmax, hle⟩
    have hk := h.nonneg
    have hab : (a.saturatingAdd b).val = a.val + b.val := I32.saturatingAdd_of_mem (by omega) (by omega)
    have hnone : addExperience p (a.saturatingAdd b) = none :=
      (h.none_iff (by omega) (by omega)).mpr ⟨hmax, by rw [hab, neededAtMost]; omega⟩
    rw [hnone] at hr
    cases hr
  · rw [← Option.isSome_iff_exists, ← Option.ne_none_iff_isSome, ne_eq, not_iff_not]
    by_cases hpos : 0 < points.val
    · rw [addExperience_none hpos, and_iff_right hpos]
      exact and_congr_right fun hmax => toSpend_last hmax
    · refine iff_of_false ?_ fun h => hpos h.1
      rw [addExperience, if_pos (by omega)]
      exact Option.some_ne_none _

/-- Three of the seven points that level 0 needs. -/
def atLevelZero : Player :=
  ⟨.survival, 20, 20, 5, 0, .finite (3 / 7), I32.zero, ⟨3, by decide⟩⟩

theorem held_atLevelZero : Held atLevelZero 3 := ⟨by decide, by decide, by decide, by norm_num [atLevelZero]; rfl⟩

theorem addExperience_additive_iff_atLevelZero :
    Additive atLevelZero ⟨4, by decide⟩ ⟨9, by decide⟩ :=
  ((addExperience_additive_iff atLevelZero).1 3 ⟨4, by decide⟩ ⟨9, by decide⟩ held_atLevelZero (by decide)
    (by decide) (by decide) (by decide)).mpr fun h => absurd h.1 (by decide)

/-- A player at the last level. -/
def atLastLevel : Player :=
  ⟨.survival, 20, 20, 5, 0, .finite 0, I32.MAX, I32.zero⟩

/-- A point short of the requirement of the last level is added, the point itself overflows the level. -/
theorem lastLevel_overflows :
    ¬∀ (p : Player) (k : Int) (a b : I32), Held p k → 0 < a.val → 0 < b.val →
      p.totalExperience.val + a.val + b.val < 2 ^ 31 → k + a.val + b.val < 2 ^ 31 → Additive p a b := by
  intro h
  have held : Held atLastLevel 0 := ⟨by decide, by decide, by decide, by norm_num [atLastLevel]⟩
  obtain ⟨-, -, r, -, -, hr, -⟩ := h atLastLevel 0 ⟨2 ^ 31 - 160, by decide⟩ I32.one held (by decide) (by decide)
    (by decide) (by decide)
  have hnone : addExperience atLastLevel (I32.saturatingAdd ⟨2 ^ 31 - 160, by decide⟩ I32.one) = none :=
    (held.none_iff (by decide) (by decide)).mpr ⟨rfl, by decide⟩
  rw [hnone] at hr
  cases hr

end Apoptosis.L2.Entities
