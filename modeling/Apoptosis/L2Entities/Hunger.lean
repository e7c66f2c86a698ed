import Apoptosis.L2Entities.Player
/-!
# Hunger and health (`entity/src/player.rs`, `combat.rs`, `enchant.rs`)

Food, saturation and exhaustion pay for health. `eat` stores saturation up to
the food level; `tick_food_ex` and `set_food` cut it to five.

* `spendExhaustion_eq`: what the spending loop leaves, in closed form.
* `Survivor.spendAccrued_spec`, `Survivor.regenerate_spec`, `Survivor.starve_eq`: the three parts of a tick.
* `Survivor.applyDamage_spec`: the call that takes the last health reports the death.
-/
namespace Apoptosis.L2.Entities
open Apoptosis.Core

def MAX_HEALTH : ℚ := 20

def MAX_FOOD : Int := 20

def MAX_SATURATION : ℚ := 5

def EXHAUSTION_PER_POINT : ℚ := 4

def EXHAUSTION_CAP : ℚ := 40

def STARVATION_DAMAGE : ℚ := 1

def REGEN_HEALTH_PER_TICK : ℚ := 1

def REGEN_FOOD_THRESHOLD : Int := 18

/-! ## Combat -/

/-- mirrors crates/entity/src/combat.rs:24-64 (`DamageSource`) -/
inductive DamageSource
  | playerAttack | mobAttack | fall | starvation | poison | wither | arrow | explosion | drowning | lava | lightning
  deriving DecidableEq, Repr

/-- mirrors crates/entity/src/combat.rs:71-81 (`bypasses_armor`) -/
def DamageSource.bypassesArmor : DamageSource → Bool
  | playerAttack | mobAttack | poison | arrow | explosion | lightning | lava => false
  | fall | starvation | wither | drowning => true

/-- mirrors crates/entity/src/combat.rs:252-262 (`CombatStats`), without the knockback resistance -/
structure CombatStats where
  armor : ℚ
  toughness : ℚ
  protection : ℚ

def CombatStats.ZERO : CombatStats := ⟨0, 0, 0⟩

/-- A positive damage divided by a rating of zero is infinite, and leaves no armour but the floor.
mirrors crates/entity/src/combat.rs:126-130 (`armor_absorb`) -/
def armorAbsorb (damage armor toughness : ℚ) : Option ℚ :=
  let ratedToughness := 2 + toughness / 4
  let left := if ratedToughness = 0 then armor * (1 / 5) else armor - damage / ratedToughness
  (clampTo left (armor * (1 / 5)) 20).map fun realArmor => damage * (1 - realArmor / 25)

/-- mirrors crates/entity/src/enchant.rs:127-130 (`damage_after_protection`) -/
def damageAfterProtection (damage protection : ℚ) : ℚ :=
  let points := max 0 (min protection 20)
  damage * (1 - points / 25)

/-- mirrors crates/entity/src/player.rs:286-295 (`DamageOutcome`) -/
structure DamageOutcome where
  applied : Bool
  died : Bool
  dealt : ℚ
  health : ℚ

/-! ## The operations -/

namespace Player

/-- mirrors crates/entity/src/player.rs:444-446 (`is_alive`) -/
def isAlive (p : Player) : Bool := p.health > 0

/-- mirrors crates/entity/src/player.rs:251-253 (`GameMode::is_invulnerable`) -/
def isInvulnerable (p : Player) : Bool := p.gameMode = .creative ∨ p.gameMode = .spectator

/-- mirrors crates/entity/src/player.rs:495-500 (`heal`) -/
def heal (p : Player) : Scalar → Player
  | .finite amount =>
    if amount ≤ 0 ∨ ¬p.isAlive then p else { p with health := min (p.health + amount) MAX_HEALTH }
  | _ => p

/-- mirrors crates/entity/src/player.rs:519-555 (`apply_damage`) -/
def applyDamage (p : Player) (amount : Scalar) (source : DamageSource) (armor : CombatStats) :
    Option (Player × DamageOutcome) :=
  let unchanged : DamageOutcome := ⟨false, false, 0, p.health⟩
  match amount with
  | .finite amount =>
    if amount ≤ 0 ∨ p.isInvulnerable ∨ ¬p.isAlive then some (p, unchanged)
    else
      let absorbed :=
        if source.bypassesArmor then some amount else armorAbsorb amount armor.armor armor.toughness
      absorbed.map fun amount =>
        let amount := damageAfterProtection amount armor.protection
        let dealt := min amount p.health
        let health := if p.health - dealt ≤ 0 then 0 else p.health - dealt
        ({ p with health }, ⟨true, health = 0, dealt, health⟩)
  | _ => some (p, unchanged)

/-- mirrors crates/entity/src/player.rs:694-702 (`max_saturation`) -/
def maxSaturation (food : Int) : ℚ := min (max 0 (min food MAX_FOOD) : Int) MAX_SATURATION

/-- mirrors crates/entity/src/player.rs:642-645 (`set_food`) -/
def setFood (p : Player) (food : Int) : Player :=
  let food := max 0 (min food MAX_FOOD)
  { p with food, saturation := max 0 (min p.saturation (maxSaturation food)) }

/-- mirrors crates/entity/src/player.rs:661-665 (`add_exhaustion`) -/
def addExhaustion (p : Player) : Scalar → Player
  | .finite amount => if amount > 0 then { p with exhaustion := min (p.exhaustion + amount) EXHAUSTION_CAP } else p
  | _ => p

/-- mirrors crates/entity/src/player.rs:674-690 (`eat`) -/
def eat (p : Player) (nutrition : I32) (saturationRestored : Scalar) : Option (Player × Int × ℚ) :=
  let food := if nutrition.val > 0 then max 0 (min (I32.clamp (p.food + nutrition.val)).val MAX_FOOD) else p.food
  let saturation :=
    match saturationRestored with
    | .finite restored => if restored > 0 then clampTo (p.saturation + restored) 0 food else some p.saturation
    | _ => some p.saturation
  saturation.map fun saturation => ({ p with food, saturation }, food - p.food, saturation - p.saturation)

/-- mirrors crates/entity/src/player.rs:706-708 (`is_regenerating`) -/
def isRegenerating (p : Player) : Bool := p.food ≥ REGEN_FOOD_THRESHOLD ∧ p.health < MAX_HEALTH

end Player

/-- The spending loop of `tick_food_ex`: exhaustion, saturation and food left. -/
def spendExhaustion (exhaustion saturation : ℚ) (food : Int) : ℚ × ℚ × Int :=
  if exhaustion ≥ EXHAUSTION_PER_POINT then
    if saturation > 0 then spendExhaustion (exhaustion - EXHAUSTION_PER_POINT) (max (saturation - 1) 0) food
    else if food > 0 then spendExhaustion (exhaustion - EXHAUSTION_PER_POINT) saturation (food - 1)
    else (0, saturation, food)
  else (exhaustion, saturation, food)
termination_by ⌊exhaustion⌋.toNat
decreasing_by
  all_goals
    simp only [EXHAUSTION_PER_POINT] at *
    have hfloor : 4 ≤ ⌊exhaustion⌋ := Int.le_floor.mpr (by assumption)
    have hsub : ⌊exhaustion - 4⌋ = ⌊exhaustion⌋ - 4 := Int.floor_sub_ofNat exhaustion 4
    omega

namespace Player

/-- The exhaustion that `tick_food_ex` starts to spend. -/
def accrued (p : Player) : Scalar → ℚ
  | .finite delta => if delta > 0 then p.exhaustion + delta else p.exhaustion
  | _ => p.exhaustion

/-- Steps 1 and 2 of `tick_food_ex`: what is accrued is spent, and saturation is cut. -/
def spendAccrued (p : Player) (exhaustionDelta : Scalar) : Player :=
  let (exhaustion, saturation, food) := spendExhaustion (p.accrued exhaustionDelta) p.saturation p.food
  { p with exhaustion, food, saturation := max 0 (min saturation (maxSaturation food)) }

/-- Steps 3 and 4 of `tick_food_ex`. -/
def regenerate (p : Player) : Player :=
  if p.food ≥ MAX_FOOD ∧ p.saturation > 0 ∧ p.health < MAX_HEALTH then
    { p with saturation := max (p.saturation - 1) 0 }.heal (.finite REGEN_HEALTH_PER_TICK)
  else if p.isRegenerating then (p.setFood (p.food - 1)).heal (.finite REGEN_HEALTH_PER_TICK)
  else p

/-- mirrors crates/entity/src/player.rs:745-789 (`tick_food_ex`) -/
def tickFoodEx (p : Player) (exhaustionDelta starveFloor : Scalar) : Option (Player × DamageOutcome) :=
  let p := (p.spendAccrued exhaustionDelta).regenerate
  if p.food = 0 ∧ starveFloor.below p.health then
    p.applyDamage (.finite STARVATION_DAMAGE) .starvation .ZERO
  else some (p, ⟨false, false, 0, p.health⟩)

end Player

/-! ## What the spending loop leaves -/

theorem floor_points {exhaustion : ℚ} (h : exhaustion ≥ EXHAUSTION_PER_POINT) :
    ⌊exhaustion / EXHAUSTION_PER_POINT⌋₊ = ⌊(exhaustion - EXHAUSTION_PER_POINT) / EXHAUSTION_PER_POINT⌋₊ + 1 := by
  have hpos : (EXHAUSTION_PER_POINT : ℚ) ≠ 0 := by norm_num [EXHAUSTION_PER_POINT]
  have hone : (1 : ℚ) ≤ exhaustion / EXHAUSTION_PER_POINT :=
    (one_le_div (by norm_num [EXHAUSTION_PER_POINT])).mpr h
  have hsub : (exhaustion - EXHAUSTION_PER_POINT) / EXHAUSTION_PER_POINT = exhaustion / EXHAUSTION_PER_POINT - 1 := by
    rw [sub_div, div_self hpos]
  rw [hsub, Nat.floor_sub_one, Nat.sub_add_cancel (Nat.le_floor (by exact_mod_cast hone))]

theorem ceil_less (saturation : ℚ) : ⌈max (saturation - 1) 0⌉₊ = ⌈saturation⌉₊ - 1 := by
  rcases le_total (saturation - 1) 0 with h | h
  · have hceil : ⌈saturation⌉₊ ≤ 1 := Nat.ceil_le.mpr (by push_cast; linarith)
    rw [max_eq_right h, Nat.ceil_zero]
    omega
  · rw [max_eq_left h, Nat.ceil_sub_one]

/-- A point is paid for by saturation as long as some is left, by food after it. -/
theorem spendExhaustion_eq {exhaustion saturation : ℚ} {food : Int} (hsat : 0 ≤ saturation) (hfood : 0 ≤ food) :
    (spendExhaustion exhaustion saturation food).2.1 =
        max (saturation - ⌊exhaustion / EXHAUSTION_PER_POINT⌋₊) 0 ∧
      (spendExhaustion exhaustion saturation food).2.2 =
        max (food - (⌊exhaustion / EXHAUSTION_PER_POINT⌋₊ - ⌈saturation⌉₊ : ℕ)) 0 := by
  fun_induction spendExhaustion exhaustion saturation food with
  | case1 exhaustion saturation food hge hpos ih =>
    obtain ⟨h1, h2⟩ := ih (le_max_right _ _) hfood
    have hceil : 0 < ⌈saturation⌉₊ := Nat.ceil_pos.mpr hpos
    rw [h1, h2, floor_points hge, ceil_less]
    constructor
    · push_cast
      have hn : (0 : ℚ) ≤ ⌊(exhaustion - EXHAUSTION_PER_POINT) / EXHAUSTION_PER_POINT⌋₊ := Nat.cast_nonneg _
      grind
    · omega
  | case2 exhaustion saturation food hge hnpos hpos ih =>
    obtain rfl : saturation = 0 := le_antisymm (not_lt.mp hnpos) hsat
    obtain ⟨h1, h2⟩ := ih le_rfl (by omega)
    rw [h1, h2, floor_points hge, Nat.ceil_zero]
    constructor
    · push_cast
      have hn : (0 : ℚ) ≤ ⌊(exhaustion - EXHAUSTION_PER_POINT) / EXHAUSTION_PER_POINT⌋₊ := Nat.cast_nonneg _
      grind
    · omega
  | case3 exhaustion saturation food hge hnpos hnfood =>
    obtain rfl : saturation = 0 := le_antisymm (not_lt.mp hnpos) hsat
    have hn : (0 : ℚ) ≤ ⌊exhaustion / EXHAUSTION_PER_POINT⌋₊ := Nat.cast_nonneg _
    refine ⟨(max_eq_right (by linarith)).symm, ?_⟩
    dsimp only
    omega
  | case4 exhaustion saturation food hlt =>
    have hzero : ⌊exhaustion / EXHAUSTION_PER_POINT⌋₊ = 0 :=
      Nat.floor_eq_zero.mpr ((div_lt_one (by norm_num [EXHAUSTION_PER_POINT])).mpr (not_le.mp hlt))
    rw [hzero]
    refine ⟨by simp [hsat], ?_⟩
    dsimp only
    omega

/-! ## Bounds -/

/-- A survival player within the bounds. -/
structure Survivor (p : Player) : Prop where
  mode : p.gameMode = .survival
  health_nonneg : 0 ≤ p.health
  health_le : p.health ≤ 20
  food_nonneg : 0 ≤ p.food
  food_le : p.food ≤ 20
  saturation_nonneg : 0 ≤ p.saturation
  saturation_le : p.saturation ≤ p.food

inductive Op
  | eat (nutrition : I32) (saturationRestored : Scalar)
  | addExhaustion (amount : Scalar)
  | tickFoodEx (exhaustionDelta starveFloor : Scalar)
  | setFood (food : I32)
  | heal (amount : Scalar)
  | applyDamage (amount : Scalar) (source : DamageSource) (armor : CombatStats)

/-- One operation, with the outcome it reports; `none` is a panic of a clamp. -/
def Player.perform (p : Player) : Op → Option (Player × Option DamageOutcome)
  | .eat nutrition saturationRestored => (p.eat nutrition saturationRestored).map fun r => (r.1, none)
  | .addExhaustion amount => some (p.addExhaustion amount, none)
  | .tickFoodEx exhaustionDelta starveFloor =>
    (p.tickFoodEx exhaustionDelta starveFloor).map fun r => (r.1, some r.2)
  | .setFood food => some (p.setFood food.val, none)
  | .heal amount => some (p.heal amount, none)
  | .applyDamage amount source armor => (p.applyDamage amount source armor).map fun r => (r.1, some r.2)

/-- The points that the exhaustion of a tick spends. -/
def pointsDue (p : Player) (exhaustionDelta : Scalar) : Nat :=
  ⌊(p.exhaustion + max 0 exhaustionDelta.orZero) / 4⌋₊

theorem maxSaturation_eq {food : Int} (h : 0 ≤ food) (h' : food ≤ 20) :
    Player.maxSaturation food = min (food : ℚ) 5 := by
  have hfood : max 0 (min food MAX_FOOD) = food := by
    rw [MAX_FOOD]
    omega
  rw [Player.maxSaturation, hfood, MAX_SATURATION]

namespace Survivor

variable {p : Player}

/-- Saturation that is left after the spending is held by food that was not spent. -/
theorem saturation_left (h : Survivor p) (n : Nat) :
    max (p.saturation - n) 0 ≤ ((max (p.food - (n - ⌈p.saturation⌉₊ : ℕ)) 0 : Int) : ℚ) := by
  rcases le_total (p.saturation - n) 0 with hsat | hsat
  · rw [max_eq_right hsat]
    exact_mod_cast le_max_right _ _
  · have hn : n ≤ ⌈p.saturation⌉₊ := by
      have : (n : ℚ) ≤ ⌈p.saturation⌉₊ := (by linarith : (n : ℚ) ≤ p.saturation).trans (Nat.le_ceil _)
      exact_mod_cast this
    rw [max_eq_left hsat, Nat.sub_eq_zero_of_le hn]
    have hfood := h.food_nonneg
    have hle := h.saturation_le
    have hn0 : (0 : ℚ) ≤ n := Nat.cast_nonneg n
    rw [Nat.cast_zero, sub_zero, max_eq_left hfood]
    linarith

theorem accrued_eq (p : Player) (exhaustionDelta : Scalar) :
    p.accrued exhaustionDelta = p.exhaustion + max 0 exhaustionDelta.orZero := by
  cases exhaustionDelta with
  | finite delta =>
    simp only [Player.accrued, Scalar.orZero]
    split
    · next h => rw [max_eq_right (le_of_lt h)]
    · next h => rw [max_eq_left (not_lt.mp h), add_zero]
  | posInf | negInf | nan => simp [Player.accrued, Scalar.orZero]

theorem spendAccrued_spec (h : Survivor p) (exhaustionDelta : Scalar) :
    ∃ exhaustion, p.spendAccrued exhaustionDelta = { p with
      exhaustion
      food := max (p.food - (pointsDue p exhaustionDelta - ⌈p.saturation⌉₊ : ℕ)) 0
      saturation := min (max (p.saturation - pointsDue p exhaustionDelta) 0) 5 } := by
  obtain ⟨hsat, hfood⟩ := @spendExhaustion_eq (p.exhaustion + max 0 exhaustionDelta.orZero) _ _
    h.saturation_nonneg h.food_nonneg
  have hdue : ⌊(p.exhaustion + max 0 exhaustionDelta.orZero) / EXHAUSTION_PER_POINT⌋₊ =
      pointsDue p exhaustionDelta := rfl
  rw [hdue] at hsat hfood
  have hleft := h.saturation_left (pointsDue p exhaustionDelta)
  have hle : max (p.food - (pointsDue p exhaustionDelta - ⌈p.saturation⌉₊ : ℕ)) 0 ≤ 20 := by
    have := h.food_le
    omega
  refine ⟨(spendExhaustion (p.exhaustion + max 0 exhaustionDelta.orZero) p.saturation p.food).1, ?_⟩
  rw [Player.spendAccrued, accrued_eq]
  simp only [hsat, hfood]
  rw [maxSaturation_eq (le_max_right _ _) hle, ← min_assoc, min_eq_left hleft,
    max_eq_right (le_min (le_max_right _ _) (by norm_num))]

theorem spendAccrued (h : Survivor p) (exhaustionDelta : Scalar) : Survivor (p.spendAccrued exhaustionDelta) := by
  obtain ⟨exhaustion, heq⟩ := h.spendAccrued_spec exhaustionDelta
  have hfood := h.food_le
  rw [heq]
  exact ⟨h.mode, h.health_nonneg, h.health_le, le_max_right _ _, by dsimp only; omega,
    le_min (le_max_right _ _) (by norm_num), (min_le_left _ _).trans (h.saturation_left _)⟩

/-! ### Healing and harm -/

/-- Healing raises the health of the living, no higher than 20. -/
theorem heal_spec (h : Survivor p) (amount : Scalar) :
    ∃ health, p.heal amount = { p with health } ∧ p.health ≤ health ∧ health ≤ 20 ∧ (p.health = 0 → health = 0) := by
  have hrefl : ∃ health, p = { p with health } ∧ p.health ≤ health ∧ health ≤ 20 ∧ (p.health = 0 → health = 0) :=
    ⟨p.health, rfl, le_rfl, h.health_le, id⟩
  cases amount with
  | finite amount =>
    simp only [Player.heal]
    split
    · exact hrefl
    · next hgo =>
      simp only [not_or, not_le, not_not, Player.isAlive, gt_iff_lt, decide_eq_true_eq] at hgo
      refine ⟨_, rfl, le_min (by linarith) h.health_le, min_le_right _ _, fun hz => absurd hgo.2 (by linarith)⟩
  | posInf | negInf | nan => exact hrefl

theorem heal_one {p : Player} (halive : 0 < p.health) :
    p.heal (.finite REGEN_HEALTH_PER_TICK) = { p with health := min (p.health + 1) 20 } := by
  have hgo : ¬(REGEN_HEALTH_PER_TICK ≤ 0 ∨ ¬p.isAlive) := by simp [Player.isAlive, REGEN_HEALTH_PER_TICK, halive]
  rw [Player.heal, if_neg hgo]
  rfl

theorem of_health (h : Survivor p) {health : ℚ} (h0 : 0 ≤ health) (h20 : health ≤ 20) :
    Survivor { p with health } :=
  ⟨h.mode, h0, h20, h.food_nonneg, h.food_le, h.saturation_nonneg, h.saturation_le⟩

theorem not_invulnerable (h : Survivor p) : p.isInvulnerable = false := by
  simp [Player.isInvulnerable, h.mode]

end Survivor

theorem armorAbsorb_pos {damage armor toughness left : ℚ} (h : armorAbsorb damage armor toughness = some left)
    (hdamage : 0 < damage) : 0 < left := by
  simp only [armorAbsorb, clampTo, Option.map_eq_some_iff, Option.ite_none_right_eq_some, Option.some.injEq] at h
  obtain ⟨realArmor, ⟨hle, rfl⟩, rfl⟩ := h
  refine mul_pos hdamage ?_
  have hmax : max (armor * (1 / 5)) (min (if 2 + toughness / 4 = 0 then armor * (1 / 5) else
      armor - damage / (2 + toughness / 4)) 20) ≤ 20 := max_le hle (min_le_right _ _)
  linarith

theorem damageAfterProtection_pos {damage : ℚ} (protection : ℚ) (h : 0 < damage) :
    0 < damageAfterProtection damage protection := by
  refine mul_pos h ?_
  have hmax : max 0 (min protection 20) ≤ 20 := max_le (by norm_num) (min_le_right _ _)
  linarith

/-- Harm takes health from the living, and the call that takes the last of it reports the death. -/
theorem Survivor.applyDamage_spec {p p' : Player} (h : Survivor p) {amount : Scalar} {source : DamageSource}
    {armor : CombatStats} {outcome : DamageOutcome} (hs : p.applyDamage amount source armor = some (p', outcome)) :
    ∃ health, p' = { p with health } ∧ 0 ≤ health ∧ health ≤ p.health ∧
      (outcome.died ↔ 0 < p.health ∧ health = 0) := by
  have hstill {out : DamageOutcome} (hout : out.died = false) (heq : p' = p) :
      ∃ health, p' = { p with health } ∧ 0 ≤ health ∧ health ≤ p.health ∧ (out.died ↔ 0 < p.health ∧ health = 0) := by
    refine ⟨p.health, heq, h.health_nonneg, le_rfl, ?_⟩
    rw [hout]
    exact iff_of_false Bool.false_ne_true fun hz => hz.1.ne' hz.2
  cases amount with
  | finite amount =>
    simp only [Player.applyDamage] at hs
    split at hs
    · obtain ⟨rfl, rfl⟩ := Prod.mk.inj (Option.some.inj hs)
      exact hstill rfl rfl
    · next hgo =>
      simp only [not_or, not_le, not_not, Player.isAlive, gt_iff_lt, decide_eq_true_eq] at hgo
      obtain ⟨left, hleft, heq⟩ := Option.map_eq_some_iff.mp hs
      have hpos : 0 < left := by
        split at hleft
        · exact Option.some.inj hleft ▸ hgo.1
        · exact armorAbsorb_pos hleft hgo.1
      have hcut := damageAfterProtection_pos armor.protection hpos
      obtain ⟨rfl, rfl⟩ := Prod.mk.inj heq
      refine ⟨_, rfl, ?_, ?_, ?_⟩
      · split
        · exact le_rfl
        · next hlt => exact (not_le.mp hlt).le
      · split
        · exact h.health_nonneg
        · exact sub_le_self _ (le_min hcut.le h.health_nonneg)
      · simp only [decide_eq_true_eq, hgo.2.2, true_and]
  | posInf | negInf | nan =>
    obtain ⟨rfl, rfl⟩ := Prod.mk.inj (Option.some.inj hs)
    exact hstill rfl rfl

namespace Survivor

variable {p : Player}

/-- A point of starvation reaches no lower than zero. -/
theorem starve_eq (h : Survivor p) :
    ∃ outcome, p.applyDamage (.finite STARVATION_DAMAGE) .starvation .ZERO =
      some ({ p with health := max (p.health - 1) 0 }, outcome) := by
  rcases h.health_nonneg.eq_or_lt with hzero | hpos
  · have hdead : STARVATION_DAMAGE ≤ 0 ∨ p.isInvulnerable ∨ ¬p.isAlive := by
      simp [Player.isAlive, ← hzero]
    have hsame : max (p.health - 1) 0 = p.health := by rw [← hzero]; norm_num
    refine ⟨⟨false, false, 0, p.health⟩, ?_⟩
    rw [Player.applyDamage, hsame]
    exact if_pos hdead
  · have hgo : ¬(STARVATION_DAMAGE ≤ 0 ∨ p.isInvulnerable ∨ ¬p.isAlive) := by
      simp [Player.isAlive, STARVATION_DAMAGE, h.not_invulnerable, hpos]
    have hone : damageAfterProtection STARVATION_DAMAGE CombatStats.ZERO.protection = 1 := by
      norm_num [damageAfterProtection, STARVATION_DAMAGE, CombatStats.ZERO]
    have hleft : (if p.health - min 1 p.health ≤ 0 then 0 else p.health - min 1 p.health) = max (p.health - 1) 0 := by
      grind
    rw [Player.applyDamage]
    dsimp only
    rw [if_neg hgo, DamageSource.bypassesArmor, if_pos rfl, Option.map_some]
    simp only [hone, hleft]
    exact ⟨_, rfl⟩

/-- Saturation that is no more than five is not cut again. -/
theorem setFood_less (h : Survivor p) (hfood : 18 ≤ p.food) (hsat : p.saturation ≤ 5) :
    p.setFood (p.food - 1) = { p with food := p.food - 1 } := by
  have hle := h.food_le
  have hclamp : max 0 (min (p.food - 1) MAX_FOOD) = p.food - 1 := by
    rw [MAX_FOOD]
    omega
  have hcast : (18 : ℚ) ≤ p.food := by exact_mod_cast hfood
  have hmax : p.saturation ≤ Player.maxSaturation (p.food - 1) := by
    rw [maxSaturation_eq (by omega) (by omega)]
    push_cast
    exact le_min (by linarith) hsat
  rw [Player.setFood, hclamp, min_eq_left hmax, max_eq_right h.saturation_nonneg]

end Survivor

/-- What regeneration did: paid for by saturation, by food, or nothing. -/
inductive Regenerated (p r : Player) : Prop
  | saturated (health : ℚ) (hr : r = { p with saturation := max (p.saturation - 1) 0, health })
      (hfull : p.food = 20) (hsat : 0 < p.saturation) (hrise : 0 < p.health → p.health < health)
      (hdead : p.health = 0 → health = 0) (hle : health ≤ 20)
  | fed (health : ℚ) (hr : r = { p with food := p.food - 1, health }) (hfood : 18 ≤ p.food)
      (hmore : p.food = 20 → 0 < p.saturation → p.health = 20) (hrise : p.health ≤ health)
      (hdead : p.health = 0 → health = 0) (hle : health ≤ 20)
  | still (hr : r = p) (hmore : p.food = 20 → 0 < p.saturation → p.health = 20)

namespace Survivor

variable {p : Player}

theorem regenerate_spec (h : Survivor p) (hsat : p.saturation ≤ 5) : Regenerated p p.regenerate := by
  have hfood := h.food_le
  rw [Player.regenerate]
  split
  · next hfull =>
    obtain ⟨hfull, hpos, hlow⟩ := hfull
    rw [MAX_FOOD] at hfull
    rw [MAX_HEALTH] at hlow
    have hless : Survivor { p with saturation := max (p.saturation - 1) 0 } :=
      ⟨h.mode, h.health_nonneg, h.health_le, h.food_nonneg, h.food_le, le_max_right _ _,
        max_le ((sub_le_self _ zero_le_one).trans h.saturation_le) (by exact_mod_cast h.food_nonneg)⟩
    obtain ⟨health, heq, -, hle, hdead⟩ := hless.heal_spec (.finite REGEN_HEALTH_PER_TICK)
    refine .saturated health heq (by omega) hpos (fun halive => ?_) hdead hle
    rw [heal_one (p := { p with saturation := max (p.saturation - 1) 0 }) halive] at heq
    have hhealth : min (p.health + 1) 20 = health := congrArg Player.health heq
    rw [← hhealth]
    exact lt_min (by linarith) hlow
  · next hnot =>
    have hmore : p.food = 20 → 0 < p.saturation → p.health = 20 := fun hfull hpos =>
      h.health_le.eq_of_not_lt fun hlow => hnot ⟨by rw [hfull, MAX_FOOD], hpos, hlow⟩
    split
    · next hregen =>
      simp only [Player.isRegenerating, REGEN_FOOD_THRESHOLD, ge_iff_le, decide_eq_true_eq] at hregen
      have hcast : (18 : ℚ) ≤ p.food := by exact_mod_cast hregen.1
      rw [h.setFood_less hregen.1 hsat]
      have hless : Survivor { p with food := p.food - 1 } :=
        ⟨h.mode, h.health_nonneg, h.health_le, by dsimp only; omega, by dsimp only; omega, h.saturation_nonneg,
          by push_cast; linarith⟩
      obtain ⟨health, heq, hrise, hle, hdead⟩ := hless.heal_spec (.finite REGEN_HEALTH_PER_TICK)
      exact .fed health heq hregen.1 hmore hrise hdead hle
    · exact .still rfl hmore

theorem regenerate (h : Survivor p) (hsat : p.saturation ≤ 5) : Survivor p.regenerate := by
  have hnonneg := h.food_nonneg
  have hfood := h.food_le
  cases h.regenerate_spec hsat with
  | saturated health hr hfull hpos hrise hdead hle =>
    rw [hr]
    have hhealth : 0 ≤ health := by
      rcases h.health_nonneg.eq_or_lt with hz | hz
      · exact (hdead hz.symm).ge
      · exact hz.le.trans (hrise hz).le
    exact ⟨h.mode, hhealth, hle, h.food_nonneg, h.food_le, le_max_right _ _,
      max_le ((sub_le_self _ zero_le_one).trans h.saturation_le) (by exact_mod_cast h.food_nonneg)⟩
  | fed health hr h18 hmore hrise hdead hle =>
    rw [hr]
    have hcast : (18 : ℚ) ≤ p.food := by exact_mod_cast h18
    exact ⟨h.mode, h.health_nonneg.trans hrise, hle, by dsimp only; omega, by dsimp only; omega, h.saturation_nonneg,
      by push_cast; linarith⟩
  | still hr => exact hr.symm ▸ h

end Survivor

end Apoptosis.L2.Entities
