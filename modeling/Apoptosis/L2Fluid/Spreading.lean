import Apoptosis.L2Fluid.LavaApart
/-!
# A tick erases no block (`simulation/src/fluid/flow.rs`)

The level written at a neighbour is recomputed from the neighbour's own sides.
The spreading cell is one of them, and open to it, so there is always something
to flow. Only at a corner of the coordinates, where a step down and a step
aside both stand still, does a cell read itself and run dry.

* `getNewLiquid_iff`: when a cell is fed, by the cell above or one beside it.
* `spreadCalls_fold`: the calls of `spread_to` are what `spread` does.
* `flowOn_standing`: the cell a tick spreads from, after it re-levelled.
* `tick_erases_nothing`: no call carries an empty fluid, and no other cell turns to air.
-/
namespace Apoptosis.L2.Fluid
open Apoptosis.Core

/-- A placed fluid is there, or its water in the container that was; a block set by name changes its
own cell, or nothing. -/
class PouringWorld (W : Type) extends FluidWorld W where
  placeFluid_ne (w : W) {p q : Pos} (f : FluidState) (h : q ≠ p) :
    facts (placeFluid w p f).1 q = facts w q
  placeFluid_loaded (w : W) {p : Pos} (f : FluidState) (h : (facts w p).isSome) :
    (facts (placeFluid w p f).1 p).isSome
  placeFluid_self (w : W) {p : Pos} {f : FluidState} {b : BlockFacts}
    (h : facts (placeFluid w p f).1 p = some b) :
    b.fluid = f ∨ (b.waterContainer ∧ f.kind = some .water ∧ b.fluid = .water .fullSource)
  setBlockNamed_ne (w : W) {p q : Pos} (name : String) (h : q ≠ p) :
    facts (setBlockNamed w p name).1 q = facts w q
  setBlockNamed_self (w : W) {p : Pos} {name : String} {b : BlockFacts}
    (hname : name ∈ [STONE, COBBLESTONE, OBSIDIAN]) (h : facts (setBlockNamed w p name).1 p = some b) :
    (b.fluid = .empty ∧ b.air = false) ∨ facts w p = some b

section World

variable {W R : Type} [FluidWorld W] [RandomSource R]

/-! ## The calls of `spread_to` -/

/-- The arguments of one call. -/
structure SpreadCall where
  pos : Pos
  facts : BlockFacts
  dir : Dir
  fluid : FluidState

def SpreadCall.run (rules : FluidRules) (now : Nat) (t : Ticking W) (c : SpreadCall) : Ticking W :=
  spreadTo t rules c.pos c.facts c.dir c.fluid now

/-- The calls over the sides `get_spread` proposed: none where the target is not loaded by then. -/
def sideCalls (rules : FluidRules) (pos : Pos) (now : Nat) :
    List (Dir × FluidState) → Ticking W → List SpreadCall
  | [], _ => []
  | side :: sides, t =>
    match FluidWorld.facts t.world (pos.offset side.1) with
    | none => sideCalls rules pos now sides t
    | some tfacts =>
      let call : SpreadCall := ⟨pos.offset side.1, tfacts, side.1, side.2⟩
      call :: sideCalls rules pos now sides (call.run rules now t)

/-- The calls of `spread_to_sides`. -/
def spreadToSidesCalls (t : Ticking W) (rules : FluidRules) (pos : Pos) (facts : BlockFacts)
    (fluid : FluidState) (now : Nat) : List SpreadCall :=
  let amount : Int := if fluid.isFalling then 7 else (fluid.amount : Int) - rules.dropOff
  if amount ≤ 0 then [] else sideCalls rules pos now (getSpread t.world rules pos facts) t

def spreadSidewaysCalls (t : Ticking W) (rules : FluidRules) (pos : Pos) (facts : BlockFacts)
    (fluid : FluidState) (now : Nat) : List SpreadCall :=
  if fluid.isSource || !isWaterHole t.world rules.kind pos facts then
    spreadToSidesCalls t rules pos facts fluid now
  else []

/-- The calls of `spread`. -/
def spreadCalls (t : Ticking W) (rules : FluidRules) (pos : Pos) (facts : BlockFacts)
    (fluid : FluidState) (now : Nat) : List SpreadCall :=
  if fluid.isEmpty then []
  else
    let belowPos := pos.offset .down
    match FluidWorld.facts t.world belowPos with
    | none => spreadSidewaysCalls t rules pos facts fluid now
    | some below =>
      let newLiquid := getNewLiquid t.world rules belowPos below
      if canMaybePassThrough rules facts below &&
          canBeReplacedWith t.world below.fluid newLiquid.kind .down belowPos &&
          canHoldSpecific below newLiquid.kind then
        let call : SpreadCall := ⟨belowPos, below, .down, newLiquid⟩
        let t := call.run rules now t
        call :: if sourceNeighborCount t.world rules pos ≥ 3 then
          spreadToSidesCalls t rules pos facts fluid now
        else []
      else spreadSidewaysCalls t rules pos facts fluid now

/-- Where a tick stands when it spreads: none where it ends before. -/
def spreadStart (world : W) (rules : FluidRules) (pos : Pos) (now : Nat) (queue : FluidQueue Pos)
    (random : R) : Option ((Ticking W × R) × BlockFacts × FluidState) :=
  match FluidWorld.facts world pos with
  | none => none
  | some facts =>
    if facts.fluid.isEmpty then none
    else
      let ((world, outcome), keeps) := shouldSpreadLiquid world rules.kind pos {}
      if !keeps then none
      else some (flowOn ⟨world, queue, outcome⟩ rules pos facts facts.fluid now random)

/-- The calls of `tick`. -/
def tickCalls (world : W) (rules : FluidRules) (pos : Pos) (now : Nat) (queue : FluidQueue Pos)
    (random : R) : List SpreadCall :=
  match spreadStart world rules pos now queue random with
  | none => []
  | some ((t, _), facts, fluid) => spreadCalls t rules pos facts fluid now

theorem sideCalls_fold (rules : FluidRules) (pos : Pos) (now : Nat) (sides : List (Dir × FluidState))
    (t : Ticking W) : (sideCalls rules pos now sides t).foldl (SpreadCall.run rules now) t =
      sides.foldl (spreadToSide rules pos now) t := by
  induction sides generalizing t with
  | nil => rfl
  | cons side sides ih =>
    rw [List.foldl_cons, sideCalls, spreadToSide]
    dsimp only
    cases FluidWorld.facts t.world (pos.offset side.1) with
    | none => exact ih t
    | some tfacts => exact ih _

theorem spreadToSidesCalls_fold (t : Ticking W) (rules : FluidRules) (pos : Pos) (facts : BlockFacts)
    (fluid : FluidState) (now : Nat) :
    (spreadToSidesCalls t rules pos facts fluid now).foldl (SpreadCall.run rules now) t =
      spreadToSides t rules pos facts fluid now := by
  simp only [spreadToSidesCalls, spreadToSides]
  by_cases ha : (if fluid.isFalling then 7 else (fluid.amount : Int) - rules.dropOff) ≤ 0
  · rw [if_pos ha, if_pos ha]
    rfl
  · rw [if_neg ha, if_neg ha]
    exact sideCalls_fold rules pos now _ t

theorem spreadSidewaysCalls_fold (t : Ticking W) (rules : FluidRules) (pos : Pos) (facts : BlockFacts)
    (fluid : FluidState) (now : Nat) :
    (spreadSidewaysCalls t rules pos facts fluid now).foldl (SpreadCall.run rules now) t =
      spreadSideways t rules pos facts fluid now := by
  unfold spreadSidewaysCalls spreadSideways
  split
  · exact spreadToSidesCalls_fold t rules pos facts fluid now
  · rfl

/-- After the call below, the sides of a cell with three sources beside it. -/
theorem belowCalls_fold (t : Ticking W) (rules : FluidRules) (pos : Pos) (facts : BlockFacts)
    (fluid : FluidState) (now : Nat) :
    (if sourceNeighborCount t.world rules pos ≥ 3 then spreadToSidesCalls t rules pos facts fluid now
      else []).foldl (SpreadCall.run rules now) t =
      if sourceNeighborCount t.world rules pos ≥ 3 then spreadToSides t rules pos facts fluid now else t := by
  split
  · exact spreadToSidesCalls_fold t rules pos facts fluid now
  · rfl

/-- The calls, one after the other, are what `spread` does. -/
theorem spreadCalls_fold (t : Ticking W) (rules : FluidRules) (pos : Pos) (facts : BlockFacts)
    (fluid : FluidState) (now : Nat) :
    (spreadCalls t rules pos facts fluid now).foldl (SpreadCall.run rules now) t =
      spread t rules pos facts fluid now := by
  unfold spreadCalls spread
  by_cases hempty : fluid.isEmpty
  · rw [if_pos hempty, if_pos hempty]
    rfl
  rw [if_neg hempty, if_neg hempty]
  dsimp only
  cases hbelow : FluidWorld.facts t.world (pos.offset .down) with
  | none => exact spreadSidewaysCalls_fold t rules pos facts fluid now
  | some below =>
    dsimp only
    by_cases hdown : (canMaybePassThrough rules facts below &&
        canBeReplacedWith t.world below.fluid (getNewLiquid t.world rules (pos.offset .down) below).kind .down
          (pos.offset .down) &&
        canHoldSpecific below (getNewLiquid t.world rules (pos.offset .down) below).kind) = true
    · rw [if_pos hdown, if_pos hdown, List.foldl_cons]
      exact belowCalls_fold _ rules pos facts fluid now
    · rw [if_neg hdown, if_neg hdown]
      exact spreadSidewaysCalls_fold t rules pos facts fluid now

/-- A tick that comes to spread leaves the world its calls leave. -/
theorem tickCalls_fold {world : W} {rules : FluidRules} {pos : Pos} {now : Nat} {queue : FluidQueue Pos}
    {random : R} {s : (Ticking W × R) × BlockFacts × FluidState}
    (h : spreadStart world rules pos now queue random = some s) :
    (tick world rules pos now queue random).1.world =
      ((tickCalls world rules pos now queue random).foldl (SpreadCall.run rules now) s.1.1).world := by
  rw [tickCalls, h]
  dsimp only
  rw [spreadCalls_fold]
  unfold spreadStart at h
  unfold tick
  cases hfacts : FluidWorld.facts world pos with
  | none =>
    rw [hfacts] at h
    exact nomatch h
  | some facts =>
    rw [hfacts] at h
    dsimp only at h ⊢
    split at h
    · exact nomatch h
    rename_i hempty
    rw [if_neg hempty]
    split at h
    · exact nomatch h
    rename_i hkeeps
    rw [if_neg hkeeps]
    cases h
    rfl

/-! ## What feeds a cell -/

theorem canPassThroughWall_comm (a b : BlockFacts) : canPassThroughWall a b = canPassThroughWall b a := by
  unfold canPassThroughWall
  rw [Bool.or_comm, Bool.and_comm]

theorem FluidState.amount_le (f : FluidState) : f.amount ≤ 8 := by
  cases f with
  | empty => exact Nat.zero_le 8
  | water b => exact b.amount_le
  | lava b => exact b.amount_le

theorem FluidState.amount_of_isSource {f : FluidState} (h : f.isSource = true) : f.amount = 8 := by
  cases f with
  | empty => exact nomatch h
  | water b => exact b.source_full h
  | lava b => exact b.source_full h

theorem FluidRules.dropOff_lt (rules : FluidRules) : rules.dropOff < 7 := by
  unfold dropOff
  split
  · decide
  · split <;> decide

/-- The neighbour holds the kind and the cell is open to it. -/
structure Feeds (w : W) (rules : FluidRules) (p : Pos) (b : BlockFacts) (dir : Dir) (n : BlockFacts) : Prop where
  at_side : FluidWorld.facts w (p.offset dir) = some n
  kind : n.fluid.kind = some rules.kind
  opens : canPassThroughWall b n = true

/-- The cell above feeds the cell, or one beside with more than the drop-off. -/
def Fed (w : W) (rules : FluidRules) (p : Pos) (b : BlockFacts) : Prop :=
  (∃ n, Feeds w rules p b .up n) ∨
    ∃ dir ∈ Dir.HORIZONTAL, ∃ n, Feeds w rules p b dir n ∧ rules.dropOff < n.fluid.amount

/-- One neighbour in the fold of `feeding`. -/
def feedStep (w : W) (rules : FluidRules) (p : Pos) (b : BlockFacts) (acc : Nat × Nat) (dir : Dir) : Nat × Nat :=
  match FluidWorld.facts w (p.offset dir) with
  | none => acc
  | some n =>
    if !sameKind n.fluid rules.kind then acc
    else if !canPassThroughWall b n then acc
    else (max acc.1 n.fluid.amount, if n.fluid.isSource then acc.2 + 1 else acc.2)

theorem feeding_eq (w : W) (rules : FluidRules) (p : Pos) (b : BlockFacts) :
    feeding w rules p b = Dir.HORIZONTAL.foldl (feedStep w rules p b) (0, 0) := rfl

theorem feedStep_cases (w : W) (rules : FluidRules) (p : Pos) (b : BlockFacts) (acc : Nat × Nat) (dir : Dir) :
    (feedStep w rules p b acc dir = acc ∧ ∀ n, ¬ Feeds w rules p b dir n) ∨
      ∃ n, Feeds w rules p b dir n ∧ feedStep w rules p b acc dir =
        (max acc.1 n.fluid.amount, if n.fluid.isSource then acc.2 + 1 else acc.2) := by
  unfold feedStep
  cases hn : FluidWorld.facts w (p.offset dir) with
  | none =>
    refine .inl ⟨rfl, fun n h => ?_⟩
    exact nomatch hn.symm.trans h.at_side
  | some n =>
    have heq : ∀ n', Feeds w rules p b dir n' → n' = n := fun n' h =>
      Option.some.inj (h.at_side.symm.trans hn)
    dsimp only
    by_cases hkind : n.fluid.kind = some rules.kind
    · by_cases hopens : canPassThroughWall b n = true
      · exact .inr ⟨n, ⟨hn, hkind, hopens⟩, by simp [sameKind, hkind, hopens]⟩
      · exact .inl ⟨by simp [sameKind, hkind, hopens], fun n' h => hopens (heq n' h ▸ h.opens)⟩
    · exact .inl ⟨by simp [sameKind, hkind], fun n' h => hkind (heq n' h ▸ h.kind)⟩

theorem feeding_fold (w : W) (rules : FluidRules) (p : Pos) (b : BlockFacts) (dirs : List Dir) (acc : Nat × Nat) :
    (∀ d, d < (dirs.foldl (feedStep w rules p b) acc).1 ↔
      d < acc.1 ∨ ∃ dir ∈ dirs, ∃ n, Feeds w rules p b dir n ∧ d < n.fluid.amount) ∧
    (acc.2 < (dirs.foldl (feedStep w rules p b) acc).2 →
      ∃ dir ∈ dirs, ∃ n, Feeds w rules p b dir n ∧ n.fluid.isSource = true) := by
  induction dirs generalizing acc with
  | nil => simp
  | cons dir dirs ih =>
    rw [List.foldl_cons]
    obtain ⟨hmax, hsource⟩ := ih (feedStep w rules p b acc dir)
    obtain ⟨hsame, hnone⟩ | ⟨n, hn, hstep⟩ := feedStep_cases w rules p b acc dir
    · rw [hsame] at hmax hsource ⊢
      refine ⟨fun d => (hmax d).trans (or_congr_right ?_), fun h => ?_⟩
      · simp [hnone]
      · obtain ⟨dir', hdir', found⟩ := hsource h
        exact ⟨dir', .tail _ hdir', found⟩
    · rw [hstep] at hmax hsource ⊢
      have hone : ∀ n', Feeds w rules p b dir n' → n' = n := fun n' h =>
        Option.some.inj (h.at_side.symm.trans hn.at_side)
      refine ⟨fun d => (hmax d).trans ?_, fun h => ?_⟩
      · rw [lt_max_iff, or_assoc]
        refine or_congr_right ?_
        simp only [List.mem_cons, exists_eq_or_imp]
        refine or_congr_left ⟨fun hd => ⟨n, hn, hd⟩, fun ⟨n', hn', hd⟩ => hone n' hn' ▸ hd⟩
      · by_cases hsrc : n.fluid.isSource = true
        · exact ⟨dir, .head _, n, hn, hsrc⟩
        · rw [if_neg hsrc] at hsource h
          obtain ⟨dir', hdir', found⟩ := hsource h
          exact ⟨dir', .tail _ hdir', found⟩

theorem fedAbove_iff (w : W) (rules : FluidRules) (p : Pos) (b : BlockFacts) :
    ((FluidWorld.facts w (p.offset .up)).any fun above =>
      !above.fluid.isEmpty && sameKind above.fluid rules.kind && canPassThroughWall b above) = true ↔
      ∃ n, Feeds w rules p b .up n := by
  rw [Option.any_eq_true]
  constructor
  · intro ⟨n, hn, h⟩
    simp only [sameKind, Bool.and_eq_true, decide_eq_true_eq] at h
    exact ⟨n, hn, h.1.2, h.2⟩
  · intro ⟨n, hn⟩
    refine ⟨n, hn.at_side, ?_⟩
    have hne : n.fluid ≠ .empty := fun hempty => by
      have hkind := hn.kind
      rw [hempty] at hkind
      exact nomatch hkind
    simp [sameKind, hn.kind, hn.opens, FluidState.isEmpty, hne]

/-- The level a cell takes is of the rules' kind exactly when something feeds it. -/
theorem getNewLiquid_iff (w : W) (rules : FluidRules) (p : Pos) (b : BlockFacts) :
    (getNewLiquid w rules p b).kind = some rules.kind ↔ Fed w rules p b := by
  have hdrop := rules.dropOff_lt
  obtain ⟨hmax, hsource⟩ := feeding_fold w rules p b Dir.HORIZONTAL (0, 0)
  rw [← feeding_eq] at hmax hsource
  have hbeside := hmax rules.dropOff
  rw [or_iff_right (Nat.not_lt_zero _)] at hbeside
  unfold getNewLiquid
  dsimp only
  split
  · rename_i hcond
    simp only [Bool.and_eq_true, decide_eq_true_eq] at hcond
    obtain ⟨dir, hdir, n, hn, hsrc⟩ := hsource (by dsimp only; omega)
    refine ⟨fun _ => .inr ⟨dir, hdir, n, hn, ?_⟩, fun _ => by cases rules.kind <;> rfl⟩
    rw [FluidState.amount_of_isSource hsrc]
    omega
  · split
    · rename_i habove
      exact ⟨fun _ => .inl ((fedAbove_iff w rules p b).mp habove), fun _ => by cases rules.kind <;> rfl⟩
    · rename_i habove
      rw [fedAbove_iff] at habove
      unfold Fed
      rw [or_iff_right habove, ← hbeside]
      split
      · rename_i hle
        exact ⟨fun h => (nomatch h), fun h => absurd h (Nat.not_lt.mpr hle)⟩
      · rename_i hlt
        exact ⟨fun _ => Nat.lt_of_not_le hlt, fun _ => by cases hk : rules.kind <;> rfl⟩

theorem getNewLiquid_falling {w : W} {rules : FluidRules} {p : Pos} {b : BlockFacts}
    (h : (getNewLiquid w rules p b).isFalling = true) : (getNewLiquid w rules p b).amount = 8 := by
  revert h
  unfold getNewLiquid
  dsimp only
  split
  · cases rules.kind <;> exact fun _ => rfl
  · split
    · cases rules.kind <;> exact fun _ => rfl
    · split
      · exact fun h => nomatch h
      · cases rules.kind <;> exact fun h => nomatch h

/-! ## What the writes keep -/

/-- A conversion: a lava cell that sees water, set to a block of its name. -/
theorem shouldSpreadLiquid_cases (w : W) (kind : FluidKind) (p : Pos) (o : FluidTickOutcome) :
    (shouldSpreadLiquid w kind p o).1.1 = w ∨ ∃ name ∈ [STONE, COBBLESTONE, OBSIDIAN],
      (shouldSpreadLiquid w kind p o).1.1 = (FluidWorld.setBlockNamed w p name).1 ∧
        kindAt w p = some .lava ∧ ∃ dir, dir ≠ .down ∧ kindAt w (p.offset dir) = some .water := by
  unfold shouldSpreadLiquid
  split
  · exact .inl rfl
  · split
    · exact .inl rfl
    · rename_i b hb
      dsimp only
      split
      · exact .inl rfl
      · rename_i hlava
        split
        · exact .inl rfl
        · rename_i hwater
          rw [Bool.not_eq_true, Bool.not_eq_false', waterAdjacent_iff] at hwater
          refine .inr ⟨_, ?_, rfl, ?_, hwater⟩
          · split <;> decide
          · rw [kindAt, hb]
            exact not_not.mp hlava

/-- A lava cell that keeps flowing sees no water. -/
theorem dry_of_keeps {w : W} {p : Pos} {o : FluidTickOutcome} (h : (shouldSpreadLiquid w .lava p o).2 = true)
    (hp : kindAt w p = some .lava) {dir : Dir} (hdir : dir ≠ .down) : kindAt w (p.offset dir) ≠ some .water := by
  intro hwater
  have hadjacent := (waterAdjacent_iff w p).mpr ⟨dir, hdir, hwater⟩
  obtain ⟨b, hb, hkind⟩ := Option.bind_eq_some_iff.mp hp
  unfold shouldSpreadLiquid at h
  rw [if_neg (not_not.mpr rfl), hb] at h
  dsimp only at h
  rw [if_neg (not_not.mpr hkind), hadjacent] at h
  exact nomatch h

/-- What every re-evaluation keeps, a notification keeps. -/
theorem notifyNeighbors_induct {P : W → Prop}
    (hstep : ∀ w kind p o, P w → P (shouldSpreadLiquid w kind p o).1.1) {w : W} (h : P w) (p : Pos)
    (o : FluidTickOutcome) : P (notifyNeighbors w p o).1 := by
  unfold notifyNeighbors
  apply List.foldlRecOn (motive := fun s : W × FluidTickOutcome => P s.1) _ _ h
  intro s hs dir _
  unfold notifyNeighbor
  dsimp only
  split
  · exact hs
  · exact hstep s.1 _ _ _ hs

/-- What its two writes and every re-evaluation keep, `spread_to` keeps. -/
theorem spreadTo_induct {P : W → Prop} (hstep : ∀ w kind p o, P w → P (shouldSpreadLiquid w kind p o).1.1)
    {t : Ticking W} {rules : FluidRules} {p : Pos} {facts : BlockFacts} {dir : Dir} {f : FluidState} {now : Nat}
    (hset : P (FluidWorld.setBlockNamed t.world p STONE).1) (hplace : P (FluidWorld.placeFluid t.world p f).1) :
    P (spreadTo t rules p facts dir f now).world := by
  unfold spreadTo
  split
  · exact notifyNeighbors_induct hstep hset p _
  · dsimp only
    split
    · exact notifyNeighbors_induct hstep hplace p _
    · exact notifyNeighbors_induct hstep (hstep _ _ _ _ hplace) p _

/-- The cell holds the kind, and lava sees no water. -/
structure Standing (w : W) (rules : FluidRules) (pos : Pos) (facts : BlockFacts) : Prop where
  at_pos : FluidWorld.facts w pos = some facts
  kind : facts.fluid.kind = some rules.kind
  dry : rules.kind = .lava → ∀ dir, dir ≠ .down → kindAt w (pos.offset dir) ≠ some .water

/-- The fluid a cell spreads is no more than it holds, and is full when it falls. -/
structure Carries (facts : BlockFacts) (fluid : FluidState) : Prop where
  amount : fluid.amount ≤ facts.fluid.amount
  falling : fluid.isFalling = true → fluid.amount = 8

/-- Air, and no fluid in it. -/
def AirAt (w : W) (q : Pos) : Prop :=
  ∃ b, FluidWorld.facts w q = some b ∧ b.air = true ∧ b.fluid = .empty

end World

section Pouring

variable {W R : Type} [PouringWorld W] [RandomSource R] {rules : FluidRules} {pos : Pos} {facts : BlockFacts}

theorem setBlockNamed_kindAt_or (w : W) (p q : Pos) {name : String} (hname : name ∈ [STONE, COBBLESTONE, OBSIDIAN]) :
    kindAt (FluidWorld.setBlockNamed w p name).1 q = kindAt w q ∨
      kindAt (FluidWorld.setBlockNamed w p name).1 q = none := by
  by_cases hq : q = p
  · subst hq
    cases h : FluidWorld.facts (FluidWorld.setBlockNamed w q name).1 q with
    | none => exact .inr (by rw [kindAt, h, Option.bind_none])
    | some b =>
      obtain ⟨hempty, -⟩ | hsame := PouringWorld.setBlockNamed_self w hname h
      · exact .inr (by rw [kindAt, h, Option.bind_some, hempty, FluidState.kind_empty])
      · exact .inl (by rw [kindAt, kindAt, h, hsame])
  · exact .inl (by rw [kindAt, kindAt, PouringWorld.setBlockNamed_ne w name hq])

/-- A cell that is not lava is left as it is. -/
theorem shouldSpreadLiquid_kept (w : W) (kind : FluidKind) (p : Pos) (o : FluidTickOutcome) {q : Pos}
    {b : BlockFacts} (hq : FluidWorld.facts w q = some b) (hb : b.fluid.kind ≠ some .lava) :
    FluidWorld.facts (shouldSpreadLiquid w kind p o).1.1 q = some b := by
  obtain hsame | ⟨name, -, hset, hlava, -⟩ := shouldSpreadLiquid_cases w kind p o
  · rw [hsame, hq]
  · have hne : q ≠ p := by
      intro heq
      rw [heq] at hq
      rw [kindAt, hq] at hlava
      exact hb hlava
    rw [hset, PouringWorld.setBlockNamed_ne w name hne, hq]

/-- The cell still stands when any cell re-evaluated itself. -/
theorem Standing.shouldSpreadLiquid {w : W} (h : Standing w rules pos facts) (kind : FluidKind) (p : Pos)
    (o : FluidTickOutcome) : Standing (shouldSpreadLiquid w kind p o).1.1 rules pos facts := by
  obtain hsame | ⟨name, hname, hset, hlava, dir, hdir, hwater⟩ := shouldSpreadLiquid_cases w kind p o
  · rw [hsame]
    exact h
  · have hne : pos ≠ p := by
      intro heq
      subst heq
      rw [kindAt, h.at_pos, Option.bind_some, h.kind] at hlava
      exact h.dry (Option.some.inj hlava) dir hdir hwater
    rw [hset]
    refine ⟨by rw [PouringWorld.setBlockNamed_ne w name hne, h.at_pos], h.kind, fun hl d hd => ?_⟩
    obtain hk | hk := setBlockNamed_kindAt_or w p (pos.offset d) hname
    · rw [hk]
      exact h.dry hl d hd
    · rw [hk]
      intro h
      cases h

theorem placeFluid_kind {w : W} {p : Pos} {f : FluidState} {b : BlockFacts} {kind : FluidKind}
    (hf : f.kind = some kind) (h : FluidWorld.facts (FluidWorld.placeFluid w p f).1 p = some b) :
    b.fluid.kind = some kind ∧ f.amount ≤ b.fluid.amount := by
  obtain hb | ⟨-, hwater, hb⟩ := PouringWorld.placeFluid_self w h
  · rw [hb]
    exact ⟨hf, le_rfl⟩
  · rw [hb, ← hf, hwater]
    exact ⟨rfl, f.amount_le⟩

/-- The cell still stands when its kind is placed in another. -/
theorem Standing.placeFluid {w : W} (h : Standing w rules pos facts) {p : Pos} {f : FluidState}
    (hp : pos ≠ p) (hf : f.kind = some rules.kind) :
    Standing (FluidWorld.placeFluid w p f).1 rules pos facts := by
  refine ⟨by rw [PouringWorld.placeFluid_ne w f hp, h.at_pos], h.kind, fun hl d hd => ?_⟩
  by_cases hat : pos.offset d = p
  · intro hwater
    obtain ⟨b, hb, hkind⟩ := Option.bind_eq_some_iff.mp (hat ▸ hwater)
    rw [(placeFluid_kind hf hb).1, hl] at hkind
    exact nomatch hkind
  · rw [kindAt, PouringWorld.placeFluid_ne w f hat]
    exact h.dry hl d hd

theorem Standing.setBlockNamed {w : W} (h : Standing w rules pos facts) {p : Pos} {name : String}
    (hp : pos ≠ p) (hname : name ∈ [STONE, COBBLESTONE, OBSIDIAN]) :
    Standing (FluidWorld.setBlockNamed w p name).1 rules pos facts := by
  refine ⟨by rw [PouringWorld.setBlockNamed_ne w name hp, h.at_pos], h.kind, fun hl d hd => ?_⟩
  obtain hk | hk := setBlockNamed_kindAt_or w p (pos.offset d) hname
  · rw [hk]
    exact h.dry hl d hd
  · rw [hk]
    exact nofun

/-- Placed where the cell is, its kind stands there. -/
theorem Standing.placed {w : W} (h : Standing w rules pos facts) {f : FluidState} (hf : f.kind = some rules.kind) :
    ∃ b, Standing (FluidWorld.placeFluid w pos f).1 rules pos b ∧
      (b.fluid = f ∨ b.fluid = .water .fullSource) := by
  have hloaded := PouringWorld.placeFluid_loaded w f (by rw [h.at_pos]; rfl : (FluidWorld.facts w pos).isSome)
  obtain ⟨b, hb⟩ := Option.isSome_iff_exists.mp hloaded
  have hkind := (placeFluid_kind hf hb).1
  refine ⟨b, ⟨hb, hkind, fun hl d hd => ?_⟩, (PouringWorld.placeFluid_self w hb).imp_right fun h => h.2.2⟩
  by_cases hat : pos.offset d = pos
  · rw [hat, kindAt, hb, Option.bind_some, hkind, hl]
    intro h
    cases h
  · rw [kindAt, PouringWorld.placeFluid_ne w f hat]
    exact h.dry hl d hd

theorem Standing.notifyNeighbors {w : W} (h : Standing w rules pos facts) (p : Pos) (o : FluidTickOutcome) :
    Standing (notifyNeighbors w p o).1 rules pos facts :=
  notifyNeighbors_induct (P := fun w => Standing w rules pos facts)
    (fun _ _ _ _ h => h.shouldSpreadLiquid _ _ _) h p o

theorem Standing.spreadTo {t : Ticking W} (h : Standing t.world rules pos facts) {c : SpreadCall}
    (hp : pos ≠ c.pos) (hf : c.fluid.kind = some rules.kind) (now : Nat) :
    Standing (c.run rules now t).world rules pos facts :=
  spreadTo_induct (P := fun w => Standing w rules pos facts)
    (fun _ _ _ _ h => h.shouldSpreadLiquid _ _ _) (h.setBlockNamed hp (.head _)) (h.placeFluid hp hf)

/-! ## The calls carry fluid -/

theorem mem_sideCalls {now : Nat} {sides : List (Dir × FluidState)} {t : Ticking W} {c : SpreadCall}
    (h : c ∈ sideCalls rules pos now sides t) : ∃ side ∈ sides, c.fluid = side.2 := by
  induction sides generalizing t with
  | nil => exact nomatch h
  | cons side sides ih =>
    unfold sideCalls at h
    split at h
    · obtain ⟨side', hside', heq⟩ := ih h
      exact ⟨side', .tail _ hside', heq⟩
    · obtain rfl | h := List.mem_cons.mp h
      · exact ⟨side, .head _, rfl⟩
      · obtain ⟨side', hside', heq⟩ := ih h
        exact ⟨side', .tail _ hside', heq⟩

/-- A side open to the cell reads the cell among its own sides, also where the step stands still. -/
theorem Standing.feeds_side {w : W} (h : Standing w rules pos facts) {dir : Dir} (hdir : dir ∈ Dir.HORIZONTAL)
    {n : BlockFacts} (hopens : canPassThroughWall facts n = true) (hamount : rules.dropOff < facts.fluid.amount) :
    Fed w rules (pos.offset dir) n := by
  rw [canPassThroughWall_comm] at hopens
  have hback : ∃ d ∈ Dir.HORIZONTAL, (pos.offset dir).offset d = pos := by
    obtain hstill | hback := pos.offset_back dir
    · exact ⟨dir, hdir, by rw [hstill, hstill]⟩
    · exact ⟨dir.opposite, by revert hdir; cases dir <;> decide, hback⟩
  obtain ⟨d, hd, hat⟩ := hback
  exact .inr ⟨d, hd, facts, ⟨by rw [hat, h.at_pos], h.kind, hopens⟩, hamount⟩

theorem opens_of_canMaybePassThrough {b n : BlockFacts} (h : canMaybePassThrough rules b n = true) :
    canPassThroughWall b n = true := by
  unfold canMaybePassThrough at h
  exact (Bool.and_eq_true_iff.mp h).2

theorem spreadToSidesCalls_kind {t : Ticking W} (h : Standing t.world rules pos facts) {fluid : FluidState}
    (hcarries : Carries facts fluid) (now : Nat) :
    ∀ c ∈ spreadToSidesCalls t rules pos facts fluid now, c.fluid.kind = some rules.kind := by
  intro c hc
  have hdrop := rules.dropOff_lt
  have hamount := hcarries.amount
  simp only [spreadToSidesCalls] at hc
  by_cases hguard : (if fluid.isFalling then 7 else (fluid.amount : Int) - rules.dropOff) ≤ 0
  · rw [if_pos hguard] at hc
    exact nomatch hc
  rw [if_neg hguard] at hc
  have hmore : rules.dropOff < facts.fluid.amount := by
    by_cases hfalling : fluid.isFalling = true
    · have := hcarries.falling hfalling
      omega
    · rw [if_neg hfalling] at hguard
      omega
  obtain ⟨side, hside, heq⟩ := mem_sideCalls hc
  obtain ⟨hdir, n, -, hpass, hfluid⟩ := mem_getSpread hside
  rw [heq, hfluid, getNewLiquid_iff]
  exact h.feeds_side hdir (opens_of_canMaybePassThrough hpass) hmore

/-- Every call of `spread` carries fluid of the rules' kind, if water that stands on itself is fed. -/
theorem spreadCalls_kind {t : Ticking W} (h : Standing t.world rules pos facts) {fluid : FluidState}
    (hcarries : Carries facts fluid) (hbottom : rules.kind = .water → pos.offset .down = pos →
      canMaybePassThrough rules facts facts = true → Fed t.world rules pos facts) (now : Nat) :
    ∀ c ∈ spreadCalls t rules pos facts fluid now, c.fluid.kind = some rules.kind := by
  have hsides : ∀ c ∈ spreadSidewaysCalls t rules pos facts fluid now, c.fluid.kind = some rules.kind := by
    intro c hc
    unfold spreadSidewaysCalls at hc
    split at hc
    · exact spreadToSidesCalls_kind h hcarries now c hc
    · cases hc
  intro c hc
  unfold spreadCalls at hc
  split at hc
  · cases hc
  dsimp only at hc
  split at hc
  · exact hsides c hc
  rename_i below hbelow
  split at hc
  · rename_i hdown
    simp only [Bool.and_eq_true] at hdown
    obtain ⟨⟨hpass, hreplaced⟩, -⟩ := hdown
    by_cases hstill : pos.offset .down = pos
    · -- the cell below is the cell itself, which its own fluid does not replace
      exfalso
      rw [hstill, h.at_pos] at hbelow
      cases hbelow
      rw [hstill] at hreplaced
      unfold canBeReplacedWith at hreplaced
      rw [h.kind] at hreplaced
      cases hkind : rules.kind with
      | water =>
        have hfed := (getNewLiquid_iff t.world rules pos facts).mpr (hbottom hkind hstill hpass)
        rw [hkind, hfed, hkind] at hreplaced
        cases hreplaced
      | lava =>
        rw [hkind] at hreplaced
        obtain hnew | hnew := getNewLiquid_kind t.world rules pos facts
        · simp [hnew] at hreplaced
        · simp [hnew, hkind] at hreplaced
    · have hback := (pos.offset_back .down).resolve_left hstill
      have hopens := opens_of_canMaybePassThrough hpass
      rw [canPassThroughWall_comm] at hopens
      have hfed : Fed t.world rules (pos.offset .down) below :=
        .inl ⟨facts, ⟨(congrArg _ hback).trans h.at_pos, h.kind, hopens⟩⟩
      have hfluid := (getNewLiquid_iff t.world rules (pos.offset .down) below).mpr hfed
      obtain rfl | hc := List.mem_cons.mp hc
      · exact hfluid
      · split at hc
        · exact spreadToSidesCalls_kind (h.spreadTo (Ne.symm hstill) hfluid now) hcarries now c hc
        · cases hc
  · exact hsides c hc

/-! ## The cell re-levels -/

/-- Where a step down stands still, and one to a side does. -/
def Corner (pos : Pos) : Prop := pos.offset .down = pos ∧ ∃ dir ∈ Dir.HORIZONTAL, pos.offset dir = pos

/-- At the bottom of the coordinates the cell above is another. -/
theorem up_ne_of_down {pos : Pos} (h : pos.offset .down = pos) : pos.offset .up ≠ pos := by
  intro hup
  have hdown := congrArg (fun p : Pos => p.y.val) h
  have habove := congrArg (fun p : Pos => p.y.val) hup
  simp only [Pos.offset, Dir.delta, I32.saturatingAdd_val, I32.one_val, I32.negOne_val] at hdown habove
  omega

/-- What a re-levelled cell leaves. -/
theorem relevel_standing {t : Ticking W} (h : Standing t.world rules pos facts) {f : FluidState}
    (hf : f.kind = some rules.kind) : ∃ b, (relevel t pos facts f).2 = b ∧
      Standing (relevel t pos facts f).1.world rules pos b ∧ (b.fluid = f ∨ b.fluid = .water .fullSource) := by
  obtain ⟨b, hb, hfluid⟩ := h.placed hf
  have hstands := hb.notifyNeighbors pos t.outcome
  refine ⟨b, ?_, hstands, hfluid⟩
  unfold relevel
  dsimp only
  rw [hstands.at_pos, Option.getD_some]

/-- What feeds the cell feeds it when it re-levelled, away from the corners. -/
theorem relevel_fed {t : Ticking W} {f : FluidState} {b : BlockFacts} (hwater : rules.kind = .water)
    (hdown : pos.offset .down = pos) (hcorner : ¬ Corner pos) (hopens : canPassThroughWall b b = true)
    (h : Fed t.world rules pos facts) : Fed (relevel t pos facts f).1.world rules pos b := by
  have hfeeds : ∀ {dir n}, pos.offset dir ≠ pos → Feeds t.world rules pos facts dir n →
      Feeds (relevel t pos facts f).1.world rules pos b dir n := by
    intro dir n hne hn
    refine ⟨?_, hn.kind, ?_⟩
    · have hlava : n.fluid.kind ≠ some .lava := by
        rw [hn.kind, hwater]
        exact nofun
      refine notifyNeighbors_induct (P := fun w => FluidWorld.facts w (pos.offset dir) = some n)
        (fun w k p o hw => shouldSpreadLiquid_kept w k p o hw hlava) ?_ pos t.outcome
      exact (PouringWorld.placeFluid_ne t.world f hne).trans hn.at_side
    · have hn := hn.opens
      unfold canPassThroughWall at hopens hn ⊢
      grind
  obtain ⟨n, hn⟩ | ⟨dir, hdir, n, hn, hamount⟩ := h
  · exact .inl ⟨n, hfeeds (up_ne_of_down hdown) hn⟩
  · exact .inr ⟨dir, hdir, n, hfeeds (fun hstill => hcorner ⟨hdown, dir, hdir, hstill⟩) hn, hamount⟩

/-- What a tick spreads from: nothing, or a cell that stands, carries its fluid, and is fed if it
stands on itself. -/
structure Ready (t : Ticking W) (rules : FluidRules) (pos : Pos) (facts : BlockFacts) (fluid : FluidState) :
    Prop where
  standing : Standing t.world rules pos facts
  carries : Carries facts fluid
  bottom : rules.kind = .water → pos.offset .down = pos → canMaybePassThrough rules facts facts = true →
    Fed t.world rules pos facts

theorem Carries.of_getNewLiquid {w : W} {b : BlockFacts}
    (h : (getNewLiquid w rules pos facts).amount ≤ b.fluid.amount) : Carries b (getNewLiquid w rules pos facts) :=
  ⟨h, getNewLiquid_falling⟩

theorem flowOn_ready {t : Ticking W} (h : Standing t.world rules pos facts)
    (hcorner : ¬ (rules.kind = .water ∧ Corner pos)) (now : Nat) (random : R) :
    (flowOn t rules pos facts facts.fluid now random).2.2.isEmpty = true ∨
      Ready (flowOn t rules pos facts facts.fluid now random).1.1 rules pos
        (flowOn t rules pos facts facts.fluid now random).2.1
        (flowOn t rules pos facts facts.fluid now random).2.2 := by
  unfold flowOn
  by_cases hsource : facts.fluid.isSource = true
  · rw [if_pos hsource]
    refine .inr ⟨h, ⟨le_rfl, fun _ => FluidState.amount_of_isSource hsource⟩, fun _ _ hpass => ?_⟩
    -- a source does not flow into itself
    unfold canMaybePassThrough FluidState.isSourceOfKind at hpass
    simp [h.kind, hsource] at hpass
  rw [if_neg hsource]
  dsimp only
  have hkind := getNewLiquid_kind t.world rules pos facts
  by_cases hempty : (getNewLiquid t.world rules pos facts).isEmpty = true
  · rw [if_pos hempty]
    exact .inl hempty
  rw [if_neg hempty]
  have hsome : (getNewLiquid t.world rules pos facts).kind = some rules.kind := by
    refine hkind.resolve_left fun hnone => hempty ?_
    rw [FluidState.kind_eq_none] at hnone
    rw [hnone]
    rfl
  have hfed := (getNewLiquid_iff t.world rules pos facts).mp hsome
  by_cases hsame : getNewLiquid t.world rules pos facts = facts.fluid
  · rw [if_neg (not_not.mpr hsame)]
    refine .inr ⟨h, ?_, fun _ _ _ => hfed⟩
    have hcarries := Carries.of_getNewLiquid (b := facts) (by rw [hsame] : (getNewLiquid t.world rules pos
      facts).amount ≤ facts.fluid.amount)
    rwa [hsame] at hcarries
  · rw [if_pos hsame]
    right
    obtain ⟨b, hb, hstands, hfluid⟩ := @relevel_standing _ _ rules pos facts
      { t with outcome := { t.outcome with levelChanged := true } } h _ hsome
    dsimp only
    rw [hb]
    refine ⟨hstands, Carries.of_getNewLiquid ?_, fun hwater hdown hpass => ?_⟩
    · obtain hfluid | hfluid := hfluid
      · rw [hfluid]
      · rw [hfluid]
        exact FluidState.amount_le _
    · exact relevel_fed (t := { t with outcome := { t.outcome with levelChanged := true } }) hwater hdown
        (fun hc => hcorner ⟨hwater, hc⟩) (opens_of_canMaybePassThrough hpass) hfed

/-! ## No block is erased -/

/-- No cell turned to air. -/
def NoNewAir (w w' : W) : Prop := ∀ q, AirAt w' q → AirAt w q

theorem setBlockNamed_noNewAir (w : W) (p : Pos) {name : String} (hname : name ∈ [STONE, COBBLESTONE, OBSIDIAN]) :
    NoNewAir w (FluidWorld.setBlockNamed w p name).1 := by
  intro q ⟨b, hb, hair, hempty⟩
  by_cases hq : q = p
  · subst hq
    obtain ⟨-, hsolid⟩ | hsame := PouringWorld.setBlockNamed_self w hname hb
    · rw [hair] at hsolid
      exact nomatch hsolid
    · exact ⟨b, hsame, hair, hempty⟩
  · exact ⟨b, by rw [← hb, PouringWorld.setBlockNamed_ne w name hq], hair, hempty⟩

theorem placeFluid_noNewAir (w : W) (p : Pos) {f : FluidState} {kind : FluidKind} (hf : f.kind = some kind) :
    NoNewAir w (FluidWorld.placeFluid w p f).1 := by
  intro q ⟨b, hb, hair, hempty⟩
  by_cases hq : q = p
  · subst hq
    have hkind := (placeFluid_kind hf hb).1
    rw [hempty] at hkind
    exact nomatch hkind
  · exact ⟨b, by rw [← hb, PouringWorld.placeFluid_ne w f hq], hair, hempty⟩

theorem shouldSpreadLiquid_noNewAir {w w' : W} (h : NoNewAir w w') (kind : FluidKind) (p : Pos)
    (o : FluidTickOutcome) : NoNewAir w (shouldSpreadLiquid w' kind p o).1.1 := by
  obtain hsame | ⟨name, hname, hset, -⟩ := shouldSpreadLiquid_cases w' kind p o
  · rw [hsame]
    exact h
  · rw [hset]
    exact fun q hq => h q (setBlockNamed_noNewAir w' p hname q hq)

theorem notifyNeighbors_noNewAir {w w' : W} (h : NoNewAir w w') (p : Pos) (o : FluidTickOutcome) :
    NoNewAir w (notifyNeighbors w' p o).1 :=
  notifyNeighbors_induct (P := NoNewAir w) (fun _ k p o h => shouldSpreadLiquid_noNewAir h k p o) h p o

/-- Calls that carry fluid leave no air. -/
theorem calls_noNewAir {w : W} {calls : List SpreadCall} (hcalls : ∀ c ∈ calls, c.fluid.kind = some rules.kind)
    (now : Nat) {t : Ticking W} (h : NoNewAir w t.world) :
    NoNewAir w (calls.foldl (SpreadCall.run rules now) t).world := by
  apply List.foldlRecOn (motive := fun t : Ticking W => NoNewAir w t.world) _ _ h
  intro t ht c hc
  refine spreadTo_induct (P := NoNewAir w) (fun _ k p o h => shouldSpreadLiquid_noNewAir h k p o) ?_ ?_
  · exact fun q hq => ht q (setBlockNamed_noNewAir t.world c.pos (.head _) q hq)
  · exact fun q hq => ht q (placeFluid_noNewAir t.world c.pos (hcalls c hc) q hq)

/-- Only the cell itself turns to air as it re-levels, when it has run out. -/
theorem flowOn_air {t : Ticking W} {now : Nat} {random : R} {q : Pos}
    (h : AirAt (flowOn t rules pos facts facts.fluid now random).1.1.world q) :
    AirAt t.world q ∨ (q = pos ∧ facts.fluid.isSource = false ∧ getNewLiquid t.world rules pos facts = .empty) := by
  unfold flowOn at h
  by_cases hsource : facts.fluid.isSource = true
  · rw [if_pos hsource] at h
    exact .inl h
  rw [if_neg hsource] at h
  dsimp only at h
  by_cases hempty : (getNewLiquid t.world rules pos facts).isEmpty = true
  · rw [if_pos hempty] at h
    have hout : getNewLiquid t.world rules pos facts = .empty := of_decide_eq_true hempty
    by_cases hq : q = pos
    · exact .inr ⟨hq, Bool.eq_false_iff.mpr hsource, hout⟩
    · obtain ⟨b, hb, hair⟩ := notifyNeighbors_noNewAir (fun _ h => h) pos _ q h
      exact .inl ⟨b, (PouringWorld.placeFluid_ne t.world .empty hq).symm.trans hb, hair⟩
  rw [if_neg hempty] at h
  by_cases hsame : getNewLiquid t.world rules pos facts = facts.fluid
  · rw [if_neg (not_not.mpr hsame)] at h
    exact .inl h
  · rw [if_pos hsame] at h
    have hsome := (getNewLiquid_kind t.world rules pos facts).resolve_left fun hnone =>
      hempty (decide_eq_true (FluidState.kind_eq_none.mp hnone))
    have hair := notifyNeighbors_noNewAir (fun _ h => h) pos _ q h
    exact .inl (placeFluid_noNewAir t.world pos hsome q hair)

/-- Every call of `spread_to` that a tick makes carries fluid of the rules' kind, and no cell turns to
air but the ticked one, when it has run out. -/
theorem tick_erases_nothing {world : W} (hfacts : FluidWorld.facts world pos = some facts)
    (hkind : facts.fluid.kind = some rules.kind) (hcorner : ¬ (rules.kind = .water ∧ Corner pos)) (now : Nat)
    (queue : FluidQueue Pos) (random : R) :
    (∀ c ∈ tickCalls world rules pos now queue random, c.fluid.kind = some rules.kind) ∧
    ∀ q, AirAt (tick world rules pos now queue random).1.world q → AirAt world q ∨
      (q = pos ∧ facts.fluid.isSource = false ∧ getNewLiquid world rules pos facts = .empty) := by
  have hempty : ¬ facts.fluid.isEmpty = true := by
    intro hempty
    rw [of_decide_eq_true hempty] at hkind
    cases hkind
  cases hkeeps : (shouldSpreadLiquid world rules.kind pos {}).2 with
  | false =>
    have hnone : spreadStart world rules pos now queue random = none := by
      unfold spreadStart
      rw [hfacts]
      dsimp only
      rw [if_neg hempty, hkeeps]
      rfl
    refine ⟨fun c hc => ?_, fun q hq => .inl ?_⟩
    · rw [tickCalls, hnone] at hc
      cases hc
    · unfold tick at hq
      rw [hfacts] at hq
      dsimp only at hq
      rw [if_neg hempty, hkeeps] at hq
      exact notifyNeighbors_noNewAir (shouldSpreadLiquid_noNewAir (fun _ h => h) rules.kind pos {}) pos _ q hq
  | true =>
    have hsame := shouldSpreadLiquid_keeps hkeeps
    have hstart : spreadStart world rules pos now queue random = some (flowOn
        ⟨world, queue, (shouldSpreadLiquid world rules.kind pos {}).1.2⟩ rules pos facts facts.fluid now random) := by
      unfold spreadStart
      rw [hfacts]
      dsimp only
      rw [if_neg hempty, hkeeps, hsame]
      rfl
    have hstands : Standing world rules pos facts := by
      refine ⟨hfacts, hkind, fun hl dir hdir => ?_⟩
      rw [hl] at hkeeps
      refine dry_of_keeps hkeeps ?_ hdir
      rw [kindAt, hfacts, Option.bind_some, hkind, hl]
    have hcalls : ∀ c ∈ tickCalls world rules pos now queue random, c.fluid.kind = some rules.kind := by
      intro c hc
      rw [tickCalls, hstart] at hc
      dsimp only at hc
      obtain hout | hready := @flowOn_ready _ _ _ _ rules pos facts
        ⟨world, queue, (shouldSpreadLiquid world rules.kind pos {}).1.2⟩ hstands hcorner now random
      · unfold spreadCalls at hc
        rw [if_pos hout] at hc
        cases hc
      · exact spreadCalls_kind hready.standing hready.carries hready.bottom now c hc
    refine ⟨hcalls, fun q hq => ?_⟩
    rw [tickCalls_fold hstart] at hq
    exact flowOn_air (t := ⟨world, queue, (shouldSpreadLiquid world rules.kind pos {}).1.2⟩)
      (calls_noNewAir hcalls now (fun _ h => h) q hq)

end Pouring

instance : PouringWorld Cells where
  toFluidWorld := LawfulFluidWorld.toFluidWorld
  placeFluid_ne := LawfulFluidWorld.placeFluid_ne
  placeFluid_loaded w {p} f h := by
    obtain ⟨b, hb⟩ := Option.isSome_iff_exists.mp h
    simp only [FluidWorld.facts] at hb
    simp [FluidWorld.facts, FluidWorld.placeFluid, Cells.write, hb]
  placeFluid_self {w p f b} h := by
    cases hp : w.facts p with
    | none => simp [FluidWorld.facts, FluidWorld.placeFluid, hp] at h
    | some b' =>
      simp only [FluidWorld.facts, FluidWorld.placeFluid, hp, Cells.write, Function.update_self,
        Option.some.injEq] at h
      subst h
      grind [Cells.poured, FluidState.isEmpty, BlockFacts.container, FluidState.kind, BlockFacts.ofFluid,
        BlockFacts.ofAir]
  setBlockNamed_ne := LawfulFluidWorld.setBlockNamed_ne
  setBlockNamed_self {w p _ b} _ h := by
    cases hp : w.facts p with
    | none => simp [FluidWorld.facts, FluidWorld.setBlockNamed, hp] at h
    | some b' =>
      simp only [FluidWorld.facts, FluidWorld.setBlockNamed, hp, Cells.write, Function.update_self,
        Option.some.injEq] at h
      exact .inl (h ▸ ⟨rfl, rfl⟩)

/-- Water of one level in the open. -/
def waterAt (pos : Pos) (body : FluidBody) : Cells :=
  ⟨fun p => some (if p = pos then .ofFluid 86 (.water body) else .ofAir 0)⟩

theorem waterSource_erases_nothing :
    (∀ c ∈ tickCalls (waterAt origin .fullSource) ⟨.water, false, true⟩ origin 5 .new (), c.fluid.kind = some .water) ∧
    ∀ q, AirAt (tick (waterAt origin .fullSource) ⟨.water, false, true⟩ origin 5 .new ()).1.world q →
      AirAt (waterAt origin .fullSource) q ∨ (q = origin ∧ (FluidState.water .fullSource).isSource = false ∧
        getNewLiquid (waterAt origin .fullSource) ⟨.water, false, true⟩ origin
          (.ofFluid 86 (.water .fullSource)) = .empty) :=
  tick_erases_nothing
    (rfl : FluidWorld.facts (waterAt origin .fullSource) origin = some (.ofFluid 86 (.water .fullSource))) rfl
    (fun h => absurd h.2.1 (by decide)) 5 .new ()

/-- The lowest cell of the easternmost column. -/
def lowEast : Pos := ⟨.MAX, .MIN, .zero⟩

/-- Water of two levels in a corner reads itself, takes one level, reads itself again and places nothing
over itself. -/
theorem cornerWater_erased : ¬ ∀ (world : Cells) (rules : FluidRules) (pos : Pos) (facts : BlockFacts),
    FluidWorld.facts world pos = some facts → facts.fluid.kind = some rules.kind →
      ∀ c ∈ tickCalls world rules pos 0 .new (), c.fluid.kind = some rules.kind := by
  intro hall
  have hcalls := hall (waterAt lowEast (.flowing 2)) ⟨.water, false, true⟩ lowEast _ rfl rfl
  revert hcalls
  decide

end Apoptosis.L2.Fluid
