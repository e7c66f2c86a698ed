import Apoptosis.L2Fluid.Flow
/-!
# Lava never rests beside water

`LavaApart` says that no loaded lava cell has water on one of its four sides or
above it. A write can only spoil it at the written cell and at the cells beside
it. `on_place` mends the first and `notify_neighbors` the others, and both only
ever take fluid away, so one level of notification is enough.

* `shouldSpreadLiquid_rests`: a cell that re-evaluated itself rests.
* `settles`: what a write, its `on_place` and its notification leave.
* `lava_never_rests_beside_water`: every tick, every placement, every run of both.
-/
namespace Apoptosis.L2.Fluid
open Apoptosis.Core

section World

variable {W : Type} [FluidWorld W]

/-- The fluid of a loaded cell. -/
def kindAt (w : W) (p : Pos) : Option FluidKind := (FluidWorld.facts w p).bind (·.fluid.kind)

/-- The cell is not lava with water on a side or above. -/
def Rests (w : W) (p : Pos) : Prop :=
  kindAt w p = some .lava → ∀ dir, dir ≠ .down → kindAt w (p.offset dir) ≠ some .water

def LavaApart (w : W) : Prop := ∀ p, Rests w p

/-- The second world is the first with fluid gone from some cells. -/
def Drained (w w' : W) : Prop := ∀ p, kindAt w' p = kindAt w p ∨ kindAt w' p = none

/-- The second world is the first with another block in one cell. -/
def WritesAt (p : Pos) (w w' : W) : Prop :=
  ∀ q, q ≠ p → FluidWorld.facts w' q = FluidWorld.facts w q

/-- A write from outside the rules, followed by what `Level.setBlock` runs after it. -/
def placed (w : W) (p : Pos) (o : FluidTickOutcome) : W :=
  (notifyNeighbors (onPlace w p o).1.1 p (onPlace w p o).1.2).1

theorem Drained.refl (w : W) : Drained w w := fun _ => .inl rfl

theorem Drained.trans {w w' w'' : W} (h : Drained w w') (h' : Drained w' w'') : Drained w w'' := by
  intro p
  obtain hp' | hp' := h' p
  · rw [hp']
    exact h p
  · exact .inr hp'

theorem Drained.rests {w w' : W} {p : Pos} (h : Drained w w') (hp : Rests w p) : Rests w' p := by
  intro hl dir hd hw
  have hl' : kindAt w p = some .lava := by
    obtain h | h := h p <;> simp_all
  have hw' : kindAt w (p.offset dir) = some .water := by
    obtain h | h := h (p.offset dir) <;> simp_all
  exact hp hl' dir hd hw'

theorem Drained.apart {w w' : W} (h : Drained w w') (hw : LavaApart w) : LavaApart w' :=
  fun p => h.rests (hw p)

theorem WritesAt.kindAt {p q : Pos} {w w' : W} (h : WritesAt p w w') (hq : q ≠ p) :
    kindAt w' q = kindAt w q := by
  simp only [Fluid.kindAt, h q hq]

/-- Another block in one cell leaves every cell at rest that is neither it nor beside it. -/
theorem WritesAt.rests {p q : Pos} {w w' : W} (h : WritesAt p w w') (hw : LavaApart w)
    (hq : q ≠ p) (hn : ∀ dir, q ≠ p.offset dir) : Rests w' q := by
  intro hl dir hd
  rw [h.kindAt hq] at hl
  by_cases hqd : q.offset dir = p
  · -- the written cell is a neighbour of `q`, so `q` is one of its own
    obtain hs | hs := q.offset_back dir
    · exact absurd (hs.symm.trans hqd) hq
    · exact absurd (hqd ▸ hs.symm) (hn dir.opposite)
  · rw [h.kindAt hqd]
    exact hw q hl dir hd

/-- A write that leaves the cell's kind of fluid, or takes the fluid away, spoils nothing. -/
theorem WritesAt.apart {p : Pos} {w w' : W} (h : WritesAt p w w') (hw : LavaApart w)
    (hk : Fluid.kindAt w' p = Fluid.kindAt w p ∨ Fluid.kindAt w' p = none) : LavaApart w' := by
  refine Drained.apart (fun q => ?_) hw
  by_cases hq : q = p
  · exact hq ▸ hk
  · exact .inl (h.kindAt hq)

/-- The probed faces, turned around, are every face but the one below. -/
theorem probed_iff (dir : Dir) : (∃ d ∈ POSSIBLE_FLOW_DIRECTIONS, d.opposite = dir) ↔ dir ≠ .down := by
  cases dir <;> decide

theorem waterAdjacent_iff (w : W) (p : Pos) :
    (POSSIBLE_FLOW_DIRECTIONS.any fun dir =>
      (FluidWorld.facts w (p.offset dir.opposite)).any (·.fluid.kind = some .water)) = true ↔
      ∃ dir, dir ≠ .down ∧ kindAt w (p.offset dir) = some .water := by
  simp only [← probed_iff, List.any_eq_true, Option.any_eq_true, decide_eq_true_eq, kindAt,
    Option.bind_eq_some_iff]
  constructor
  · intro ⟨d, hd, h⟩
    exact ⟨d.opposite, ⟨d, hd, rfl⟩, h⟩
  · intro ⟨_, ⟨d, hd, hdir⟩, h⟩
    exact ⟨d, hd, hdir ▸ h⟩

/-! ## What the rules place -/

theorem getNewLiquid_kind (w : W) (rules : FluidRules) (p : Pos) (b : BlockFacts) :
    (getNewLiquid w rules p b).kind = none ∨ (getNewLiquid w rules p b).kind = some rules.kind := by
  unfold getNewLiquid
  dsimp only
  split
  · right
    cases rules.kind <;> rfl
  · split
    · right
      cases rules.kind <;> rfl
    · split
      · exact .inl rfl
      · right
        cases h : rules.kind <;> simp [flowingState, FluidState.kind]

/-- What a step of `get_spread` proposes was proposed before, or is what `get_new_liquid` makes of
the neighbour. -/
theorem mem_spreadStep {w : W} {rules : FluidRules} {p : Pos} {b : BlockFacts}
    {acc : Nat × List (Dir × FluidState)} {dir : Dir} {side : Dir × FluidState}
    (h : side ∈ (spreadStep w rules p b acc dir).2) :
    side ∈ acc.2 ∨ ∃ nb, FluidWorld.facts w (p.offset dir) = some nb ∧ canMaybePassThrough rules b nb = true ∧
      side = (dir, getNewLiquid w rules (p.offset dir) nb) := by
  unfold spreadStep at h
  dsimp only at h
  split at h
  · exact .inl h
  · rename_i nb hnb
    split at h
    · exact .inl h
    · rename_i hpass
      split at h
      · exact .inl h
      · have hkept : ∀ {d : Nat}, side ∈ (if d < acc.1 then [] else acc.2) → side ∈ acc.2 := by
          intro d hs
          split at hs
          · cases hs
          · exact hs
        split at h
        · dsimp only at h
          split at h
          · obtain hs | hs := List.mem_append.mp h
            · exact .inl (hkept hs)
            · rw [List.mem_singleton] at hs
              exact .inr ⟨nb, hnb, by simpa using hpass, hs⟩
          · exact .inl (hkept h)
        · exact .inl (hkept h)

theorem mem_getSpread {w : W} {rules : FluidRules} {p : Pos} {b : BlockFacts} {side : Dir × FluidState}
    (h : side ∈ getSpread w rules p b) : side.1 ∈ Dir.HORIZONTAL ∧ ∃ nb,
      FluidWorld.facts w (p.offset side.1) = some nb ∧ canMaybePassThrough rules b nb = true ∧
        side.2 = getNewLiquid w rules (p.offset side.1) nb := by
  suffices H : ∀ (dirs : List Dir) (acc : Nat × List (Dir × FluidState)),
      side ∈ (dirs.foldl (spreadStep w rules p b) acc).2 → side ∈ acc.2 ∨ side.1 ∈ dirs ∧ ∃ nb,
        FluidWorld.facts w (p.offset side.1) = some nb ∧ canMaybePassThrough rules b nb = true ∧
          side.2 = getNewLiquid w rules (p.offset side.1) nb by
    obtain hs | hs := H Dir.HORIZONTAL (1000, []) h
    · cases hs
    · exact hs
  intro dirs
  induction dirs with
  | nil => exact fun acc hs => .inl hs
  | cons dir dirs ih =>
    intro acc hs
    obtain hs | ⟨hdir, hs⟩ := ih _ hs
    · obtain hs | ⟨nb, hnb, hpass, rfl⟩ := mem_spreadStep hs
      · exact .inl hs
      · exact .inr ⟨.head _, nb, hnb, hpass, rfl⟩
    · exact .inr ⟨.tail _ hdir, hs⟩

theorem getSpread_kind {w : W} {rules : FluidRules} {p : Pos} {b : BlockFacts}
    {side : Dir × FluidState} (h : side ∈ getSpread w rules p b) :
    side.2.kind = none ∨ side.2.kind = some rules.kind := by
  obtain ⟨-, nb, -, -, hs⟩ := mem_getSpread h
  rw [hs]
  exact getNewLiquid_kind w rules _ nb

/-- A cell that may keep flowing was not written to. -/
theorem shouldSpreadLiquid_keeps {w : W} {kind : FluidKind} {p : Pos} {o : FluidTickOutcome}
    (h : (shouldSpreadLiquid w kind p o).2 = true) : (shouldSpreadLiquid w kind p o).1.1 = w := by
  unfold shouldSpreadLiquid at h ⊢
  grind

end World

section Lawful

variable {W : Type} [LawfulFluidWorld W]

theorem setBlockNamed_drained (w : W) (p : Pos) (name : String) :
    Drained w (FluidWorld.setBlockNamed w p name).1 := by
  intro q
  by_cases hq : q = p
  · right
    subst hq
    cases h : FluidWorld.facts (FluidWorld.setBlockNamed w q name).1 q with
    | none => simp [kindAt, h]
    | some b => simp [kindAt, h, LawfulFluidWorld.setBlockNamed_self w h]
  · left
    simp only [kindAt, LawfulFluidWorld.setBlockNamed_ne w name hq]

theorem setBlockNamed_kindAt (w : W) (p : Pos) (name : String) :
    kindAt (FluidWorld.setBlockNamed w p name).1 p = none := by
  cases h : FluidWorld.facts (FluidWorld.setBlockNamed w p name).1 p with
  | none => simp [kindAt, h]
  | some b => simp [kindAt, h, LawfulFluidWorld.setBlockNamed_self w h]

theorem placeFluid_writesAt (w : W) (p : Pos) (f : FluidState) :
    WritesAt p w (FluidWorld.placeFluid w p f).1 :=
  fun _ hq => LawfulFluidWorld.placeFluid_ne w f hq

/-- The written cell holds a fluid of the kind asked for, or what it held before. -/
theorem placeFluid_kindAt (w : W) (p : Pos) (f : FluidState) :
    kindAt (FluidWorld.placeFluid w p f).1 p = f.kind ∨
      kindAt (FluidWorld.placeFluid w p f).1 p = kindAt w p ∨
      kindAt (FluidWorld.placeFluid w p f).1 p = none := by
  cases h : FluidWorld.facts (FluidWorld.placeFluid w p f).1 p with
  | none => simp [kindAt, h]
  | some b =>
    obtain hf | ⟨_, hf, hb⟩ | hs := LawfulFluidWorld.placeFluid_self w h
    · simp [kindAt, h, hf]
    · simp [kindAt, h, hf, hb]
    · simp [kindAt, h, hs]

/-! ## A cell re-evaluates itself, and its neighbours do -/

theorem shouldSpreadLiquid_drained (w : W) (kind : FluidKind) (p : Pos) (o : FluidTickOutcome) :
    Drained w (shouldSpreadLiquid w kind p o).1.1 := by
  unfold shouldSpreadLiquid
  split
  · exact .refl w
  · split
    · exact .refl w
    · dsimp only
      split
      · exact .refl w
      · split
        · exact .refl w
        · exact setBlockNamed_drained w p _

/-- A cell that ran `should_spread_liquid` under its own kind rests: it was not lava, or saw no
water, or is lava no more. -/
theorem shouldSpreadLiquid_rests (w : W) {kind : FluidKind} {p : Pos} (o : FluidTickOutcome)
    (hk : kindAt w p = some .lava → kind = .lava) :
    Rests (shouldSpreadLiquid w kind p o).1.1 p := by
  unfold shouldSpreadLiquid
  split
  · rename_i hn
    intro hl
    exact absurd (hk hl) hn
  · split
    · rename_i hf
      intro hl
      simp [kindAt, hf] at hl
    · rename_i b hf
      dsimp only
      split
      · rename_i hb
        intro hl
        exact absurd (by simpa [kindAt, hf] using hl) hb
      · split
        · rename_i hw
          intro _ dir hd hwater
          have hadj := (waterAdjacent_iff w p).mpr ⟨dir, hd, hwater⟩
          rw [hadj] at hw
          exact absurd hw (by simp)
        · intro hl
          rw [setBlockNamed_kindAt] at hl
          cases hl

theorem notifyNeighbor_drained (p : Pos) (s : W × FluidTickOutcome) (dir : Dir) :
    Drained s.1 (notifyNeighbor p s dir).1 := by
  unfold notifyNeighbor
  dsimp only
  split
  · exact .refl s.1
  · exact shouldSpreadLiquid_drained s.1 _ _ _

theorem notifyNeighbor_rests (p : Pos) (s : W × FluidTickOutcome) (dir : Dir) :
    Rests (notifyNeighbor p s dir).1 (p.offset dir) := by
  unfold notifyNeighbor
  dsimp only
  split
  · rename_i hk
    intro hl
    rw [kindAt, hk] at hl
    cases hl
  · rename_i kind hk
    apply shouldSpreadLiquid_rests
    intro hl
    rw [kindAt, hk] at hl
    exact Option.some.inj hl

theorem notify_foldl (p : Pos) (dirs : List Dir) (s : W × FluidTickOutcome) :
    Drained s.1 (dirs.foldl (notifyNeighbor p) s).1 ∧
      ∀ dir ∈ dirs, Rests (dirs.foldl (notifyNeighbor p) s).1 (p.offset dir) := by
  induction dirs generalizing s with
  | nil => exact ⟨.refl s.1, nofun⟩
  | cons d dirs ih =>
    obtain ⟨hdrained, hrests⟩ := ih (notifyNeighbor p s d)
    refine ⟨(notifyNeighbor_drained p s d).trans hdrained, ?_⟩
    intro dir hdir
    obtain rfl | hdir := List.mem_cons.mp hdir
    · exact hdrained.rests (notifyNeighbor_rests p s dir)
    · exact hrests dir hdir

theorem notifyNeighbors_drained (w : W) (p : Pos) (o : FluidTickOutcome) :
    Drained w (notifyNeighbors w p o).1 :=
  (notify_foldl p UPDATE_ORDER (w, o)).1

theorem notifyNeighbors_rests (w : W) (p : Pos) (o : FluidTickOutcome) (dir : Dir) :
    Rests (notifyNeighbors w p o).1 (p.offset dir) :=
  (notify_foldl p UPDATE_ORDER (w, o)).2 dir (by cases dir <;> decide)

/-- A world that one write made out of one at rest, whose written cell re-evaluated itself, is at
rest once the neighbours did as well. -/
theorem settles {p : Pos} {w w' w'' : W} (hw : LavaApart w) (hp : WritesAt p w w')
    (hd : Drained w' w'') (hr : Rests w'' p) (o : FluidTickOutcome) :
    LavaApart (notifyNeighbors w'' p o).1 := by
  intro q
  have hn := notifyNeighbors_drained w'' p o
  by_cases hq : q = p
  · exact hq ▸ hn.rests hr
  · by_cases hside : ∃ dir, q = p.offset dir
    · obtain ⟨dir, rfl⟩ := hside
      exact notifyNeighbors_rests w'' p o dir
    · exact hn.rests (hd.rests (hp.rests hw hq fun dir h => hside ⟨dir, h⟩))

/-! ## The writes of a tick -/

theorem spreadTo_apart {t : Ticking W} {rules : FluidRules} {p : Pos} {b : BlockFacts} {dir : Dir}
    {f : FluidState} {now : Nat} (ht : LavaApart t.world)
    (hf : f.kind = none ∨ f.kind = some rules.kind) :
    LavaApart (spreadTo t rules p b dir f now).world := by
  have hplace := placeFluid_writesAt t.world p f
  have hkind := placeFluid_kindAt t.world p f
  unfold spreadTo
  split
  · exact (notifyNeighbors_drained _ p _).apart ((setBlockNamed_drained t.world p STONE).apart ht)
  · dsimp only
    split
    · rename_i hempty
      have hnone : f.kind = none := by simpa [FluidState.isEmpty] using hempty
      refine (notifyNeighbors_drained _ p _).apart (hplace.apart ht ?_)
      rw [hnone] at hkind
      grind
    · refine settles ht hplace (shouldSpreadLiquid_drained _ rules.kind p _) ?_ _
      -- the written cell holds what the rules flow, and ran them, or what it held before
      obtain hk | hk := hkind
      · apply shouldSpreadLiquid_rests
        intro hl
        grind
      · exact (shouldSpreadLiquid_drained _ rules.kind p _).rests (hplace.apart ht hk p)

theorem spreadToSides_apart {t : Ticking W} {rules : FluidRules} {p : Pos} {b : BlockFacts}
    {f : FluidState} {now : Nat} (ht : LavaApart t.world) :
    LavaApart (spreadToSides t rules p b f now).world := by
  simp only [spreadToSides]
  by_cases ha : (if f.isFalling then 7 else (f.amount : Int) - rules.dropOff) ≤ 0
  · rw [if_pos ha]
    exact ht
  · rw [if_neg ha]
    apply List.foldlRecOn (motive := fun t : Ticking W => LavaApart t.world) _ _ ht
    intro t ht side hside
    unfold spreadToSide
    dsimp only
    split
    · exact ht
    · exact spreadTo_apart ht (getSpread_kind hside)

theorem spread_apart {t : Ticking W} {rules : FluidRules} {p : Pos} {b : BlockFacts} {f : FluidState}
    {now : Nat} (ht : LavaApart t.world) : LavaApart (spread t rules p b f now).world := by
  have hsideways : LavaApart (spreadSideways t rules p b f now).world := by
    unfold spreadSideways
    split
    · exact spreadToSides_apart ht
    · exact ht
  unfold spread
  split
  · exact ht
  · dsimp only
    split
    · exact hsideways
    · split
      · rename_i below _ _
        have hdown : LavaApart (spreadTo t rules (p.offset .down) below .down
            (getNewLiquid t.world rules (p.offset .down) below) now).world :=
          spreadTo_apart ht (getNewLiquid_kind t.world rules (p.offset .down) below)
        split
        · exact spreadToSides_apart hdown
        · exact hdown
      · exact hsideways

theorem relevel_apart {t : Ticking W} {p : Pos} {b : BlockFacts} {f : FluidState}
    (ht : LavaApart t.world) (hf : f.kind = none ∨ f.kind = kindAt t.world p) :
    LavaApart (relevel t p b f).1.world := by
  have hkind := placeFluid_kindAt t.world p f
  refine (notifyNeighbors_drained _ p _).apart ((placeFluid_writesAt t.world p f).apart ht ?_)
  grind

/-- The cell re-levels to its own kind, since the rules are its own. -/
theorem flowOn_apart {R : Type} [RandomSource R] {t : Ticking W} {rules : FluidRules} {p : Pos}
    {b : BlockFacts} {f : FluidState} {now : Nat} {random : R} (ht : LavaApart t.world)
    (hk : kindAt t.world p = some rules.kind) :
    LavaApart (flowOn t rules p b f now random).1.1.world := by
  unfold flowOn
  split
  · exact ht
  · dsimp only
    split
    · exact relevel_apart (t := { t with outcome := _ }) (b := b) ht (.inl rfl)
    · split
      · refine relevel_apart (t := { t with outcome := _ }) (b := b)
          (f := getNewLiquid t.world rules p b) ht ?_
        rw [hk]
        exact getNewLiquid_kind t.world rules p b
      · exact ht

theorem tick_apart {R : Type} [RandomSource R] {w : W} {rules : FluidRules} {p : Pos} {now : Nat}
    {queue : FluidQueue Pos} {random : R} (hw : LavaApart w)
    (hk : ∀ k, kindAt w p = some k → rules.kind = k) :
    LavaApart (tick w rules p now queue random).1.world := by
  unfold tick
  split
  · exact hw
  · rename_i b hb
    split
    · exact hw
    · dsimp only
      split
      · exact (notifyNeighbors_drained _ p _).apart
          ((shouldSpreadLiquid_drained w rules.kind p _).apart hw)
      · rename_i hempty hkeeps
        have hsame : (shouldSpreadLiquid w rules.kind p {}).1.1 = w :=
          shouldSpreadLiquid_keeps (by simpa using hkeeps)
        apply spread_apart
        apply flowOn_apart
        · rw [hsame]
          exact hw
        · rw [hsame]
          have hkind : kindAt w p = b.fluid.kind := by simp [kindAt, hb]
          cases hf : b.fluid.kind with
          | none =>
            rw [FluidState.kind_eq_none] at hf
            simp [FluidState.isEmpty, hf] at hempty
          | some k => rw [hkind, hf, hk k (hkind.trans hf)]

theorem onPlace_drained (w : W) (p : Pos) (o : FluidTickOutcome) :
    Drained w (onPlace w p o).1.1 := by
  unfold onPlace
  split
  · exact .refl w
  · exact shouldSpreadLiquid_drained w _ p o

theorem onPlace_rests (w : W) (p : Pos) (o : FluidTickOutcome) : Rests (onPlace w p o).1.1 p := by
  unfold onPlace
  split
  · rename_i hk
    intro hl
    rw [kindAt, hk] at hl
    cases hl
  · rename_i kind hk
    apply shouldSpreadLiquid_rests
    intro hl
    rw [kindAt, hk] at hl
    exact Option.some.inj hl

theorem placed_apart {p : Pos} {w w' : W} (hw : LavaApart w) (hp : WritesAt p w w')
    (o : FluidTickOutcome) : LavaApart (placed w' p o) :=
  settles hw hp (onPlace_drained w' p o) (onPlace_rests w' p o) _

end Lawful

/-! ## A world of facts -/

/-- A world that is its facts, written as crates/server/src/game/fluids.rs writes the server's. -/
structure Cells where
  facts : Pos → Option BlockFacts

namespace Cells

def write (w : Cells) (p : Pos) (b : BlockFacts) : Cells := ⟨Function.update w.facts p (some b)⟩

/-- The block a placed fluid leaves. -/
def poured (b : BlockFacts) (f : FluidState) : BlockFacts :=
  if f.isEmpty then
    if b.waterContainer then .container b.id false b.fullCube else .ofAir 0
  else if f.kind = some .water ∧ b.waterContainer ∧ !b.waterlogged then
    .container b.id true b.fullCube
  else .ofFluid 0 f

instance : LawfulFluidWorld Cells where
  facts := facts
  placeFluid w p f :=
    match w.facts p with
    | none => (w, false)
    | some b => (w.write p (poured b f), poured b f ≠ b)
  setBlockNamed w p _ :=
    match w.facts p with
    | none => (w, false)
    | some b => (w.write p (.solid 1), .solid 1 ≠ b)
  placeFluid_ne w p q f h := by
    split <;> simp [write, h]
  placeFluid_self {w p f b} h := by
    cases hp : w.facts p with
    | none => simp [hp] at h
    | some b' =>
      simp only [hp, write, Function.update_self, Option.some.injEq] at h
      subst h
      grind [poured, FluidState.isEmpty, BlockFacts.container, FluidState.kind, BlockFacts.ofFluid,
        BlockFacts.ofAir]
  setBlockNamed_ne w p q _ h := by
    split <;> simp [write, h]
  setBlockNamed_self {w p _ b} h := by
    cases hp : w.facts p with
    | none => simp [hp] at h
    | some b' =>
      simp only [hp, write, Function.update_self, Option.some.injEq] at h
      rw [← h]
      rfl

end Cells

/-! ## Every run -/

/-- What changes a world: a due tick under the rules of the fluid there, or a write of one cell from
outside the rules. -/
inductive FluidStep (R : Type) [RandomSource R] {W : Type} [FluidWorld W] : W → W → Prop
  | tick (w : W) (rules : FluidRules) (p : Pos) (now : Nat) (queue : FluidQueue Pos) (random : R)
      (hk : ∀ k, kindAt w p = some k → rules.kind = k) :
      FluidStep R w (tick w rules p now queue random).1.world
  | place (w w' : W) (p : Pos) (o : FluidTickOutcome) (hp : WritesAt p w w') :
      FluidStep R w (placed w' p o)

/-- **Lava never rests beside water**, after any tick, any placement and any run of both. -/
theorem lava_never_rests_beside_water (R : Type) [RandomSource R] {W : Type} [LawfulFluidWorld W] :
    (∀ (w : W) (rules : FluidRules) (p : Pos) (now : Nat) (queue : FluidQueue Pos) (random : R),
      LavaApart w → (∀ k, kindAt w p = some k → rules.kind = k) →
        LavaApart (tick w rules p now queue random).1.world) ∧
    (∀ (w w' : W) (p : Pos) (o : FluidTickOutcome),
      LavaApart w → WritesAt p w w' → LavaApart (placed w' p o)) ∧
    (∀ w w' : W, LavaApart w → Relation.ReflTransGen (FluidStep R) w w' → LavaApart w') := by
  refine ⟨fun w rules p now queue random hw hk => tick_apart hw hk,
    fun w w' p o hw hp => placed_apart hw hp o, ?_⟩
  intro w w' hw hrun
  induction hrun with
  | refl => exact hw
  | tail _ hstep ih =>
    cases hstep with
    | tick rules p now queue random hk => exact tick_apart ih hk
    | place w' p o hp => exact placed_apart ih hp o

/-- Every draw is `0`. -/
instance : RandomSource Unit := ⟨fun _ _ => ((), 0)⟩

def origin : Pos := ⟨.zero, .zero, .zero⟩

/-- A lava source in the open. -/
def lavaSource : Cells :=
  ⟨fun p => some (if p = origin then .ofFluid 102 (.lava .fullSource) else .ofAir 0)⟩

def watered : Cells := lavaSource.write (origin.offset .east) (.ofFluid 86 (.water .fullSource))

/-- Water is placed beside a lava source, its own tick comes due, and whatever happens after. -/
theorem lava_never_rests_beside_water_source :
    LavaApart (placed watered (origin.offset .east) {}) ∧
    LavaApart (tick (placed watered (origin.offset .east) {}) ⟨.water, false, true⟩
      (origin.offset .east) 5 .new ()).1.world ∧
    ∀ w, Relation.ReflTransGen (FluidStep Unit) lavaSource w → LavaApart w := by
  have hsource : LavaApart lavaSource := by
    intro p _ dir _ hw
    simp only [kindAt, lavaSource, FluidWorld.facts, Option.bind_some] at hw
    split at hw <;> cases hw
  have hwrite : WritesAt (origin.offset .east) lavaSource watered := by
    intro q hq
    exact Function.update_of_ne hq _ _
  have hkind : kindAt (placed watered (origin.offset .east) {}) (origin.offset .east) =
      some .water := by decide
  have hrules : ∀ k, kindAt (placed watered (origin.offset .east) {}) (origin.offset .east) =
      some k → FluidKind.water = k := fun k hk => Option.some.inj (hkind.symm.trans hk)
  obtain ⟨hticks, hplaces, hruns⟩ := lava_never_rests_beside_water Unit (W := Cells)
  have hplaced := hplaces _ _ _ {} hsource hwrite
  exact ⟨hplaced, hticks _ _ _ _ _ _ hplaced hrules, fun w => hruns _ w hsource⟩

end Apoptosis.L2.Fluid
