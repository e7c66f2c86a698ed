import Apoptosis.Core.BestFirst
import Apoptosis.Core.I32
import Mathlib.Data.Prod.Lex
import Mathlib.Tactic
/-!
# Paths for walking mobs

The search for a path over block cells, and the moves a walking mob can make.

* `isStandableCounted_iff`, `fallIsClear_iff`: the two questions asked of the world.
* `stepTo_iff`, `mem_neighbours_iff`: the search takes exactly the legal moves.
* `turn_lowers`: a turn of the search lowers a measure of what is left.
-/
namespace Apoptosis.L2.Entities.Pathfind

open Core

/-! ## The world and the limits -/

structure Pos where
  x : I32
  y : I32
  z : I32
  deriving DecidableEq

/-- mirrors crates/entity/src/pathfind.rs:90 (`DIRECTIONS`) -/
def DIRECTIONS : List (I32 × I32) :=
  [(.negOne, .zero), (.one, .zero), (.zero, .negOne), (.zero, .one)]

def MAX_STEP_UP : I32 := .one

def MAX_FALL : Nat := 3

def MAX_CLEARANCE : UInt8 := 4

/-- mirrors crates/entity/src/pathfind.rs:131-134 (`BlockView`) -/
structure BlockView where
  isSolid : I32 → I32 → I32 → Bool

/-- mirrors crates/entity/src/pathfind.rs:142-150 (`SearchLimits`) -/
structure SearchLimits where
  maxNodes : Nat
  maxPathLen : I32
  clearance : UInt8

/-- `u8::clamp`, with the bounds of a clearance. -/
def clampClearance (clearance : UInt8) : UInt8 :=
  if clearance < 1 then 1 else if MAX_CLEARANCE < clearance then MAX_CLEARANCE else clearance

/-- mirrors crates/entity/src/pathfind.rs:181-187 (`SearchLimits::clamped`) -/
def SearchLimits.clamped (limits : SearchLimits) : SearchLimits where
  maxNodes := max limits.maxNodes 1
  maxPathLen := if limits.maxPathLen.val < 1 then .one else limits.maxPathLen
  clearance := clampClearance limits.clearance

/-- The counts are unbounded here: no search holds the cells it takes to fill 64 bits.
mirrors crates/entity/src/pathfind.rs:199-206 (`SearchStats`) -/
structure SearchStats where
  expanded : Nat
  visited : Nat
  blockReads : Nat

def SearchStats.zero : SearchStats := ⟨0, 0, 0⟩

def SearchStats.read (stats : SearchStats) : SearchStats :=
  { stats with blockReads := stats.blockReads + 1 }

@[simp] theorem SearchStats.read_expanded (stats : SearchStats) : stats.read.expanded = stats.expanded := rfl

/-- `i32::from` of a byte. -/
def fromByte (n : UInt8) : I32 := .clamp n.toNat

theorem fromByte_val (n : UInt8) : (fromByte n).val = n.toNat := by
  have := n.toNat_lt
  exact I32.clamp_of_mem (by omega) (by omega)

/-! ## Where a mob can stand -/

/-- The body's cells, from the feet up. -/
def bodyIsFree (view : BlockView) (cell : Pos) : List Nat → SearchStats → Bool × SearchStats
  | [], stats => (true, stats)
  | step :: steps, stats =>
    match cell.y.checkedAdd (.clamp step) with
    | none => (false, stats)
    | some level =>
      if view.isSolid cell.x level cell.z then (false, stats.read)
      else bodyIsFree view cell steps stats.read

/-- mirrors crates/entity/src/pathfind.rs:417-440 (`is_standable_counted`) -/
def isStandableCounted (view : BlockView) (cell : Pos) (clearance : UInt8) (stats : SearchStats) :
    Bool × SearchStats :=
  match bodyIsFree view cell (List.range clearance.toNat) stats with
  | (false, stats) => (false, stats)
  | (true, stats) =>
    match cell.y.checkedSub .one with
    | none => (false, stats)
    | some below => (view.isSolid cell.x below cell.z, stats.read)

/-- mirrors crates/entity/src/pathfind.rs:412-414 (`is_standable`) -/
def isStandable (view : BlockView) (cell : Pos) (clearance : UInt8) : Bool :=
  (isStandableCounted view cell clearance .zero).1

/-- The `while` of `fall_is_clear`, with the levels that are left below the top. -/
def columnIsClear (view : BlockView) (x z top : I32) : Nat → I32 → SearchStats → Bool × SearchStats
  | 0, _, stats => (true, stats)
  | left + 1, level, stats =>
    if level.val < top.val then
      if view.isSolid x level z then (false, stats.read)
      else
        match level.checkedAdd .one with
        | none => (false, stats.read)
        | some next => columnIsClear view x z top left next stats.read
    else (true, stats)

/-- mirrors crates/entity/src/pathfind.rs:446-471 (`fall_is_clear`) -/
def fallIsClear (view : BlockView) (x z fromY landingY : I32) (clearance : UInt8)
    (stats : SearchStats) : Bool × SearchStats :=
  match fromY.checkedAdd (fromByte clearance) with
  | none => (false, stats)
  | some top => columnIsClear view x z top (top.val - landingY.val).toNat landingY stats

/-! ## The moves -/

/-- The step up of `step_to`. -/
def stepUp (view : BlockView) (cell : Pos) (nx nz : I32) (clearance : UInt8) (stats : SearchStats) :
    Option (Pos × Int) × SearchStats :=
  match cell.y.checkedAdd MAX_STEP_UP, cell.y.checkedAdd (fromByte clearance) with
  | some up, some head =>
    if view.isSolid cell.x head cell.z then (none, stats)
    else
      match isStandableCounted view ⟨nx, up, nz⟩ clearance stats.read with
      | (true, stats) => (some (⟨nx, up, nz⟩, 1), stats)
      | (false, stats) => (none, stats)
  | _, _ => (none, stats)

/-- The falls of `step_to`, the lowest first. -/
def fallTo (view : BlockView) (cell : Pos) (nx nz : I32) (clearance : UInt8) :
    List Nat → SearchStats → Option (Pos × Int) × SearchStats
  | [], stats => (none, stats)
  | fall :: falls, stats =>
    match cell.y.checkedSub (.clamp fall) with
    | none => (none, stats)
    | some landingY =>
      match fallIsClear view nx nz cell.y landingY clearance stats with
      | (false, stats) => fallTo view cell nx nz clearance falls stats
      | (true, stats) =>
        match isStandableCounted view ⟨nx, landingY, nz⟩ clearance stats with
        | (true, stats) => (some (⟨nx, landingY, nz⟩, 1 + fall), stats)
        | (false, stats) => fallTo view cell nx nz clearance falls stats

/-- mirrors crates/entity/src/pathfind.rs:369-406 (`step_to`) -/
def stepTo (view : BlockView) (cell : Pos) (nx nz : I32) (clearance : UInt8) (stats : SearchStats) :
    Option (Pos × Int) × SearchStats :=
  match isStandableCounted view ⟨nx, cell.y, nz⟩ clearance stats with
  | (true, stats) => (some (⟨nx, cell.y, nz⟩, 1), stats)
  | (false, stats) =>
    match stepUp view cell nx nz clearance stats with
    | (some landing, stats) => (some landing, stats)
    | (none, stats) => fallTo view cell nx nz clearance (List.range' 1 MAX_FALL) stats

/-- mirrors crates/entity/src/pathfind.rs:345-363 (`neighbours`) -/
def neighbours (view : BlockView) (cell : Pos) (clearance : UInt8) :
    List (I32 × I32) → SearchStats → List (Pos × Int) × SearchStats
  | [], stats => ([], stats)
  | (dx, dz) :: directions, stats =>
    match cell.x.checkedAdd dx, cell.z.checkedAdd dz with
    | some nx, some nz =>
      match stepTo view cell nx nz clearance stats with
      | (landing, stats) =>
        match neighbours view cell clearance directions stats with
        | (moves, stats) => (landing.toList ++ moves, stats)
    | _, _ => neighbours view cell clearance directions stats

/-! ## What the moves are -/

/-- The body's cells are free, and there is a floor. -/
def Standable (view : BlockView) (clearance : UInt8) (cell : Pos) : Prop :=
  (∀ step < clearance.toNat, ∃ level : I32,
    level.val = cell.y.val + step ∧ view.isSolid cell.x level cell.z = false) ∧
  ∃ below : I32, below.val = cell.y.val - 1 ∧ view.isSolid cell.x below cell.z = true

/-- Where the mob comes to stand in a column it moves to, and what it costs. -/
inductive Lands (view : BlockView) (clearance : UInt8) (cell : Pos) : Pos → Int → Prop
  | level {next : Pos} : next.y = cell.y → Standable view clearance next → Lands view clearance cell next 1
  | up {next : Pos} : next.y.val = cell.y.val + 1 →
      (∃ head : I32, head.val = cell.y.val + clearance.toNat ∧ view.isSolid cell.x head cell.z = false) →
      Standable view clearance next → Lands view clearance cell next 1
  | fall {next : Pos} (blocks : Nat) : 1 ≤ blocks → blocks ≤ MAX_FALL →
      next.y.val = cell.y.val - blocks →
      (∃ top : I32, top.val = cell.y.val + clearance.toNat ∧ ∀ level : I32, next.y.val ≤ level.val →
        level.val < top.val → view.isSolid next.x level next.z = false) →
      Standable view clearance next → Lands view clearance cell next (1 + blocks)

/-- A legal move, to one of the four columns around. -/
def Moves (view : BlockView) (clearance : UInt8) (cell next : Pos) (cost : Int) : Prop :=
  (next.x.val - cell.x.val).natAbs + (next.z.val - cell.z.val).natAbs = 1 ∧ Lands view clearance cell next cost

section
variable {view : BlockView} {clearance : UInt8} {cell next : Pos} {cost : Int}

theorem Standable.feet (h : Standable view clearance cell) (hpos : 1 ≤ clearance.toNat) :
    view.isSolid cell.x cell.y cell.z = false := by
  obtain ⟨level, hlevel, hfree⟩ := h.1 0 hpos
  have : level = cell.y := Subtype.ext (by simpa using hlevel)
  rwa [this] at hfree

theorem Standable.floor (h : Standable view clearance cell) {below : I32}
    (hbelow : below.val = cell.y.val - 1) : view.isSolid cell.x below cell.z = true := by
  obtain ⟨level, hlevel, hsolid⟩ := h.2
  have : below = level := Subtype.ext (by omega)
  rwa [this]

/-! ## The questions asked of the world -/

theorem bodyIsFree_iff (steps : List Nat) (hsteps : ∀ step ∈ steps, step < 2 ^ 31) (stats : SearchStats) :
    (bodyIsFree view cell steps stats).1 = true ↔ ∀ step ∈ steps, ∃ level : I32,
      level.val = cell.y.val + step ∧ view.isSolid cell.x level cell.z = false := by
  induction steps generalizing stats with
  | nil => simp [bodyIsFree]
  | cons step steps ih =>
    have hstep : (I32.clamp step).val = step := by
      have := hsteps step (List.mem_cons_self ..)
      exact I32.clamp_of_mem (by omega) (by omega)
    rw [bodyIsFree, List.forall_mem_cons]
    cases hlevel : cell.y.checkedAdd (.clamp step) with
    | none =>
      refine iff_of_false Bool.false_ne_true fun h => ?_
      obtain ⟨level, hval, -⟩ := h.1
      have := I32.checkedAdd_eq_none hlevel
      have := level.property
      omega
    | some level =>
      have hval := I32.checkedAdd_eq_some hlevel
      rw [hstep] at hval
      dsimp only
      by_cases hsolid : view.isSolid cell.x level cell.z
      · rw [if_pos hsolid]
        refine iff_of_false Bool.false_ne_true fun h => ?_
        obtain ⟨level', hval', hfree⟩ := h.1
        have : level' = level := Subtype.ext (by omega)
        rw [this, hsolid] at hfree
        exact nomatch hfree
      · rw [if_neg hsolid, ih fun s hs => hsteps s (List.mem_cons_of_mem _ hs)]
        exact ⟨fun h => ⟨⟨level, hval, eq_false_of_ne_true hsolid⟩, h⟩, fun h => h.2⟩

theorem isStandableCounted_iff (stats : SearchStats) :
    (isStandableCounted view cell clearance stats).1 = true ↔ Standable view clearance cell := by
  have hbody := @bodyIsFree_iff view cell (List.range clearance.toNat)
    (fun step hstep => by
      have := List.mem_range.mp hstep
      have := clearance.toNat_lt
      omega) stats
  simp only [List.mem_range] at hbody
  unfold isStandableCounted Standable
  rw [← hbody]
  rcases bodyIsFree view cell (List.range clearance.toNat) stats with ⟨free, stats'⟩
  cases free with
  | false => exact iff_of_false Bool.false_ne_true fun h => nomatch h.1
  | true =>
    dsimp only
    cases hbelow : cell.y.checkedSub .one with
    | none =>
      refine iff_of_false Bool.false_ne_true fun h => ?_
      obtain ⟨below, hval, -⟩ := h.2
      have := I32.checkedSub_eq_none hbelow
      have := below.property
      rw [I32.one_val] at *
      omega
    | some below =>
      have hval := I32.checkedSub_eq_some hbelow
      rw [I32.one_val] at hval
      refine ⟨fun h => ⟨rfl, below, hval, h⟩, fun h => ?_⟩
      obtain ⟨below', hval', hsolid⟩ := h.2
      have : below = below' := Subtype.ext (by omega)
      rwa [this]

theorem standable_of_eq {stats stats' : SearchStats} {answer : Bool}
    (h : isStandableCounted view cell clearance stats = (answer, stats')) :
    answer = true ↔ Standable view clearance cell := by
  rw [← isStandableCounted_iff stats, h]

theorem columnIsClear_iff {x z top : I32} (left : Nat) (level : I32)
    (hleft : left = (top.val - level.val).toNat) (stats : SearchStats) :
    (columnIsClear view x z top left level stats).1 = true ↔
      ∀ l : I32, level.val ≤ l.val → l.val < top.val → view.isSolid x l z = false := by
  induction left generalizing level stats with
  | zero =>
    exact iff_of_true rfl fun l hl htop => by omega
  | succ left ih =>
    rw [columnIsClear, if_pos (by omega)]
    by_cases hsolid : view.isSolid x level z
    · rw [if_pos hsolid]
      refine iff_of_false Bool.false_ne_true fun h => ?_
      rw [h level le_rfl (by omega)] at hsolid
      exact nomatch hsolid
    · rw [if_neg hsolid]
      obtain ⟨hnone, rfl⟩ | ⟨next, hnext, hval⟩ := level.checkedAdd_one
      · have := top.property
        have hmax : I32.MAX.val = 2 ^ 31 - 1 := rfl
        omega
      · rw [hnext]
        dsimp only
        rw [ih next (by omega)]
        refine ⟨fun h l hl htop => ?_, fun h l hl htop => h l (by omega) htop⟩
        by_cases heq : l.val = level.val
        · rw [show l = level from Subtype.ext heq]
          exact eq_false_of_ne_true hsolid
        · exact h l (by omega) htop

theorem fallIsClear_iff {x z fromY landingY : I32} (stats : SearchStats) :
    (fallIsClear view x z fromY landingY clearance stats).1 = true ↔
      ∃ top : I32, top.val = fromY.val + clearance.toNat ∧ ∀ level : I32, landingY.val ≤ level.val →
        level.val < top.val → view.isSolid x level z = false := by
  unfold fallIsClear
  cases htop : fromY.checkedAdd (fromByte clearance) with
  | none =>
    refine iff_of_false Bool.false_ne_true fun ⟨top, hval, _⟩ => ?_
    have := I32.checkedAdd_eq_none htop
    rw [fromByte_val] at this
    have := top.property
    omega
  | some top =>
    have hval := I32.checkedAdd_eq_some htop
    rw [fromByte_val] at hval
    dsimp only
    rw [columnIsClear_iff _ _ rfl]
    refine ⟨fun h => ⟨top, hval, h⟩, fun ⟨top', hval', h⟩ => ?_⟩
    rwa [show top = top' from Subtype.ext (by omega)]

theorem clear_of_eq {x z fromY landingY : I32} {stats stats' : SearchStats} {answer : Bool}
    (h : fallIsClear view x z fromY landingY clearance stats = (answer, stats')) :
    answer = true ↔
      ∃ top : I32, top.val = fromY.val + clearance.toNat ∧ ∀ level : I32, landingY.val ≤ level.val →
        level.val < top.val → view.isSolid x level z = false := by
  rw [← fallIsClear_iff stats, h]

/-! ## The moves that are taken -/

theorem stepUp_eq_some {nx nz : I32} {stats : SearchStats} {landing : Pos × Int}
    (h : (stepUp view cell nx nz clearance stats).1 = some landing) :
    ∃ up head : I32, landing = (⟨nx, up, nz⟩, 1) ∧ up.val = cell.y.val + 1 ∧
      head.val = cell.y.val + clearance.toNat ∧ view.isSolid cell.x head cell.z = false ∧
      Standable view clearance ⟨nx, up, nz⟩ := by
  unfold stepUp at h
  cases hup : cell.y.checkedAdd MAX_STEP_UP with
  | none => rw [hup] at h; exact nomatch h
  | some up =>
    cases hhead : cell.y.checkedAdd (fromByte clearance) with
    | none => rw [hup, hhead] at h; exact nomatch h
    | some head =>
      rw [hup, hhead] at h
      dsimp only at h
      split at h
      · exact nomatch h
      · next hfree =>
        split at h
        · next hstand =>
          cases h
          have hval := I32.checkedAdd_eq_some hhead
          rw [fromByte_val] at hval
          exact ⟨up, head, rfl, I32.checkedAdd_eq_some hup, hval, eq_false_of_ne_true hfree,
            (standable_of_eq hstand).mp rfl⟩
        · exact nomatch h

theorem fallTo_eq_some {nx nz : I32} {falls : List Nat} (hfalls : ∀ fall ∈ falls, 1 ≤ fall ∧ fall ≤ MAX_FALL)
    {stats : SearchStats} {landing : Pos × Int}
    (h : (fallTo view cell nx nz clearance falls stats).1 = some landing) :
    landing.1.x = nx ∧ landing.1.z = nz ∧ Lands view clearance cell landing.1 landing.2 := by
  induction falls generalizing stats with
  | nil => exact nomatch h
  | cons fall falls ih =>
    have hrest : ∀ fall ∈ falls, 1 ≤ fall ∧ fall ≤ MAX_FALL := fun f hf => hfalls f (List.mem_cons_of_mem _ hf)
    obtain ⟨hone, hmax⟩ := hfalls fall (List.mem_cons_self ..)
    have hmax' : fall ≤ 3 := hmax
    have hval : (I32.clamp fall).val = fall := I32.clamp_of_mem (by omega) (by omega)
    rw [fallTo] at h
    cases hland : cell.y.checkedSub (.clamp fall) with
    | none => rw [hland] at h; exact nomatch h
    | some landingY =>
      rw [hland] at h
      have hy := I32.checkedSub_eq_some hland
      rw [hval] at hy
      dsimp only at h
      split at h
      · exact ih hrest h
      · next hclear =>
        split at h
        · next hstand =>
          cases h
          exact ⟨rfl, rfl, .fall fall hone hmax hy ((clear_of_eq hclear).mp rfl)
            ((standable_of_eq hstand).mp rfl)⟩
        · exact ih hrest h

theorem stepTo_eq_some {nx nz : I32} {stats : SearchStats} {landing : Pos × Int}
    (h : (stepTo view cell nx nz clearance stats).1 = some landing) :
    landing.1.x = nx ∧ landing.1.z = nz ∧ Lands view clearance cell landing.1 landing.2 := by
  unfold stepTo at h
  split at h
  · next hstand =>
    cases h
    exact ⟨rfl, rfl, .level rfl ((standable_of_eq hstand).mp rfl)⟩
  · split at h
    · next hup =>
      cases h
      obtain ⟨up, head, rfl, hy, hhead, hfree, hstand⟩ := stepUp_eq_some (congrArg Prod.fst hup)
      exact ⟨rfl, rfl, .up hy ⟨head, hhead, hfree⟩ hstand⟩
    · exact fallTo_eq_some (by decide) h

/-- A column that is clear has no floor in it. -/
theorem not_standable_of_clear {x y z top : I32} {low : Int}
    (hclear : ∀ level : I32, low ≤ level.val → level.val < top.val → view.isSolid x level z = false)
    (hlow : low < y.val) (htop : y.val ≤ top.val) : ¬Standable view clearance ⟨x, y, z⟩ := by
  rintro ⟨-, below, hval, hsolid⟩
  dsimp only at hval hsolid
  rw [hclear below (by omega) (by omega)] at hsolid
  exact nomatch hsolid

theorem stepUp_of_standable {nx up nz head : I32} (hup : up.val = cell.y.val + 1)
    (hhead : head.val = cell.y.val + clearance.toNat) (hfree : view.isSolid cell.x head cell.z = false)
    (hstand : Standable view clearance ⟨nx, up, nz⟩) (stats : SearchStats) :
    (stepUp view cell nx nz clearance stats).1 = some (⟨nx, up, nz⟩, 1) := by
  have hhead' : cell.y.checkedAdd (fromByte clearance) = some head :=
    I32.checkedAdd_of_val (by rw [fromByte_val, hhead])
  unfold stepUp
  rw [show cell.y.checkedAdd MAX_STEP_UP = some up from I32.checkedAdd_of_val hup, hhead']
  dsimp only
  rw [if_neg (by rw [hfree]; exact Bool.false_ne_true)]
  split
  · rfl
  · next hno => exact absurd ((standable_of_eq hno).mpr hstand) Bool.false_ne_true

theorem fallTo_of_clear {nx ny nz top : I32} {blocks : Nat} (hmax : blocks ≤ MAX_FALL)
    (hy : ny.val = cell.y.val - blocks) (htop : top.val = cell.y.val + clearance.toNat)
    (hclear : ∀ level : I32, ny.val ≤ level.val → level.val < top.val → view.isSolid nx level nz = false)
    (hstand : Standable view clearance ⟨nx, ny, nz⟩) (before : List Nat)
    (hbefore : ∀ fall ∈ before, fall < blocks) (after : List Nat) (stats : SearchStats) :
    (fallTo view cell nx nz clearance (before ++ blocks :: after) stats).1 =
      some (⟨nx, ny, nz⟩, 1 + (blocks : Int)) := by
  have hval (fall : Nat) (h : fall ≤ 3) : (I32.clamp fall).val = fall :=
    I32.clamp_of_mem (by omega) (by omega)
  have hmax' : blocks ≤ 3 := hmax
  induction before generalizing stats with
  | nil =>
    have hland : cell.y.checkedSub (.clamp blocks) = some ny :=
      I32.checkedSub_of_val (by rw [hval _ hmax', hy])
    rw [List.nil_append, fallTo, hland]
    dsimp only
    split
    · next hno => exact absurd ((clear_of_eq hno).mpr ⟨top, htop, hclear⟩) Bool.false_ne_true
    · split
      · rfl
      · next hno => exact absurd ((standable_of_eq hno).mpr hstand) Bool.false_ne_true
  | cons fall before ih =>
    have hlt := hbefore fall (List.mem_cons_self ..)
    have hrest := ih fun f hf => hbefore f (List.mem_cons_of_mem _ hf)
    have hrange := ny.property
    have hrange' := cell.y.property
    rw [List.cons_append, fallTo]
    cases hland : cell.y.checkedSub (.clamp fall) with
    | none =>
      have := I32.checkedSub_eq_none hland
      rw [hval _ (by omega)] at this
      omega
    | some landingY =>
      have hl := I32.checkedSub_eq_some hland
      rw [hval _ (by omega)] at hl
      dsimp only
      split
      · exact hrest _
      · split
        · next hyes =>
          exact absurd ((standable_of_eq hyes).mp rfl)
            (not_standable_of_clear hclear (by omega) (by omega))
        · exact hrest _

/-- At most one landing in a column is legal, and it is the one that is tried first. -/
theorem stepTo_of_lands (hpos : 1 ≤ clearance.toNat) (h : Lands view clearance cell next cost)
    (stats : SearchStats) : (stepTo view cell next.x next.z clearance stats).1 = some (next, cost) := by
  obtain ⟨nx, ny, nz⟩ := next
  unfold stepTo
  cases h with
  | level hy hstand =>
    obtain rfl : ny = cell.y := hy
    dsimp only
    split
    · rfl
    · next hno => exact absurd ((standable_of_eq hno).mpr hstand) Bool.false_ne_true
  | up hy hhead hstand =>
    obtain ⟨head, hhead, hfree⟩ := hhead
    dsimp only at hy ⊢
    split
    · next hyes =>
      have hfeet := Standable.feet ((standable_of_eq hyes).mp rfl) hpos
      dsimp only at hfeet
      have hfloor : view.isSolid nx cell.y nz = true := hstand.floor (by dsimp only; omega)
      rw [hfloor] at hfeet
      exact nomatch hfeet
    · next stats' _ =>
      have hup := stepUp_of_standable hy hhead hfree hstand stats'
      split
      · next heq => rw [heq] at hup; exact hup
      · next heq => rw [heq] at hup; exact nomatch hup
  | fall blocks hone hmax hy hclear hstand =>
    obtain ⟨top, htop, hclear⟩ := hclear
    dsimp only at hy hclear ⊢
    split
    · next hyes =>
      exact absurd ((standable_of_eq hyes).mp rfl)
        (not_standable_of_clear hclear (by omega) (by omega))
    · have hsplit : ∃ before after, List.range' 1 MAX_FALL = before ++ blocks :: after ∧
          ∀ fall ∈ before, fall < blocks := by
        have hmax' : blocks ≤ 3 := hmax
        obtain rfl | rfl | rfl : blocks = 1 ∨ blocks = 2 ∨ blocks = 3 := by omega
        · exact ⟨[], [2, 3], rfl, by decide⟩
        · exact ⟨[1], [3], rfl, by decide⟩
        · exact ⟨[1, 2], [], rfl, by decide⟩
      obtain ⟨before, after, hlist, hbefore⟩ := hsplit
      split
      · next heq =>
        obtain ⟨up, -, -, hup, -, -, hstand'⟩ := stepUp_eq_some (congrArg Prod.fst heq)
        exact absurd hstand' (not_standable_of_clear hclear (by omega) (by omega))
      · rw [hlist]
        exact fallTo_of_clear hmax hy htop hclear hstand before hbefore after _

theorem mem_neighbours {directions : List (I32 × I32)} {stats : SearchStats} {landing : Pos × Int}
    (h : landing ∈ (neighbours view cell clearance directions stats).1) :
    (∃ direction ∈ directions, landing.1.x.val = cell.x.val + direction.1.val ∧
      landing.1.z.val = cell.z.val + direction.2.val) ∧ Lands view clearance cell landing.1 landing.2 := by
  induction directions generalizing stats with
  | nil => exact absurd h List.not_mem_nil
  | cons direction directions ih =>
    obtain ⟨dx, dz⟩ := direction
    rw [neighbours] at h
    split at h
    · next nx nz hx hz =>
      dsimp only at h
      rcases List.mem_append.mp h with h | h
      · obtain ⟨hnx, hnz, hlands⟩ := stepTo_eq_some (Option.mem_toList.mp h)
        refine ⟨⟨(dx, dz), List.mem_cons_self .., ?_, ?_⟩, hlands⟩
        · rw [hnx, I32.checkedAdd_eq_some hx]
        · rw [hnz, I32.checkedAdd_eq_some hz]
      · obtain ⟨⟨direction, hmem, hval⟩, hlands⟩ := ih h
        exact ⟨⟨direction, List.mem_cons_of_mem _ hmem, hval⟩, hlands⟩
    · obtain ⟨⟨direction, hmem, hval⟩, hlands⟩ := ih h
      exact ⟨⟨direction, List.mem_cons_of_mem _ hmem, hval⟩, hlands⟩

theorem mem_neighbours_of_lands (hpos : 1 ≤ clearance.toNat) {directions : List (I32 × I32)}
    {direction : I32 × I32} (hmem : direction ∈ directions)
    (hx : next.x.val = cell.x.val + direction.1.val) (hz : next.z.val = cell.z.val + direction.2.val)
    (h : Lands view clearance cell next cost) (stats : SearchStats) :
    (next, cost) ∈ (neighbours view cell clearance directions stats).1 := by
  induction directions generalizing stats with
  | nil => exact absurd hmem List.not_mem_nil
  | cons head directions ih =>
    obtain ⟨dx, dz⟩ := head
    rw [neighbours]
    rcases List.mem_cons.mp hmem with rfl | hmem
    · rw [I32.checkedAdd_of_val hx, I32.checkedAdd_of_val hz]
      exact List.mem_append_left _ (Option.mem_toList.mpr (stepTo_of_lands hpos h stats))
    · split
      · exact List.mem_append_right _ (ih hmem _)
      · exact ih hmem _

/-- The search takes exactly the legal moves. -/
theorem mem_neighbours_iff (hpos : 1 ≤ clearance.toNat) (stats : SearchStats) :
    (next, cost) ∈ (neighbours view cell clearance DIRECTIONS stats).1 ↔
      Moves view clearance cell next cost := by
  constructor
  · intro h
    obtain ⟨⟨direction, hmem, hx, hz⟩, hlands⟩ := mem_neighbours h
    have hone : ∀ d ∈ DIRECTIONS, d.1.val.natAbs + d.2.val.natAbs = 1 := by decide
    have := hone direction hmem
    dsimp only at hx hz
    exact ⟨by omega, hlands⟩
  · rintro ⟨hadj, hlands⟩
    have hdir : ∃ direction ∈ DIRECTIONS, next.x.val = cell.x.val + direction.1.val ∧
        next.z.val = cell.z.val + direction.2.val := by
      simp only [DIRECTIONS, List.mem_cons, List.not_mem_nil, or_false, exists_eq_or_imp, exists_eq_left,
        I32.zero_val, I32.one_val, I32.negOne_val]
      omega
    obtain ⟨direction, hmem, hx, hz⟩ := hdir
    exact mem_neighbours_of_lands hpos hmem hx hz hlands stats

/-! ## Reading expands nothing -/

@[simp] theorem bodyIsFree_expanded (steps : List Nat) (stats : SearchStats) :
    (bodyIsFree view cell steps stats).2.expanded = stats.expanded := by
  fun_induction bodyIsFree view cell steps stats <;> simp_all

theorem expanded_of_eq {α : Type} {x : α × SearchStats} {a : α} {stats : SearchStats} {n : Nat}
    (hx : x.2.expanded = n) (h : x = (a, stats)) : stats.expanded = n := by
  rwa [h] at hx

@[simp] theorem isStandableCounted_expanded (stats : SearchStats) :
    (isStandableCounted view cell clearance stats).2.expanded = stats.expanded := by
  unfold isStandableCounted
  split
  · next heq => exact expanded_of_eq (bodyIsFree_expanded _ _) heq
  · next heq =>
    have := expanded_of_eq (bodyIsFree_expanded _ _) heq
    split <;> exact this

@[simp] theorem columnIsClear_expanded {x z top : I32} (left : Nat) (level : I32) (stats : SearchStats) :
    (columnIsClear view x z top left level stats).2.expanded = stats.expanded := by
  fun_induction columnIsClear view x z top left level stats <;> simp_all

@[simp] theorem fallIsClear_expanded {x z fromY landingY : I32} (stats : SearchStats) :
    (fallIsClear view x z fromY landingY clearance stats).2.expanded = stats.expanded := by
  unfold fallIsClear
  split
  · rfl
  · exact columnIsClear_expanded ..

@[simp] theorem stepUp_expanded {nx nz : I32} (stats : SearchStats) :
    (stepUp view cell nx nz clearance stats).2.expanded = stats.expanded := by
  unfold stepUp
  split
  · split
    · rfl
    · split
      · next heq => exact expanded_of_eq (isStandableCounted_expanded stats.read) heq
      · next heq => exact expanded_of_eq (isStandableCounted_expanded stats.read) heq
  · rfl

@[simp] theorem fallTo_expanded {nx nz : I32} (falls : List Nat) (stats : SearchStats) :
    (fallTo view cell nx nz clearance falls stats).2.expanded = stats.expanded := by
  induction falls generalizing stats with
  | nil => rfl
  | cons fall falls ih =>
    rw [fallTo]
    split
    · rfl
    · split
      · next hclear => exact (ih _).trans (expanded_of_eq (fallIsClear_expanded _) hclear)
      · next hclear =>
        have hread := expanded_of_eq (fallIsClear_expanded _) hclear
        split
        · next heq => exact (expanded_of_eq (isStandableCounted_expanded _) heq).trans hread
        · next heq =>
          exact (ih _).trans ((expanded_of_eq (isStandableCounted_expanded _) heq).trans hread)

@[simp] theorem stepTo_expanded {nx nz : I32} (stats : SearchStats) :
    (stepTo view cell nx nz clearance stats).2.expanded = stats.expanded := by
  unfold stepTo
  split
  · next heq => exact expanded_of_eq (isStandableCounted_expanded _) heq
  · next heq =>
    have hread := expanded_of_eq (isStandableCounted_expanded _) heq
    split
    · next hup => exact (expanded_of_eq (stepUp_expanded _) hup).trans hread
    · next hup => exact (fallTo_expanded _ _).trans ((expanded_of_eq (stepUp_expanded _) hup).trans hread)

@[simp] theorem neighbours_expanded (directions : List (I32 × I32)) (stats : SearchStats) :
    (neighbours view cell clearance directions stats).2.expanded = stats.expanded := by
  induction directions generalizing stats with
  | nil => rfl
  | cons direction directions ih =>
    obtain ⟨dx, dz⟩ := direction
    rw [neighbours]
    split
    · exact (ih _).trans (stepTo_expanded _)
    · exact ih _

theorem neighbours_length (directions : List (I32 × I32)) (stats : SearchStats) :
    (neighbours view cell clearance directions stats).1.length ≤ directions.length := by
  induction directions generalizing stats with
  | nil => exact le_rfl
  | cons direction directions ih =>
    obtain ⟨dx, dz⟩ := direction
    rw [neighbours, List.length_cons]
    split
    · next nx nz _ _ =>
      have hone : (stepTo view cell nx nz clearance stats).1.toList.length ≤ 1 := by
        cases (stepTo view cell nx nz clearance stats).1 <;> simp
      have := ih (stepTo view cell nx nz clearance stats).2
      dsimp only
      rw [List.length_append]
      omega
    · exact (ih stats).trans (Nat.le_succ _)

end

/-! ## The search -/

/-- mirrors crates/entity/src/pathfind.rs:474-479 (`manhattan`) -/
def manhattan (a b : Pos) : Int :=
  (b.x.val - a.x.val).natAbs + (b.y.val - a.y.val).natAbs + (b.z.val - a.z.val).natAbs

/-- `i64::MAX`. -/
def I64_MAX : Int := 2 ^ 63 - 1

/-- mirrors crates/entity/src/pathfind.rs:490-495 (`Node`) -/
structure Node where
  f : Int
  cell : Pos
  deriving DecidableEq

/-- mirrors crates/entity/src/pathfind.rs:499-506 (`Node::new`) -/
def Node.new (g : Int) (cell goal : Pos) : Node := ⟨min I64_MAX (g + manhattan cell goal), cell⟩

/-- mirrors crates/entity/src/pathfind.rs:509-517 (`Ord for Node`) -/
def Node.key (node : Node) : Int ×ₗ Int ×ₗ Int ×ₗ Int :=
  toLex (node.f, toLex (node.cell.x.val, toLex (node.cell.z.val, node.cell.y.val)))

/-- The heap is a list in the order of its keys. -/
def push (node : Node) (frontier : List Node) : List Node :=
  frontier.orderedInsert (fun a b => a.key ≤ b.key) node

/-- `closed` holds the cells in the order they were closed in. -/
structure Search where
  frontier : List Node
  table : BestFirst.Table Pos
  closed : List Pos
  stats : SearchStats

/-- One pass of the inner loop of `astar`; a slot that is missing reads as `i64::MAX`. -/
def offer (goal current : Pos) (costHere : Int) (search : Search) (neighbour : Pos × Int) : Search :=
  if neighbour.1 ∈ search.closed then search
  else if costHere + neighbour.2 < (search.table.bestCost neighbour.1).getD I64_MAX then
    { search with
      table := search.table.enter current neighbour.1 (costHere + neighbour.2)
      stats := { search.stats with visited := search.stats.visited + 1 }
      frontier := push (.new (costHere + neighbour.2) neighbour.1 goal) search.frontier }
  else search

/-- `none` where the parents do not lead to the start in as many steps.
mirrors crates/entity/src/pathfind.rs:327-336 (`reconstruct`) -/
def reconstruct (cameFrom : Pos → Option Pos) (start : Pos) :
    Nat → Pos → List Pos → Option (Option (List Pos))
  | 0, _, _ => none
  | fuel + 1, current, path =>
    if current = start then some (some path)
    else
      match cameFrom current with
      | none => some none
      | some parent => reconstruct cameFrom start fuel parent (current :: path)

/-- The search goes on, or ends with what it found. -/
inductive Turn
  | go (search : Search)
  | done (path : Option (Option (List Pos))) (stats : SearchStats)

/-- One pass of the outer loop of `astar`. -/
def turn (view : BlockView) (start goal : Pos) (limits : SearchLimits) (search : Search) : Turn :=
  match search.frontier with
  | [] => .done (some none) search.stats
  | node :: frontier =>
    if node.cell = goal then
      .done (reconstruct search.table.cameFrom start (search.closed.length + 1) goal []) search.stats
    else if node.cell ∈ search.closed then .go { search with frontier }
    else if limits.maxNodes ≤ search.stats.expanded then .done (some none) search.stats
    else
      let stats := { search.stats with expanded := search.stats.expanded + 1 }
      let moves := neighbours view node.cell limits.clearance DIRECTIONS stats
      .go (moves.1.foldl (offer goal node.cell ((search.table.bestCost node.cell).getD 0))
        { frontier, table := search.table, closed := search.closed ++ [node.cell], stats := moves.2 })

/-- `none` where the search does not end in as many turns. -/
def run (view : BlockView) (start goal : Pos) (limits : SearchLimits) :
    Nat → Search → Option (Option (List Pos) × SearchStats)
  | 0, _ => none
  | fuel + 1, search =>
    match turn view start goal limits search with
    | .go search => run view start goal limits fuel search
    | .done path stats => path.map (·, stats)

/-- mirrors crates/entity/src/pathfind.rs:282-288 (`astar`) -/
def Search.init (start goal : Pos) (stats : SearchStats) : Search :=
  ⟨[.new 0 start goal], .init start, [], stats⟩

/-- mirrors crates/entity/src/pathfind.rs:275-323 (`astar`) -/
def astar (view : BlockView) (start goal : Pos) (limits : SearchLimits) (stats : SearchStats) :
    Option (Option (List Pos) × SearchStats) :=
  run view start goal limits (5 * limits.maxNodes + 2) (.init start goal stats)

/-- mirrors crates/entity/src/pathfind.rs:232-271 (`find_path_with_stats`) -/
def findPathWithStats (view : BlockView) (start goal : Pos) (limits : SearchLimits) :
    Option (Option (List Pos) × SearchStats) :=
  if start = goal then some (some [], .zero)
  else if start.y.val - goal.y.val > MAX_FALL then some (none, .zero)
  else if manhattan start goal > limits.clamped.maxPathLen.val then some (none, .zero)
  else if ¬isStandable view goal limits.clamped.clearance then
    some (none, { SearchStats.zero with blockReads := limits.clamped.clearance.toNat + 1 })
  else
    (astar view start goal limits.clamped .zero).map fun (path, stats) =>
      match path with
      | none => (none, stats)
      | some path =>
        if path.length > limits.clamped.maxPathLen.val.toNat then (none, stats) else (some path, stats)

/-- mirrors crates/entity/src/pathfind.rs:218-225 (`find_path`) -/
def findPath (view : BlockView) (start goal : Pos) (limits : SearchLimits) : Option (Option (List Pos)) :=
  (findPathWithStats view start goal limits).map (·.1)

end Apoptosis.L2.Entities.Pathfind
