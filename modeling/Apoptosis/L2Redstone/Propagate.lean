import Apoptosis.L2Redstone.Emitters
import Apoptosis.L2Redstone.Queue
/-!
# The propagation pass (`redstone/src/propagation.rs`)

A pass drains queued positions, recomputes each, and queues the neighbours of
what changed. `FlatWorld` is a box of block states.

* `propagate_stops`: a pass ends with its budget spent or the queue empty.
* `propagate_holds`: what draining and serving keep, a pass keeps.
* `pushAll_spec`, `pushAll_room`: what a round of pushes adds, and when none is refused.
-/
namespace Apoptosis.L2.Redstone
open Apoptosis.Core BlockView

/-- mirrors crates/redstone/src/update.rs:176-200 (`UpdateKind`) -/
inductive UpdateKind
  | neighborChanged
  | scheduledTick (delay : Nat)
  | comparatorUpdate
  deriving DecidableEq, Repr

/-- mirrors crates/redstone/src/propagation.rs:1233-1244 (`PropagatedChange`) -/
structure PropagatedChange where
  pos : BlockPos
  cause : UpdateKind
  oldState : Int
  newState : Int
  emitted : EmitterOutput

/-- mirrors crates/redstone/src/propagation.rs:1248-1274 (`PropagationReport`) -/
structure PropagationReport where
  updatesProcessed : Nat
  blocksChanged : Nat
  budgetExhausted : Bool
  changes : List PropagatedChange
  updatesRefused : Nat

/-- mirrors crates/redstone/src/propagation.rs:1279-1287 (`PropagationReport::empty`) -/
def PropagationReport.empty : PropagationReport := ⟨0, 0, false, [], 0⟩

/-- What a pass works on. -/
structure Pass (V : Type) where
  world : V
  queue : UpdateQueue BlockPos
  report : PropagationReport

section View

variable {V : Type} [BlockView V]

def BlockRole.isWire : BlockRole → Bool
  | .wire _ => true
  | _ => false

/-- mirrors crates/redstone/src/propagation.rs:1443-1482 (`process_one`) -/
def processOne (world : V) (table : EmitterTable) (pos : BlockPos) : V × Option PropagatedChange :=
  match getState world pos with
  | none => (world, none)
  | some id =>
    let role := table.classify id
    let inputs := gatherInputs world table pos role.isWire
    let emitted := table.emittedForId id inputs
    match newState world table pos role inputs id with
    | none => (world, none)
    | some next =>
      if next = id then (world, none)
      else
        let (world, written) := setState world pos next
        if !written then (world, none)
        else (world, some ⟨pos, .neighborChanged, id, next, emitted⟩)

/-- One `push_neighbour` of a pass, which counts the refusals. -/
def pushCounted (queued : UpdateQueue BlockPos × Nat) (pos : BlockPos) : UpdateQueue BlockPos × Nat :=
  let (queue, result) := queued.1.pushNeighbour pos
  (queue, if result = .refused then queued.2 + 1 else queued.2)

def pushAll (queue : UpdateQueue BlockPos) (refused : Nat) (positions : List BlockPos) :
    UpdateQueue BlockPos × Nat :=
  positions.foldl pushCounted (queue, refused)

/-- mirrors crates/redstone/src/propagation.rs:1399-1441 (`forward_through_solid`): the positions it
pushes. With no such position the source returns early. -/
def forwarded (world : V) (table : EmitterTable) (pos : BlockPos) : List BlockPos :=
  match getState world pos with
  | none => []
  | some id =>
    if !table.isConductive id then []
    else (NeighbourSet.of pos).filter fun neighbour =>
      (getState world neighbour).any fun id => table.classify id ≠ .passive

/-- The body of the loop over the drained positions. -/
def serve (table : EmitterTable) (pass : Pass V) (pos : BlockPos) : Pass V :=
  let report := { pass.report with updatesProcessed := pass.report.updatesProcessed + 1 }
  match processOne pass.world table pos with
  | (world, some change) =>
    let (queue, refused) := pushAll pass.queue report.updatesRefused (NeighbourSet.of pos)
    ⟨world, queue, { report with
      blocksChanged := report.blocksChanged + 1
      changes := report.changes ++ [change]
      updatesRefused := refused }⟩
  | (world, none) =>
    let (queue, refused) := pushAll pass.queue report.updatesRefused (forwarded world table pos)
    ⟨world, queue, { report with updatesRefused := refused }⟩

/-- The `while` loop of `propagate`. -/
def propagateLoop (table : EmitterTable) (budget : UpdateBudget) : Nat → Pass V → Pass V
  | 0, pass => pass
  | fuel + 1, pass =>
    if pass.report.updatesProcessed < budget.neighbourUpdatesPerTick ∧ pass.queue.nextPending.isSome then
      let remaining := budget.neighbourUpdatesPerTick - pass.report.updatesProcessed
      let (queue, drained) := pass.queue.drainAtMost remaining
      if drained.positions = [] then { pass with queue := queue }
      else propagateLoop table budget fuel
        (drained.positions.foldl (serve table) { pass with queue := queue })
    else pass

/-- mirrors crates/redstone/src/propagation.rs:1341-1396 (`propagate`). Each round of the loop serves a
position, so the budget bounds the rounds. -/
def propagate (world : V) (queue : UpdateQueue BlockPos) (table : EmitterTable) (budget : UpdateBudget) :
    Pass V :=
  let pass := propagateLoop table budget budget.neighbourUpdatesPerTick ⟨world, queue, .empty⟩
  { pass with report := { pass.report with
      budgetExhausted := pass.queue.nextPending.isSome &&
        pass.report.updatesProcessed ≥ budget.neighbourUpdatesPerTick } }

/-! ## Rounds and positions -/

/-- What a pass has queued and refused. -/
def Pass.queued (pass : Pass V) : UpdateQueue BlockPos × Nat := (pass.queue, pass.report.updatesRefused)

theorem serve_changed {table : EmitterTable} {pass : Pass V} {pos : BlockPos} {world : V}
    {change : PropagatedChange} (h : processOne pass.world table pos = (world, some change)) :
    (serve table pass pos).world = world ∧ (serve table pass pos).queued =
      pushAll pass.queue pass.report.updatesRefused (NeighbourSet.of pos) := by
  constructor <;> simp only [serve, h, Pass.queued]

theorem serve_unchanged {table : EmitterTable} {pass : Pass V} {pos : BlockPos} {world : V}
    (h : processOne pass.world table pos = (world, none)) :
    (serve table pass pos).world = world ∧ (serve table pass pos).queued =
      pushAll pass.queue pass.report.updatesRefused (forwarded world table pos) := by
  constructor <;> simp only [serve, h, Pass.queued]

theorem drainAtMost_pending {queue : UpdateQueue BlockPos} (limit : Nat) (h : queue.current ≠ ∅) :
    (queue.drainAtMost limit).2.positions ≠ [] := by
  intro hnil
  rw [UpdateQueue.drainAtMost, UpdateQueue.takeNeighbours] at hnil
  have hlength := congrArg List.length hnil
  rw [List.length_take, length_rotation, List.length_nil] at hlength
  have hcard := Finset.card_pos.mpr (Finset.nonempty_iff_ne_empty.mpr h)
  unfold MAX_ENTRIES at hlength
  omega

theorem serve_updatesProcessed (table : EmitterTable) (pass : Pass V) (pos : BlockPos) :
    (serve table pass pos).report.updatesProcessed = pass.report.updatesProcessed + 1 := by
  unfold serve
  dsimp only
  split <;> rfl

theorem serveAll_updatesProcessed (table : EmitterTable) (positions : List BlockPos) (pass : Pass V) :
    (positions.foldl (serve table) pass).report.updatesProcessed =
      pass.report.updatesProcessed + positions.length := by
  induction positions generalizing pass with
  | nil => rfl
  | cons pos rest ih =>
    rw [List.foldl_cons, ih, serve_updatesProcessed, List.length_cons]
    omega

theorem propagateLoop_stops (table : EmitterTable) (budget : UpdateBudget) (fuel : Nat) (pass : Pass V)
    (hfuel : budget.neighbourUpdatesPerTick ≤ pass.report.updatesProcessed + fuel) :
    budget.neighbourUpdatesPerTick ≤ (propagateLoop table budget fuel pass).report.updatesProcessed ∨
      (propagateLoop table budget fuel pass).queue.current = ∅ := by
  induction fuel generalizing pass with
  | zero => exact .inl hfuel
  | succ fuel ih =>
    rw [propagateLoop]
    by_cases hround : pass.report.updatesProcessed < budget.neighbourUpdatesPerTick ∧
        pass.queue.nextPending.isSome
    · rw [if_pos hround]
      have hdrained := drainAtMost_pending
        (budget.neighbourUpdatesPerTick - pass.report.updatesProcessed)
        (pass.queue.nextPending_isSome.mp hround.2)
      dsimp only
      rw [if_neg hdrained]
      refine ih _ ?_
      rw [serveAll_updatesProcessed]
      have := List.length_pos_iff.mpr hdrained
      dsimp only
      omega
    · rw [if_neg hround]
      by_cases hempty : pass.queue.current = ∅
      · exact .inr hempty
      · have := pass.queue.nextPending_isSome.mpr hempty
        exact .inl (not_lt.mp fun hlt => hround ⟨hlt, this⟩)

/-- The rounds never run out before the budget: a pass ends with its budget spent or nothing queued. -/
theorem propagate_stops (world : V) (queue : UpdateQueue BlockPos) (table : EmitterTable)
    (budget : UpdateBudget) :
    budget.neighbourUpdatesPerTick ≤ (propagate world queue table budget).report.updatesProcessed ∨
      (propagate world queue table budget).queue.current = ∅ :=
  propagateLoop_stops table budget _ ⟨world, queue, .empty⟩ (by
    dsimp only
    omega)

section Induction

/-! `P` speaks of the world, the queue, the refusals so far and the positions drained but not served. -/

variable {table : EmitterTable} {P : V → UpdateQueue BlockPos → Nat → List BlockPos → Prop}

/-- `P` holds of a pass that still has `todo` to serve. -/
def Pass.Holds (P : V → UpdateQueue BlockPos → Nat → List BlockPos → Prop) (pass : Pass V)
    (todo : List BlockPos) : Prop :=
  P pass.world pass.queue pass.report.updatesRefused todo

theorem serveAll_holds
    (hserve : ∀ (pass : Pass V) pos todo, pass.Holds P (pos :: todo) → (serve table pass pos).Holds P todo)
    (todo : List BlockPos) (pass : Pass V) (h : pass.Holds P todo) :
    (todo.foldl (serve table) pass).Holds P [] := by
  induction todo generalizing pass with
  | nil => exact h
  | cons pos rest ih => exact ih _ (hserve pass pos rest h)

theorem propagateLoop_holds
    (hdrain : ∀ world queue limit refused, P world queue refused [] →
      P world (UpdateQueue.drainAtMost queue limit).1 refused (queue.drainAtMost limit).2.positions)
    (hserve : ∀ (pass : Pass V) pos todo, pass.Holds P (pos :: todo) → (serve table pass pos).Holds P todo)
    (budget : UpdateBudget) (fuel : Nat) (pass : Pass V) (h : pass.Holds P []) :
    (propagateLoop table budget fuel pass).Holds P [] := by
  induction fuel generalizing pass with
  | zero => exact h
  | succ fuel ih =>
    rw [propagateLoop]
    by_cases hround : pass.report.updatesProcessed < budget.neighbourUpdatesPerTick ∧
        pass.queue.nextPending.isSome
    · rw [if_pos hround]
      have hdrained := drainAtMost_pending
        (budget.neighbourUpdatesPerTick - pass.report.updatesProcessed)
        (pass.queue.nextPending_isSome.mp hround.2)
      dsimp only
      rw [if_neg hdrained]
      exact ih _ (serveAll_holds hserve _ _ (hdrain _ _ _ _ h))
    · rw [if_neg hround]
      exact h

/-- What draining and serving keep, a pass keeps. -/
theorem propagate_holds
    (hdrain : ∀ world queue limit refused, P world queue refused [] →
      P world (UpdateQueue.drainAtMost queue limit).1 refused (queue.drainAtMost limit).2.positions)
    (hserve : ∀ (pass : Pass V) pos todo, pass.Holds P (pos :: todo) → (serve table pass pos).Holds P todo)
    {world : V} {queue : UpdateQueue BlockPos} (budget : UpdateBudget) (h : P world queue 0 []) :
    (propagate world queue table budget).Holds P [] :=
  propagateLoop_holds hdrain hserve budget _ ⟨world, queue, .empty⟩ h

/-- What the first round brings about and the rest keeps holds after a pass that has a round. -/
theorem propagate_holds_of_round
    (hdrain : ∀ world queue limit refused, P world queue refused [] →
      P world (UpdateQueue.drainAtMost queue limit).1 refused (queue.drainAtMost limit).2.positions)
    (hserve : ∀ (pass : Pass V) pos todo, pass.Holds P (pos :: todo) → (serve table pass pos).Holds P todo)
    {world : V} {queue : UpdateQueue BlockPos} {budget : UpdateBudget}
    (hpos : 0 < budget.neighbourUpdatesPerTick) (hqueue : queue.current ≠ ∅)
    (hround : ((queue.drainAtMost budget.neighbourUpdatesPerTick).2.positions.foldl (serve table)
      ⟨world, (queue.drainAtMost budget.neighbourUpdatesPerTick).1, .empty⟩).Holds P []) :
    (propagate world queue table budget).Holds P [] := by
  have hloop : ∀ fuel, budget.neighbourUpdatesPerTick = fuel + 1 →
      (propagateLoop table budget (fuel + 1) ⟨world, queue, .empty⟩).Holds P [] := by
    intro fuel _
    rw [propagateLoop]
    have hdrained := drainAtMost_pending
      (budget.neighbourUpdatesPerTick - PropagationReport.empty.updatesProcessed) hqueue
    rw [if_pos ⟨hpos, queue.nextPending_isSome.mpr hqueue⟩]
    dsimp only
    rw [if_neg hdrained]
    exact propagateLoop_holds hdrain hserve budget fuel _ hround
  obtain ⟨fuel, hfuel⟩ : ∃ fuel, budget.neighbourUpdatesPerTick = fuel + 1 :=
    ⟨budget.neighbourUpdatesPerTick - 1, by omega⟩
  have hlast := hloop fuel hfuel
  rw [← hfuel] at hlast
  exact hlast

/-- What the first position served brings about and the rest keeps holds after a pass that has any. -/
theorem propagate_holds_of_first
    (hdrain : ∀ world queue limit refused, P world queue refused [] →
      P world (UpdateQueue.drainAtMost queue limit).1 refused (queue.drainAtMost limit).2.positions)
    (hserve : ∀ (pass : Pass V) pos todo, pass.Holds P (pos :: todo) → (serve table pass pos).Holds P todo)
    {world : V} {queue : UpdateQueue BlockPos} {budget : UpdateBudget}
    (hpos : 0 < budget.neighbourUpdatesPerTick) (hqueue : queue.current ≠ ∅)
    (hfirst : ∀ limit pos todo, (queue.drainAtMost limit).2.positions = pos :: todo →
      (serve table ⟨world, (queue.drainAtMost limit).1, .empty⟩ pos).Holds P todo) :
    (propagate world queue table budget).Holds P [] := by
  refine propagate_holds_of_round hdrain hserve hpos hqueue ?_
  obtain ⟨pos, todo, hcons⟩ := List.exists_cons_of_ne_nil
    (drainAtMost_pending budget.neighbourUpdatesPerTick hqueue)
  rw [hcons]
  exact serveAll_holds hserve todo _ (hfirst _ _ _ hcons)

end Induction

/-! ## Pushes -/

theorem pushAll_cons (queue : UpdateQueue BlockPos) (refused : Nat) (pos : BlockPos)
    (rest : List BlockPos) : pushAll queue refused (pos :: rest) =
      pushAll (queue.pushNeighbour pos).1
        (if (queue.pushNeighbour pos).2 = .refused then refused + 1 else refused) rest := rfl

theorem pushNeighbour_spec (queue : UpdateQueue BlockPos) (pos : BlockPos) :
    (queue.pushNeighbour pos).1.scheduled = queue.scheduled ∧
    queue.current ⊆ (queue.pushNeighbour pos).1.current ∧
    (queue.pushNeighbour pos).1.current ⊆ insert pos queue.current ∧
    ((queue.pushNeighbour pos).2 ≠ .refused → pos ∈ (queue.pushNeighbour pos).1.current) ∧
    ((queue.pushNeighbour pos).2 = .refused → pos ∉ queue.current ∧ queue.len ≥ MAX_ENTRIES) := by
  unfold UpdateQueue.pushNeighbour
  by_cases hpending : pos ∈ queue.current
  · rw [if_pos hpending]
    exact ⟨rfl, subset_rfl, Finset.subset_insert _ _, fun _ => hpending, fun h => nomatch h⟩
  rw [if_neg hpending]
  by_cases hfull : queue.len ≥ MAX_ENTRIES
  · rw [if_pos hfull]
    exact ⟨rfl, subset_rfl, Finset.subset_insert _ _, fun h => absurd rfl h, fun _ => ⟨hpending, hfull⟩⟩
  · rw [if_neg hfull]
    exact ⟨rfl, Finset.subset_insert _ _, subset_rfl, fun _ => Finset.mem_insert_self _ _,
      fun h => nomatch h⟩

/-- Pushes only add, only what they are given, and all of it unless one is refused. -/
theorem pushAll_spec (positions : List BlockPos) (queue : UpdateQueue BlockPos) (refused : Nat) :
    (pushAll queue refused positions).1.scheduled = queue.scheduled ∧
    queue.current ⊆ (pushAll queue refused positions).1.current ∧
    (∀ pos ∈ (pushAll queue refused positions).1.current, pos ∈ queue.current ∨ pos ∈ positions) ∧
    refused ≤ (pushAll queue refused positions).2 ∧
    ((pushAll queue refused positions).2 = refused →
      ∀ pos ∈ positions, pos ∈ (pushAll queue refused positions).1.current) := by
  induction positions generalizing queue refused with
  | nil => exact ⟨rfl, subset_rfl, fun _ h => .inl h, le_rfl, fun _ _ h => nomatch h⟩
  | cons pos rest ih =>
    obtain ⟨hscheduled, hgrows, honly, hin, -⟩ := pushNeighbour_spec queue pos
    obtain ⟨count, hcount, hle, hkept⟩ : ∃ count, pushAll queue refused (pos :: rest) =
        pushAll (queue.pushNeighbour pos).1 count rest ∧ refused ≤ count ∧
          (count = refused → (queue.pushNeighbour pos).2 ≠ .refused) := by
      refine ⟨_, pushAll_cons queue refused pos rest, ?_⟩
      by_cases hrefused : (queue.pushNeighbour pos).2 = .refused
      · rw [if_pos hrefused]
        exact ⟨by omega, fun h => absurd h (by omega)⟩
      · rw [if_neg hrefused]
        exact ⟨le_rfl, fun _ => hrefused⟩
    rw [hcount]
    obtain ⟨hscheduled', hgrows', honly', hle', hall'⟩ := ih (queue.pushNeighbour pos).1 count
    refine ⟨hscheduled'.trans hscheduled, hgrows.trans hgrows', fun q hq => ?_, ?_, fun heq q hq => ?_⟩
    · rcases honly' q hq with h | h
      · rcases Finset.mem_insert.mp (honly h) with rfl | h
        · exact .inr (.head _)
        · exact .inl h
      · exact .inr (.tail _ h)
    · exact hle.trans hle'
    · have hsame : count = refused := le_antisymm (hle'.trans heq.le) hle
      rcases List.mem_cons.mp hq with rfl | hq
      · exact hgrows' (hin (hkept hsame))
      · exact hall' (heq.trans hsame.symm) q hq

/-- No push of positions that all fit is refused. -/
theorem pushAll_room {room : Finset BlockPos} (positions : List BlockPos) (queue : UpdateQueue BlockPos)
    (refused : Nat) (hroom : room.card + UpdateQueue.scheduledLen queue.scheduled ≤ MAX_ENTRIES)
    (hcurrent : queue.current ⊆ room) (hpositions : ∀ pos ∈ positions, pos ∈ room) :
    (pushAll queue refused positions).2 = refused := by
  induction positions generalizing queue with
  | nil => rfl
  | cons pos rest ih =>
    rw [pushAll_cons]
    obtain ⟨hscheduled, -, honly, -, hrefused⟩ := pushNeighbour_spec queue pos
    have hpos : pos ∈ room := hpositions pos (.head _)
    have hnot : (queue.pushNeighbour pos).2 ≠ .refused := by
      intro h
      obtain ⟨hnew, hfull⟩ := hrefused h
      have hlt : queue.current.card < room.card :=
        Finset.card_lt_card (Finset.ssubset_iff_subset_ne.mpr ⟨hcurrent, fun heq => hnew (heq ▸ hpos)⟩)
      rw [UpdateQueue.len_eq] at hfull
      omega
    rw [if_neg hnot]
    refine ih _ (by rw [hscheduled]; exact hroom) (honly.trans ?_) fun q hq => hpositions q (.tail _ hq)
    exact Finset.insert_subset hpos hcurrent

/-- A full queue takes nothing. -/
theorem pushAll_full (positions : List BlockPos) (queue : UpdateQueue BlockPos) (refused : Nat)
    (hfull : queue.len ≥ MAX_ENTRIES) :
    (pushAll queue refused positions).1.current = queue.current := by
  induction positions generalizing queue refused with
  | nil => rfl
  | cons pos rest ih =>
    have hkeep : (queue.pushNeighbour pos).1.current = queue.current := by
      unfold UpdateQueue.pushNeighbour
      by_cases hpending : pos ∈ queue.current
      · rw [if_pos hpending]
        rfl
      · rw [if_neg hpending, if_pos hfull]
        rfl
    have hscheduled := (pushNeighbour_spec queue pos).1
    rw [pushAll_cons, ih, hkeep]
    rw [UpdateQueue.len_eq] at hfull ⊢
    rw [hkeep, hscheduled]
    exact hfull

/-- New positions are taken up to the bound. -/
theorem pushAll_card (positions : List BlockPos) (queue : UpdateQueue BlockPos) (refused : Nat)
    (hnodup : positions.Nodup) (hnew : ∀ pos ∈ positions, pos ∉ queue.current)
    (hlen : queue.len ≤ MAX_ENTRIES) :
    (pushAll queue refused positions).1.len = min (queue.len + positions.length) MAX_ENTRIES := by
  induction positions generalizing queue refused with
  | nil =>
    rw [List.length_nil, Nat.add_zero, min_eq_left hlen]
    rfl
  | cons pos rest ih =>
    obtain ⟨hfresh, hrest⟩ := List.nodup_cons.mp hnodup
    by_cases hfull : queue.len ≥ MAX_ENTRIES
    · have hkeep := pushAll_full (pos :: rest) queue refused hfull
      have hscheduled := (pushAll_spec (pos :: rest) queue refused).1
      rw [UpdateQueue.len_eq, hkeep, hscheduled, ← UpdateQueue.len_eq]
      omega
    have hadmits := UpdateQueue.pushNeighbour_admits queue pos
    have hinserted : (queue.pushNeighbour pos).2 = .inserted := by
      rw [UpdateQueue.pushNeighbour, if_neg (hnew pos (.head _)), if_neg hfull]
    rw [hinserted] at hadmits
    obtain ⟨-, -, hlt, hnext⟩ := hadmits
    have honly := (pushNeighbour_spec queue pos).2.2.1
    rw [pushAll_cons, ih _ _ hrest ?_ (by omega), hnext, List.length_cons]
    · omega
    · intro q hq hmem
      rcases Finset.mem_insert.mp (honly hmem) with rfl | hmem
      · exact hfresh hq
      · exact hnew q (.tail _ hq) hmem

end View

/-- A view in which a loaded position takes what is written to it, and nothing else changes. -/
class LawfulBlockView (V : Type) extends BlockView V where
  setState_spec : ∀ (world : V) {pos : BlockPos} {id next : Int}, getState world pos = some id → next ≠ id →
    (setState world pos next).2 = true ∧
      getState (setState world pos next).1 = Function.update (getState world) pos (some next)

/-! ## A box of blocks -/

/-- mirrors crates/redstone/src/propagation.rs:1607-1611 (`FlatWorld`). The source's `states` has one
place for each cell of the box, and so fewer than `2^64`. -/
structure FlatWorld where
  min : BlockPos
  size : Nat × Nat × Nat
  states : List Int
  sized : states.length = size.1 * size.2.1 * size.2.2

namespace FlatWorld

/-- mirrors crates/redstone/src/propagation.rs:1619-1628 (`FlatWorld::new`) -/
def new (min : BlockPos) (size : Nat × Nat × Nat) : FlatWorld where
  min := min
  size := size
  states := List.replicate (size.1 * size.2.1 * size.2.2) 0
  sized := List.length_replicate

/-- `u32::try_from` of a checked difference. -/
def place (a b : I32) : Option Nat :=
  (I32.checkedSub a b).bind fun d => if 0 ≤ d.val then some d.val.toNat else none

/-- mirrors crates/redstone/src/propagation.rs:1643-1660 (`FlatWorld::index`) -/
def index (world : FlatWorld) (pos : BlockPos) : Option Nat := do
  let x ← place pos.x world.min.x
  let y ← place pos.y world.min.y
  let z ← place pos.z world.min.z
  if x ≥ world.size.1 ∨ y ≥ world.size.2.1 ∨ z ≥ world.size.2.2 then none
  else some (x + z * world.size.1 + y * world.size.1 * world.size.2.2)

/-- mirrors crates/redstone/src/propagation.rs:1664-1668 (`FlatWorld::get`) -/
def get (world : FlatWorld) (pos : BlockPos) : Option Int :=
  (world.index pos).bind (world.states[·]?)

/-- The place `index` of the array takes the state. -/
def write (world : FlatWorld) (index : Nat) (state : Int) : FlatWorld :=
  { world with states := world.states.set index state, sized := by rw [List.length_set, world.sized] }

/-- mirrors crates/redstone/src/propagation.rs:1675-1683 (`FlatWorld::set`) -/
def set (world : FlatWorld) (pos : BlockPos) (id : Int) : FlatWorld × Bool :=
  match world.index pos with
  | some index => (world.write index id, true)
  | none => (world, false)

instance : BlockView FlatWorld where
  getState := get
  setState world pos state :=
    match world.index pos with
    | some index =>
      if world.states[index]? = some state then (world, false) else (world.write index state, true)
    | none => (world, false)

theorem place_eq_some {a b : I32} {n : Nat} (h : place a b = some n) : a.val = b.val + n := by
  unfold place I32.checkedSub at h
  split at h
  · rw [Option.bind_some] at h
    split at h
    · next hle =>
      have := Option.some.inj h
      dsimp only at hle this
      omega
    · exact nomatch h
  · exact nomatch h

theorem index_eq_some {world : FlatWorld} {pos : BlockPos} {i : Nat} (h : world.index pos = some i) :
    ∃ x y z, x < world.size.1 ∧ y < world.size.2.1 ∧ z < world.size.2.2 ∧
      place pos.x world.min.x = some x ∧ place pos.y world.min.y = some y ∧
      place pos.z world.min.z = some z ∧
      i = x + world.size.1 * (z + world.size.2.2 * y) := by
  unfold index at h
  cases hx : place pos.x world.min.x with
  | none => simp [hx] at h
  | some x =>
    cases hy : place pos.y world.min.y with
    | none => simp [hx, hy] at h
    | some y =>
      cases hz : place pos.z world.min.z with
      | none => simp [hx, hy, hz] at h
      | some z =>
        simp only [hx, hy, hz, Option.bind_eq_bind, Option.bind_some] at h
        split at h
        · exact nomatch h
        · next hin =>
          refine ⟨x, y, z, by omega, by omega, by omega, rfl, rfl, rfl, ?_⟩
          rw [← Option.some.inj h]
          ring

theorem index_inj {world : FlatWorld} {p q : BlockPos} {i : Nat} (hp : world.index p = some i)
    (hq : world.index q = some i) : p = q := by
  obtain ⟨x, y, z, hx, hy, hz, hpx, hpy, hpz, hi⟩ := index_eq_some hp
  obtain ⟨x', y', z', hx', hy', hz', hqx, hqy, hqz, hi'⟩ := index_eq_some hq
  rw [hi] at hi'
  have hxx : x = x' := by
    have := congrArg (· % world.size.1) hi'
    simpa [Nat.add_mul_mod_self_left, Nat.mod_eq_of_lt hx, Nat.mod_eq_of_lt hx'] using this
  subst hxx
  have hrow : z + world.size.2.2 * y = z' + world.size.2.2 * y' :=
    Nat.eq_of_mul_eq_mul_left (by omega : 0 < world.size.1) (Nat.add_left_cancel hi')
  have hzz : z = z' := by
    have := congrArg (· % world.size.2.2) hrow
    simpa [Nat.add_mul_mod_self_left, Nat.mod_eq_of_lt hz, Nat.mod_eq_of_lt hz'] using this
  subst hzz
  have hyy : y = y' :=
    Nat.eq_of_mul_eq_mul_left (by omega : 0 < world.size.2.2) (Nat.add_left_cancel hrow)
  subst hyy
  refine BlockPos.ext (Subtype.ext ?_) (Subtype.ext ?_) (Subtype.ext ?_)
  · rw [place_eq_some hpx, place_eq_some hqx]
  · rw [place_eq_some hpy, place_eq_some hqy]
  · rw [place_eq_some hpz, place_eq_some hqz]

theorem get_write {world : FlatWorld} {pos : BlockPos} {i : Nat} (hi : world.index pos = some i)
    {id next : Int} (hid : world.states[i]? = some id) :
    get (world.write i next) = Function.update (get world) pos (some next) := by
  funext q
  have hindex : (world.write i next).index q = world.index q := rfl
  rw [get, hindex]
  by_cases hq : q = pos
  · subst hq
    obtain ⟨hlt, -⟩ := List.getElem?_eq_some_iff.mp hid
    rw [Function.update_self, hi]
    simp [write, hlt]
  · rw [Function.update_of_ne hq, get]
    cases hj : world.index q with
    | none => rfl
    | some j =>
      have hne : i ≠ j := fun heq => hq (index_inj (heq ▸ hj) hi)
      simp [write, List.getElem?_set_ne hne]

instance : LawfulBlockView FlatWorld where
  setState_spec world {pos id next} hget hne := by
    obtain ⟨i, hi, hid⟩ := Option.bind_eq_some_iff.mp (show (world.index pos).bind _ = some id from hget)
    have hset : BlockView.setState world pos next = (world.write i next, true) := by
      simp only [BlockView.setState, hi]
      rw [if_neg]
      rw [hid]
      exact fun h => hne (Option.some.inj h).symm
    rw [hset]
    exact ⟨rfl, get_write hi hid⟩

end FlatWorld
end Apoptosis.L2.Redstone
