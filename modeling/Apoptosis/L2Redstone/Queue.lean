import Apoptosis.Core.Instances
import Apoptosis.Core.OrdMap
import Apoptosis.Core.Sweep
import Apoptosis.ServerError
/-!
# The redstone update queue (`redstone/src/update.rs`)

`UpdateQueue` holds the neighbour updates that can be served now, an ordered
set walked by a cursor, and the scheduled block ticks by due tick. Both share
one bound on the pending entries. Positions are any linear order here; ticks
and sizes are naturals, with the source's overflow check where it makes one.

* `pushNeighbour_admits`, `scheduleAt_admits`: a push adds its entry, within the bound.
* `takeNeighbours_releases`, `takeDueAt_drains`: a drain removes what it returns.
-/
namespace Apoptosis.L2.Redstone
open Apoptosis.Core

/-- mirrors crates/redstone/src/update.rs:209 -/
def MAX_SCHEDULE_DELAY : Nat := 32768

/-- mirrors crates/redstone/src/update.rs:436 -/
def MAX_ENTRIES : Nat := 4096

/-- mirrors crates/redstone/src/update.rs:443 -/
def MAX_UPDATES_PER_TICK : Nat := 1024

/-- `u64::MAX` -/
def U64_MAX : Nat := 2 ^ 64 - 1

/-- mirrors crates/redstone/src/update.rs:213-230 (`Inserted`) -/
inductive Inserted
  | inserted
  | deduplicated
  | refused
  deriving DecidableEq, Repr

/-- mirrors crates/redstone/src/update.rs:261-266 (`UpdateBudget`) -/
structure UpdateBudget where
  neighbourUpdatesPerTick : Nat
  scheduledTicksPerTick : Nat
  deriving DecidableEq, Repr

/-- mirrors crates/redstone/src/update.rs:311-318 (`NeighbourDrain`) -/
structure NeighbourDrain (α : Type) where
  now : Nat
  positions : List α
  budgetExhausted : Bool

/-- mirrors crates/redstone/src/update.rs:342-351 (`BlockTickDrain`) -/
structure BlockTickDrain (α : Type) where
  now : Nat
  positions : List α
  budgetExhausted : Bool
  scheduledLater : Nat

/-- mirrors crates/redstone/src/update.rs:409-426 (`UpdateQueue`) -/
structure UpdateQueue (α : Type) [LinearOrder α] where
  current : Finset α
  cursor : Option α
  scheduled : OrdMap Nat (Finset α)
  maxUpdatesPerTick : Nat
  budgetExhausted : Bool
  refusedTotal : Nat
  deduplicatedTotal : Nat
  lastDrainedTick : Option Nat

variable {α : Type} [LinearOrder α]

namespace UpdateQueue

/-- mirrors crates/redstone/src/update.rs:446-457 (`UpdateQueue::new`) -/
def new : UpdateQueue α where
  current := ∅
  cursor := none
  scheduled := .empty
  maxUpdatesPerTick := MAX_UPDATES_PER_TICK
  budgetExhausted := false
  refusedTotal := 0
  deduplicatedTotal := 0
  lastDrainedTick := none

/-- mirrors crates/redstone/src/update.rs:461-463 (`UpdateQueue::len`) -/
def len (q : UpdateQueue α) : Nat :=
  q.current.card + tally (fun e => e.2.card) q.scheduled.entries

/-- mirrors crates/redstone/src/update.rs:528-530 (`UpdateQueue::set_max_updates_per_tick`) -/
def setMaxUpdatesPerTick (q : UpdateQueue α) (limit : Nat) : UpdateQueue α :=
  { q with maxUpdatesPerTick := min (max limit 1) MAX_ENTRIES }

/-- The two counters, `u64::saturating_add(1)`. -/
def deduplicate (q : UpdateQueue α) : UpdateQueue α :=
  { q with deduplicatedTotal := min (q.deduplicatedTotal + 1) U64_MAX }

def refuse (q : UpdateQueue α) : UpdateQueue α :=
  { q with refusedTotal := min (q.refusedTotal + 1) U64_MAX }

section
attribute [local instance] Apoptosis.Core.sortsTrans Apoptosis.Core.sortsAntisymm

/-- mirrors crates/redstone/src/update.rs:545-547 (`UpdateQueue::next_pending`) -/
def nextPending (q : UpdateQueue α) : Option α := q.current.sort.head?

end

/-- mirrors crates/redstone/src/update.rs:555-566 (`UpdateQueue::push_neighbour`) -/
def pushNeighbour (q : UpdateQueue α) (pos : α) : UpdateQueue α × Inserted :=
  if pos ∈ q.current then (q.deduplicate, .deduplicated)
  else if q.len ≥ MAX_ENTRIES then (q.refuse, .refused)
  else ({ q with current := insert pos q.current }, .inserted)

/-- mirrors crates/redstone/src/update.rs:574-582 (`UpdateQueue::push_neighbours`) -/
def pushNeighbours (q : UpdateQueue α) : List α → UpdateQueue α × Nat
  | [] => (q, 0)
  | pos :: positions =>
    let (q, result) := q.pushNeighbour pos
    let (q, inserted) := q.pushNeighbours positions
    (q, if result = .inserted then inserted + 1 else inserted)

/-- The positions due at one tick, empty where the map has none. -/
def scheduledAt (scheduled : OrdMap Nat (Finset α)) (due : Nat) : Finset α :=
  (scheduled.get? due).getD ∅

/-- mirrors crates/redstone/src/update.rs:618-633 (`UpdateQueue::schedule_at`) -/
def scheduleAt (q : UpdateQueue α) (due : Nat) (pos : α) : UpdateQueue α × Inserted :=
  if pos ∈ scheduledAt q.scheduled due then (q.deduplicate, .deduplicated)
  else if q.len ≥ MAX_ENTRIES then (q.refuse, .refused)
  else
    ({ q with scheduled := q.scheduled.insert due (insert pos (scheduledAt q.scheduled due)) },
      .inserted)

/-- mirrors crates/redstone/src/update.rs:591-601 (`UpdateQueue::schedule`) -/
def schedule (q : UpdateQueue α) (now : Nat) (pos : α) (delay : Nat) :
    ServerResult (UpdateQueue α × Inserted) :=
  if delay > MAX_SCHEDULE_DELAY then
    .error (.invalidAction
      s!"scheduled tick delay {delay} exceeds the {MAX_SCHEDULE_DELAY} tick maximum")
  else if now + delay > U64_MAX then
    .error (.invalidAction s!"scheduled tick at tick {now} + {delay} overflows")
  else .ok (q.scheduleAt (now + delay) pos)

def clampedDue (now delay : Nat) : Nat := min (now + min delay MAX_SCHEDULE_DELAY) U64_MAX

/-- mirrors crates/redstone/src/update.rs:607-611 (`UpdateQueue::schedule_clamped`) -/
def scheduleClamped (q : UpdateQueue α) (now : Nat) (pos : α) (delay : Nat) :
    UpdateQueue α × Inserted :=
  q.scheduleAt (clampedDue now delay) pos

/-- mirrors crates/redstone/src/update.rs:661-663 (`UpdateQueue::begin_tick`) -/
def beginTick (q : UpdateQueue α) (now : Nat) : UpdateQueue α :=
  { q with lastDrainedTick := some now }

/-- mirrors crates/redstone/src/update.rs:729-766 (`UpdateQueue::take_neighbours`) -/
def takeNeighbours (q : UpdateQueue α) (now cap : Nat) : UpdateQueue α × NeighbourDrain α :=
  let positions := (rotation q.current q.cursor).take cap
  let current := q.current \ positions.toFinset
  let exhausted : Bool := current.card ≠ 0
  ({ q with
      current := current
      cursor := cursorAfter q.cursor positions
      budgetExhausted := exhausted },
    ⟨now, positions, exhausted⟩)

/-- mirrors crates/redstone/src/update.rs:675-679 (`UpdateQueue::drain_now`) -/
def drainNow (q : UpdateQueue α) : UpdateQueue α × NeighbourDrain α :=
  q.takeNeighbours (q.lastDrainedTick.getD 0) q.maxUpdatesPerTick

/-- mirrors crates/redstone/src/update.rs:693-696 (`UpdateQueue::drain_at_most`) -/
def drainAtMost (q : UpdateQueue α) (limit : Nat) : UpdateQueue α × NeighbourDrain α :=
  q.takeNeighbours (q.lastDrainedTick.getD 0) (min (max limit 1) MAX_ENTRIES)

/-- The tick lies before the one the queue last drained for. -/
def isPast (q : UpdateQueue α) (now : Nat) : Bool := q.lastDrainedTick.any (now < ·)

/-- mirrors crates/redstone/src/update.rs:704-715 (`UpdateQueue::drain_for_tick`) -/
def drainForTick (q : UpdateQueue α) (now : Nat) : UpdateQueue α × NeighbourDrain α :=
  if q.isPast now then (q, ⟨now, [], false⟩)
  else (q.beginTick now).takeNeighbours now q.maxUpdatesPerTick

section
attribute [local instance] Apoptosis.Core.sortsTrans Apoptosis.Core.sortsAntisymm

/-- The loop of `drain_due_block_ticks` over the due ticks; `taken` are the positions so far, each
with the tick it was due at. -/
def takeDue (limit : Nat) : List Nat → OrdMap Nat (Finset α) → List (Nat × α) →
    OrdMap Nat (Finset α) × List (Nat × α) × Bool
  | [], scheduled, taken => (scheduled, taken, false)
  | due :: dues, scheduled, taken =>
    let pending := (scheduledAt scheduled due).sort
    let scheduled := scheduled.erase due
    let room := limit - taken.length
    let taken := taken ++ (pending.take room).map (due, ·)
    let remaining := pending.drop room
    if remaining = [] then takeDue limit dues scheduled taken
    else
      (scheduled.insert due (scheduledAt scheduled due ∪ remaining.toFinset), taken, true)

end

def dueTicks (scheduled : OrdMap Nat (Finset α)) (now : Nat) : List Nat :=
  (scheduled.entries.map Prod.fst).filter (· ≤ now)

def takeDueAt (q : UpdateQueue α) (now : Nat) (budget : UpdateBudget) :
    OrdMap Nat (Finset α) × List (Nat × α) × Bool :=
  takeDue budget.scheduledTicksPerTick (dueTicks q.scheduled now) q.scheduled []

/-- mirrors crates/redstone/src/update.rs:778-821 (`UpdateQueue::drain_due_block_ticks`) -/
def drainDueBlockTicks (q : UpdateQueue α) (now : Nat) (budget : UpdateBudget) :
    UpdateQueue α × BlockTickDrain α :=
  if q.isPast now then (q, ⟨now, [], false, q.len⟩)
  else
    let q := q.beginTick now
    let (scheduled, taken, exhausted) := q.takeDueAt now budget
    let q := { q with scheduled := scheduled }
    (q, ⟨now, taken.map Prod.snd, exhausted, q.len⟩)

theorem nextPending_isSome (q : UpdateQueue α) : q.nextPending.isSome ↔ q.current ≠ ∅ := by
  rw [nextPending, List.isSome_head?, ne_eq, ne_eq, ← List.length_eq_zero_iff, Finset.length_sort,
    Finset.card_eq_zero]

/-! ## What an operation does to the entries -/

/-- What the queue can hold: a position, or a due tick with a position. -/
inductive Entry (α : Type)
  | neighbour (pos : α)
  | scheduled (due : Nat) (pos : α)
  deriving DecidableEq

def Pending (q : UpdateQueue α) : Entry α → Prop
  | .neighbour pos => pos ∈ q.current
  | .scheduled due pos => pos ∈ scheduledAt q.scheduled due

instance (q : UpdateQueue α) : DecidablePred q.Pending := fun e =>
  match e with
  | .neighbour pos => inferInstanceAs (Decidable (pos ∈ q.current))
  | .scheduled due pos => inferInstanceAs (Decidable (pos ∈ scheduledAt q.scheduled due))

omit [LinearOrder α] in
theorem scheduledAt_insert (scheduled : OrdMap Nat (Finset α)) (due due' : Nat) (s : Finset α) :
    scheduledAt (scheduled.insert due s) due' =
      if due = due' then s else scheduledAt scheduled due' := by
  rw [scheduledAt, OrdMap.get?_insert]
  split <;> rfl

omit [LinearOrder α] in
theorem scheduledAt_erase (scheduled : OrdMap Nat (Finset α)) (due due' : Nat) :
    scheduledAt (scheduled.erase due) due' =
      if due = due' then ∅ else scheduledAt scheduled due' := by
  rw [scheduledAt, OrdMap.get?_erase]
  split <;> rfl

def scheduledLen (scheduled : OrdMap Nat (Finset α)) : Nat :=
  tally (fun e => e.2.card) scheduled.entries

theorem len_eq (q : UpdateQueue α) : q.len = q.current.card + scheduledLen q.scheduled := rfl

omit [LinearOrder α] in
theorem card_scheduledAt (scheduled : OrdMap Nat (Finset α)) (due : Nat) :
    (scheduled.get? due).elim 0 Finset.card = (scheduledAt scheduled due).card := by
  rw [scheduledAt]
  cases scheduled.get? due <;> rfl

omit [LinearOrder α] in
theorem scheduledLen_insert (scheduled : OrdMap Nat (Finset α)) (due : Nat) (s : Finset α) :
    scheduledLen (scheduled.insert due s) + (scheduledAt scheduled due).card =
      scheduledLen scheduled + s.card := by
  rw [← card_scheduledAt]
  exact OrdMap.tally_insert (fun e => e.2.card) scheduled due s

omit [LinearOrder α] in
theorem scheduledLen_erase (scheduled : OrdMap Nat (Finset α)) (due : Nat) :
    scheduledLen (scheduled.erase due) + (scheduledAt scheduled due).card =
      scheduledLen scheduled := by
  rw [← card_scheduledAt]
  exact OrdMap.tally_erase (fun e => e.2.card) scheduled due

/-- `q'` is `q` with one more entry where `result` says so, and within the bound. -/
def Admits (q q' : UpdateQueue α) (result : Inserted) (e : Entry α) : Prop :=
  match result with
  | .inserted => ¬q.Pending e ∧ (∀ e', q'.Pending e' ↔ q.Pending e' ∨ e' = e) ∧
      q.len < MAX_ENTRIES ∧ q'.len = q.len + 1
  | .deduplicated | .refused => (∀ e', q'.Pending e' ↔ q.Pending e') ∧ q'.len = q.len

theorem pushNeighbour_admits (q : UpdateQueue α) (pos : α) :
    Admits q (q.pushNeighbour pos).1 (q.pushNeighbour pos).2 (.neighbour pos) := by
  unfold pushNeighbour
  by_cases hpending : pos ∈ q.current
  · rw [if_pos hpending]
    exact ⟨fun _ => Iff.rfl, rfl⟩
  rw [if_neg hpending]
  by_cases hfull : q.len ≥ MAX_ENTRIES
  · rw [if_pos hfull]
    exact ⟨fun _ => Iff.rfl, rfl⟩
  rw [if_neg hfull]
  refine ⟨hpending, fun e' => ?_, not_le.mp hfull, ?_⟩
  · cases e' with
    | neighbour pos' => simp [Pending, or_comm]
    | scheduled due pos' => simp [Pending]
  · have hcard := Finset.card_insert_of_notMem hpending
    rw [len_eq, len_eq]
    dsimp only
    omega

theorem scheduleAt_admits (q : UpdateQueue α) (due : Nat) (pos : α) :
    Admits q (q.scheduleAt due pos).1 (q.scheduleAt due pos).2 (.scheduled due pos) := by
  unfold scheduleAt
  by_cases hpending : pos ∈ scheduledAt q.scheduled due
  · rw [if_pos hpending]
    exact ⟨fun _ => Iff.rfl, rfl⟩
  rw [if_neg hpending]
  by_cases hfull : q.len ≥ MAX_ENTRIES
  · rw [if_pos hfull]
    exact ⟨fun _ => Iff.rfl, rfl⟩
  rw [if_neg hfull]
  refine ⟨hpending, fun e' => ?_, not_le.mp hfull, ?_⟩
  · cases e' with
    | neighbour pos' => simp [Pending]
    | scheduled due' pos' =>
      simp only [Pending, scheduledAt_insert, Entry.scheduled.injEq]
      by_cases hdue : due = due'
      · subst hdue
        simp [or_comm]
      · simp [hdue, Ne.symm hdue]
  · have hlen := scheduledLen_insert q.scheduled due (insert pos (scheduledAt q.scheduled due))
    rw [Finset.card_insert_of_notMem hpending] at hlen
    rw [len_eq, len_eq]
    dsimp only
    omega

/-- `q'` is `q` without the entries `es`, each of which it had. -/
structure Releases (q q' : UpdateQueue α) (es : List (Entry α)) : Prop where
  nodup : es.Nodup
  pending : ∀ e ∈ es, q.Pending e
  rest : ∀ e, q'.Pending e ↔ q.Pending e ∧ e ∉ es
  len : q'.len + es.length = q.len

theorem takeNeighbours_releases (q : UpdateQueue α) (now cap : Nat) :
    Releases q (q.takeNeighbours now cap).1
      ((q.takeNeighbours now cap).2.positions.map .neighbour) := by
  unfold takeNeighbours
  have hnodup : ((rotation q.current q.cursor).take cap).Nodup :=
    (rotation_nodup q.current q.cursor).sublist (List.take_sublist ..)
  have hpending : ∀ pos ∈ (rotation q.current q.cursor).take cap, pos ∈ q.current :=
    fun pos h => mem_rotation.mp (List.mem_of_mem_take h)
  dsimp only
  generalize (rotation q.current q.cursor).take cap = positions at hnodup hpending ⊢
  refine ⟨?_, ?_, fun e => ?_, ?_⟩
  · exact hnodup.map fun pos pos' h => Entry.neighbour.inj h
  · intro e he
    obtain ⟨pos, hpos, rfl⟩ := List.mem_map.mp he
    exact hpending pos hpos
  · cases e with
    | neighbour pos => simp [Pending]
    | scheduled due pos => simp [Pending]
  · have hsub : positions.toFinset ⊆ q.current := fun pos h =>
      hpending pos (List.mem_toFinset.mp h)
    have hcard := Finset.card_sdiff_add_card_eq_card hsub
    rw [List.toFinset_card_of_nodup hnodup] at hcard
    rw [len_eq, len_eq, List.length_map]
    dsimp only
    omega

/-- `scheduled'` is `scheduled` without the pairs `taken`, each of which it had. -/
structure Drains (scheduled scheduled' : OrdMap Nat (Finset α)) (taken : List (Nat × α)) :
    Prop where
  nodup : taken.Nodup
  pending : ∀ e ∈ taken, e.2 ∈ scheduledAt scheduled e.1
  rest : ∀ due pos, pos ∈ scheduledAt scheduled' due ↔
    pos ∈ scheduledAt scheduled due ∧ (due, pos) ∉ taken
  len : scheduledLen scheduled' + taken.length = scheduledLen scheduled

omit [LinearOrder α] in
theorem Drains.refl (scheduled : OrdMap Nat (Finset α)) : Drains scheduled scheduled [] :=
  ⟨List.nodup_nil, fun _ h => (nomatch h), by simp, rfl⟩

omit [LinearOrder α] in
theorem Drains.trans {a b c : OrdMap Nat (Finset α)} {taken taken' : List (Nat × α)}
    (h : Drains a b taken) (h' : Drains b c taken') : Drains a c (taken ++ taken') := by
  have hpending : ∀ e ∈ taken', e.2 ∈ scheduledAt a e.1 ∧ e ∉ taken := fun e he =>
    (h.rest e.1 e.2).mp (h'.pending e he)
  refine ⟨?_, ?_, ?_, ?_⟩
  · refine List.nodup_append.mpr ⟨h.nodup, h'.nodup, ?_⟩
    rintro e he e' he' rfl
    exact (hpending e he').2 he
  · intro e he
    rcases List.mem_append.mp he with he | he
    · exact h.pending e he
    · exact (hpending e he).1
  · intro due pos
    rw [h'.rest, h.rest, List.mem_append]
    tauto
  · have := h.len
    have := h'.len
    rw [List.length_append]
    omega

/-- One due tick: a prefix of its positions goes, the others are left under it. -/
theorem drains_due {scheduled scheduled' : OrdMap Nat (Finset α)} {due room : Nat}
    (hat : scheduledAt scheduled' due = ((scheduledAt scheduled due).sort.drop room).toFinset)
    (hother : ∀ due', due ≠ due' → scheduledAt scheduled' due' = scheduledAt scheduled due')
    (hlen : scheduledLen scheduled' + (scheduledAt scheduled due).card =
      scheduledLen scheduled + (scheduledAt scheduled' due).card) :
    Drains scheduled scheduled' (((scheduledAt scheduled due).sort.take room).map (due, ·)) := by
  have hnodup : (scheduledAt scheduled due).sort.Nodup := Finset.sort_nodup _ _
  have hmem : ∀ pos, pos ∈ (scheduledAt scheduled due).sort ↔ pos ∈ scheduledAt scheduled due :=
    fun pos => Finset.mem_sort _
  have hcount : (scheduledAt scheduled due).sort.length = (scheduledAt scheduled due).card :=
    Finset.length_sort _
  generalize (scheduledAt scheduled due).sort = pending at hat hnodup hmem hcount ⊢
  have hparts : pending.take room ++ pending.drop room = pending := List.take_append_drop ..
  generalize pending.take room = front, pending.drop room = back at hat hparts ⊢
  subst hparts
  obtain ⟨hfront, hback, hapart⟩ := List.nodup_append.mp hnodup
  refine ⟨?_, ?_, fun due' pos => ?_, ?_⟩
  · exact hfront.map fun pos pos' h => (Prod.mk.inj h).2
  · intro e he
    obtain ⟨pos, hpos, rfl⟩ := List.mem_map.mp he
    exact (hmem pos).mp (List.mem_append_left _ hpos)
  · by_cases hdue : due = due'
    · subst hdue
      have hcases := hmem pos
      rw [List.mem_append] at hcases
      have hno : pos ∈ front → pos ∉ back := fun h h' => hapart pos h pos h' rfl
      rw [hat, List.mem_toFinset]
      simp only [List.mem_map, Prod.mk.injEq, true_and, exists_eq_right]
      tauto
    · rw [hother due' hdue]
      simp [hdue]
  · rw [hat, List.toFinset_card_of_nodup hback] at hlen
    rw [List.length_append] at hcount
    rw [List.length_map]
    omega

/-- The loop over the due ticks takes pairs of those ticks. -/
theorem takeDue_drains (limit : Nat) (dues : List Nat) (scheduled : OrdMap Nat (Finset α))
    (taken : List (Nat × α)) : ∃ new,
      (takeDue limit dues scheduled taken).2.1 = taken ++ new ∧ (∀ e ∈ new, e.1 ∈ dues) ∧
      Drains scheduled (takeDue limit dues scheduled taken).1 new := by
  induction dues generalizing scheduled taken with
  | nil => exact ⟨[], (List.append_nil _).symm, fun _ h => (nomatch h), .refl _⟩
  | cons due dues ih =>
    unfold takeDue
    have herase := scheduledLen_erase scheduled due
    have hempty : scheduledAt (scheduled.erase due) due = ∅ := by
      rw [scheduledAt_erase, if_pos rfl]
    have hfront : ∀ e ∈ ((scheduledAt scheduled due).sort.take (limit - taken.length)).map (due, ·),
        e.1 = due := by
      intro e he
      obtain ⟨pos, -, rfl⟩ := List.mem_map.mp he
      rfl
    dsimp only
    split
    · next hnone =>
      obtain ⟨new, htaken, hdues, hdrains⟩ := ih (scheduled.erase due)
        (taken ++ ((scheduledAt scheduled due).sort.take (limit - taken.length)).map (due, ·))
      refine ⟨_, htaken.trans (List.append_assoc ..), fun e he => ?_, Drains.trans ?_ hdrains⟩
      · rcases List.mem_append.mp he with he | he
        · rw [hfront e he]
          exact List.mem_cons_self ..
        · exact List.mem_cons_of_mem _ (hdues e he)
      · refine drains_due ?_ (fun due' hne => ?_) ?_
        · rw [hnone, hempty]
          rfl
        · rw [scheduledAt_erase, if_neg hne]
        · rw [hempty, Finset.card_empty]
          omega
    · refine ⟨_, rfl, fun e he => ?_, drains_due ?_ (fun due' hne => ?_) ?_⟩
      · rw [hfront e he]
        exact List.mem_cons_self ..
      · rw [scheduledAt_insert, if_pos rfl, hempty, Finset.empty_union]
      · rw [scheduledAt_insert, if_neg hne, scheduledAt_erase, if_neg hne]
      · have hinsert := scheduledLen_insert (scheduled.erase due) due
          (scheduledAt (scheduled.erase due) due ∪
            ((scheduledAt scheduled due).sort.drop (limit - taken.length)).toFinset)
        rw [scheduledAt_insert, if_pos rfl]
        rw [hempty] at hinsert ⊢
        rw [Finset.card_empty] at hinsert
        dsimp only
        omega

theorem takeDueAt_drains (q : UpdateQueue α) (now : Nat) (budget : UpdateBudget) :
    Drains q.scheduled (q.takeDueAt now budget).1 (q.takeDueAt now budget).2.1 ∧
      ∀ e ∈ (q.takeDueAt now budget).2.1, e.1 ≤ now := by
  obtain ⟨new, htaken, hdues, hdrains⟩ := takeDue_drains budget.scheduledTicksPerTick
    (dueTicks q.scheduled now) q.scheduled []
  rw [List.nil_append] at htaken
  rw [← htaken] at hdrains hdues
  refine ⟨hdrains, fun e he => ?_⟩
  exact of_decide_eq_true (List.mem_filter.mp (hdues e he)).2

end UpdateQueue
end Apoptosis.L2.Redstone
