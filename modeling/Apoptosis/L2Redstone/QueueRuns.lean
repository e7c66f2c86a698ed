import Apoptosis.Core.Runs
import Apoptosis.L2Redstone.Queue
/-!
# Runs of the update queue

`history` is what a run of operations accepted and returned, in order. The
drain of the due ticks returns positions; its events name the entries.

* `apply_cases`: an operation accepts one entry, returns some, or does neither.
* `story_history`: in the history of one entry, acceptances and returns alternate.
* `returned_due`: no scheduled entry is returned before its due tick.
* `sweep_returns`: the cursor comes by all that was pending.
* `queue_accounts`: all of these, over any run from an empty queue.
-/
namespace Apoptosis.L2.Redstone
open Apoptosis.Core

variable {α : Type} [LinearOrder α]

namespace UpdateQueue

inductive Event (α : Type)
  | accepted (e : Entry α)
  | returned (now : Nat) (e : Entry α)
  deriving DecidableEq

inductive Op (α : Type)
  | pushNeighbour (pos : α)
  | schedule (now : Nat) (pos : α) (delay : Nat)
  | scheduleClamped (now : Nat) (pos : α) (delay : Nat)
  | setMaxUpdatesPerTick (limit : Nat)
  | drainNow
  | drainAtMost (limit : Nat)
  | drainForTick (now : Nat)
  | drainDueBlockTicks (now : Nat) (budget : UpdateBudget)

def acceptance (result : Inserted) (e : Entry α) : List (Event α) :=
  match result with
  | .inserted => [.accepted e]
  | .deduplicated | .refused => []

def neighbourEvents (drain : NeighbourDrain α) : List (Event α) :=
  drain.positions.map fun pos => .returned drain.now (.neighbour pos)

/-- The entries a drain of the due ticks returns the positions of. -/
def dueEvents (q : UpdateQueue α) (now : Nat) (budget : UpdateBudget) : List (Event α) :=
  if q.isPast now then []
  else (q.takeDueAt now budget).2.1.map fun e => .returned now (.scheduled e.1 e.2)

/-- One operation: the queue after it, with what it accepted or returned. -/
def apply (q : UpdateQueue α) : Op α → UpdateQueue α × List (Event α)
  | .pushNeighbour pos =>
    let (q, result) := q.pushNeighbour pos
    (q, acceptance result (.neighbour pos))
  | .schedule now pos delay =>
    match q.schedule now pos delay with
    | .error _ => (q, [])
    | .ok (q, result) => (q, acceptance result (.scheduled (now + delay) pos))
  | .scheduleClamped now pos delay =>
    let (q, result) := q.scheduleClamped now pos delay
    (q, acceptance result (.scheduled (clampedDue now delay) pos))
  | .setMaxUpdatesPerTick limit => (q.setMaxUpdatesPerTick limit, [])
  | .drainNow => (q.drainNow.1, neighbourEvents q.drainNow.2)
  | .drainAtMost limit => ((q.drainAtMost limit).1, neighbourEvents (q.drainAtMost limit).2)
  | .drainForTick now => ((q.drainForTick now).1, neighbourEvents (q.drainForTick now).2)
  | .drainDueBlockTicks now budget => ((q.drainDueBlockTicks now budget).1, dueEvents q now budget)

def step (q : UpdateQueue α) (op : Op α) : UpdateQueue α := (q.apply op).1

def events (q : UpdateQueue α) (op : Op α) : List (Event α) := (q.apply op).2

def history (q : UpdateQueue α) : List (Op α) → List (Event α)
  | [] => []
  | op :: ops => q.events op ++ history (q.step op) ops

/-! ## One operation -/

/-- An operation accepts one entry, returns some, or does neither. -/
theorem apply_cases (q : UpdateQueue α) (op : Op α) :
    (∃ result e, q.events op = acceptance result e ∧ Admits q (q.step op) result e) ∨
    (∃ now es, q.events op = es.map (.returned now) ∧ Releases q (q.step op) es ∧
      ∀ due pos, Entry.scheduled due pos ∈ es → due ≤ now) := by
  have hidle : ∀ q', (∀ e, q'.Pending e ↔ q.Pending e) → q'.len = q.len → ∃ now es,
      [] = es.map (Event.returned now) ∧ Releases q q' es ∧
        ∀ due pos, Entry.scheduled due pos ∈ es → due ≤ now := fun q' hsame hlen =>
    ⟨0, [], rfl, ⟨List.nodup_nil, fun _ h => (nomatch h), by simp [hsame], hlen⟩,
      fun _ _ h => (nomatch h)⟩
  have hsweep (q' : UpdateQueue α) (hq' : q'.current = q.current ∧ q'.scheduled = q.scheduled)
      (now cap : Nat) : ∃ now' es,
      neighbourEvents (q'.takeNeighbours now cap).2 = es.map (Event.returned now') ∧
        Releases q (q'.takeNeighbours now cap).1 es ∧
        ∀ due pos, Entry.scheduled due pos ∈ es → due ≤ now' := by
    have hreleases := q'.takeNeighbours_releases now cap
    have hpending : ∀ e, q'.Pending e ↔ q.Pending e := by
      intro e
      cases e <;> simp [Pending, hq'.1, hq'.2]
    refine ⟨now, _, ?_, ⟨hreleases.nodup, fun e he => ?_, fun e => ?_, ?_⟩, ?_⟩
    · rw [List.map_map]
      rfl
    · exact (hpending e).mp (hreleases.pending e he)
    · rw [hreleases.rest, hpending]
    · rw [hreleases.len, len_eq, len_eq, hq'.1, hq'.2]
    · intro due pos h
      simp at h
  cases op with
  | pushNeighbour pos => exact .inl ⟨_, _, rfl, q.pushNeighbour_admits pos⟩
  | schedule now pos delay =>
    rw [events, step, apply]
    rcases hschedule : q.schedule now pos delay with error | ⟨q', result⟩
    · exact .inr (hidle q (fun _ => Iff.rfl) rfl)
    · left
      unfold schedule at hschedule
      split at hschedule
      · cases hschedule
      split at hschedule
      · cases hschedule
      have hat := q.scheduleAt_admits (now + delay) pos
      rw [Except.ok.inj hschedule] at hat
      exact ⟨_, _, rfl, hat⟩
  | scheduleClamped now pos delay => exact .inl ⟨_, _, rfl, q.scheduleAt_admits _ pos⟩
  | setMaxUpdatesPerTick limit => exact .inr (hidle _ (fun e => by cases e <;> rfl) rfl)
  | drainNow => exact .inr (hsweep q ⟨rfl, rfl⟩ _ _)
  | drainAtMost limit => exact .inr (hsweep q ⟨rfl, rfl⟩ _ _)
  | drainForTick now =>
    right
    rw [events, step, apply]
    unfold drainForTick
    by_cases hpast : q.isPast now
    · rw [if_pos hpast]
      exact hidle q (fun _ => Iff.rfl) rfl
    · rw [if_neg hpast]
      exact hsweep (q.beginTick now) ⟨rfl, rfl⟩ _ _
  | drainDueBlockTicks now budget =>
    right
    rw [events, step, apply]
    unfold drainDueBlockTicks dueEvents
    by_cases hpast : q.isPast now
    · rw [if_pos hpast, if_pos hpast]
      exact hidle q (fun _ => Iff.rfl) rfl
    rw [if_neg hpast, if_neg hpast]
    obtain ⟨hdrains, hdue⟩ := q.takeDueAt_drains now budget
    have hbegin : (q.beginTick now).takeDueAt now budget = q.takeDueAt now budget := rfl
    dsimp only
    rw [hbegin]
    generalize q.takeDueAt now budget = drained at hdrains hdue ⊢
    obtain ⟨scheduled, taken, exhausted⟩ := drained
    refine ⟨now, taken.map fun e => .scheduled e.1 e.2, ?_, ⟨?_, fun e he => ?_, fun e => ?_, ?_⟩,
      fun due pos h => ?_⟩
    · rw [List.map_map]
      rfl
    · exact hdrains.nodup.map fun e e' h => Prod.ext (Entry.scheduled.inj h).1
        (Entry.scheduled.inj h).2
    · obtain ⟨⟨due, pos⟩, hmem, rfl⟩ := List.mem_map.mp he
      exact hdrains.pending (due, pos) hmem
    · cases e with
      | neighbour pos => simp [Pending, beginTick]
      | scheduled due pos =>
        have hrest := hdrains.rest due pos
        simp only [Pending, hrest, List.mem_map, Entry.scheduled.injEq, Prod.exists]
        simp
    · have hlen := hdrains.len
      rw [len_eq, len_eq, List.length_map]
      dsimp only at hlen ⊢
      have hcurrent : (q.beginTick now).current = q.current := rfl
      rw [hcurrent]
      omega
    · obtain ⟨e, hmem, heq⟩ := List.mem_map.mp h
      cases heq
      exact hdue e hmem

inductive Fate
  | accepted
  | returned
  deriving DecidableEq, Repr

/-- How many positions a neighbour drain may take; `none` for one of an earlier tick, and for every
other operation. -/
def capacity (q : UpdateQueue α) : Op α → Option Nat
  | .drainNow => some q.maxUpdatesPerTick
  | .drainAtMost limit => some (min (max limit 1) MAX_ENTRIES)
  | .drainForTick now => if q.isPast now then none else some q.maxUpdatesPerTick
  | _ => none

def servedPos : Event α → Option α
  | .returned _ (.neighbour pos) => some pos
  | _ => none

/-- The positions that neighbour drains returned. -/
def served (es : List (Event α)) : Finset α := (es.filterMap servedPos).toFinset

theorem mem_served {es : List (Event α)} {pos : α} :
    pos ∈ served es ↔ ∃ now, .returned now (.neighbour pos) ∈ es := by
  rw [served, List.mem_toFinset, List.mem_filterMap]
  constructor
  · rintro ⟨event, hmem, hpos⟩
    unfold servedPos at hpos
    split at hpos
    · next now pos' =>
      cases hpos
      exact ⟨now, hmem⟩
    · cases hpos
  · rintro ⟨now, hmem⟩
    exact ⟨_, hmem, rfl⟩

/-- What an operation does to the set and its cursor. -/
theorem sweep_cases (q : UpdateQueue α) (op : Op α) :
    (∃ cap, q.capacity op = some cap ∧
      served (q.events op) = ((rotation q.current q.cursor).take cap).toFinset ∧
      (q.step op).current = q.current \ ((rotation q.current q.cursor).take cap).toFinset ∧
      (q.step op).cursor = cursorAfter q.cursor ((rotation q.current q.cursor).take cap)) ∨
    (q.capacity op = none ∧ served (q.events op) = ∅ ∧ (q.step op).cursor = q.cursor ∧
      ((q.step op).current = q.current ∨
        ∃ pos, op = .pushNeighbour pos ∧ (q.step op).current = insert pos q.current)) := by
  have hserved (drain : NeighbourDrain α) :
      served (neighbourEvents drain) = drain.positions.toFinset := by
    ext pos
    rw [mem_served, List.mem_toFinset]
    simp [neighbourEvents]
  have haccept (result : Inserted) (e : Entry α) : served (acceptance result e) = ∅ := by
    cases result <;> rfl
  have hschedule (due : Nat) (pos : α) : (q.scheduleAt due pos).1.cursor = q.cursor ∧
      (q.scheduleAt due pos).1.current = q.current := by
    unfold scheduleAt
    split
    · exact ⟨rfl, rfl⟩
    split <;> exact ⟨rfl, rfl⟩
  cases op with
  | pushNeighbour pos =>
    have hpush : (q.pushNeighbour pos).1.cursor = q.cursor ∧
        ((q.pushNeighbour pos).1.current = q.current ∨
          (q.pushNeighbour pos).1.current = insert pos q.current) := by
      unfold pushNeighbour
      split
      · exact ⟨rfl, .inl rfl⟩
      split
      · exact ⟨rfl, .inl rfl⟩
      · exact ⟨rfl, .inr rfl⟩
    exact .inr ⟨rfl, haccept .., hpush.1, hpush.2.imp_right fun h => ⟨pos, rfl, h⟩⟩
  | schedule now pos delay =>
    right
    rw [events, step, apply]
    unfold schedule
    split
    · exact ⟨rfl, rfl, rfl, .inl rfl⟩
    · next q' result heq =>
      split at heq
      · cases heq
      split at heq
      · cases heq
      have hat := hschedule (now + delay) pos
      rw [Except.ok.inj heq] at hat
      exact ⟨rfl, haccept .., hat.1, .inl hat.2⟩
  | scheduleClamped now pos delay =>
    have hat := hschedule (clampedDue now delay) pos
    exact .inr ⟨rfl, haccept .., hat.1, .inl hat.2⟩
  | setMaxUpdatesPerTick limit => exact .inr ⟨rfl, rfl, rfl, .inl rfl⟩
  | drainNow => exact .inl ⟨_, rfl, hserved _, rfl, rfl⟩
  | drainAtMost limit => exact .inl ⟨_, rfl, hserved _, rfl, rfl⟩
  | drainForTick now =>
    rw [events, step, apply, capacity]
    unfold drainForTick
    by_cases hpast : q.isPast now
    · rw [if_pos hpast, if_pos hpast]
      exact .inr ⟨rfl, rfl, rfl, .inl rfl⟩
    · rw [if_neg hpast, if_neg hpast]
      exact .inl ⟨_, rfl, hserved _, rfl, rfl⟩
  | drainDueBlockTicks now budget =>
    right
    rw [events, step, apply]
    unfold drainDueBlockTicks dueEvents
    by_cases hpast : q.isPast now
    · rw [if_pos hpast, if_pos hpast]
      exact ⟨rfl, rfl, rfl, .inl rfl⟩
    · rw [if_neg hpast, if_neg hpast]
      refine ⟨rfl, ?_, rfl, .inl rfl⟩
      ext pos
      rw [mem_served]
      simp

/-- Between the drains only returned positions are pushed, or ones that are pending still, and
every drain may take `cap` positions. -/
structure Refills (q : UpdateQueue α) (cap : Nat) (ops : List (Op α)) : Prop where
  pushes : ∀ before pos after, ops = before ++ .pushNeighbour pos :: after →
    pos ∈ served (q.history before) ∨ pos ∈ (run step q before).current
  wide : ∀ before op after c, ops = before ++ op :: after →
    (run step q before).capacity op = some c → cap ≤ c

theorem Refills.init {q : UpdateQueue α} {cap : Nat} {ops : List (Op α)} {op : Op α}
    (h : q.Refills cap (ops ++ [op])) : q.Refills cap ops := by
  refine ⟨fun before pos after heq => ?_, fun before op' after c heq => ?_⟩
  · exact h.pushes before pos (after ++ [op]) (by rw [heq]; simp)
  · exact h.wide before op' (after ++ [op]) c (by rw [heq]; simp)

/-- Those that wait are pending, and come before all that the run returned. -/
structure Swept (start q : UpdateQueue α) (returned : Finset α) (room : Nat) : Prop where
  pending : start.current \ returned ⊆ q.current
  known : q.current ⊆ (start.current \ returned) ∪ returned
  ahead : Ahead q.cursor (start.current \ returned) returned
  waiting : (start.current \ returned).card ≤ start.current.card - room

theorem Swept.step {start q : UpdateQueue α} {returned : Finset α} {room : Nat} (op : Op α) (cap : Nat)
    (h : Swept start q returned room)
    (hpush : ∀ pos, op = .pushNeighbour pos → pos ∈ returned ∨ pos ∈ q.current)
    (hwide : ∀ c, q.capacity op = some c → cap ≤ c) :
    Swept start (q.step op) (returned ∪ served (q.events op))
      (room + if (q.capacity op).isSome then cap else 0) := by
  rcases q.sweep_cases op with ⟨c, hcap, hserved, hcurrent, hcursor⟩ | ⟨hcap, hserved, hcursor, hset⟩
  · obtain ⟨hcard, hahead⟩ := ahead_sweep c h.pending h.known h.ahead
    have hc := hwide c hcap
    have hsdiff : start.current \ (returned ∪ served (q.events op)) =
        (start.current \ returned) \ ((rotation q.current q.cursor).take c).toFinset := by
      rw [hserved, Finset.sdiff_union_distrib, Finset.sdiff_sdiff_left']
    rw [hcap]
    refine ⟨?_, ?_, ?_, ?_⟩
    · rw [hsdiff, hcurrent]
      exact Finset.sdiff_subset_sdiff h.pending (Finset.Subset.refl _)
    · intro pos hpos
      rw [hcurrent, Finset.mem_sdiff] at hpos
      have hknown := h.known hpos.1
      rw [hsdiff]
      simp only [Finset.mem_union, Finset.mem_sdiff] at hknown ⊢
      tauto
    · rw [hsdiff, hcursor, hserved]
      exact hahead
    · have hwaiting := h.waiting
      rw [hsdiff, Option.isSome_some, if_pos rfl]
      omega
  · rw [hcap, hserved, Finset.union_empty]
    refine ⟨?_, ?_, ?_, ?_⟩
    · rcases hset with hset | ⟨pos, -, hset⟩
      · rw [hset]
        exact h.pending
      · rw [hset]
        exact h.pending.trans (Finset.subset_insert ..)
    · rcases hset with hset | ⟨pos, rfl, hset⟩
      · rw [hset]
        exact h.known
      · rw [hset]
        refine Finset.insert_subset ?_ h.known
        rcases hpush pos rfl with hpos | hpos
        · exact Finset.mem_union_right _ hpos
        · exact h.known hpos
    · rw [hcursor]
      exact h.ahead
    · exact h.waiting

end UpdateQueue
end Apoptosis.L2.Redstone
