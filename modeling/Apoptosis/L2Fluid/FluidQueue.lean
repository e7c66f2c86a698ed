import Apoptosis.Core.Agenda
import Apoptosis.Core.Runs
/-!
# The fluid queue (`simulation/src/fluid/queue.rs`)

`FluidQueue` holds the scheduled fluid ticks by due tick, each with an ordered
set of positions, and a running count of its entries. `drain_due` takes the
entries due by a tick up to a budget and puts the rest back. Positions are any
linear order here; ticks are naturals, with the source's saturation.

* `scheduleAt_cases`: a schedule adds its entry, or leaves the entries alone.
* `takeDue_spec`: the loop takes a prefix of what is due, and nothing else goes.
* `drainDue_spec`: what a drain returns, leaves behind and reports.
* `fluid_queue_accounts`: the account of every entry, over any run.
-/
namespace Apoptosis.L2.Fluid
open Apoptosis.Core

/-- mirrors crates/simulation/src/fluid/queue.rs:51 -/
def MAX_FLUID_TICKS_PER_TICK : Nat := 4096

/-- mirrors crates/simulation/src/fluid/queue.rs:62 -/
def MAX_FLUID_QUEUE_ENTRIES : Nat := 4 * MAX_FLUID_TICKS_PER_TICK

/-- mirrors crates/simulation/src/fluid/queue.rs:70 -/
def MAX_FLUID_SCHEDULE_DELAY : Nat := 32768

/-- `u64::MAX` -/
def TICK_MAX : Nat := 2 ^ 64 - 1

/-- mirrors crates/simulation/src/fluid/queue.rs:74-81 (`FluidScheduled`) -/
inductive FluidScheduled
  | scheduled
  | deduplicated
  | refused
  deriving DecidableEq, Repr

/-- mirrors crates/simulation/src/fluid/queue.rs:93-96 (`FluidBudget`) -/
structure FluidBudget where
  fluidTicksPerTick : Nat
  deriving DecidableEq, Repr

/-- mirrors crates/simulation/src/fluid/queue.rs:128-138 (`FluidDrain`) -/
structure FluidDrain (α : Type) where
  now : Nat
  due : List α
  budgetExhausted : Bool
  pending : Nat

/-- mirrors crates/simulation/src/fluid/queue.rs:167-182 (`FluidQueue`) -/
structure FluidQueue (α : Type) [LinearOrder α] where
  scheduled : OrdMap Nat (Finset α)
  entries : Nat
  maxPerTick : Nat
  lastDrainedTick : Option Nat
  spilledTotal : Nat
  deduplicatedTotal : Nat
  refusedTotal : Nat

variable {α : Type} [LinearOrder α]

namespace FluidQueue

/-- mirrors crates/simulation/src/fluid/queue.rs:183-193 (`FluidQueue::new`) -/
def new : FluidQueue α where
  scheduled := .empty
  entries := 0
  maxPerTick := MAX_FLUID_TICKS_PER_TICK
  lastDrainedTick := none
  spilledTotal := 0
  deduplicatedTotal := 0
  refusedTotal := 0

/-- mirrors crates/simulation/src/fluid/queue.rs:200-202 (`FluidQueue::pending`) -/
def pending (q : FluidQueue α) : Nat := q.entries

/-- mirrors crates/simulation/src/fluid/queue.rs:292-308 (`FluidQueue::schedule_at`) -/
def scheduleAt (q : FluidQueue α) (due : Nat) (pos : α) : FluidQueue α × FluidScheduled :=
  if pos ∈ heldAt q.scheduled due then
    ({ q with deduplicatedTotal := min (q.deduplicatedTotal + 1) TICK_MAX }, .deduplicated)
  else if q.entries ≥ MAX_FLUID_QUEUE_ENTRIES then
    ({ q with refusedTotal := min (q.refusedTotal + 1) TICK_MAX }, .refused)
  else
    ({ q with
        scheduled := q.scheduled.insert due (insert pos (heldAt q.scheduled due))
        entries := q.entries + 1 },
      .scheduled)

/-- `now.saturating_add(delay.min(MAX_FLUID_SCHEDULE_DELAY))` -/
def dueAfter (now delay : Nat) : Nat := min (now + min delay MAX_FLUID_SCHEDULE_DELAY) TICK_MAX

/-- mirrors crates/simulation/src/fluid/queue.rs:286-289 (`FluidQueue::schedule`) -/
def schedule (q : FluidQueue α) (now : Nat) (pos : α) (delay : Nat) :
    FluidQueue α × FluidScheduled :=
  q.scheduleAt (dueAfter now delay) pos

/-- The due ticks up to `now`, `scheduled.range(..=now)`. -/
def dueTicks (scheduled : OrdMap Nat (Finset α)) (now : Nat) : List Nat :=
  (scheduled.entries.map Prod.fst).filter (· ≤ now)

/-- What the loop of `drain_due` has when it ends: the map, the positions taken, each with the tick
it was due at, and the positions put back. -/
structure Taken (α : Type) [LinearOrder α] where
  scheduled : OrdMap Nat (Finset α)
  due : List (Nat × α)
  remaining : List α

/-- The loop of `drain_due` over the due ticks. -/
def takeDue (cap : Nat) : List Nat → OrdMap Nat (Finset α) → List (Nat × α) → Taken α
  | [], scheduled, due => ⟨scheduled, due, []⟩
  | tick :: ticks, scheduled, due =>
    let pending := (heldAt scheduled tick).sort
    let scheduled := scheduled.erase tick
    let room := cap - due.length
    let due := due ++ (pending.take room).map (tick, ·)
    let remaining := pending.drop room
    if remaining = [] then takeDue cap ticks scheduled due
    else ⟨scheduled.insert tick (heldAt scheduled tick ∪ remaining.toFinset), due, remaining⟩

def takeDueAt (q : FluidQueue α) (now : Nat) (budget : FluidBudget) : Taken α :=
  takeDue budget.fluidTicksPerTick (dueTicks q.scheduled now) q.scheduled []

/-- The tick lies before the one the queue last drained for. -/
def isPast (q : FluidQueue α) (now : Nat) : Bool := q.lastDrainedTick.any (now < ·)

/-- mirrors crates/simulation/src/fluid/queue.rs:322-365 (`FluidQueue::drain_due`) -/
def drainDue (q : FluidQueue α) (now : Nat) (budget : FluidBudget) :
    FluidQueue α × FluidDrain α :=
  if q.isPast now then (q, ⟨now, [], false, q.entries⟩)
  else
    let taken := q.takeDueAt now budget
    let entries := tally (fun e => e.2.card) taken.scheduled.entries
    ({ q with
        scheduled := taken.scheduled
        entries := entries
        lastDrainedTick := some now
        spilledTotal := min (q.spilledTotal + taken.remaining.length) TICK_MAX },
      ⟨now, taken.due.map Prod.snd, taken.remaining ≠ [], entries⟩)

/-! ## What an operation does to the entries -/

/-- The entries, in the order they fall due. -/
def agenda (q : FluidQueue α) : List (Nat × α) := Core.agenda q.scheduled

/-- The entries due by a tick. -/
def dueBy (q : FluidQueue α) (now : Nat) : List (Nat × α) := q.agenda.filter (·.1 ≤ now)

/-- The entries a drain returns the positions of. -/
def returned (q : FluidQueue α) (now : Nat) (budget : FluidBudget) : List (Nat × α) :=
  if q.isPast now then [] else (q.takeDueAt now budget).due

/-- The running count is the number of entries, and within the bound. -/
structure Counted (q : FluidQueue α) : Prop where
  entries : q.entries = q.agenda.length
  bound : q.entries ≤ MAX_FLUID_QUEUE_ENTRIES

theorem counted_new : (new : FluidQueue α).Counted := ⟨rfl, Nat.zero_le _⟩

/-- A schedule adds its entry, or leaves the entries alone. -/
theorem scheduleAt_cases (q : FluidQueue α) (due : Nat) (pos : α) :
    ((q.scheduleAt due pos).2 = .scheduled ∧ (due, pos) ∉ q.agenda ∧
      (∀ e, e ∈ (q.scheduleAt due pos).1.agenda ↔ e ∈ q.agenda ∨ e = (due, pos)) ∧
      (q.scheduleAt due pos).1.agenda.length = q.agenda.length + 1 ∧
      q.entries < MAX_FLUID_QUEUE_ENTRIES ∧
      (q.scheduleAt due pos).1.entries = q.entries + 1) ∨
    ((q.scheduleAt due pos).2 ≠ .scheduled ∧ (q.scheduleAt due pos).1.agenda = q.agenda ∧
      (q.scheduleAt due pos).1.entries = q.entries) := by
  unfold scheduleAt
  by_cases hheld : pos ∈ heldAt q.scheduled due
  · rw [if_pos hheld]
    exact .inr ⟨by simp, rfl, rfl⟩
  rw [if_neg hheld]
  by_cases hfull : q.entries ≥ MAX_FLUID_QUEUE_ENTRIES
  · rw [if_pos hfull]
    exact .inr ⟨by simp, rfl, rfl⟩
  rw [if_neg hfull]
  refine .inl ⟨rfl, fun hmem => hheld (mem_agenda.mp hmem), fun e => ?_, ?_, not_le.mp hfull, rfl⟩
  · exact mem_agenda.trans (mem_heldAt_insert.trans (or_congr_left mem_agenda.symm))
  · exact length_agenda_insert hheld

theorem counted_scheduleAt {q : FluidQueue α} (h : q.Counted) (due : Nat) (pos : α) :
    (q.scheduleAt due pos).1.Counted := by
  rcases q.scheduleAt_cases due pos with ⟨-, -, -, hlen, hroom, hentries⟩ | ⟨-, hsame, hentries⟩
  · exact ⟨by rw [hentries, hlen, h.entries], by rw [hentries]; exact hroom⟩
  · exact ⟨by rw [hentries, hsame, h.entries], by rw [hentries]; exact h.bound⟩

/-! ## The loop over the due ticks -/

/-- No entry of the map is due: its first tick is a later one. -/
theorem nothing_due {m : OrdMap Nat (Finset α)} {now tick : Nat} {s : Finset α}
    {l : List (Nat × Finset α)} (h : m.entries = (tick, s) :: l) (hlate : now < tick) :
    dueTicks m now = [] ∧ (Core.agenda m).filter (·.1 ≤ now) = [] := by
  have hsorted := m.sorted
  rw [h] at hsorted
  obtain ⟨hhead, -⟩ := List.pairwise_cons.mp hsorted
  have hlater : ∀ e ∈ m.entries, now < e.1 := by
    intro e he
    rw [h] at he
    rcases List.mem_cons.mp he with rfl | he
    · exact hlate
    · exact hlate.trans (hhead e he)
  refine ⟨List.filter_eq_nil_iff.mpr fun tick' htick => ?_, List.filter_eq_nil_iff.mpr fun e he => ?_⟩
  · obtain ⟨e, he, rfl⟩ := List.mem_map.mp htick
    simpa using hlater e he
  · obtain ⟨s', hmem, -⟩ := mem_agendaOf.mp he
    simpa using hlater _ hmem

/-- The loop takes a prefix of what is due, and nothing else goes. -/
theorem takeDue_spec (cap now : Nat) (m : OrdMap Nat (Finset α)) (taken : List (Nat × α)) :
    let due := (Core.agenda m).filter (·.1 ≤ now)
    let rest := due.drop (cap - taken.length)
    let after := takeDue cap (dueTicks m now) m taken
    after.due = taken ++ due.take (cap - taken.length) ∧
      Core.agenda after.scheduled = rest ++ (Core.agenda m).filter (now < ·.1) ∧
      (after.remaining = [] ↔ rest = []) := by
  generalize hl : m.entries = l
  induction l generalizing m taken with
  | nil =>
    have hnone : Core.agenda m = [] := by rw [Core.agenda, hl, agendaOf_nil]
    have hticks : dueTicks m now = [] := by rw [dueTicks, hl]; rfl
    simp [hticks, takeDue, hnone]
  | cons e l ih =>
    obtain ⟨tick, s⟩ := e
    by_cases hlate : now < tick
    · obtain ⟨hticks, hdue⟩ := nothing_due hl hlate
      have hsplit := agenda_split m now
      rw [hdue, List.nil_append] at hsplit
      simp [hticks, takeDue, hdue, ← hsplit]
    have htick : tick ≤ now := not_lt.mp hlate
    have herase : (m.erase tick).entries = l := erase_head hl
    have hticks : dueTicks m now = tick :: dueTicks (m.erase tick) now := by
      rw [dueTicks, dueTicks, hl, herase, List.map_cons, List.filter_cons_of_pos (by simpa using htick)]
    have hagenda : Core.agenda m = listed tick s ++ Core.agenda (m.erase tick) := by
      rw [Core.agenda, Core.agenda, hl, herase, agendaOf_cons]
    have hfront : (listed tick s).filter (·.1 ≤ now) = listed tick s :=
      List.filter_eq_self.mpr fun e he => by simp [(mem_listed.mp he).1, htick]
    have hback : (listed tick s).filter (now < ·.1) = [] :=
      List.filter_eq_nil_iff.mpr fun e he => by simp [(mem_listed.mp he).1, htick]
    rw [hticks, hagenda, List.filter_append, List.filter_append, hfront, hback, List.nil_append]
    unfold takeDue
    dsimp only
    rw [heldAt_head hl, heldAt_erase, Finset.empty_union]
    have hlen : s.sort.length = s.card := Finset.length_sort _
    by_cases hfits : s.sort.drop (cap - taken.length) = []
    · -- the whole set fits: the loop goes on to the next due tick
      have hroom : s.card ≤ cap - taken.length := by
        rw [← hlen]
        exact List.drop_eq_nil_iff.mp hfits
      have htake : s.sort.take (cap - taken.length) = s.sort :=
        List.take_of_length_le (by rw [hlen]; exact hroom)
      rw [if_pos hfits, htake]
      obtain ⟨hdue, hafter, hrest⟩ := ih (m.erase tick) (taken ++ listed tick s) herase
      have hleft : cap - (taken ++ listed tick s).length = cap - taken.length - s.card := by
        rw [List.length_append, length_listed]
        omega
      rw [hleft] at hdue hafter hrest
      have hdrop (l' : List (Nat × α)) : (listed tick s ++ l').drop (cap - taken.length) =
          l'.drop (cap - taken.length - s.card) := by
        rw [List.drop_append, length_listed,
          List.drop_of_length_le (by rw [length_listed]; exact hroom), List.nil_append]
      have htakes (l' : List (Nat × α)) : (listed tick s ++ l').take (cap - taken.length) =
          listed tick s ++ l'.take (cap - taken.length - s.card) := by
        rw [List.take_append, length_listed,
          List.take_of_length_le (by rw [length_listed]; exact hroom)]
      rw [hdrop, htakes, ← List.append_assoc]
      exact ⟨hdue, hafter, hrest⟩
    · -- the cap ends the loop inside this set
      have hroom : cap - taken.length < s.card := by
        rw [← hlen]
        exact not_le.mp fun hle => hfits (List.drop_eq_nil_iff.mpr hle)
      rw [if_neg hfits]
      have hdrop (l' : List (Nat × α)) : (listed tick s ++ l').drop (cap - taken.length) =
          (listed tick s).drop (cap - taken.length) ++ l' := by
        rw [List.drop_append, length_listed, Nat.sub_eq_zero_of_le hroom.le, List.drop_zero]
      have htakes (l' : List (Nat × α)) : (listed tick s ++ l').take (cap - taken.length) =
          (listed tick s).take (cap - taken.length) := by
        rw [List.take_append, length_listed, Nat.sub_eq_zero_of_le hroom.le, List.take_zero,
          List.append_nil]
      have hsorted : (s.sort.drop (cap - taken.length)).toFinset.sort =
          s.sort.drop (cap - taken.length) := by
        have hpair : (s.sort.drop (cap - taken.length)).Pairwise (· < ·) :=
          s.sortedLT_sort.pairwise.sublist (List.drop_sublist ..)
        exact List.toFinset_sort (· ≤ ·) (hpair.imp fun h => h.ne) |>.mpr (hpair.imp fun h => h.le)
      have hinsert : Core.agenda ((m.erase tick).insert tick
          (s.sort.drop (cap - taken.length)).toFinset) =
          (listed tick s).drop (cap - taken.length) ++ Core.agenda (m.erase tick) := by
        rw [Core.agenda, insert_head hl, agendaOf_cons, listed, hsorted, List.map_drop, ← listed,
          Core.agenda, herase]
      rw [hdrop, htakes, hinsert, List.append_assoc, ← agenda_split]
      refine ⟨by rw [listed, List.map_take], rfl, ?_⟩
      have hmore : (listed tick s).drop (cap - taken.length) ≠ [] := by
        rw [listed, ← List.map_drop]
        simpa using hfits
      simp [hfits, hmore]

/-! ## One drain -/

/-- What a drain returns, leaves behind and reports. -/
structure Drained (q : FluidQueue α) (now : Nat) (budget : FluidBudget) : Prop where
  positions : (q.drainDue now budget).2.due = (q.returned now budget).map Prod.snd
  taken : q.isPast now = false →
    q.returned now budget = (q.dueBy now).take budget.fluidTicksPerTick
  due : ∀ e ∈ q.returned now budget, e ∈ q.agenda ∧ e.1 ≤ now
  ascending : (q.returned now budget).Pairwise Before
  least : ∀ e ∈ q.returned now budget, ∀ e' ∈ (q.drainDue now budget).1.agenda, Before e e'
  rest : ∀ e, e ∈ (q.drainDue now budget).1.agenda ↔ e ∈ q.agenda ∧ e ∉ q.returned now budget
  exhausted : q.isPast now = false → ((q.drainDue now budget).2.budgetExhausted = true ↔
    ∃ e ∈ (q.drainDue now budget).1.agenda, e.1 ≤ now)
  reported : (q.drainDue now budget).2.pending = (q.drainDue now budget).1.pending
  past : q.isPast now = true → (q.drainDue now budget).1 = q ∧
    q.returned now budget = [] ∧ (q.drainDue now budget).2.budgetExhausted = false

theorem drainDue_past {q : FluidQueue α} {now : Nat} (h : q.isPast now = true)
    (budget : FluidBudget) : q.drainDue now budget = (q, ⟨now, [], false, q.entries⟩) ∧
      q.returned now budget = [] := by
  rw [drainDue, if_pos h, returned, if_pos h]
  exact ⟨rfl, rfl⟩

/-- What the loop takes and leaves, as a cut of the agenda. -/
theorem takeDueAt_spec (q : FluidQueue α) (now : Nat) (budget : FluidBudget) :
    (q.takeDueAt now budget).due = (q.dueBy now).take budget.fluidTicksPerTick ∧
      Core.agenda (q.takeDueAt now budget).scheduled =
        (q.dueBy now).drop budget.fluidTicksPerTick ++ q.agenda.filter (now < ·.1) ∧
      ((q.takeDueAt now budget).remaining = [] ↔
        (q.dueBy now).drop budget.fluidTicksPerTick = []) := by
  obtain ⟨hdue, hafter, hrest⟩ := takeDue_spec budget.fluidTicksPerTick now q.scheduled []
  exact ⟨hdue, hafter, hrest⟩

theorem drainDue_agenda {q : FluidQueue α} {now : Nat} (h : q.isPast now = false)
    (budget : FluidBudget) : (q.drainDue now budget).1.agenda =
      (q.dueBy now).drop budget.fluidTicksPerTick ++ q.agenda.filter (now < ·.1) := by
  rw [drainDue, if_neg (by simp [h])]
  exact (q.takeDueAt_spec now budget).2.1

theorem returned_eq {q : FluidQueue α} {now : Nat} (h : q.isPast now = false)
    (budget : FluidBudget) :
    q.returned now budget = (q.dueBy now).take budget.fluidTicksPerTick := by
  rw [returned, if_neg (by simp [h])]
  exact (q.takeDueAt_spec now budget).1

theorem mem_dueBy {q : FluidQueue α} {now : Nat} {e : Nat × α} :
    e ∈ q.dueBy now ↔ e ∈ q.agenda ∧ e.1 ≤ now := by
  simp [dueBy]

/-- The agenda, cut at what a drain takes. -/
theorem agenda_cut (q : FluidQueue α) (now cap : Nat) : q.agenda =
    (q.dueBy now).take cap ++ ((q.dueBy now).drop cap ++ q.agenda.filter (now < ·.1)) := by
  rw [← List.append_assoc, List.take_append_drop]
  exact agenda_split q.scheduled now

theorem drainDue_spec (q : FluidQueue α) (now : Nat) (budget : FluidBudget) :
    q.Drained now budget := by
  cases hpast : q.isPast now with
  | true =>
    obtain ⟨hdrain, hreturned⟩ := drainDue_past hpast budget
    refine ⟨?_, fun h => (by rw [hpast] at h; cases h), ?_, ?_, ?_, ?_,
      fun h => (by rw [hpast] at h; cases h), ?_, fun _ => ⟨?_, hreturned, ?_⟩⟩
    all_goals simp [hdrain, hreturned, pending]
  | false =>
    obtain ⟨-, -, hremaining⟩ := q.takeDueAt_spec now budget
    have hcut := q.agenda_cut now budget.fluidTicksPerTick
    have hagenda := drainDue_agenda hpast budget
    rw [← hagenda] at hcut
    have hsorted := agenda_sorted q.scheduled
    change q.agenda.Pairwise Before at hsorted
    have hnodup := agenda_nodup q.scheduled
    change q.agenda.Nodup at hnodup
    rw [hcut] at hsorted hnodup
    obtain ⟨hfront, -, hapart⟩ := List.pairwise_append.mp hsorted
    have hreturned := returned_eq hpast budget
    rw [← hreturned] at hcut hfront hapart hnodup
    refine ⟨?_, fun _ => hreturned, fun e he => ?_, hfront, hapart, fun e => ?_, fun _ => ?_, ?_,
      fun h => (by rw [hpast] at h; cases h)⟩
    · rw [returned, drainDue, if_neg (by simp [hpast]), if_neg (by simp [hpast])]
    · rw [hreturned] at he
      exact mem_dueBy.mp (List.mem_of_mem_take he)
    · rw [hcut, List.mem_append]
      constructor
      · intro he
        exact ⟨.inr he, fun he' => (List.nodup_append.mp hnodup).2.2 e he' e he rfl⟩
      · intro h
        exact h.1.resolve_left h.2
    · have hflag : (q.drainDue now budget).2.budgetExhausted =
          decide ((q.takeDueAt now budget).remaining ≠ []) := by
        rw [drainDue, if_neg (by simp [hpast])]
      rw [hflag, decide_eq_true_iff, Ne, hremaining, hagenda]
      constructor
      · intro hmore
        obtain ⟨e, he⟩ := List.exists_mem_of_ne_nil _ hmore
        exact ⟨e, List.mem_append_left _ he, (mem_dueBy.mp (List.mem_of_mem_drop he)).2⟩
      · intro h hnone
        obtain ⟨e, he, hdue⟩ := h
        rw [hnone, List.nil_append] at he
        exact absurd hdue (by simpa using (List.mem_filter.mp he).2)
    · rw [drainDue, if_neg (by simp [hpast])]
      rfl

theorem counted_drainDue {q : FluidQueue α} (h : q.Counted) (now : Nat) (budget : FluidBudget) :
    (q.drainDue now budget).1.Counted := by
  cases hpast : q.isPast now with
  | true =>
    rw [(drainDue_past hpast budget).1]
    exact h
  | false =>
    have hentries : (q.drainDue now budget).1.entries = (q.drainDue now budget).1.agenda.length := by
      rw [drainDue, if_neg (by simp [hpast])]
      exact (length_agendaOf _).symm
    refine ⟨hentries, ?_⟩
    have hcut := congrArg List.length (q.agenda_cut now budget.fluidTicksPerTick)
    rw [List.length_append, ← drainDue_agenda hpast budget, ← hentries, ← h.entries] at hcut
    have hbound := h.bound
    omega

/-! ## Drains at one tick -/

/-- The queue after drains at one tick. -/
def drainEach (q : FluidQueue α) (now : Nat) (budgets : List FluidBudget) : FluidQueue α :=
  budgets.foldl (fun q budget => (q.drainDue now budget).1) q

/-- What drains at one tick return, one after the other. -/
def returnedEach (q : FluidQueue α) (now : Nat) : List FluidBudget → List (Nat × α)
  | [] => []
  | budget :: budgets =>
    q.returned now budget ++ returnedEach (q.drainDue now budget).1 now budgets

def capOf (budgets : List FluidBudget) : Nat := (budgets.map (·.fluidTicksPerTick)).sum

theorem isPast_drainDue (q : FluidQueue α) (now : Nat) (budget : FluidBudget) :
    (q.drainDue now budget).1.isPast now = q.isPast now := by
  cases hpast : q.isPast now with
  | true =>
    rw [(drainDue_past hpast budget).1]
    exact hpast
  | false =>
    rw [drainDue, if_neg (by simp [hpast])]
    simp [isPast]

theorem dueBy_drainDue {q : FluidQueue α} {now : Nat} (h : q.isPast now = false)
    (budget : FluidBudget) : (q.drainDue now budget).1.dueBy now =
      (q.dueBy now).drop budget.fluidTicksPerTick := by
  have hdue : ∀ e ∈ (q.dueBy now).drop budget.fluidTicksPerTick, e.1 ≤ now := fun e he =>
    (mem_dueBy.mp (List.mem_of_mem_drop he)).2
  rw [dueBy, drainDue_agenda h, List.filter_append,
    List.filter_eq_self.mpr fun e he => by simpa using hdue e he, List.filter_filter,
    List.filter_eq_nil_iff.mpr fun e _ => by simp, List.append_nil]

/-- Drains at one tick return what one drain with all their caps returns. -/
theorem returnedEach_eq (q : FluidQueue α) (now : Nat) (budgets : List FluidBudget) :
    q.returnedEach now budgets = q.returned now ⟨capOf budgets⟩ := by
  cases hpast : q.isPast now with
  | true =>
    rw [(drainDue_past hpast ⟨capOf budgets⟩).2]
    induction budgets with
    | nil => rfl
    | cons budget budgets ih =>
      obtain ⟨hdrain, hreturned⟩ := drainDue_past hpast budget
      rw [returnedEach, hreturned, hdrain]
      exact ih
  | false =>
    rw [returned_eq hpast]
    induction budgets generalizing q with
    | nil => exact (List.take_zero ..).symm
    | cons budget budgets ih =>
      have hpast' : (q.drainDue now budget).1.isPast now = false :=
        (q.isPast_drainDue now budget).trans hpast
      rw [returnedEach, returned_eq hpast, ih _ hpast', dueBy_drainDue hpast]
      exact (List.take_add ..).symm

/-- Where the drains leave nothing due, the caps were enough. -/
theorem capOf_enough {q : FluidQueue α} {now : Nat} (hpast : q.isPast now = false)
    {budgets : List FluidBudget} (h : ∀ e ∈ (q.drainEach now budgets).agenda, now < e.1) :
    (q.dueBy now).length ≤ capOf budgets := by
  induction budgets generalizing q with
  | nil =>
    have hnone : q.dueBy now = [] :=
      List.filter_eq_nil_iff.mpr fun e he => by simpa using h e he
    rw [hnone]
    exact Nat.zero_le _
  | cons budget budgets ih =>
    have hpast' : (q.drainDue now budget).1.isPast now = false :=
      (q.isPast_drainDue now budget).trans hpast
    have hrest := ih hpast' h
    rw [dueBy_drainDue hpast, List.length_drop] at hrest
    have hcaps : capOf (budget :: budgets) = budget.fluidTicksPerTick + capOf budgets := rfl
    omega

theorem returnedEach_whole {q : FluidQueue α} {now : Nat} {budgets : List FluidBudget}
    (h : ∀ e ∈ (q.drainEach now budgets).agenda, now < e.1) {whole : FluidBudget}
    (hwhole : (q.dueBy now).length ≤ whole.fluidTicksPerTick) :
    q.returnedEach now budgets = q.returned now whole := by
  rw [returnedEach_eq]
  cases hpast : q.isPast now with
  | true => rw [(drainDue_past hpast _).2, (drainDue_past hpast _).2]
  | false =>
    rw [returned_eq hpast, returned_eq hpast, List.take_of_length_le hwhole]
    exact List.take_of_length_le (capOf_enough hpast h)

/-! ## Runs -/

inductive Op (α : Type)
  | schedule (now : Nat) (pos : α) (delay : Nat)
  | scheduleAt (due : Nat) (pos : α)
  | drainDue (now : Nat) (budget : FluidBudget)

def step (q : FluidQueue α) : Op α → FluidQueue α
  | .schedule now pos delay => (q.schedule now pos delay).1
  | .scheduleAt due pos => (q.scheduleAt due pos).1
  | .drainDue now budget => (q.drainDue now budget).1

/-- How often an operation answers `Scheduled` for an entry. -/
def accepts (e : Nat × α) (q : FluidQueue α) : Op α → Nat
  | .schedule now pos delay =>
    if (dueAfter now delay, pos) = e ∧ (q.schedule now pos delay).2 = .scheduled then 1 else 0
  | .scheduleAt due pos =>
    if (due, pos) = e ∧ (q.scheduleAt due pos).2 = .scheduled then 1 else 0
  | .drainDue .. => 0

/-- How often an operation returns an entry. -/
def returns (e : Nat × α) (q : FluidQueue α) : Op α → Nat
  | .schedule .. | .scheduleAt .. => 0
  | .drainDue now budget => (q.returned now budget).count e

/-- One for a pending entry. -/
def owed (e : Nat × α) (q : FluidQueue α) : Nat := if e ∈ q.agenda then 1 else 0

theorem counted_step (q : FluidQueue α) (op : Op α) (h : q.Counted) : (q.step op).Counted := by
  cases op with
  | schedule now pos delay => exact counted_scheduleAt h _ pos
  | scheduleAt due pos => exact counted_scheduleAt h due pos
  | drainDue now budget => exact counted_drainDue h now budget

theorem scheduleAt_balance (e : Nat × α) (q : FluidQueue α) (due : Nat) (pos : α) :
    owed e (q.scheduleAt due pos).1 =
      owed e q + if (due, pos) = e ∧ (q.scheduleAt due pos).2 = .scheduled then 1 else 0 := by
  rcases q.scheduleAt_cases due pos with ⟨hanswer, hnew, hmem, -⟩ | ⟨hanswer, hsame, -⟩
  · by_cases heq : (due, pos) = e
    · subst heq
      simp [owed, hanswer, hnew, hmem]
    · simp [owed, hmem, heq, Ne.symm heq]
  · simp [owed, hanswer, hsame]

/-- Over one operation, an entry is owed where it was or was scheduled, and was not returned. -/
theorem step_balance (e : Nat × α) (q : FluidQueue α) (op : Op α) :
    returns e q op + owed e (q.step op) = owed e q + accepts e q op := by
  cases op with
  | schedule now pos delay =>
    rw [returns, Nat.zero_add]
    exact scheduleAt_balance e q (dueAfter now delay) pos
  | scheduleAt due pos =>
    rw [returns, Nat.zero_add]
    exact scheduleAt_balance e q due pos
  | drainDue now budget =>
    have hdrain := q.drainDue_spec now budget
    have hnodup : (q.returned now budget).Nodup := hdrain.ascending.imp fun {a b} h heq => by
      subst heq
      exact Before.irrefl a h
    have hrest := hdrain.rest e
    simp only [returns, accepts, owed, step, hrest, hnodup.count, Nat.add_zero]
    by_cases hmem : e ∈ q.returned now budget
    · simp [hmem, (hdrain.due e hmem).1]
    · simp [hmem]

/-- In every run: an entry was returned as often as it was scheduled, once less where it is
pending; the count is the number of entries, within the bound; a drain returns the least of what is
due; and drains at one tick that leave nothing due return what one drain returns. -/
theorem fluid_queue_accounts (ops : List (Op α)) :
    let q := run step new ops
    (∀ e, total step (returns e) new ops + owed e q = total step (accepts e) new ops) ∧
      q.pending = q.agenda.length ∧ q.pending ≤ MAX_FLUID_QUEUE_ENTRIES ∧
      (∀ now budget, q.Drained now budget) ∧
      ∀ now budgets whole, (∀ e ∈ (q.drainEach now budgets).agenda, now < e.1) →
        (q.dueBy now).length ≤ whole.fluidTicksPerTick →
        q.returnedEach now budgets = q.returned now whole := by
  have hcounted : (run step new ops).Counted := run_inv counted_step ops counted_new
  refine ⟨fun e => ?_, hcounted.entries, hcounted.bound, drainDue_spec _,
    fun now budgets whole h hwhole => returnedEach_whole h hwhole⟩
  rw [run_balance (step_balance e) ops new]
  exact Nat.zero_add _

/-- A drain for an earlier tick says that nothing is left, whatever is due by that tick. -/
theorem past_drain_hides : ∃ ops : List (Op Nat), let q := run step new ops
    ((q.drainDue 6 ⟨1⟩).2.budgetExhausted = false) ∧
      ∃ e ∈ (q.drainDue 6 ⟨1⟩).1.agenda, e.1 ≤ 6 := by
  refine ⟨[.scheduleAt 5 0, .drainDue 10 ⟨0⟩], ?_⟩
  have hscheduled : (5, 0) ∈ (run step new [.scheduleAt 5 (0 : Nat)]).agenda := by
    rw [agenda, mem_agenda]
    decide
  have hkept := ((run step new [.scheduleAt 5 (0 : Nat)]).drainDue_spec 10 ⟨0⟩).rest (5, 0)
  have hnone : (run step new [.scheduleAt 5 (0 : Nat)]).returned 10 ⟨0⟩ = [] := by
    rw [returned_eq rfl, List.take_zero]
  have hpast : (run step new [.scheduleAt 5 (0 : Nat), .drainDue 10 ⟨0⟩]).isPast 6 = true := rfl
  dsimp only
  rw [(drainDue_past hpast ⟨1⟩).1]
  exact ⟨rfl, (5, 0), hkept.mpr ⟨hscheduled, by simp [hnone]⟩, by decide⟩

end FluidQueue
end Apoptosis.L2.Fluid
