import Apoptosis.Core.OrdMap
import Apoptosis.Core.TokenBucket
/-!
# Connection admission (`network/src/limits.rs`)

A connection takes a permit of the whole server, then a slot and a token of
its address; its guard gives the permit and the slot back. Tokens come back
with time, counted when the address is next asked for, and addresses that have
been idle for a minute are forgotten once the table is large.

Times are nanoseconds, tokens are exact. The semaphore is a parameter.

Results:
* `PerIpState.refill_refill`, `touch_touch`: looking at a bucket in between
  changes nothing; `touch_forgotten`: forgetting an idle one does not either.
* `Sound.step`: permits, slots and guards stay in balance.
* `step_touch`: what an event means to the bucket of each address.
* `run_metered`: an address's connections as requests to a token bucket.
* `limits_hold`.
-/
namespace Apoptosis.L2.Network
open Apoptosis.Core Apoptosis.Core.TokenBucket

/-! ## The semaphore -/

/-- The calls of `tokio::sync::Semaphore` that the gate makes; `release` is the drop of a permit. -/
class Semaphore (σ : Type*) where
  new : Nat → σ
  available : σ → Nat
  tryAcquire : σ → Option σ
  release : σ → σ

/-- What its documentation says: a count of permits that are handed out one at a time. -/
class LawfulSemaphore (σ : Type*) [Semaphore σ] : Prop where
  available_new (n : Nat) : Semaphore.available (Semaphore.new n : σ) = n
  tryAcquire_none (s : σ) : Semaphore.tryAcquire s = none ↔ Semaphore.available s = 0
  available_tryAcquire (s s' : σ) : Semaphore.tryAcquire s = some s' →
    Semaphore.available s' + 1 = Semaphore.available s
  available_release (s : σ) : Semaphore.available (Semaphore.release s) = Semaphore.available s + 1

/-! ## The gate -/

/-- mirrors crates/network/src/limits.rs:22 (`PER_IP_BURST`) -/
def PER_IP_BURST : ℚ := 8

/-- mirrors crates/network/src/limits.rs:24-36 (`LimitError`) -/
inductive LimitError where
  | global | perIpConcurrent | perIpRate
  deriving DecidableEq, Repr

/-- mirrors crates/network/src/limits.rs:47-52 (`PerIpState`) -/
structure PerIpState where
  concurrent : Nat
  tokens : ℚ
  lastRefill : Nat
  deriving DecidableEq, Repr

namespace PerIpState

/-- mirrors crates/network/src/limits.rs:55-61 (`PerIpState::new`) -/
def new (now : Nat) : PerIpState := ⟨0, PER_IP_BURST, now⟩

/-- mirrors crates/network/src/limits.rs:63-73 (`PerIpState::refill`) -/
def refill (s : PerIpState) (now interval : Nat) : PerIpState :=
  let elapsed := now - s.lastRefill
  if elapsed = 0 ∨ interval = 0 then s
  else
    let gained : ℚ := elapsed / interval
    if 0 < gained then { s with tokens := min (s.tokens + gained) PER_IP_BURST, lastRefill := now }
    else s

end PerIpState

/-- mirrors crates/network/src/limits.rs:39-45 (`ConnectionGate`) -/
structure ConnectionGate (σ α : Type*) [LinearOrder α] where
  global : σ
  state : OrdMap α PerIpState
  maxPerIp : Nat
  refillInterval : Nat

/-- mirrors crates/network/src/limits.rs:171-177 (`ConnectionGuard`) -/
structure ConnectionGuard (α : Type*) where
  ip : α

variable {σ α : Type*} [Semaphore σ] [LinearOrder α]

namespace ConnectionGate

/-- mirrors crates/network/src/limits.rs:83-90 (`ConnectionGate::new`) -/
def new (globalCapacity maxPerIp refillInterval : Nat) : ConnectionGate σ α :=
  ⟨Semaphore.new (max globalCapacity 1), .empty, max maxPerIp 1, refillInterval⟩

/-- mirrors crates/network/src/limits.rs:115-142 (`ConnectionGate::try_acquire`); a refusal after
the first drops the permit again -/
def tryAcquire (g : ConnectionGate σ α) (ip : α) (now : Nat) :
    Except LimitError (ConnectionGuard α) × ConnectionGate σ α :=
  match Semaphore.tryAcquire g.global with
  | none => (.error .global, g)
  | some permits =>
    let entry := ((g.state.get? ip).getD (.new now)).refill now g.refillInterval
    if g.maxPerIp ≤ entry.concurrent then
      (.error .perIpConcurrent,
        { g with global := Semaphore.release permits, state := g.state.insert ip entry })
    else if entry.tokens < 1 then
      (.error .perIpRate,
        { g with global := Semaphore.release permits, state := g.state.insert ip entry })
    else
      (.ok ⟨ip⟩,
        { g with
          global := permits
          state := g.state.insert ip
            { entry with tokens := entry.tokens - 1, concurrent := entry.concurrent + 1 } })

/-- mirrors crates/network/src/limits.rs:144-147 (`ConnectionGate::concurrent_for`) -/
def concurrentFor (g : ConnectionGate σ α) (ip : α) : Nat :=
  ((g.state.get? ip).map (·.concurrent)).getD 0

/-- mirrors crates/network/src/limits.rs:155-168 (`ConnectionGate::release`), 60 seconds in nanoseconds -/
def release (g : ConnectionGate σ α) (ip : α) (now : Nat) : ConnectionGate σ α :=
  let state := g.state.modify ip fun entry => { entry with concurrent := entry.concurrent - 1 }
  let state := if 4096 < state.size then
      state.retain fun _ entry => 0 < entry.concurrent ∨ now - entry.lastRefill < 60 * 10 ^ 9
    else state
  { g with state }

end ConnectionGate

/-- mirrors crates/network/src/limits.rs:179-183 (`Drop for ConnectionGuard`); the permit is a
field and goes after -/
def ConnectionGuard.drop (guard : ConnectionGuard α) (g : ConnectionGate σ α) (now : Nat) :
    ConnectionGate σ α :=
  let g := g.release guard.ip now
  { g with global := Semaphore.release g.global }

/-! ## Runs -/

/-- An address asks to be let in, or one of its guards is dropped. -/
inductive Event (α : Type*) where
  | attempt (ip : α) (now : Nat)
  | drop (ip : α) (now : Nat)
  deriving DecidableEq

namespace Event

def ip {α : Type*} : Event α → α
  | attempt ip _ | drop ip _ => ip

def now {α : Type*} : Event α → Nat
  | attempt _ now | drop _ now => now

end Event

/-- What an event came to; `idle` is a drop where no guard is alive. -/
inductive Outcome where
  | admitted
  | refused (reason : LimitError)
  | dropped
  | idle
  deriving DecidableEq, Repr

/-- The gate and the addresses of the guards that are alive. -/
structure System (σ α : Type*) [LinearOrder α] where
  gate : ConnectionGate σ α
  live : List α

namespace System

def start (globalCapacity maxPerIp refillInterval : Nat) : System σ α :=
  ⟨.new globalCapacity maxPerIp refillInterval, []⟩

def step (s : System σ α) : Event α → Outcome × System σ α
  | .attempt ip now =>
    match s.gate.tryAcquire ip now with
    | (.error reason, gate) => (.refused reason, { s with gate })
    | (.ok guard, gate) => (.admitted, ⟨gate, guard.ip :: s.live⟩)
  | .drop ip now =>
    if ip ∈ s.live then (.dropped, ⟨ConnectionGuard.drop ⟨ip⟩ s.gate now, s.live.erase ip⟩)
    else (.idle, s)

def run (s : System σ α) (events : List (Event α)) : System σ α :=
  events.foldl (fun s e => (s.step e).2) s

/-- The events of a run with what they came to. -/
def log (s : System σ α) : List (Event α) → List (Event α × Outcome)
  | [] => []
  | e :: events => (e, (s.step e).1) :: (s.step e).2.log events

end System

/-! ## One bucket -/

/-- The bucket of an address as an attempt finds it: full when it is not known. -/
def touch (interval now : Nat) (o : Option PerIpState) : PerIpState :=
  (o.getD (.new now)).refill now interval

/-- A bucket that was last looked at by `now`. -/
structure Filled (now : Nat) (s : PerIpState) : Prop where
  nonneg : 0 ≤ s.tokens
  le_burst : s.tokens ≤ PER_IP_BURST
  seen : s.lastRefill ≤ now

theorem Filled.mono {now later : Nat} {s : PerIpState} (h : Filled now s) (hle : now ≤ later) :
    Filled later s := ⟨h.nonneg, h.le_burst, h.seen.trans hle⟩

theorem filled_new (now : Nat) : Filled now (.new now) := 
  ⟨(by decide : (0 : ℚ) ≤ 8), le_rfl, le_rfl⟩

variable {interval now later : Nat} {s : PerIpState}

namespace PerIpState

theorem refill_eq (hinterval : 0 < interval) (h : Filled now s) :
    s.refill now interval = ⟨s.concurrent,
      regain PER_IP_BURST s.tokens ((now - s.lastRefill : Nat) / interval), now⟩ := by
  have hseen := h.seen
  unfold refill
  by_cases h0 : now - s.lastRefill = 0
  · have hlast : s.lastRefill = now := by omega
    simp only [hlast, Nat.sub_self, true_or, if_true, Nat.cast_zero, zero_div, regain_zero h.le_burst]
    rw [← hlast]
  · have hgain : (0 : ℚ) < (now - s.lastRefill : Nat) / interval :=
      div_pos (Nat.cast_pos.mpr (by omega)) (Nat.cast_pos.mpr hinterval)
    simp only [h0, hinterval.ne', or_self, if_false, if_pos hgain, regain, min_comm]

theorem filled_refill (hinterval : 0 < interval) (h : Filled now s) :
    Filled now (s.refill now interval) := by
  rw [refill_eq hinterval h]
  refine ⟨regain_nonneg (by decide) h.nonneg ?_, regain_le, le_rfl⟩
  exact div_nonneg (Nat.cast_nonneg _) (Nat.cast_nonneg _)

theorem refill_refill (hinterval : 0 < interval) (h : Filled now s) (hle : now ≤ later) :
    (s.refill now interval).refill later interval = s.refill later interval := by
  have hseen := h.seen
  rw [refill_eq hinterval ((filled_refill hinterval h).mono hle), refill_eq hinterval (h.mono hle),
    refill_eq hinterval h]
  have hgain : (0 : ℚ) ≤ (later - now : Nat) / interval :=
    div_nonneg (Nat.cast_nonneg _) (Nat.cast_nonneg _)
  have hsum : later - s.lastRefill = (now - s.lastRefill) + (later - now) := by omega
  rw [regain_regain hgain, ← add_div, ← Nat.cast_add, ← hsum]

end PerIpState

/-- Every entry of an address is a bucket that was last looked at by `now`. -/
def Held (now : Nat) (o : Option PerIpState) : Prop := ∀ s, o = some s → Filled now s

theorem Held.mono {o : Option PerIpState} (h : Held now o) (hle : now ≤ later) : Held later o :=
  fun s hs => (h s hs).mono hle

theorem Held.filled_getD {o : Option PerIpState} (h : Held now o) : Filled now (o.getD (.new now)) := by
  cases o with
  | none => exact filled_new now
  | some s => exact h s rfl

theorem filled_touch (hinterval : 0 < interval) {o : Option PerIpState} (h : Held now o) :
    Filled now (touch interval now o) := PerIpState.filled_refill hinterval h.filled_getD

theorem touch_none (hinterval : 0 < interval) : touch interval now none = .new now := by
  change (PerIpState.new now).refill now interval = _
  rw [PerIpState.refill_eq hinterval (filled_new now)]
  simp only [PerIpState.new, Nat.sub_self, Nat.cast_zero, zero_div, regain_zero le_rfl]

/-- An attempt that is turned away leaves the bucket as it would be found anyway. -/
theorem touch_touch (hinterval : 0 < interval) {o : Option PerIpState} (h : Held now o)
    (hle : now ≤ later) :
    touch interval later (some (touch interval now o)) = touch interval later o := by
  cases o with
  | none =>
    rw [touch_none hinterval, touch_none hinterval]
    change (PerIpState.new now).refill later interval = _
    rw [PerIpState.refill_eq hinterval ((filled_new now).mono hle)]
    rw [regain_full (le_add_of_nonneg_right (div_nonneg (Nat.cast_nonneg _) (Nat.cast_nonneg _)))]
    rfl
  | some s => exact PerIpState.refill_refill hinterval (h s rfl) hle

/-- Forgetting an address that has been idle for as long as a burst takes to come back. -/
theorem touch_forgotten (hinterval : 0 < interval) (hfull : 8 * interval ≤ 60 * 10 ^ 9)
    (h : Filled now s) (hidle : s.concurrent = 0) (hlong : 60 * 10 ^ 9 ≤ now - s.lastRefill) :
    touch interval now (some s) = touch interval now none := by
  rw [touch_none hinterval]
  change s.refill now interval = _
  rw [PerIpState.refill_eq hinterval h, hidle, regain_full]
  · rfl
  · have hgain : (8 : ℚ) ≤ (now - s.lastRefill : Nat) / interval := by
      rw [le_div_iff₀ (Nat.cast_pos.mpr hinterval)]
      exact_mod_cast hfull.trans hlong
    have := h.nonneg
    unfold PER_IP_BURST
    linarith

theorem refill_now (h : s.lastRefill = now) : s.refill now interval = s := by
  unfold PerIpState.refill
  rw [if_pos (.inl (by omega))]

theorem touch_eq (hinterval : 0 < interval) {o : Option PerIpState} (h : Held now o) :
    (touch interval now o).lastRefill = now ∧
      (touch interval now o).concurrent = (o.map (·.concurrent)).getD 0 := by
  rw [touch, PerIpState.refill_eq hinterval h.filled_getD]
  cases o <;> exact ⟨rfl, rfl⟩

/-! ## What an event comes to -/

namespace Outcome

/-- What an outcome does to the bucket of its address. -/
def apply : Outcome → PerIpState → PerIpState
  | admitted, b => { b with tokens := b.tokens - 1, concurrent := b.concurrent + 1 }
  | dropped, b => { b with concurrent := b.concurrent - 1 }
  | refused _, b | idle, b => b

/-- What an outcome does to the guards that are alive. -/
def guards (ip : α) : Outcome → List α → List α
  | admitted, live => ip :: live
  | dropped, live => live.erase ip
  | refused _, live | idle, live => live

end Outcome

/-- The rate and concurrency answer of an address with this bucket. -/
def admission (maxPerIp : Nat) (b : PerIpState) : Outcome :=
  if maxPerIp ≤ b.concurrent then .refused .perIpConcurrent
  else if b.tokens < 1 then .refused .perIpRate
  else .admitted

variable {capacity maxPerIp : Nat}

/-- Permits, slots and guards in balance, and every bucket looked at by `now`. -/
structure Sound (capacity maxPerIp interval now : Nat) (s : System σ α) : Prop where
  permits : Semaphore.available s.gate.global + s.live.length = capacity
  counted : ∀ ip, s.gate.concurrentFor ip = s.live.count ip
  capped : ∀ ip, s.live.count ip ≤ maxPerIp
  held : ∀ ip, Held now (s.gate.state.get? ip)
  sameMax : s.gate.maxPerIp = maxPerIp
  sameInterval : s.gate.refillInterval = interval

theorem sound_start [LawfulSemaphore σ] (globalCapacity : Nat) : Sound (max globalCapacity 1)
    (max maxPerIp 1) interval now (System.start globalCapacity maxPerIp interval : System σ α) where
  permits := by
    change Semaphore.available (Semaphore.new _ : σ) + 0 = _
    rw [LawfulSemaphore.available_new, Nat.add_zero]
  counted _ := rfl
  capped _ := Nat.zero_le _
  held _ _ h := by cases h
  sameMax := rfl
  sameInterval := rfl

/-- What an attempt that gets a permit does. -/
structure Attempted (s s' : System σ α) (ip : α) (outcome : Outcome) (b : PerIpState) : Prop where
  outcome_eq : outcome = admission s.gate.maxPerIp b
  state : s'.gate.state = s.gate.state.insert ip (outcome.apply b)
  live : s'.live = if outcome = .admitted then ip :: s.live else s.live
  permits : Semaphore.available s'.gate.global + s'.live.length =
    Semaphore.available s.gate.global + s.live.length
  sameMax : s'.gate.maxPerIp = s.gate.maxPerIp
  sameInterval : s'.gate.refillInterval = s.gate.refillInterval

theorem step_attempt_full [LawfulSemaphore σ] {s : System σ α} {ip : α}
    (h : Semaphore.available s.gate.global = 0) :
    s.step (.attempt ip now) = (.refused .global, s) := by
  have hnone := (LawfulSemaphore.tryAcquire_none s.gate.global).mpr h
  simp only [System.step, ConnectionGate.tryAcquire, hnone]

theorem step_attempt [LawfulSemaphore σ] {s : System σ α} {ip : α}
    (h : 0 < Semaphore.available s.gate.global) :
    Attempted s (s.step (.attempt ip now)).2 ip (s.step (.attempt ip now)).1
      (touch s.gate.refillInterval now (s.gate.state.get? ip)) := by
  cases hpermits : Semaphore.tryAcquire s.gate.global with
  | none => exact absurd ((LawfulSemaphore.tryAcquire_none s.gate.global).mp hpermits) h.ne'
  | some permits =>
    have htaken := LawfulSemaphore.available_tryAcquire _ _ hpermits
    have hback := LawfulSemaphore.available_release permits
    simp only [System.step, ConnectionGate.tryAcquire, hpermits, ← touch.eq_def]
    generalize hb : touch s.gate.refillInterval now (s.gate.state.get? ip) = b
    by_cases hfull : s.gate.maxPerIp ≤ b.concurrent
    · have hanswer : admission s.gate.maxPerIp b = .refused .perIpConcurrent := by
        rw [admission, if_pos hfull]
      simp only [hfull, if_true]
      exact ⟨hanswer.symm, rfl, rfl, by dsimp only; omega, rfl, rfl⟩
    by_cases hslow : b.tokens < 1
    · have hanswer : admission s.gate.maxPerIp b = .refused .perIpRate := by
        rw [admission, if_neg hfull, if_pos hslow]
      simp only [hfull, hslow, if_true, if_false]
      exact ⟨hanswer.symm, rfl, rfl, by dsimp only; omega, rfl, rfl⟩
    · have hanswer : admission s.gate.maxPerIp b = .admitted := by
        rw [admission, if_neg hfull, if_neg hslow]
      simp only [hfull, hslow, if_false]
      exact ⟨hanswer.symm, rfl, rfl, by dsimp only [List.length_cons]; omega, rfl, rfl⟩

/-- What the drop of a guard does; the table may forget addresses that have been idle. -/
structure Dropped (s s' : System σ α) (ip : α) (now : Nat) : Prop where
  live : s'.live = s.live.erase ip
  permits : Semaphore.available s'.gate.global = Semaphore.available s.gate.global + 1
  entry : ∀ a, let o := if ip = a then (s.gate.state.get? a).map Outcome.dropped.apply
      else s.gate.state.get? a
    s'.gate.state.get? a = o ∨ s'.gate.state.get? a = none ∧
      ∃ b, o = some b ∧ b.concurrent = 0 ∧ 60 * 10 ^ 9 ≤ now - b.lastRefill
  sameMax : s'.gate.maxPerIp = s.gate.maxPerIp
  sameInterval : s'.gate.refillInterval = s.gate.refillInterval

theorem step_drop_idle {s : System σ α} {ip : α} (h : ip ∉ s.live) :
    s.step (.drop ip now) = (.idle, s) := by
  simp only [System.step, if_neg h]

theorem step_drop [LawfulSemaphore σ] {s : System σ α} {ip : α} (h : ip ∈ s.live) :
    (s.step (.drop ip now)).1 = .dropped ∧ Dropped s (s.step (.drop ip now)).2 ip now := by
  simp only [System.step, if_pos h, true_and]
  refine ⟨rfl, LawfulSemaphore.available_release _, fun a => ?_, rfl, rfl⟩
  simp only [ConnectionGuard.drop, ConnectionGate.release]
  have hmodify := OrdMap.get?_modify s.gate.state ip a
    fun entry => { entry with concurrent := entry.concurrent - 1 }
  have ho : (if ip = a then (s.gate.state.get? a).map Outcome.dropped.apply
      else s.gate.state.get? a) = (s.gate.state.modify ip
        fun entry => { entry with concurrent := entry.concurrent - 1 }).get? a := by
    rw [hmodify]
    split
    · next heq => subst heq; rfl
    · rfl
  rw [ho]
  split
  · rw [OrdMap.get?_retain]
    cases hget : (s.gate.state.modify ip
        fun entry => { entry with concurrent := entry.concurrent - 1 }).get? a with
    | none => exact .inl rfl
    | some b =>
      by_cases hkeep : 0 < b.concurrent ∨ now - b.lastRefill < 60 * 10 ^ 9
      · exact .inl (by rw [Option.filter_some, if_pos (by simpa using hkeep)])
      · refine .inr ⟨by rw [Option.filter_some, if_neg (by simpa using hkeep)], b, rfl, ?_, ?_⟩
        · omega
        · omega
  · exact .inl rfl

namespace Sound
variable {s : System σ α} (h : Sound capacity maxPerIp interval now s)

include h

theorem mono (hle : now ≤ later) : Sound capacity maxPerIp interval later s :=
  { h with held := fun ip => (h.held ip).mono hle }

theorem touch_concurrent (hinterval : 0 < interval) (ip : α) :
    (touch interval now (s.gate.state.get? ip)).concurrent = s.live.count ip :=
  (touch_eq hinterval (h.held ip)).2.trans (h.counted ip)

variable [LawfulSemaphore σ]

/-- What an event means to the bucket of every address. -/
theorem step_touch (hinterval : 0 < interval) (hfull : 8 * interval ≤ 60 * 10 ^ 9) {e : Event α}
    (hnow : e.now = now) (a : α) :
    touch interval now ((s.step e).2.gate.state.get? a) =
      if e.ip = a then (s.step e).1.apply (touch interval now (s.gate.state.get? a))
      else touch interval now (s.gate.state.get? a) := by
  cases e with
  | attempt ip t =>
    obtain rfl : t = now := hnow
    rcases Nat.eq_zero_or_pos (Semaphore.available s.gate.global) with h0 | hpos
    · rw [step_attempt_full h0]
      exact (ite_self _).symm
    · have hstep := @step_attempt _ _ _ _ t _ _ ip hpos
      rw [hstep.state, OrdMap.get?_insert, h.sameInterval]
      change touch interval t (if ip = a then _ else _) = if ip = a then _ else _
      split
      · next heq =>
        subst heq
        have hseen := (touch_eq hinterval (h.held ip)).1
        refine refill_now ?_
        cases (s.step (.attempt ip t)).1 <;> exact hseen
      · rfl
  | drop ip t =>
    obtain rfl : t = now := hnow
    change _ = if ip = a then _ else _
    by_cases hlive : ip ∈ s.live
    · obtain ⟨houtcome, hdrop⟩ := @step_drop _ _ _ _ t _ _ _ hlive
      rw [houtcome]
      have hkept : touch interval t (if ip = a then
          (s.gate.state.get? a).map Outcome.dropped.apply else s.gate.state.get? a) =
          if ip = a then Outcome.dropped.apply (touch interval t (s.gate.state.get? a))
          else touch interval t (s.gate.state.get? a) := by
        split
        · next heq =>
          subst heq
          cases hget : s.gate.state.get? ip with
          | none =>
            have hcount := h.counted ip
            rw [ConnectionGate.concurrentFor, hget] at hcount
            exact absurd hcount (List.count_pos_iff.mpr hlive).ne
          | some b =>
            have hb := h.held ip b hget
            change (Outcome.dropped.apply b).refill t interval = _
            have hb' : Filled t (Outcome.dropped.apply b) := ⟨hb.nonneg, hb.le_burst, hb.seen⟩
            change _ = Outcome.dropped.apply (b.refill t interval)
            rw [PerIpState.refill_eq hinterval hb, PerIpState.refill_eq hinterval hb']
            rfl
        · rfl
      rw [← hkept]
      rcases hdrop.entry a with hentry | ⟨hnone, b, ho, hidle, hlong⟩
      · rw [hentry]
      · have hb : Filled t b := by
          split at ho
          · obtain ⟨b', hb', rfl⟩ := Option.map_eq_some_iff.mp ho
            have hheld := h.held a b' hb'
            exact ⟨hheld.nonneg, hheld.le_burst, hheld.seen⟩
          · exact h.held a b ho
        rw [hnone, ho, touch_forgotten hinterval hfull hb hidle hlong]
    · rw [step_drop_idle hlive]
      exact (ite_self _).symm

theorem step_held (hinterval : 0 < interval) {e : Event α} (hnow : e.now = now) (a : α) :
    Held now ((s.step e).2.gate.state.get? a) := by
  cases e with
  | attempt ip t =>
    obtain rfl : t = now := hnow
    rcases Nat.eq_zero_or_pos (Semaphore.available s.gate.global) with h0 | hpos
    · rw [step_attempt_full h0]
      exact h.held a
    · have hstep := @step_attempt _ _ _ _ t _ _ ip hpos
      rw [hstep.state, OrdMap.get?_insert, h.sameInterval]
      split
      · next heq =>
        subst heq
        intro b hb
        cases hb
        have hfilled := filled_touch hinterval (h.held ip)
        have houtcome := hstep.outcome_eq
        rw [h.sameInterval, admission] at houtcome
        rw [houtcome]
        split
        · exact hfilled
        split
        · exact hfilled
        · next htokens =>
          have hburst := hfilled.le_burst
          exact ⟨sub_nonneg.mpr (not_lt.mp htokens), (sub_le_self _ zero_le_one).trans hburst,
            hfilled.seen⟩
      · exact h.held a
  | drop ip t =>
    obtain rfl : t = now := hnow
    by_cases hlive : ip ∈ s.live
    · obtain ⟨-, hdrop⟩ := @step_drop _ _ _ _ t _ _ _ hlive
      intro b hb
      rcases hdrop.entry a with hentry | ⟨hnone, -⟩
      · rw [hentry] at hb
        split at hb
        · obtain ⟨b', hb', rfl⟩ := Option.map_eq_some_iff.mp hb
          have hheld := h.held a b' hb'
          exact ⟨hheld.nonneg, hheld.le_burst, hheld.seen⟩
        · exact h.held a b hb
      · rw [hnone] at hb
        cases hb
    · rw [step_drop_idle hlive]
      exact h.held a

theorem step (hinterval : 0 < interval) {e : Event α} (hnow : e.now = now) :
    Sound capacity maxPerIp interval now (s.step e).2 := by
  have hheld := h.step_held hinterval hnow
  cases e with
  | attempt ip t =>
    obtain rfl : t = now := hnow
    rcases Nat.eq_zero_or_pos (Semaphore.available s.gate.global) with h0 | hpos
    · rw [step_attempt_full h0]
      exact h
    have hstep := @step_attempt _ _ _ _ t _ _ ip hpos
    have htouch := h.touch_concurrent hinterval ip
    have houtcome := hstep.outcome_eq
    rw [h.sameInterval, h.sameMax, admission, htouch] at houtcome
    have hcounted (a : α) : (s.step (.attempt ip t)).2.gate.concurrentFor a =
        (s.step (.attempt ip t)).2.live.count a := by
      rw [ConnectionGate.concurrentFor, hstep.state, OrdMap.get?_insert, hstep.live, h.sameInterval]
      by_cases heq : ip = a
      · subst heq
        rw [if_pos rfl, houtcome]
        split
        · exact htouch
        split
        · exact htouch
        · rw [if_pos rfl, List.count_cons_self, ← htouch]
          rfl
      · rw [if_neg heq]
        split
        · rw [List.count_cons_of_ne (by simpa using heq)]
          exact h.counted a
        · exact h.counted a
    refine ⟨hstep.permits.trans h.permits, hcounted, fun a => ?_, hheld,
      hstep.sameMax.trans h.sameMax, hstep.sameInterval.trans h.sameInterval⟩
    have hcapped := h.capped a
    rw [hstep.live]
    split
    · next hadmitted =>
      rw [houtcome] at hadmitted
      split at hadmitted
      · cases hadmitted
      · next hroom =>
        by_cases heq : ip = a
        · subst heq
          rw [List.count_cons_self]
          omega
        · rwa [List.count_cons_of_ne (by simpa using heq)]
    · exact hcapped
  | drop ip t =>
    obtain rfl : t = now := hnow
    by_cases hlive : ip ∈ s.live
    · obtain ⟨-, hdrop⟩ := @step_drop _ _ _ _ t _ _ _ hlive
      have hlength := List.length_erase_of_mem hlive
      have hpos := List.length_pos_of_mem hlive
      have hpermits := h.permits
      refine ⟨by rw [hdrop.permits, hdrop.live, hlength]; omega, fun a => ?_, fun a => ?_, hheld,
        hdrop.sameMax.trans h.sameMax, hdrop.sameInterval.trans h.sameInterval⟩
      · have hcount := h.counted a
        have hbefore : ((if ip = a then (s.gate.state.get? a).map Outcome.dropped.apply
            else s.gate.state.get? a).map (·.concurrent)).getD 0 = (s.live.erase ip).count a := by
          rw [ConnectionGate.concurrentFor] at hcount
          rw [List.count_erase, ← hcount]
          by_cases heq : ip = a
          · subst heq
            rw [if_pos rfl, if_pos (by simp)]
            cases s.gate.state.get? ip <;> rfl
          · rw [if_neg heq, if_neg (by simpa using heq), Nat.sub_zero]
        rw [ConnectionGate.concurrentFor, hdrop.live, ← hbefore]
        rcases hdrop.entry a with hentry | ⟨hnone, b, ho, hidle, -⟩
        · rw [hentry]
        · rw [hnone, ho, Option.map_some, hidle]
          rfl
      · rw [hdrop.live]
        exact (List.erase_sublist.count_le a).trans (h.capped a)
    · rw [step_drop_idle hlive]
      exact h

end Sound

/-! ## Answers -/

/-- The answer to an event by the bucket of its address. -/
def Event.answer (maxPerIp : Nat) (b : PerIpState) : Event α → Outcome
  | .attempt .. => admission maxPerIp b
  | .drop .. => if 0 < b.concurrent then .dropped else .idle

/-- The times of the events do not decrease. -/
def Timed (events : List (Event α)) : Prop := events.Pairwise fun a b => a.now ≤ b.now

namespace System

theorem log_append (s : System σ α) (events events' : List (Event α)) :
    s.log (events ++ events') = s.log events ++ (s.run events).log events' := by
  induction events generalizing s with
  | nil => rfl
  | cons e events ih => exact congrArg _ (ih _)

theorem log_events (s : System σ α) (events : List (Event α)) :
    (s.log events).map Prod.fst = events := by
  induction events generalizing s with
  | nil => rfl
  | cons e events ih => exact congrArg _ (ih _)

theorem run_append (s : System σ α) (events events' : List (Event α)) :
    s.run (events ++ events') = (s.run events).run events' := List.foldl_append

end System

variable [LawfulSemaphore σ] {s s' : System σ α}

theorem step_live (e : Event α) : (s.step e).2.live = (s.step e).1.guards e.ip s.live := by
  cases e with
  | attempt ip t =>
    rcases Nat.eq_zero_or_pos (Semaphore.available s.gate.global) with h0 | hpos
    · rw [step_attempt_full h0]
      rfl
    · have hstep := @step_attempt _ _ _ _ t _ _ ip hpos
      rw [hstep.live, hstep.outcome_eq, admission]
      split
      · rfl
      split <;> rfl
  | drop ip t =>
    by_cases hlive : ip ∈ s.live
    · obtain ⟨houtcome, hdrop⟩ := @step_drop _ _ _ _ t _ _ _ hlive
      rw [houtcome, hdrop.live]
      rfl
    · rw [step_drop_idle hlive]
      rfl

theorem permit_of_answer {e : Event α} (h : (s.step e).1 ≠ .refused .global) :
    ∀ ip t, e = .attempt ip t → 0 < Semaphore.available s.gate.global := by
  rintro ip t rfl
  refine Nat.pos_of_ne_zero fun h0 => h ?_
  rw [step_attempt_full h0]

/-- An event is answered by its address's bucket, unless it is an attempt and no permit is left. -/
theorem Sound.step_answer (h : Sound capacity maxPerIp interval now s) (hinterval : 0 < interval)
    {e : Event α} (hnow : e.now = now)
    (hpermit : ∀ ip t, e = .attempt ip t → 0 < Semaphore.available s.gate.global) :
    (s.step e).1 = e.answer maxPerIp (touch interval now (s.gate.state.get? e.ip)) := by
  cases e with
  | attempt ip t =>
    obtain rfl : t = now := hnow
    have hstep := @step_attempt _ _ _ _ t _ _ ip (hpermit ip t rfl)
    rw [hstep.outcome_eq, h.sameMax, h.sameInterval]
    rfl
  | drop ip t =>
    change _ = if 0 < (touch interval now (s.gate.state.get? ip)).concurrent then _ else _
    rw [h.touch_concurrent hinterval ip]
    by_cases hlive : ip ∈ s.live
    · rw [(step_drop hlive).1, if_pos (List.count_pos_iff.mpr hlive)]
    · rw [step_drop_idle hlive, if_neg (by rw [List.count_pos_iff]; exact hlive)]

/-! ## Runs -/

theorem Sound.run (h : Sound capacity maxPerIp interval now s) (hinterval : 0 < interval)
    {events : List (Event α)} (htimed : Timed events) (hfirst : ∀ e ∈ events, now ≤ e.now)
    (hlast : ∀ e ∈ events, e.now ≤ later) (hle : now ≤ later) :
    Sound capacity maxPerIp interval later (s.run events) := by
  induction events generalizing s now with
  | nil => exact h.mono hle
  | cons e events ih =>
    obtain ⟨hafter, htimed⟩ := List.pairwise_cons.mp htimed
    have hnow : e.now ≤ later := hlast e (List.mem_cons_self ..)
    have hstep := (h.mono (hfirst e (List.mem_cons_self ..))).step hinterval rfl
    exact ih hstep htimed hafter (fun e' he' => hlast e' (List.mem_cons_of_mem _ he')) hnow

/-! ## The rate of one address -/

omit [LawfulSemaphore σ] in
theorem Sound.meter (h : Sound capacity maxPerIp interval now s) (hinterval : 0 < interval) (ip : α) :
    Meter PER_IP_BURST (interval : ℚ) now
      fun t => (touch interval t (s.gate.state.get? ip)).tokens where
  nonneg t ht := (filled_touch hinterval ((h.held ip).mono ht)).nonneg
  le_cap t ht := (filled_touch hinterval ((h.held ip).mono ht)).le_burst
  regains t t' ht ht' := by
    have hheld := (h.held ip).mono ht
    have hfilled := (filled_touch hinterval hheld).mono ht'
    rw [← touch_touch hinterval hheld ht']
    change ((touch interval t (s.gate.state.get? ip)).refill t' interval).tokens ≤ _
    rw [PerIpState.refill_eq hinterval hfilled, (touch_eq hinterval hheld).1]
    exact regain_le_add

/-- The connections of one address: those it was let in with pay a token each. -/
def tookToken (ip : α) (entry : Event α × Outcome) : Bool := entry.1.ip = ip ∧ entry.2 = .admitted

theorem Sound.metered (h : Sound capacity maxPerIp interval 0 s) (hinterval : 0 < interval)
    (hfull : 8 * interval ≤ 60 * 10 ^ 9) (ip : α) {events : List (Event α)} (htimed : Timed events) :
    Metered (fun entry => entry.1.now) (tookToken ip) PER_IP_BURST (interval : ℚ) (s.log events)
      fun t => (touch interval t ((s.run events).gate.state.get? ip)).tokens := by
  induction events using List.reverseRecOn with
  | nil => exact .nil (h.meter hinterval ip)
  | append_singleton events e ih =>
    obtain ⟨hevents, -, hlast⟩ := List.pairwise_append.mp htimed
    have hbefore : ∀ e' ∈ events, e'.now ≤ e.now := fun e' he' => hlast e' he' e (by simp)
    have hsound := h.run hinterval hevents (fun e' _ => Nat.zero_le _) hbefore (Nat.zero_le _)
    have htouch := hsound.step_touch hinterval hfull rfl ip
    rw [System.log_append, System.run_append]
    refine .snoc (ih hevents) ?_ ((hsound.step hinterval rfl).meter hinterval ip) ?_
    · intro entry hentry
      refine hbefore entry.1 ?_
      rw [← System.log_events s events]
      exact List.mem_map_of_mem hentry
    · change (touch interval e.now (((s.run events).step e).2.gate.state.get? ip)).tokens + _ ≤ _
      rw [htouch]
      by_cases hip : e.ip = ip
      · rw [if_pos hip]
        cases ((s.run events).step e).1 <;> simp [tookToken, hip, Outcome.apply]
      · rw [if_neg hip]
        simp [tookToken, hip]

/-! ## One address apart from the others -/

/-- The entries of an address that its own budgets decided. -/
def own (ip : α) (entries : List (Event α × Outcome)) : List (Event α × Outcome) :=
  entries.filter fun entry => entry.1.ip = ip ∧ entry.2 ≠ .refused .global

/-- A run and the run of one address's own events: the bucket is the same, and no permit is
missing. -/
structure Solo (capacity maxPerIp interval now : Nat) (ip : α) (s s' : System σ α) : Prop where
  whole : Sound capacity maxPerIp interval now s
  alone : Sound capacity maxPerIp interval now s'
  bucket : touch interval now (s.gate.state.get? ip) = touch interval now (s'.gate.state.get? ip)
  others : ∀ a ∈ s'.live, a = ip

theorem touch_congr (hinterval : 0 < interval) {o o' : Option PerIpState} (ho : Held now o)
    (ho' : Held now o') (h : touch interval now o = touch interval now o') (hle : now ≤ later) :
    touch interval later o = touch interval later o' := by
  rw [← touch_touch hinterval ho hle, h, touch_touch hinterval ho' hle]

namespace Solo
variable {ip : α}

omit [LawfulSemaphore σ] in
theorem mono (h : Solo capacity maxPerIp interval now ip s s') (hinterval : 0 < interval)
    (hle : now ≤ later) : Solo capacity maxPerIp interval later ip s s' where
  whole := h.whole.mono hle
  alone := h.alone.mono hle
  bucket := touch_congr hinterval (h.whole.held ip) (h.alone.held ip) h.bucket hle
  others := h.others

omit [LawfulSemaphore σ] in
/-- The address alone has at least the permits that it has among the others. -/
theorem permits_le (h : Solo capacity maxPerIp interval now ip s s') (hinterval : 0 < interval) :
    Semaphore.available s.gate.global ≤ Semaphore.available s'.gate.global := by
  have hcount : s'.live.count ip = s'.live.length :=
    List.count_eq_length.mpr fun a ha => (h.others a ha).symm
  have hsame : s'.live.count ip = s.live.count ip := by
    rw [← h.whole.touch_concurrent hinterval ip, h.bucket, h.alone.touch_concurrent hinterval ip]
  have hle := List.count_le_length (a := ip) (l := s.live)
  have hwhole := h.whole.permits
  have halone := h.alone.permits
  omega

theorem step_own (h : Solo capacity maxPerIp interval now ip s s') (hinterval : 0 < interval)
    (hfull : 8 * interval ≤ 60 * 10 ^ 9) {e : Event α} (hnow : e.now = now) (hip : e.ip = ip)
    (hanswer : (s.step e).1 ≠ .refused .global) :
    (s'.step e).1 = (s.step e).1 ∧
      Solo capacity maxPerIp interval now ip (s.step e).2 (s'.step e).2 := by
  have hpermit := permit_of_answer hanswer
  have hsame : (s'.step e).1 = (s.step e).1 := by
    rw [h.whole.step_answer hinterval hnow hpermit, h.alone.step_answer hinterval hnow
      fun a t ha => (hpermit a t ha).trans_le (h.permits_le hinterval), hip, h.bucket]
  refine ⟨hsame, h.whole.step hinterval hnow, h.alone.step hinterval hnow, ?_, ?_⟩
  · rw [h.whole.step_touch hinterval hfull hnow, h.alone.step_touch hinterval hfull hnow, hsame,
      if_pos hip, if_pos hip, h.bucket]
  · intro a ha
    rw [step_live, hip] at ha
    cases houtcome : (s'.step e).1 with
    | admitted =>
      rw [houtcome] at ha
      rcases List.mem_cons.mp ha with rfl | ha
      · rfl
      · exact h.others a ha
    | dropped =>
      rw [houtcome] at ha
      exact h.others a (List.mem_of_mem_erase ha)
    | refused reason => rw [houtcome] at ha; exact h.others a ha
    | idle => rw [houtcome] at ha; exact h.others a ha

theorem step_other (h : Solo capacity maxPerIp interval now ip s s') (hinterval : 0 < interval)
    (hfull : 8 * interval ≤ 60 * 10 ^ 9) {e : Event α} (hnow : e.now = now)
    (hother : e.ip = ip → (s.step e).1 = .refused .global) :
    Solo capacity maxPerIp interval now ip (s.step e).2 s' := by
  refine ⟨h.whole.step hinterval hnow, h.alone, ?_, h.others⟩
  rw [h.whole.step_touch hinterval hfull hnow, ← h.bucket]
  split
  · next hip => rw [hother hip]; rfl
  · rfl

theorem log_own (h : Solo capacity maxPerIp interval now ip s s') (hinterval : 0 < interval)
    (hfull : 8 * interval ≤ 60 * 10 ^ 9) {events : List (Event α)} (htimed : Timed events)
    (hfirst : ∀ e ∈ events, now ≤ e.now) :
    s'.log ((own ip (s.log events)).map Prod.fst) = own ip (s.log events) := by
  induction events generalizing s s' now with
  | nil => rfl
  | cons e events ih =>
    obtain ⟨hafter, htimed⟩ := List.pairwise_cons.mp htimed
    have hsolo := h.mono hinterval (hfirst e (List.mem_cons_self ..))
    by_cases hown : e.ip = ip ∧ (s.step e).1 ≠ .refused .global
    · obtain ⟨hsame, hnext⟩ := hsolo.step_own hinterval hfull rfl hown.1 hown.2
      have hsplit : own ip (s.log (e :: events)) =
          (e, (s.step e).1) :: own ip ((s.step e).2.log events) := by
        rw [System.log, own, List.filter_cons_of_pos (by simpa using hown)]
        rfl
      rw [hsplit, List.map_cons, System.log, hsame, ih hnext htimed hafter]
    · have hnext := hsolo.step_other hinterval hfull rfl
        fun hip => not_not.mp fun hne => hown ⟨hip, hne⟩
      have hsplit : own ip (s.log (e :: events)) = own ip ((s.step e).2.log events) := by
        rw [System.log, own, List.filter_cons_of_neg (by simpa using hown)]
        rfl
      rw [hsplit, ih hnext htimed hafter]

end Solo

/-! ## Refusals -/

/-- Two systems that no later event tells apart. -/
structure Alike (capacity maxPerIp interval now : Nat) (s s' : System σ α) : Prop where
  left : Sound capacity maxPerIp interval now s
  right : Sound capacity maxPerIp interval now s'
  live : s.live = s'.live
  buckets : ∀ ip, touch interval now (s.gate.state.get? ip) = touch interval now (s'.gate.state.get? ip)

namespace Alike

theorem step_answer (h : Alike capacity maxPerIp interval now s s') (hinterval : 0 < interval)
    {e : Event α} (hnow : e.now = now) : (s.step e).1 = (s'.step e).1 := by
  have hpermits : Semaphore.available s.gate.global = Semaphore.available s'.gate.global := by
    have hleft := h.left.permits
    have hright := h.right.permits
    rw [h.live] at hleft
    omega
  by_cases hpermit : ∀ ip t, e = .attempt ip t → 0 < Semaphore.available s.gate.global
  · rw [h.left.step_answer hinterval hnow hpermit,
      h.right.step_answer hinterval hnow (by rwa [← hpermits]), h.buckets]
  · push Not at hpermit
    obtain ⟨ip, t, rfl, h0⟩ := hpermit
    rw [step_attempt_full (by omega), step_attempt_full (by omega)]

theorem log (h : Alike capacity maxPerIp interval now s s') (hinterval : 0 < interval)
    (hfull : 8 * interval ≤ 60 * 10 ^ 9) {events : List (Event α)} (htimed : Timed events)
    (hfirst : ∀ e ∈ events, now ≤ e.now) : s.log events = s'.log events := by
  induction events generalizing s s' now with
  | nil => rfl
  | cons e events ih =>
    obtain ⟨hafter, htimed⟩ := List.pairwise_cons.mp htimed
    have hle := hfirst e (List.mem_cons_self ..)
    have halike : Alike capacity maxPerIp interval e.now s s' := ⟨h.left.mono hle, h.right.mono hle,
      h.live, fun ip => touch_congr hinterval (h.left.held ip) (h.right.held ip) (h.buckets ip) hle⟩
    have hsame := halike.step_answer hinterval rfl
    have hnext : Alike capacity maxPerIp interval e.now (s.step e).2 (s'.step e).2 := by
      refine ⟨halike.left.step hinterval rfl, halike.right.step hinterval rfl, ?_, fun ip => ?_⟩
      · rw [step_live, step_live, hsame, h.live]
      · rw [halike.left.step_touch hinterval hfull rfl, halike.right.step_touch hinterval hfull rfl,
          hsame, halike.buckets]
    rw [System.log, System.log, hsame, ih hnext htimed hafter]

end Alike

theorem Sound.alike_refused (h : Sound capacity maxPerIp interval now s) (hinterval : 0 < interval)
    (hfull : 8 * interval ≤ 60 * 10 ^ 9) {e : Event α} (hnow : e.now = now) {reason : LimitError}
    (hrefused : (s.step e).1 = .refused reason) :
    Alike capacity maxPerIp interval now (s.step e).2 s := by
  refine ⟨h.step hinterval hnow, h, ?_, fun ip => ?_⟩
  · rw [step_live, hrefused]
    rfl
  · rw [h.step_touch hinterval hfull hnow, hrefused]
    exact ite_self _

/-! ## The limits -/

/-- Over every run of a gate: the guards alive are within both caps and counted right, no span of
time lets in more of an address than a burst and what the span brings, the entries of an address's
own budgets are those of the run of these entries alone, and a refused attempt can be left out. -/
theorem limits_hold (globalCapacity maxPerIp interval : Nat) (hinterval : 0 < interval)
    (hfull : 8 * interval ≤ 60 * 10 ^ 9) (events : List (Event α)) (htimed : Timed events) :
    let s : System σ α := .start globalCapacity maxPerIp interval
    ((s.run events).live.length ≤ max globalCapacity 1 ∧
      ∀ ip, (s.run events).live.count ip ≤ max maxPerIp 1 ∧
        (s.run events).gate.concurrentFor ip = (s.run events).live.count ip) ∧
    (∀ ip first span, (taken (fun entry => entry.1.now) (tookToken ip) first (first + span)
      (s.log events) : ℚ) ≤ 8 + span / interval) ∧
    (∀ ip, s.log ((own ip (s.log events)).map Prod.fst) = own ip (s.log events)) ∧
    ∀ before e after reason, events = before ++ e :: after →
      ((s.run before).step e).1 = .refused reason →
      Semaphore.available ((s.run before).step e).2.gate.global =
        Semaphore.available (s.run before).gate.global ∧
      (∀ ip, ((s.run before).step e).2.gate.concurrentFor ip = (s.run before).gate.concurrentFor ip) ∧
      ∃ rest, s.log events = s.log before ++ (e, .refused reason) :: rest ∧
        s.log (before ++ after) = s.log before ++ rest := by
  intro s
  have hstart : Sound (max globalCapacity 1) (max maxPerIp 1) interval 0 s := sound_start globalCapacity
  obtain ⟨later, hlater⟩ : ∃ later, ∀ e ∈ events, e.now ≤ later :=
    ⟨(events.map Event.now).sum, fun e he => List.le_sum_of_mem (List.mem_map_of_mem he)⟩
  have hsound := hstart.run hinterval htimed (fun _ _ => Nat.zero_le _) hlater (Nat.zero_le _)
  refine ⟨⟨by have := hsound.permits; omega, fun ip => ⟨hsound.capped ip, hsound.counted ip⟩⟩, ?_,
    fun ip => ?_, ?_⟩
  · intro ip first span
    exact (hstart.metered hinterval hfull ip htimed).taken_le (Nat.cast_pos.mpr hinterval) first span
  · have hsolo : Solo (max globalCapacity 1) (max maxPerIp 1) interval 0 ip s s :=
      ⟨hstart, hstart, rfl, fun _ ha => by cases ha⟩
    exact hsolo.log_own hinterval hfull htimed fun _ _ => Nat.zero_le _
  · rintro before e after reason rfl hrefused
    obtain ⟨hbefore, hrest, hcross⟩ := List.pairwise_append.mp htimed
    obtain ⟨hafter, hsorted⟩ := List.pairwise_cons.mp hrest
    have hthen := hstart.run hinterval hbefore (fun _ _ => Nat.zero_le _)
      (fun e' he' => hcross e' he' e (List.mem_cons_self ..)) (Nat.zero_le _)
    have halike := hthen.alike_refused hinterval hfull rfl hrefused
    have hleft := halike.left.permits
    have hright := halike.right.permits
    rw [halike.live] at hleft
    refine ⟨by omega, fun ip => ?_, ((s.run before).step e).2.log after, ?_, ?_⟩
    · rw [halike.left.counted, halike.right.counted, halike.live]
    · rw [System.log_append, System.log, hrefused]
    · rw [System.log_append, halike.log hinterval hfull hsorted hafter]

/-- A semaphore as its count. -/
structure Counter where
  count : Nat

instance : Semaphore Counter where
  new := .mk
  available := Counter.count
  tryAcquire s := if s.count = 0 then none else some ⟨s.count - 1⟩
  release s := ⟨s.count + 1⟩

instance : LawfulSemaphore Counter where
  available_new _ := rfl
  tryAcquire_none s := by
    change (if s.count = 0 then _ else _) = none ↔ s.count = 0
    split <;> simp_all
  available_tryAcquire s s' h := by
    obtain ⟨hne, rfl⟩ : s.count ≠ 0 ∧ (⟨s.count - 1⟩ : Counter) = s' := by
      by_cases h0 : s.count = 0
      · simp [Semaphore.tryAcquire, h0] at h
      · simpa [Semaphore.tryAcquire, h0] using h
    change s.count - 1 + 1 = s.count
    omega
  available_release _ := rfl

def twoAddresses : List (Event Nat) :=
  [.attempt 1 0, .attempt 2 5, .attempt 1 6, .drop 1 7, .attempt 1 (10 ^ 9)]

theorem limits_hold_two_addresses :
    ((System.start 2 1 (10 ^ 9) : System Counter Nat).run twoAddresses).live.length ≤ 2 ∧
      (taken (fun entry => entry.1.now) (tookToken 1) 0 (0 + 10 ^ 9)
        ((System.start 2 1 (10 ^ 9) : System Counter Nat).log twoAddresses) : ℚ) ≤
        8 + (10 ^ 9 : Nat) / (10 ^ 9 : Nat) := by
  have htimed : Timed twoAddresses := by simp [Timed, twoAddresses, Event.now]
  have h := limits_hold (σ := Counter) 2 1 (10 ^ 9) (by decide) (by decide) twoAddresses htimed
  exact ⟨h.1.1, h.2.1 1 0 (10 ^ 9)⟩

end Apoptosis.L2.Network
