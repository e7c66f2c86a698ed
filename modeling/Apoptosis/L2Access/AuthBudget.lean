import Apoptosis.Core.OrdMap
/-!
# The budget of bad logins (`server/src/rcon.rs`)

Failures are counted for each address in a window that opens at the first of
them. Windows that have run out are forgotten when they are asked about, when
the next failure arrives, or all at once when the table is large.

* `Agrees`: the table beside the window of each address by itself; `Agrees.recordFailure`,
  `Agrees.isBlocked`, `Agrees.erase`: every call keeps it.
* `tableAfter_spec`: over a run, as long as every count fits its type.
* `budget_exact_iff`: when the budget is exact; `budget_overflows`: a run after which it is not.
-/
namespace Apoptosis.L2.Access

open Apoptosis.Core

/-- mirrors crates/server/src/rcon.rs:317-322 (`FailureWindow`) -/
structure FailureWindow where
  first : Nat
  count : Nat
  deriving DecidableEq, Repr

/-- mirrors crates/server/src/rcon.rs:309-313 (`AuthBudget`) -/
structure AuthBudget (α : Type*) [LinearOrder α] where
  budget : Nat
  window : Nat
  failures : OrdMap α FailureWindow

/-- A call with the time it is made at. -/
inductive LoginCall (α : Type*)
  | recordFailure (ip : α) (now : Nat)
  | isBlocked (ip : α) (now : Nat)
  | clear (ip : α)

namespace AuthBudget
variable {α : Type*} [LinearOrder α]

/-- mirrors crates/server/src/rcon.rs:327-333 (`AuthBudget::new`) -/
def new (budget window : Nat) : AuthBudget α := ⟨max budget 1, window, .empty⟩

/-- mirrors crates/server/src/rcon.rs:336-355 (`record_failure`); `none` where the count leaves `u32` -/
def recordFailure (b : AuthBudget α) (ip : α) (now : Nat) : Option (Nat × AuthBudget α) :=
  let entry := (b.failures.get? ip).getD ⟨now, 0⟩
  let entry := if b.window ≤ now - entry.first then ⟨now, 0⟩ else entry
  if entry.count + 1 < 2 ^ 32 then
    let failures := b.failures.insert ip ⟨entry.first, entry.count + 1⟩
    let failures := if 4096 < failures.size then
        failures.retain fun _ entry => now - entry.first < b.window
      else failures
    some (entry.count + 1, { b with failures })
  else none

/-- mirrors crates/server/src/rcon.rs:359-371 (`is_blocked`) -/
def isBlocked (b : AuthBudget α) (ip : α) (now : Nat) : Bool × AuthBudget α :=
  if (b.failures.get? ip).any fun entry => b.window ≤ now - entry.first then
    (false, { b with failures := b.failures.erase ip })
  else ((b.failures.get? ip).any fun entry => b.budget ≤ entry.count, b)

/-- mirrors crates/server/src/rcon.rs:374-376 (`clear`) -/
def clear (b : AuthBudget α) (ip : α) : AuthBudget α := { b with failures := b.failures.erase ip }

def step (b : AuthBudget α) : LoginCall α → Option (AuthBudget α)
  | .recordFailure ip now => (b.recordFailure ip now).map Prod.snd
  | .isBlocked ip now => some (b.isBlocked ip now).2
  | .clear ip => some (b.clear ip)

def run (b : AuthBudget α) (calls : List (LoginCall α)) : Option (AuthBudget α) := calls.foldlM step b

end AuthBudget

/-! ## One address by itself -/

section
variable {α : Type*} [DecidableEq α] (window : Nat) (a : α)

/-- A failure opens a window or is counted in the one that is open. -/
def FailureWindow.record (now : Nat) : Option FailureWindow → FailureWindow
  | none => ⟨now, 1⟩
  | some w => if w.first + window ≤ now then ⟨now, 1⟩ else ⟨w.first, w.count + 1⟩

/-- What a call means to the window of an address. -/
def replayCall (w : Option FailureWindow) : LoginCall α → Option FailureWindow
  | .recordFailure ip now => if ip = a then some (FailureWindow.record window now w) else w
  | .isBlocked .. => w
  | .clear ip => if ip = a then none else w

/-- The window of an address after the calls for it. -/
def replay (calls : List (LoginCall α)) : Option FailureWindow := calls.foldl (replayCall window a) none

/-- The budget is spent and the window has not run out. -/
def Spent (budget : Nat) (w : Option FailureWindow) (now : Nat) : Prop :=
  ∃ opened, w = some opened ∧ budget ≤ opened.count ∧ now < opened.first + window

end

namespace LoginCall
variable {α : Type*}

def time : LoginCall α → Option Nat
  | .recordFailure _ now => some now
  | .isBlocked _ now => some now
  | .clear _ => none

end LoginCall

/-- The times of the calls do not decrease. -/
def Timed {α : Type*} (calls : List (LoginCall α)) : Prop := (calls.filterMap LoginCall.time).Pairwise (· ≤ ·)

section
variable {α : Type*} {calls : List (LoginCall α)} {call : LoginCall α} {now : Nat}

/-- No call is made after this time. -/
def Before (calls : List (LoginCall α)) (now : Nat) : Prop :=
  ∀ t ∈ calls.filterMap LoginCall.time, t ≤ now

theorem before_snoc : Before (calls ++ [call]) now ↔
    Before calls now ∧ ∀ t, call.time = some t → t ≤ now := by
  simp only [Before, List.filterMap_append, List.mem_append, or_imp, forall_and]
  refine and_congr_right fun _ => ?_
  cases h : call.time <;> simp [h]

theorem exists_before (calls : List (LoginCall α)) : ∃ now, Before calls now :=
  ⟨(calls.filterMap LoginCall.time).sum, fun _ ht => List.le_sum_of_mem ht⟩

theorem timed_snoc : Timed (calls ++ [call]) ↔
    Timed calls ∧ ∀ t, call.time = some t → Before calls t := by
  simp only [Timed, List.filterMap_append, List.pairwise_append, Before]
  refine and_congr_right fun _ => ?_
  cases h : call.time <;> simp [h]

end

section
variable {α : Type*} [LinearOrder α] {budget window : Nat}

/-- The table holds the window of each address, unless that has run out and is forgotten. -/
structure Agrees (budget window now : Nat) (calls : List (LoginCall α)) (b : AuthBudget α) : Prop where
  sameBudget : b.budget = max budget 1
  sameWindow : b.window = window
  held : ∀ a, b.failures.get? a = replay window a calls ∨
    b.failures.get? a = none ∧ ∃ w, replay window a calls = some w ∧ w.first + window ≤ now
  opened : ∀ a w, replay window a calls = some w → w.first ≤ now ∧ 0 < w.count

variable {now now' : Nat} {calls : List (LoginCall α)} {b : AuthBudget α} {ip : α}

theorem replay_snoc (window : Nat) (a : α) (calls : List (LoginCall α)) (call : LoginCall α) :
    replay window a (calls ++ [call]) = replayCall window a (replay window a calls) call :=
  List.foldl_append ..

namespace Agrees

theorem later (h : Agrees budget window now calls b) (hle : now ≤ now') :
    Agrees budget window now' calls b where
  sameBudget := h.sameBudget
  sameWindow := h.sameWindow
  held a := (h.held a).imp_right fun ⟨hnone, w, hw, hout⟩ => ⟨hnone, w, hw, hout.trans hle⟩
  opened a w hw := (h.opened a w hw).imp_left (·.trans hle)

/-- Forgetting what has run out changes nothing. -/
theorem retain (h : Agrees budget window now calls b) :
    Agrees budget window now calls
      { b with failures := b.failures.retain fun _ entry => now - entry.first < b.window } where
  sameBudget := h.sameBudget
  sameWindow := h.sameWindow
  opened := h.opened
  held a := by
    rw [OrdMap.get?_retain, h.sameWindow]
    rcases h.held a with hheld | ⟨hnone, hout⟩
    · rw [hheld]
      cases hw : replay window a calls with
      | none => exact .inl rfl
      | some w =>
        by_cases hopen : now - w.first < window
        · exact .inl (by simp [hopen])
        · have hfirst := (h.opened a w hw).1
          exact .inr ⟨by simpa using hopen, w, rfl, by omega⟩
    · rw [hnone]
      exact .inr ⟨rfl, hout⟩

/-- The entry a failure is counted in. -/
theorem counted (h : Agrees budget window now calls b) (ip : α) :
    (let entry := (b.failures.get? ip).getD ⟨now, 0⟩
    let entry := if b.window ≤ now - entry.first then ⟨now, 0⟩ else entry
    (⟨entry.first, entry.count + 1⟩ : FailureWindow)) =
      FailureWindow.record window now (replay window ip calls) := by
  dsimp only
  rw [h.sameWindow]
  rcases h.held ip with hheld | ⟨hnone, w, hw, hout⟩
  · rw [hheld]
    cases hw : replay window ip calls with
    | none => simp [FailureWindow.record]
    | some w =>
      have hfirst := (h.opened ip w hw).1
      have hiff : window ≤ now - w.first ↔ w.first + window ≤ now := by omega
      simp only [Option.getD_some, FailureWindow.record, hiff]
      split <;> rfl
  · rw [hnone, hw, FailureWindow.record, if_pos hout]
    simp

theorem record_bounds {w : Option FailureWindow} (h : ∀ opened, w = some opened → opened.first ≤ now) :
    (FailureWindow.record window now w).first ≤ now ∧ 0 < (FailureWindow.record window now w).count := by
  cases w with
  | none => exact ⟨le_rfl, one_pos⟩
  | some opened =>
    have hfirst := h opened rfl
    by_cases hout : opened.first + window ≤ now
    · simp only [FailureWindow.record, hout, if_true]
      exact ⟨le_rfl, one_pos⟩
    · simp only [FailureWindow.record, hout, if_false]
      exact ⟨hfirst, Nat.succ_pos _⟩

theorem insert (h : Agrees budget window now calls b) (ip : α) :
    Agrees budget window now (calls ++ [.recordFailure ip now]) { b with
      failures := b.failures.insert ip (FailureWindow.record window now (replay window ip calls)) } where
  sameBudget := h.sameBudget
  sameWindow := h.sameWindow
  held a := by
    rw [OrdMap.get?_insert, replay_snoc, replayCall]
    by_cases hip : ip = a
    · subst hip
      rw [if_pos rfl, if_pos rfl]
      exact .inl rfl
    · rw [if_neg hip, if_neg hip]
      exact h.held a
  opened a w hw := by
    rw [replay_snoc, replayCall] at hw
    by_cases hip : ip = a
    · subst hip
      rw [if_pos rfl] at hw
      cases hw
      exact record_bounds fun opened hopened => (h.opened ip opened hopened).1
    · rw [if_neg hip] at hw
      exact h.opened a w hw

/-- A failure is counted in the window of its address, or the count is full. -/
theorem recordFailure (h : Agrees budget window now calls b) (ip : α) :
    if (FailureWindow.record window now (replay window ip calls)).count < 2 ^ 32 then
      ∃ b', b.recordFailure ip now =
          some ((FailureWindow.record window now (replay window ip calls)).count, b') ∧
        Agrees budget window now (calls ++ [.recordFailure ip now]) b'
    else b.recordFailure ip now = none := by
  have hcounted := h.counted ip
  unfold AuthBudget.recordFailure
  dsimp only at hcounted ⊢
  generalize (if b.window ≤ now - ((b.failures.get? ip).getD ⟨now, 0⟩).first then ⟨now, 0⟩
    else (b.failures.get? ip).getD ⟨now, 0⟩ : FailureWindow) = entry at hcounted ⊢
  have hcount : entry.count + 1 = (FailureWindow.record window now (replay window ip calls)).count :=
    congrArg FailureWindow.count hcounted
  rw [hcounted, hcount]
  by_cases hfits : (FailureWindow.record window now (replay window ip calls)).count < 2 ^ 32
  · rw [if_pos hfits, if_pos hfits]
    refine ⟨_, rfl, ?_⟩
    split
    · exact (h.insert ip).retain
    · exact h.insert ip
  · rw [if_neg hfits, if_neg hfits]

theorem erase (h : Agrees budget window now calls b) (ip : α) :
    Agrees budget window now (calls ++ [.clear ip]) (b.clear ip) where
  sameBudget := h.sameBudget
  sameWindow := h.sameWindow
  held a := by
    rw [AuthBudget.clear, OrdMap.get?_erase, replay_snoc, replayCall]
    by_cases hip : ip = a
    · rw [if_pos hip, if_pos hip]
      exact .inl rfl
    · rw [if_neg hip, if_neg hip]
      exact h.held a
  opened a w hw := by
    rw [replay_snoc, replayCall] at hw
    split at hw
    · cases hw
    · exact h.opened a w hw

theorem query (h : Agrees budget window now calls b) (ip : α) (now' : Nat) :
    Agrees budget window now (calls ++ [.isBlocked ip now']) b where
  sameBudget := h.sameBudget
  sameWindow := h.sameWindow
  held a := by
    rw [replay_snoc]
    exact h.held a
  opened a w hw := by
    rw [replay_snoc] at hw
    exact h.opened a w hw

/-- A window that has run out may be forgotten. -/
theorem forget (h : Agrees budget window now calls b) {w : FailureWindow}
    (hw : replay window ip calls = some w) (hout : w.first + window ≤ now) :
    Agrees budget window now calls { b with failures := b.failures.erase ip } where
  sameBudget := h.sameBudget
  sameWindow := h.sameWindow
  opened := h.opened
  held a := by
    rw [OrdMap.get?_erase]
    by_cases hip : ip = a
    · subst hip
      rw [if_pos rfl]
      exact .inr ⟨rfl, w, hw, hout⟩
    · rw [if_neg hip]
      exact h.held a

/-- A query is answered as the window of its address alone would answer it. -/
theorem isBlocked (h : Agrees budget window now calls b) (ip : α) :
    ((b.isBlocked ip now).1 = true ↔ Spent window budget (replay window ip calls) now) ∧
      Agrees budget window now (calls ++ [.isBlocked ip now]) (b.isBlocked ip now).2 := by
  unfold AuthBudget.isBlocked Spent
  rw [h.sameWindow, h.sameBudget]
  rcases h.held ip with hheld | ⟨hnone, w, hw, hout⟩
  · rw [hheld]
    cases hw : replay window ip calls with
    | none =>
      refine ⟨by simp, ?_⟩
      exact h.query ip now
    | some w =>
      obtain ⟨hfirst, hcount⟩ := h.opened ip w hw
      by_cases hexpired : window ≤ now - w.first
      · simp only [Option.any_some, hexpired, decide_true, if_true]
        refine ⟨?_, ?_⟩
        · refine iff_of_false Bool.false_ne_true ?_
          rintro ⟨opened, hopened, -, hlt⟩
          cases hopened
          omega
        · have hforgot := (h.forget hw (by omega)).query ip now
          rw [h.sameBudget, h.sameWindow] at hforgot
          exact hforgot
      · simp only [Option.any_some, hexpired, decide_false, Bool.false_eq_true, if_false]
        refine ⟨?_, h.query ip now⟩
        simp only [decide_eq_true_eq, Option.some.injEq, exists_eq_left']
        omega
  · rw [hnone, hw]
    refine ⟨?_, h.query ip now⟩
    refine iff_of_false (by simp) ?_
    rintro ⟨opened, hopened, -, hlt⟩
    cases hopened
    omega

end Agrees

/-! ## Runs -/

/-- No window holds more failures than a `u32` counts. -/
def Counted (window : Nat) (calls : List (LoginCall α)) : Prop :=
  ∀ a w, replay window a calls = some w → w.count < 2 ^ 32

/-- None ever did. -/
def Countable (window : Nat) (calls : List (LoginCall α)) : Prop :=
  ∀ earlier, earlier <+: calls → Counted window earlier

theorem countable_snoc {call : LoginCall α} : Countable window (calls ++ [call]) ↔
    Countable window calls ∧ Counted window (calls ++ [call]) := by
  constructor
  · exact fun h => ⟨fun earlier hpre => h earlier (hpre.trans (List.prefix_append ..)),
      h _ (List.prefix_refl _)⟩
  · rintro ⟨hcalls, hlast⟩ earlier hpre
    rcases List.prefix_concat_iff.mp hpre with rfl | hpre
    · exact hlast
    · exact hcalls earlier hpre

variable (budget window) in
/-- The table after the calls, where none of them overflows a count. -/
def tableAfter (calls : List (LoginCall α)) : Option (AuthBudget α) := (AuthBudget.new budget window).run calls

theorem tableAfter_snoc (call : LoginCall α) : tableAfter budget window (calls ++ [call]) =
    (tableAfter budget window calls).bind fun b => b.step call := by
  simp [tableAfter, AuthBudget.run, List.foldlM_append]

theorem agrees_new (now : Nat) :
    Agrees budget window now [] (AuthBudget.new budget window : AuthBudget α) where
  sameBudget := rfl
  sameWindow := rfl
  held _ := .inl rfl
  opened _ _ hw := nomatch hw

/-- A call that counts no failure leaves every count as it was or drops it. -/
theorem counted_of_replayCall {call : LoginCall α} (hcalls : Counted window calls)
    (h : ∀ a w, replayCall window a (replay window a calls) call = some w →
      replay window a calls = some w) : Counted window (calls ++ [call]) := by
  intro a w hw
  rw [replay_snoc] at hw
  exact hcalls a w (h a w hw)

theorem counted_recordFailure_iff (hcalls : Counted window calls) :
    Counted window (calls ++ [.recordFailure ip now]) ↔
      (FailureWindow.record window now (replay window ip calls)).count < 2 ^ 32 := by
  simp only [Counted, replay_snoc, replayCall]
  constructor
  · exact fun h => h ip _ (if_pos rfl)
  · intro h a w hw
    split at hw
    · next hip =>
      cases hw
      exact hip ▸ h
    · exact hcalls a w hw

/-- One more call, made now or without a time. -/
theorem Agrees.step (h : Agrees budget window now calls b) {call : LoginCall α}
    (htime : ∀ t, call.time = some t → t = now) (hcalls : Counted window calls) :
    (Counted window (calls ++ [call]) →
      ∃ b', b.step call = some b' ∧ Agrees budget window now (calls ++ [call]) b') ∧
    (¬Counted window (calls ++ [call]) → b.step call = none) := by
  cases call with
  | recordFailure ip t =>
    obtain rfl : t = now := htime t rfl
    have hrecord := h.recordFailure ip
    rw [counted_recordFailure_iff hcalls, AuthBudget.step]
    split at hrecord
    · next hfits =>
      obtain ⟨b', hb', hagrees⟩ := hrecord
      exact ⟨fun _ => ⟨b', by rw [hb']; rfl, hagrees⟩, fun hfull => absurd hfits hfull⟩
    · next hfull =>
      exact ⟨fun hfits => absurd hfits hfull, fun _ => by rw [hrecord]; rfl⟩
  | isBlocked ip t =>
    obtain rfl : t = now := htime t rfl
    have hcounted : Counted window (calls ++ [.isBlocked ip t]) :=
      counted_of_replayCall hcalls fun a w hw => hw
    exact ⟨fun _ => ⟨_, rfl, (h.isBlocked ip).2⟩, fun hfull => absurd hcounted hfull⟩
  | clear ip =>
    have hcounted : Counted window (calls ++ [.clear ip]) := by
      refine counted_of_replayCall hcalls fun a w hw => ?_
      simp only [replayCall] at hw
      split at hw
      · cases hw
      · exact hw
    exact ⟨fun _ => ⟨_, rfl, h.erase ip⟩, fun hfull => absurd hcounted hfull⟩

/-- The table follows the addresses until a count is full. -/
theorem tableAfter_spec (htimed : Timed calls) :
    (Countable window calls → ∃ b, tableAfter budget window calls = some b ∧
      ∀ now, Before calls now → Agrees budget window now calls b) ∧
    (¬Countable window calls → tableAfter budget window calls = none) := by
  induction calls using List.reverseRecOn with
  | nil =>
    refine ⟨fun _ => ⟨_, rfl, fun now _ => agrees_new now⟩, fun h => absurd ?_ h⟩
    intro earlier hpre a w hw
    rw [List.prefix_nil.mp hpre] at hw
    cases hw
  | append_singleton calls call ih =>
    obtain ⟨htimed, hbefore⟩ := timed_snoc.mp htimed
    obtain ⟨hfits, hfull⟩ := ih htimed
    rw [countable_snoc, tableAfter_snoc]
    by_cases hcalls : Countable window calls
    · obtain ⟨b, hb, hagrees⟩ := hfits hcalls
      rw [hb, Option.bind_some, and_iff_right hcalls]
      have hlast : Counted window calls := hcalls calls (List.prefix_refl _)
      -- The call is made at its own time, and one without a time at whatever time is asked about.
      have hstep (now : Nat) (hnow : Before (calls ++ [call]) now) :
          Before calls (call.time.getD now) ∧ call.time.getD now ≤ now ∧
            ∀ t, call.time = some t → t = call.time.getD now := by
        obtain ⟨hcalls, htime⟩ := before_snoc.mp hnow
        cases h : call.time with
        | none => exact ⟨hcalls, le_rfl, nofun⟩
        | some t =>
          refine ⟨hbefore t h, htime t h, fun t' ht' => (Option.some.inj ht').symm⟩
      obtain ⟨latest, hlatest⟩ := exists_before (calls ++ [call])
      obtain ⟨hpast, -, htime⟩ := hstep latest hlatest
      obtain ⟨hcounted, hfull⟩ := (hagrees _ hpast).step htime hlast
      refine ⟨fun h => ?_, hfull⟩
      obtain ⟨b', hb', -⟩ := hcounted h
      refine ⟨b', hb', fun now hnow => ?_⟩
      obtain ⟨hpast, hle, htime⟩ := hstep now hnow
      obtain ⟨b'', hb'', hagrees'⟩ := ((hagrees _ hpast).step htime hlast).1 h
      cases hb'.symm.trans hb''
      exact hagrees'.later hle
    · rw [hfull hcalls]
      exact ⟨fun h => absurd h.1 hcalls, fun _ => rfl⟩

/-- The table is there after the calls, and answers the next query about any address, at any time
that has come, as the calls for that address alone would have it answered. -/
def BudgetExact (budget window : Nat) (calls : List (LoginCall α)) : Prop :=
  ∃ b, tableAfter budget window calls = some b ∧ ∀ a now, Before calls now →
    ((b.isBlocked a now).1 = true ↔ Spent window budget (replay window a calls) now)

theorem budget_exact_iff (budget window : Nat) {calls : List (LoginCall α)} (htimed : Timed calls) :
    BudgetExact budget window calls ↔ Countable window calls := by
  obtain ⟨hfits, hfull⟩ := @tableAfter_spec _ _ budget window _ htimed
  constructor
  · rintro ⟨b, hb, -⟩
    by_contra hnot
    rw [hfull hnot] at hb
    cases hb
  · intro hcountable
    obtain ⟨b, hb, hagrees⟩ := hfits hcountable
    exact ⟨b, hb, fun a now hnow => ((hagrees now hnow).isBlocked a).1⟩

theorem budget_exact_two : BudgetExact 1 60 [LoginCall.recordFailure 1 0, .recordFailure 2 5] ↔
    Countable 60 [LoginCall.recordFailure 1 0, .recordFailure 2 5] :=
  budget_exact_iff 1 60 (by unfold Timed; decide)

theorem replay_replicate (n : Nat) :
    replay 1 (0 : Nat) (List.replicate (n + 1) (.recordFailure 0 0)) = some ⟨0, n + 1⟩ := by
  induction n with
  | zero => rfl
  | succ n ih =>
    rw [List.replicate_succ', replay_snoc, ih]
    rfl

theorem timed_replicate (n : Nat) : Timed (List.replicate n (LoginCall.recordFailure 0 0)) := by
  have htime : LoginCall.time (LoginCall.recordFailure 0 0) = some 0 := rfl
  rw [Timed, List.filterMap_replicate_of_some htime]
  exact List.pairwise_replicate.mpr (.inr le_rfl)

theorem not_exact_replicate {n : Nat} (h : 2 ^ 32 ≤ n + 1) :
    ¬BudgetExact 20 1 (List.replicate (n + 1) (LoginCall.recordFailure 0 0)) := by
  rintro ⟨b, hb, -⟩
  have hnot : ¬Countable 1 (List.replicate (n + 1) (LoginCall.recordFailure 0 0)) := fun hcountable =>
    absurd (hcountable _ (List.prefix_refl _) 0 _ (replay_replicate n)) (not_lt.mpr h)
  rw [(tableAfter_spec (timed_replicate _)).2 hnot] at hb
  cases hb

/-- One address fails once more than a `u32` counts. -/
theorem budget_overflows :
    Timed (List.replicate (2 ^ 32) (LoginCall.recordFailure 0 0)) ∧
      ¬BudgetExact 20 1 (List.replicate (2 ^ 32) (LoginCall.recordFailure 0 0)) := by
  have hcount : 2 ^ 32 = 4294967295 + 1 := by norm_num
  refine ⟨timed_replicate _, ?_⟩
  rw [hcount]
  exact not_exact_replicate hcount.le

end
end Apoptosis.L2.Access
