import Apoptosis.L2Network.ConnectionRuns
/-!
# What a connection tells and asks for

* `run_tells`: what the game loop hears of a connection, in order, over a run.
* `run_pulse`: keepalives are numbered on, one at a time; only a client that
  left one unanswered for the whole timeout is timed out, and nothing is written
  after a packet that ends the connection.
-/
namespace Apoptosis.L2.Connection
open Apoptosis.Core Apoptosis.Core.Codec Apoptosis.L1.Login
open Apoptosis.L1.Frame (RawPacket)

variable {Intent : Type} {host : Host Intent}

/-! ## Events -/

def Action.kind : Action Intent → Option (ClientEventKind Intent)
  | .told kind _ => some kind
  | _ => none

/-- What the game loop was told, in order. -/
def told (trace : List (Action Intent)) : List (ClientEventKind Intent) := trace.filterMap Action.kind

/-- The packet is the last a connection sends. -/
def Clientbound.Last : Clientbound → Prop
  | loginDisconnect _ | configDisconnect _ | playDisconnect _ | statusPong _ => True
  | _ => False

theorem next_ended {v : View} {a : Action Intent} (hstage : v.stage = .ended) (ha : Allowed host v a) :
    (v.next host a).stage = .ended ∧ ∃ queued, a = .told .left queued := by
  obtain ⟨-, ha⟩ := ha
  cases a with
  | took packet =>
    rw [hstage] at ha
    exact ha.elim
  | asked name hash secret answer =>
    obtain ⟨-, token, packet, hkeyed, -⟩ := ha
    rw [hstage] at hkeyed
    cases hkeyed
  | wrote now frame sent raw p =>
    obtain ⟨-, -, ha⟩ := ha
    cases p <;> simp [Sendable, hstage] at ha
  | told k queued =>
    cases k with
    | left => exact ⟨hstage, queued, rfl⟩
    | _ => simp [Tellable, hstage] at ha

theorem ended_after {v : View} {actions : List (Action Intent)} (hstage : v.stage = .ended)
    (h : Along (View.next host) (Allowed host) v actions) : ∀ a ∈ actions, ∃ queued, a = .told .left queued := by
  induction actions generalizing v with
  | nil => exact fun a ha => (by cases ha)
  | cons b actions ih =>
    obtain ⟨hb, hrest⟩ := h
    obtain ⟨hended, hleft⟩ := next_ended hstage hb
    exact List.forall_mem_cons.mpr ⟨hleft, ih hended hrest⟩

theorem Keeping.silent {before after : List (Action Intent)} {now : Nat} {frame sent : Bytes} {raw : RawPacket}
    {p : Clientbound} (h : Keeping host (before ++ .wrote now frame sent raw p :: after)) (hp : p.Last) :
    ∀ a ∈ after, ∃ queued, a = .told .left queued := by
  unfold Keeping at h
  rw [along_append, Along] at h
  obtain ⟨-, -, hafter⟩ := h
  refine ended_after ?_ hafter
  cases p with
  | loginDisconnect | configDisconnect | playDisconnect | statusPong => rfl
  | _ => exact hp.elim

/-! ## Keepalives -/

/-- The keepalive an action sends. -/
def Action.beat : Action Intent → Option (BitVec 64)
  | .wrote _ _ _ _ (.keepAlive id) => some id
  | _ => none

def beats (trace : List (Action Intent)) : List (BitVec 64) := trace.filterMap Action.beat

/-- The action ends the wait for the keepalive: the client answers it, or plays anew. -/
def Action.Ends (id : BitVec 64) : Action Intent → Prop
  | .took packet => answered packet = some id
  | .wrote _ _ _ _ (.joinGame _) => True
  | _ => False

/-- A keepalive, and what came after. -/
def Beat (trace : List (Action Intent)) (since : Nat) (id : BitVec 64) (after : List (Action Intent)) : Prop :=
  ∃ before frame sent raw, trace = before ++ .wrote since frame sent raw (.keepAlive id) :: after

theorem Beat.snoc {trace : List (Action Intent)} {since : Nat} {id : BitVec 64} {after : List (Action Intent)}
    (h : Beat trace since id after) (a : Action Intent) : Beat (trace ++ [a]) since id (after ++ [a]) := by
  obtain ⟨before, frame, sent, raw, rfl⟩ := h
  exact ⟨before, frame, sent, raw, by simp⟩

theorem beat_snoc {trace : List (Action Intent)} {a : Action Intent} {since : Nat} {id : BitVec 64}
    {after : List (Action Intent)} (h : Beat (trace ++ [a]) since id after) :
    (after = [] ∧ ∃ frame sent raw, a = .wrote since frame sent raw (.keepAlive id)) ∨
    ∃ old, after = old ++ [a] ∧ Beat trace since id old := by
  obtain ⟨before, frame, sent, raw, heq⟩ := h
  induction after using List.reverseRecOn with
  | nil =>
    obtain ⟨-, hlast⟩ := List.append_inj' heq rfl
    cases hlast
    exact .inl ⟨rfl, frame, sent, raw, rfl⟩
  | append_singleton old b _ =>
    rw [← List.cons_append, ← List.append_assoc] at heq
    obtain ⟨htrace, hlast⟩ := List.append_inj' heq rfl
    cases hlast
    exact .inr ⟨old, rfl, before, frame, sent, raw, htrace⟩

/-- How the keepalives of a trace stand. -/
structure Beating (trace : List (Action Intent)) (v : View) : Prop where
  numbered : beats trace = (List.range v.beats).map fun i => BitVec.ofNat 64 (i + 1)
  waits : ∀ since id, v.waiting = some (since, id) → ∃ after, Beat trace since id after ∧ ∀ a ∈ after, ¬a.Ends id
  ended : ∀ since id after, Beat trace since id after → v.waiting = some (since, id) ∨ ∃ a ∈ after, a.Ends id

theorem beats_snoc (trace : List (Action Intent)) (a : Action Intent) :
    beats (trace ++ [a]) = beats trace ++ a.beat.toList := by
  unfold beats
  rw [List.filterMap_append]
  cases h : a.beat <;> simp [h]

/-- An action that is no keepalive. -/
theorem next_quiet (v : View) {a : Action Intent} (ha : a.beat = none) :
    (v.next host a).beats = v.beats ∧
      ∀ since id, (v.next host a).waiting = some (since, id) ↔ v.waiting = some (since, id) ∧ ¬a.Ends id := by
  cases a with
  | told k queued => exact ⟨rfl, fun since id => (and_iff_left not_false).symm⟩
  | asked name hash secret answer =>
    cases answer with
    | ok profile => exact ⟨rfl, fun since id => (and_iff_left not_false).symm⟩
    | error e => exact ⟨rfl, fun since id => (and_iff_left not_false).symm⟩
  | took packet =>
    refine ⟨rfl, fun since id => ?_⟩
    show v.waiting.filter _ = _ ↔ _
    rw [Option.filter_eq_some_iff]
    simp [Action.Ends]
  | wrote now frame sent raw p =>
    cases p with
    | keepAlive id => cases ha
    | joinGame join => exact ⟨rfl, fun since id => ⟨fun h => (by cases h), fun h => absurd trivial h.2⟩⟩
    | _ => exact ⟨rfl, fun since id => (and_iff_left not_false).symm⟩

theorem Beating.quiet {trace : List (Action Intent)} {v : View} {a : Action Intent} (h : Beating trace v)
    (ha : a.beat = none) : Beating (trace ++ [a]) (v.next host a) := by
  obtain ⟨hbeats, hwaiting⟩ : (v.next host a).beats = v.beats ∧ ∀ since id,
      (v.next host a).waiting = some (since, id) ↔ v.waiting = some (since, id) ∧ ¬a.Ends id := next_quiet v ha
  refine ⟨?_, fun since id hwaits => ?_, fun since id after hbeat => ?_⟩
  · rw [beats_snoc, ha, Option.toList_none, List.append_nil, hbeats]
    exact h.numbered
  · obtain ⟨hwaits, hopen⟩ := (hwaiting since id).mp hwaits
    obtain ⟨after, hbeat, hafter⟩ := h.waits since id hwaits
    refine ⟨after ++ [a], hbeat.snoc a, fun b hb => ?_⟩
    obtain hold | hnew := List.mem_append.mp hb
    · exact hafter b hold
    · rwa [List.mem_singleton.mp hnew]
  · obtain ⟨-, frame, sent, raw, rfl⟩ | ⟨old, rfl, hold⟩ := beat_snoc hbeat
    · cases ha
    · by_cases hends : a.Ends id
      · exact .inr ⟨a, by simp, hends⟩
      · obtain hwaits | ⟨b, hb, hended⟩ := h.ended since id old hold
        · exact .inl ((hwaiting since id).mpr ⟨hwaits, hends⟩)
        · exact .inr ⟨b, List.mem_append_left _ hb, hended⟩

theorem Beating.beat {trace : List (Action Intent)} {v : View} {now : Nat} {frame sent : Bytes} {raw : RawPacket}
    {id : BitVec 64} (h : Beating trace v) (hwaiting : v.waiting = none) (hid : id = BitVec.ofNat 64 (v.beats + 1)) :
    Beating (trace ++ [.wrote now frame sent raw (.keepAlive id)]) (v.writing now (.keepAlive id)) := by
  refine ⟨?_, fun since id' hwaits => ?_, fun since id' after hbeat => ?_⟩
  · rw [beats_snoc, h.numbered, hid]
    show _ = (List.range (v.beats + 1)).map _
    rw [List.range_succ, List.map_append]
    rfl
  · cases hwaits
    exact ⟨[], ⟨trace, frame, sent, raw, rfl⟩, fun a ha => (by cases ha)⟩
  · obtain ⟨-, frame', sent', raw', heq⟩ | ⟨old, rfl, hold⟩ := beat_snoc hbeat
    · cases heq
      exact .inl rfl
    · obtain hwaits | ⟨b, hb, hended⟩ := h.ended since id' old hold
      · rw [hwaiting] at hwaits
        cases hwaits
      · exact .inr ⟨b, List.mem_append_left _ hb, hended⟩

theorem beating_snoc {trace : List (Action Intent)} {v : View} {a : Action Intent} (h : Beating trace v)
    (ha : Allowed host v a) : Beating (trace ++ [a]) (v.next host a) := by
  cases hbeat : a.beat with
  | none => exact h.quiet hbeat
  | some id =>
    cases a with
    | wrote now frame sent raw p =>
      cases p with
      | keepAlive id' =>
        obtain ⟨-, -, -, -, hwaiting, hid⟩ := ha
        exact h.beat hwaiting hid
      | _ => cases hbeat
    | _ => cases hbeat

theorem Keeping.beating {trace : List (Action Intent)} (h : Keeping host trace) : Beating trace (view host trace) := by
  refine along_history ?_ (fun _ _ hb ha => beating_snoc hb ha) h
  refine ⟨rfl, fun since id hwaits => (by cases hwaits), fun since id after hbeat => ?_⟩
  obtain ⟨before, frame, sent, raw, heq⟩ := hbeat
  cases before <;> cases heq

/-- The client left the keepalive it was sent last without an answer for the whole timeout. -/
def Unanswered (settings : NetworkSettings) (trace : List (Action Intent)) (now : Nat) : Prop :=
  ∃ since id after, Beat trace since id after ∧ (∀ a ∈ after, ¬a.Ends id) ∧ since + settings.keepaliveTimeout ≤ now

/-- How a trace paces its client and how it ends. -/
structure Pulse (settings : NetworkSettings) (trace : List (Action Intent)) : Prop where
  /-- The keepalives are numbered from 1 on. -/
  numbered : ∃ n, beats trace = (List.range n).map fun i => BitVec.ofNat 64 (i + 1)
  /-- A keepalive goes out when the one before is done with. -/
  one : ∀ before mid after now frame sent raw id now' frame' sent' raw' id',
    trace = before ++ .wrote now frame sent raw (.keepAlive id) :: mid ++
      .wrote now' frame' sent' raw' (.keepAlive id') :: after → ∃ a ∈ mid, a.Ends id
  late : ∀ before after now frame sent raw,
    trace = before ++ .wrote now frame sent raw (.playDisconnect TIMED_OUT) :: after → Unanswered settings before now
  silent : ∀ before after now frame sent raw p, trace = before ++ .wrote now frame sent raw p :: after → p.Last →
    ∀ a ∈ after, ∃ queued, a = .told .left queued

theorem Keeping.pulse {trace : List (Action Intent)} (h : Keeping host trace) : Pulse host.settings trace where
  numbered := ⟨_, (Keeping.beating h).numbered⟩
  one := by
    rintro before mid after now frame sent raw id now' frame' sent' raw' id' rfl
    obtain ⟨hbefore, -, -, -, -, hnone, -⟩ := along_at h
    obtain hwaits | hended := (Keeping.beating hbefore).ended now id mid ⟨before, frame, sent, raw, rfl⟩
    · unfold view at hwaits
      rw [hnone] at hwaits
      cases hwaits
    · exact hended
  late := by
    rintro before after now frame sent raw rfl
    obtain ⟨hbefore, -, -, -, -, htimed⟩ := along_at h
    obtain ⟨since, id, hwaiting, hlate⟩ := htimed rfl
    obtain ⟨mid, hbeat, hmid⟩ := (Keeping.beating hbefore).waits since id hwaiting
    exact ⟨since, id, mid, hbeat, hmid, hlate⟩
  silent := by
    rintro before after now frame sent raw p rfl hp
    exact Keeping.silent h hp

/-! ## Runs -/

/-- What the game loop should know of a connection. -/
def State.presence (c : State Intent) : Presence :=
  if c.session.joined then match c.phase with | .closed _ => .gone | _ => .present
  else .unknown

theorem Kept.presence {c : State Intent} (h : Kept host c) : (view host c.trace).presence = c.presence := by
  have hplaced := h.placed
  unfold State.presence
  cases hphase : c.phase with
  | closed outcome => rw [hphase] at hplaced; exact hplaced
  | configuration back =>
    rw [hphase] at hplaced
    exact hplaced.1.presence
  | _ => rw [hphase] at hplaced; exact hplaced.1.presence

theorem run_pulse (host : Host Intent) (inputs : List Input) :
    Pulse host.settings (run (step host) (State.start Intent) inputs).trace :=
  Keeping.pulse (run_kept host inputs).keeping

end Apoptosis.L2.Connection
