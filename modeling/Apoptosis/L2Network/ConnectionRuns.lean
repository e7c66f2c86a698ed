import Apoptosis.Core.Triples
import Apoptosis.L2Network.ConnectionProtocol
/-!
# Connections keep the protocol

Each part of a turn takes a connection from one place of the protocol to the
next, with the session as the protocol has it (`Matches`); where it breaks off,
the game loop still knows who is there (`Sound`).

* `turn_spec`: one turn.
* `Kept.step`, `run_kept`: a run.
-/
namespace Apoptosis.L2.Connection
open Apoptosis.Core Apoptosis.Core.Codec Apoptosis.L1.Login
open Apoptosis.L1 (PacketCipher)
open Apoptosis.L1.Frame (RawPacket)

variable {Intent : Type} {host : Host Intent} {now : Nat} {f : Session} {v : View}

/-- A turn at time `now`, exactly here. The cipher of `f` is not looked at: it is that of the line. -/
structure Here (host : Host Intent) (now : Nat) (f : Session) (v : View) (t : Task Intent) : Prop where
  session : t.session = { f with cipher := line host t.trace }
  now : t.now = now
  view : view host t.trace = v
  keeping : Keeping host t.trace
  lined : Lined host t.trace

/-- The game loop knows whether the client is there. -/
structure Sound (f : Session) (v : View) : Prop where
  sender : f.eventSender = f.joined
  presence : v.presence = if f.joined then .present else .unknown

/-- A turn may end here. -/
structure Stopped (host : Host Intent) (t : Task Intent) : Prop where
  keeping : Keeping host t.trace
  lined : Lined host t.trace
  sound : Sound t.session (view host t.trace)

/-- The session has it as the protocol does. -/
structure Mirrors (f : Session) (v : View) : Prop extends Sound f v where
  compression : f.compression = v.threshold
  codec : f.codecThreshold = f.compression.map (max · 0)
  beats : f.nextKeepaliveId = BitVec.ofNat 64 (v.beats + 1)

/-- Before play. -/
structure Unstarted (f : Session) (v : View) : Prop where
  joined : f.joined = false
  keepalive : f.pendingKeepalive = none
  since : f.pendingSince = none
  waiting : v.waiting = none

/-- The keepalive the session waits for. -/
def Session.waits (f : Session) : Option (Nat × BitVec 64) :=
  match f.pendingSince, f.pendingKeepalive with
  | some since, some id => some (since, id)
  | _, _ => none

/-- Where the protocol is in a phase. -/
def Placed (f : Session) (v : View) : Phase → Prop
  | .handshake => v.stage = .opening ∧ v.threshold = none ∧ Unstarted f v
  | .status => v.stage = .status
  | .hello => v.stage = .greeting ∧ v.threshold = none ∧ Unstarted f v
  | .key name token => v.stage = .challenged name token ∧ v.threshold = none ∧ Unstarted f v
  | .acknowledge => (∃ p, v.stage = .welcomed p ∧ f.profile = some p) ∧ Unstarted f v
  | .configuration none => (∃ p, v.stage = .configuring p ∧ f.profile = some p) ∧ Unstarted f v
  | .configuration (some _) => ∃ p, v.stage = .configuring p ∧ f.profile = some p
  | .play _ _ => (∃ p, v.stage = .playing p ∧ f.profile = some p) ∧
      (f.pendingSince.isSome = f.pendingKeepalive.isSome ∧ v.waiting = f.waits)
  | .closed _ => True

def Matches (phase : Phase) (f : Session) (v : View) : Prop :=
  match phase with
  | .closed _ => Sound f v
  | phase => Mirrors f v ∧ Placed f v phase

def Phase.Open : Phase → Prop
  | closed _ => False
  | _ => True

/-- Where a turn ends. -/
structure Settled (host : Host Intent) (phase : Phase) (t : Task Intent) : Prop where
  keeping : Keeping host t.trace
  lined : Lined host t.trace
  placed : Matches phase t.session (view host t.trace)
  cipher : phase.Open → t.session.cipher = line host t.trace

/-! Where a session stands does not rest on its cipher. -/

theorem Sound.under (h : Sound f v) (c : Option PacketCipher) : Sound { f with cipher := c } v :=
  ⟨h.sender, h.presence⟩

theorem Mirrors.under (h : Mirrors f v) (c : Option PacketCipher) : Mirrors { f with cipher := c } v :=
  ⟨h.toSound.under c, h.compression, h.codec, h.beats⟩

theorem Unstarted.under (h : Unstarted f v) (c : Option PacketCipher) : Unstarted { f with cipher := c } v :=
  ⟨h.joined, h.keepalive, h.since, h.waiting⟩

theorem Matches.under {phase : Phase} (h : Matches phase f v) (c : Option PacketCipher) :
    Matches phase { f with cipher := c } v := by
  cases phase with
  | closed outcome => exact Sound.under h c
  | handshake => exact ⟨h.1.under c, h.2.1, h.2.2.1, h.2.2.2.under c⟩
  | status => exact ⟨h.1.under c, h.2⟩
  | hello => exact ⟨h.1.under c, h.2.1, h.2.2.1, h.2.2.2.under c⟩
  | key name token => exact ⟨h.1.under c, h.2.1, h.2.2.1, h.2.2.2.under c⟩
  | acknowledge => exact ⟨h.1.under c, h.2.1, h.2.2.under c⟩
  | configuration back =>
    cases back with
    | none => exact ⟨h.1.under c, h.2.1, h.2.2.under c⟩
    | some _ => exact ⟨h.1.under c, h.2⟩
  | play outbound sent => exact ⟨h.1.under c, h.2⟩

/-! ## Parts of a turn -/

theorem Here.stopped {t : Task Intent} (h : Here host now f v t) (hs : Sound f v) : Stopped host t := by
  refine ⟨h.keeping, h.lined, ?_⟩
  rw [h.session, h.view]
  exact hs.under _

theorem Here.settled {phase : Phase} {t : Task Intent} (h : Here host now f v t)
    (hm : Matches phase f v) : Settled host phase t := by
  refine ⟨h.keeping, h.lined, ?_, fun _ => by rw [h.session]⟩
  rw [h.session, h.view]
  exact hm.under _

abbrev Spec {α : Type} (host : Host Intent) (now : Nat) (f : Session) (v : View) (x : Conn Intent α)
    (Q : α → Task Intent → Prop) : Prop :=
  Triple (Here host now f v) x Q fun _ => Stopped host

/-- An action that leaves the line alone. -/
theorem lined_snoc {trace : List (Action Intent)} {a : Action Intent} (h : Lined host trace)
    (ha : ∀ now frame sent raw packet, a ≠ .wrote now frame sent raw packet) : Lined host (trace ++ [a]) :=
  along_snoc.mpr ⟨h, fun now frame sent raw packet heq => absurd heq (ha now frame sent raw packet)⟩

theorem spec_did {a : Action Intent} (ha : Allowed host v a)
    (hquiet : ∀ now frame sent raw packet, a ≠ .wrote now frame sent raw packet)
    (hline : ∀ c, lineNext host c a = c) :
    Spec host now f v (did a) fun _ => Here host now f (v.next host a) := by
  rintro t ⟨hsession, rfl, rfl, hk, hl⟩
  refine ⟨fun _ t' heq => ?_, fun e t' heq => (by cases heq)⟩
  cases heq
  refine ⟨?_, rfl, view_snoc host t.trace a, hk.snoc ha, lined_snoc hl hquiet⟩
  show t.session = _
  rw [line_snoc, hline, hsession]

theorem spec_change (g : Session → Session)
    (hg : ∀ f c, g { f with cipher := c } = { g f with cipher := c } := by intros; rfl) :
    Spec host now f v (change g) fun _ => Here host now (g f) v := by
  rintro t ⟨hsession, rfl, rfl, hk, hl⟩
  refine ⟨fun _ t' heq => ?_, fun e t' heq => (by cases heq)⟩
  cases heq
  refine ⟨?_, rfl, rfl, hk, hl⟩
  show g t.session = _
  rw [hsession, hg]

theorem spec_lift {α : Type} (hs : Sound f v) (r : ServerResult α) :
    Spec host now f v (lift r) fun a t => r = .ok a ∧ Here host now f v t := by
  intro t ht
  refine ⟨fun a t' heq => ?_, fun e t' heq => ?_⟩
  · cases heq
    exact ⟨rfl, ht⟩
  · cases heq
    exact ht.stopped hs

/-- What a turn reads of its session. -/
structure Reading (t : Task Intent) (now : Nat) (f : Session) : Prop where
  now : t.now = now
  sender : t.session.eventSender = f.eventSender
  joined : t.session.joined = f.joined
  profile : t.session.profile = f.profile
  distance : t.session.clientViewDistance = f.clientViewDistance
  keepalive : t.session.pendingKeepalive = f.pendingKeepalive
  since : t.session.pendingSince = f.pendingSince
  next : t.session.nextKeepaliveId = f.nextKeepaliveId

theorem spec_get : Spec host now f v (get : Conn Intent (Task Intent)) fun t₀ t =>
    Reading t₀ now f ∧ Here host now f v t := by
  intro t ht
  refine ⟨fun a t' heq => ?_, fun e t' heq => (by cases heq)⟩
  cases heq
  refine ⟨⟨ht.now, ?_, ?_, ?_, ?_, ?_, ?_, ?_⟩, ht⟩ <;> rw [ht.session]

/-- `packet` may go out. -/
structure Sends (host : Host Intent) (now : Nat) (f : Session) (v : View) (p : Clientbound) : Prop where
  known : v.presence ≠ .gone
  compression : f.compression = v.threshold
  sendable : Sendable host v now p

theorem spec_sendRaw {packet : Clientbound} {raw : RawPacket} (hs : Sound f v) (hraw : toRaw host packet = .ok raw)
    (ha : Sends host now f v packet) :
    Spec host now f v (sendRaw host packet raw) fun _ => Here host now f (v.writing now packet) := by
  rintro t ⟨hsession, rfl, rfl, hk, hl⟩
  have hsound : Sound t.session (view host t.trace) := by
    rw [hsession]
    exact hs.under _
  have hcompression : t.session.compression = (view host t.trace).threshold := by
    rw [hsession]
    exact ha.compression
  have hcipher : t.session.cipher = line host t.trace := by rw [hsession]
  unfold outcome sendRaw
  split
  · refine ⟨fun _ t' heq => (by cases heq), fun e t' heq => ?_⟩
    cases heq
    exact ⟨hk, hl, hsound⟩
  next frame hframe =>
  dsimp only
  split
  · refine ⟨fun _ t' heq => (by cases heq), fun e t' heq => ?_⟩
    cases heq
    exact ⟨hk, hl, hsound.under _⟩
  · refine ⟨fun _ t' heq => ?_, fun e t' heq => (by cases heq)⟩
    cases heq
    rw [hcompression] at hframe
    refine ⟨?_, rfl, view_snoc host t.trace _, hk.snoc ⟨ha.known, hraw, hframe, ha.sendable⟩, ?_⟩
    · show ({ t.session with cipher := (encipher host t.session.cipher frame).2 } : Session) = _
      rw [line_snoc, hcipher, hsession]
      rfl
    · refine along_snoc.mpr ⟨hl, fun now frame sent raw packet heq => ?_⟩
      cases heq
      rw [hcipher]
      rfl

theorem spec_sendTyped {packet : Clientbound} (hs : Sound f v) (ha : Sends host now f v packet) :
    Spec host now f v (sendTyped host packet) fun _ => Here host now f (v.writing now packet) :=
  (spec_lift hs _).bind fun _ => Triple.pre fun hraw => spec_sendRaw hs hraw ha

theorem writing_presence (v : View) (now : Nat) (packet : Clientbound) :
    (v.writing now packet).presence = v.presence := by
  unfold View.writing
  cases packet <;> rfl

theorem Sound.writing (hs : Sound f v) (now : Nat) (packet : Clientbound) : Sound f (v.writing now packet) :=
  ⟨hs.sender, (writing_presence v now packet).trans hs.presence⟩

/-- What a failed or a whole write leaves. -/
theorem stopped_sendTyped {packet : Clientbound} (hs : Sound f v) (ha : Sends host now f v packet)
    {t : Task Intent} (ht : Here host now f v t) : Stopped host (outcome (sendTyped host packet) t).2 := by
  obtain ⟨hok, herror⟩ := spec_sendTyped hs ha t ht
  rcases hrun : outcome (sendTyped host packet) t with ⟨e | a, t'⟩
  · exact herror e t' hrun
  · exact (hok a t' hrun).stopped (hs.writing now packet)

theorem Stopped.refuse {t : Task Intent} (h : Stopped host t) :
    Stopped host { t with session := { t.session with refused := true } } :=
  ⟨h.keeping, h.lined, h.sound.sender, h.sound.presence⟩

theorem spec_kick_login {reason : TextComponent} (hs : Sound f v)
    (ha : Sends host now f v (.loginDisconnect reason)) :
    Spec host now f v (kick host .login reason) fun _ => Stopped host := by
  intro t ht
  refine ⟨fun _ t' heq => ?_, fun e t' heq => (by cases heq)⟩
  cases heq
  exact (stopped_sendTyped hs ha ht).refuse

theorem spec_kick_play {reason : TextComponent} (hs : Sound f v)
    (ha : Sends host now f v (.playDisconnect reason)) :
    Spec host now f v (kick host .play reason) fun _ => Stopped host := by
  intro t ht
  refine ⟨fun _ t' heq => ?_, fun e t' heq => (by cases heq)⟩
  cases heq
  exact (stopped_sendTyped hs ha ht).refuse

theorem spec_trySend {k : ClientEventKind Intent} (ha : ∀ queued, Allowed host v (.told k queued)) :
    Spec host now f v (trySend k) fun _ =>
      Here host now f { v with presence := v.presence.hearing k } := by
  rintro t ⟨hsession, rfl, rfl, hk, hl⟩
  refine ⟨fun _ t' heq => ?_, fun e t' heq => (by cases heq)⟩
  cases heq
  refine ⟨?_, rfl, view_snoc host t.trace _, hk.snoc (ha _), lined_snoc hl (by intros; simp)⟩
  rw [line_snoc]
  exact hsession

theorem Stopped.closed {t : Task Intent} (h : Stopped host t) (outcome : ServerResult Unit) :
    Settled host (.closed outcome) t := ⟨h.keeping, h.lined, h.sound, fun hopen => hopen.elim⟩

/-- Somewhere with `C`. -/
def Reaches (host : Host Intent) (now : Nat) (C : Session → View → Prop) (t : Task Intent) : Prop :=
  ∃ f v, C f v ∧ Here host now f v t

theorem spec_from {α : Type} {C : Session → View → Prop} {x : Conn Intent α} {Q : α → Task Intent → Prop}
    (h : ∀ f v, C f v → Spec host now f v x Q) : Triple (Reaches host now C) x Q fun _ => Stopped host := by
  rintro t ⟨f, v, hC, ht⟩
  exact h f v hC t ht

theorem Mirrors.sends {p : Clientbound} (hm : Mirrors f v) (h : Sendable host v now p) : Sends host now f v p := by
  refine ⟨?_, hm.compression, h⟩
  rw [hm.presence]
  split <;> decide

theorem Sound.tells {k : ClientEventKind Intent} (hs : Sound f v) (h : Tellable host v k) (queued : Bool) :
    Allowed host v (.told k queued) := by
  refine ⟨?_, h⟩
  rw [hs.presence]
  split <;> decide

theorem spec_send {p : Clientbound} (hm : Mirrors f v) (h : Sendable host v now p) :
    Spec host now f v (sendTyped host p) fun _ => Here host now f (v.writing now p) :=
  spec_sendTyped hm.toSound (hm.sends h)

/-- The view keeps nothing of the packet but where the connection is. -/
def Clientbound.Plain : Clientbound → Prop
  | .setCompression _ | .keepAlive _ | .joinGame _ => False
  | _ => True

/-- A packet that leaves the protocol where it is. -/
theorem writing_same {p : Clientbound} (h : v.stage.writing p = v.stage) (hp : p.Plain) :
    v.writing now p = v := by
  unfold View.writing
  rw [h]
  cases p with
  | setCompression _ | keepAlive _ | joinGame _ => exact hp.elim
  | _ => rfl

theorem bare_ok {what : String} {payload : Bytes} (h : bare what payload = .ok ()) : payload.isEmpty = true := by
  unfold bare at h
  split at h
  · assumption
  · cases h

/-! ## Login -/

theorem spec_closed {Q : Phase → Task Intent → Prop} (outcome : ServerResult Unit)
    (hQ : ∀ t, Stopped host t → Q (.closed outcome) t) :
    Triple (Stopped host) (pure (.closed outcome) : Conn Intent Phase) Q fun _ => Stopped host :=
  Triple.pure _ hQ

/-- A refusal before the login is through. -/
theorem spec_refused {reason : TextComponent} (hs : Sound f v) (outcome : ServerResult Unit)
    (ha : Sends host now f v (.loginDisconnect reason)) :
    Spec host now f v (do
      kick host .login reason
      return .closed outcome) (Settled host) :=
  (spec_kick_login hs ha).bind fun _ => spec_closed outcome fun _ h => h.closed outcome

/-- Where a login stands before the client has a profile. -/
structure Early (f : Session) (v : View) : Prop extends Mirrors f v, Unstarted f v where
  threshold : v.threshold = none

theorem spec_handshakeRead {packet : RawPacket} (h : Early f v)
    (hstage : v.stage = afterHandshake host packet) :
    Spec host now f v (handshakeRead host packet) (Settled host) := by
  unfold handshakeRead
  refine Triple.ite (fun _ => Triple.throw _ fun _ ht => ht.stopped h.toSound) fun hid => ?_
  refine (spec_lift h.toSound _).bind fun handshake => Triple.pre fun hdecode => ?_
  rw [afterHandshake, hdecode] at hstage
  dsimp only at hstage
  rw [if_neg hid] at hstage
  refine Triple.ite (fun hstatus => Triple.pure _ fun _ ht => ?_) fun hlogin => Triple.ite (fun hversion => ?_)
    fun hversion => Triple.pure _ fun _ ht => ?_
  · rw [if_pos hstatus] at hstage
    exact ht.settled ⟨h.toMirrors, hstage⟩
  · rw [if_neg hlogin, if_pos hversion] at hstage
    exact spec_refused h.toSound _ (h.toMirrors.sends (.inl hstage))
  · rw [if_neg hlogin, if_neg hversion] at hstage
    exact ht.settled ⟨h.toMirrors, hstage, h.threshold, h.toUnstarted⟩

theorem spec_statusRead {packet : RawPacket} (hm : Mirrors f v) (hstage : v.stage = .status) :
    Spec host now f v (statusRead host packet) (Settled host) := by
  unfold statusRead
  refine Triple.ite (fun _ => ?_) fun _ => Triple.ite (fun _ => ?_) fun _ => Triple.pure _ fun _ ht => ?_
  · refine (spec_lift hm.toSound _).bind fun _ => Triple.pre fun _ => ?_
    refine (spec_send (p := .statusResponse _) hm hstage).bind fun _ => Triple.pure _ fun _ ht => ?_
    rw [writing_same (p := .statusResponse _) rfl trivial] at ht
    exact ht.settled ⟨hm, hstage⟩
  · refine (spec_lift hm.toSound _).bind fun _ => Triple.pre fun _ => ?_
    refine (spec_send (p := .statusPong _) hm hstage).bind fun _ => Triple.pure _ fun _ ht => ?_
    exact ht.settled (show Matches (.closed _) _ _ from hm.toSound.writing _ _)
  · exact ht.settled ⟨hm, hstage⟩

/-- The profile is known and the compression announced. -/
structure Announced (host : Host Intent) (profile : GameProfile) (f : Session) (v : View) : Prop
    extends Mirrors f v, Unstarted f v where
  threshold : v.threshold = host.settings.announces.map BitVec.toInt
  stage : v.stage = .granted profile

theorem spec_announceCompression {profile : GameProfile} (h : Early f v) (hstage : v.stage = .granted profile) :
    Spec host now f v (announceCompression host) fun _ => Reaches host now (Announced host profile) := by
  unfold announceCompression
  refine Triple.ite (fun hon => ?_) fun hoff => Triple.pure _ fun t ht => ?_
  · have hannounces : host.settings.announces = some host.settings.compressionThreshold := if_pos hon
    refine (spec_send (p := .setCompression _) h.toMirrors ⟨h.threshold, hannounces, profile, hstage⟩).bind
      fun _ => ?_
    refine (spec_change _).conseq (fun _ ht => ht) (fun _ t ht => ⟨_, _, ?_, ht⟩) fun _ _ ht => ht
    exact {
      sender := h.sender
      presence := h.presence
      compression := rfl
      codec := rfl
      beats := h.beats
      joined := h.joined
      keepalive := h.keepalive
      since := h.since
      waiting := h.waiting
      threshold := by rw [hannounces]; rfl
      stage := hstage }
  · have hannounces : host.settings.announces = none := if_neg hoff
    exact ⟨f, v, { h.toMirrors, h.toUnstarted with
      threshold := by rw [hannounces]; exact h.threshold
      stage := hstage }, ht⟩

theorem spec_welcome {profile : GameProfile} (h : Early f v) (hstage : v.stage = .granted profile) :
    Spec host now f v (welcome host profile) (Settled host) := by
  unfold welcome
  refine (spec_announceCompression h hstage).bind fun _ => spec_from fun f v ha => ?_
  refine (spec_send (p := .loginSuccess _ _ _) ha.toMirrors ⟨ha.threshold, ha.stage⟩).bind fun _ => ?_
  refine (spec_change _).bind fun _ => Triple.pure _ fun _ ht => ht.settled ?_
  have hwelcomed : v.stage.writing (.loginSuccess profile.id profile.name profile.properties) =
      .welcomed profile := by
    rw [ha.stage]
    rfl
  exact ⟨⟨⟨ha.sender, ha.presence⟩, ha.compression, ha.codec, ha.beats⟩,
    ⟨profile, hwelcomed, rfl⟩, ⟨ha.joined, ha.keepalive, ha.since, ha.waiting⟩⟩

theorem spec_helloRead {token : Bytes} {packet : RawPacket} (h : Early f v)
    (hstage : v.stage = afterHello host packet) :
    Spec host now f v (helloRead host token packet) (Settled host) := by
  unfold helloRead
  refine Triple.ite (fun _ => Triple.throw _ fun _ ht => ht.stopped h.toSound) fun hid => ?_
  refine (spec_lift h.toSound _).bind fun loginStart => Triple.pre fun hdecode => ?_
  rw [afterHello, hdecode] at hstage
  dsimp only at hstage
  cases hvalid : validateUsername host.debug loginStart.name with
  | error invalid =>
    rw [hvalid, if_pos (.inr (by simp))] at hstage
    exact spec_refused h.toSound _ (h.toMirrors.sends (.inl hstage))
  | ok _ =>
    rw [hvalid, if_neg (by simp [not_not.mp hid])] at hstage
    refine Triple.ite (fun honline => ?_) fun hoffline => ?_
    · rw [if_pos honline] at hstage
      unfold requestEncryption
      cases hidentity : host.settings.onlineIdentity with
      | none => exact spec_refused h.toSound _ (h.toMirrors.sends (.inr (.inl ⟨_, hstage⟩)))
      | some publicDer =>
        refine (spec_send (p := .encryptionRequest _ _ _ _) h.toMirrors ⟨rfl, hidentity, rfl, _, hstage⟩).bind fun _ =>
          Triple.pure _ fun _ ht => ht.settled ?_
        have hchallenged : v.stage.writing (.encryptionRequest "" publicDer token true) =
            .challenged loginStart.name token := by
          rw [hstage]
          rfl
        exact ⟨⟨⟨h.sender, h.presence⟩, h.compression, h.codec, h.beats⟩, hchallenged,
          h.threshold, ⟨h.joined, h.keepalive, h.since, h.waiting⟩⟩
    · rw [if_neg hoffline] at hstage
      exact spec_welcome h hstage

/-- The session server refuses, or cannot be asked. -/
theorem spec_failed {reason : TextComponent} (hs : Sound f v) (e : ServerError)
    (ha : Sends host now f v (.loginDisconnect reason)) :
    Spec host now f v (do
      kick host .login reason
      throw e : Conn Intent Phase) (Settled host) :=
  (spec_kick_login hs ha).bind fun _ => Triple.throw _ fun _ ht => ht

theorem foldl_xor_or (ps : List (UInt8 × UInt8)) (diff : UInt8) :
    ps.foldl (fun diff xy => diff ||| (xy.1 ^^^ xy.2)) diff = 0 ↔ diff = 0 ∧ ∀ xy ∈ ps, xy.1 = xy.2 := by
  induction ps generalizing diff with
  | nil => simp
  | cons xy ps ih =>
    rw [List.foldl_cons, ih, UInt8.or_eq_zero_iff, UInt8.xor_eq_zero_iff, and_assoc, List.forall_mem_cons]

theorem fixedTimeEq_iff {a b : Bytes} : fixedTimeEq a b = true ↔ a = b := by
  unfold fixedTimeEq
  split
  · next hlen => exact ⟨fun h => (by cases h), fun h => absurd (congrArg List.length h) hlen⟩
  · next hlen =>
    rw [beq_iff_eq, foldl_xor_or]
    refine ⟨fun h => ?_, fun h => ⟨rfl, fun xy hxy => ?_⟩⟩
    · refine List.ext_getElem (not_not.mp hlen) fun i ha hb => ?_
      exact h.2 (a[i], b[i]) (List.mem_iff_getElem.mpr ⟨i, by simp [ha, hb], List.getElem_zip⟩)
    · subst h
      obtain ⟨i, hi, rfl⟩ := List.mem_iff_getElem.mp hxy
      rw [List.getElem_zip]

/-- The session server says yes, and the stream is ciphered from here on. -/
theorem spec_accepted {α : Type} {name hash : String} {secret : Bytes} {profile : GameProfile} {k : Conn Intent α}
    {Q : α → Task Intent → Prop} (ha : Allowed host v (.asked name hash secret (.ok profile)))
    (hk : Spec host now f (v.asking (.ok profile)) k Q) :
    Spec host now f v (do
      did (.asked name hash secret (.ok profile))
      change fun s => { s with cipher := some (.new (secretArray secret)) }
      k) Q := by
  rintro t ⟨hsession, hnow, hview, hkeeping, hlined⟩
  refine hk ⟨{ t.session with cipher := some (.new (secretArray secret)) }, t.now, t.room, t.queue,
    t.trace ++ [.asked name hash secret (.ok profile)]⟩ ⟨?_, hnow, ?_, hkeeping.snoc ?_, lined_snoc hlined (by simp)⟩
  · show ({ t.session with cipher := some (.new (secretArray secret)) } : Session) = _
    rw [line_snoc, hsession]
    rfl
  · rw [view_snoc, hview]
    rfl
  · rwa [hview]

theorem spec_keyRead {authenticate : String → String → String → ServerResult GameProfile} {name : String}
    {token : Bytes} {packet : RawPacket} (h : Early f v)
    (hstage : v.stage = if packet.id = serverbound.login.KEY then .keyed name token packet else .turnedAway) :
    Spec host now f v (keyRead host authenticate name token packet) (Settled host) := by
  unfold keyRead
  refine Triple.ite (fun _ => Triple.throw _ fun _ ht => ht.stopped h.toSound) fun hid => ?_
  rw [if_pos (not_not.mp hid)] at hstage
  refine (spec_lift h.toSound _).bind fun response => Triple.pre fun hresponse => ?_
  refine (spec_lift h.toSound _).bind fun secret => Triple.pre fun hsecret => ?_
  refine Triple.ite (fun _ => Triple.throw _ fun _ ht => ht.stopped h.toSound) fun hlen => ?_
  refine (spec_lift h.toSound _).bind fun echoed => Triple.pre fun hechoed => ?_
  refine Triple.ite (fun htoken => ?_) fun _ => ?_
  swap
  · exact spec_refused h.toSound _ (h.toMirrors.sends (.inr (.inr ⟨_, _, _, hstage⟩)))
  rw [fixedTimeEq_iff.mp htoken] at hechoed
  have hknown : v.presence ≠ .gone := by
    rw [h.presence]
    split <;> decide
  have hasked (answer : ServerResult GameProfile) : Allowed host v
      (.asked name (host.serverIdHash "" secret (host.settings.onlineIdentity.getD [])) secret answer) :=
    ⟨hknown, rfl, token, packet, hstage, response, hresponse, hsecret, not_not.mp hlen, hechoed⟩
  dsimp only
  cases authenticate name (host.serverIdHash "" secret (host.settings.onlineIdentity.getD [])) host.peerIp with
  | ok profile =>
    refine spec_accepted (hasked _) (spec_welcome ?_ rfl)
    exact ⟨⟨⟨h.sender, h.presence⟩, h.compression, h.codec, h.beats⟩,
      ⟨h.joined, h.keepalive, h.since, h.waiting⟩, h.threshold⟩
  | error e =>
    refine (spec_did (hasked _) (by simp) fun _ => rfl).bind fun _ => ?_
    have hm : Mirrors f (v.asking (.error e)) :=
      ⟨⟨h.sender, h.presence⟩, h.compression, h.codec, h.beats⟩
    have hsends (reason : TextComponent) : Sends host now f (v.asking (.error e)) (.loginDisconnect reason) :=
      hm.sends (.inl rfl)
    cases e with
    | invalidAction _ => exact spec_refused hm.toSound _ (hsends _)
    | _ => exact spec_failed hm.toSound _ (hsends _)

/-! ## Configuration -/

theorem spec_sendAll {profile : GameProfile} (hm : Mirrors f v) (hstage : v.stage = .configuring profile)
    (packets : List RawPacket) :
    Spec host now f v (sendAll host packets) fun _ => Here host now f v := by
  have hsame (raw : RawPacket) : v.writing now (.configuration raw) = v :=
    writing_same rfl trivial
  induction packets with
  | nil => exact Triple.pure _ fun _ ht => ht
  | cons packet packets ih =>
    have hraw : toRaw host (.configuration packet) = .ok packet := rfl
    refine (spec_sendRaw hm.toSound hraw (hm.sends ⟨profile, hstage⟩)).bind fun _ => ?_
    rw [hsame]
    exact ih

theorem spec_sendConfiguration {profile : GameProfile} (hm : Mirrors f v)
    (hstage : v.stage = .configuring profile) :
    Spec host now f v (sendConfiguration host) fun _ => Here host now f v :=
  (spec_lift hm.toSound _).bind fun packets => Triple.pre fun _ => spec_sendAll hm hstage packets

theorem spec_acknowledgeRead {profile : GameProfile} {packet : RawPacket} (hm : Mirrors f v)
    (hu : Unstarted f v) (hprofile : f.profile = some profile)
    (hstage : v.stage = if packet.id = serverbound.login.LOGIN_ACKNOWLEDGED ∧ packet.payload.isEmpty then
      .configuring profile else .welcomed profile) :
    Spec host now f v (acknowledgeRead host packet) (Settled host) := by
  unfold acknowledgeRead
  refine Triple.ite (fun hid => ?_) fun hid => Triple.pure _ fun _ ht => ?_
  · refine (spec_lift hm.toSound _).bind fun _ => Triple.pre fun hempty => ?_
    rw [if_pos ⟨hid, bare_ok hempty⟩] at hstage
    refine (spec_sendConfiguration hm hstage).bind fun _ => Triple.pure _ fun _ ht => ?_
    exact ht.settled ⟨hm, ⟨profile, hstage, hprofile⟩, hu⟩
  · rw [if_neg fun h => hid h.1] at hstage
    exact ht.settled ⟨hm, ⟨profile, hstage, hprofile⟩, hu⟩

/-- What a configuration packet leaves: settings of the client. -/
def Settings (f f' : Session) : Prop :=
  ∃ locale distance, f' = { f with clientLocale := locale, clientViewDistance := distance }

theorem spec_configurationPacket {packet : RawPacket} (hs : Sound f v) :
    Spec host now f v (configurationPacket packet) fun finished => Reaches host now fun f' v' =>
      Settings f f' ∧ v' = v ∧ (finished = true ↔
        packet.id = serverbound.config.FINISH_CONFIGURATION ∧ packet.payload.isEmpty = true) := by
  have hsame : Settings f f := ⟨_, _, rfl⟩
  unfold configurationPacket
  refine Triple.ite (fun hid => ?_) fun _ => Triple.ite (fun hid => ?_) fun _ => Triple.ite (fun hid => ?_)
    fun hfinish => Triple.ite (fun _ => ?_) fun _ => Triple.ite (fun _ => ?_) fun _ => ?_
  · refine (spec_lift hs _).bind fun _ => Triple.pre fun _ => Triple.pure _ fun _ ht => ⟨f, v, ⟨hsame, rfl, ?_⟩, ht⟩
    rw [hid]
    exact ⟨fun h => (by cases h), fun h => absurd h.1 (by decide)⟩
  · refine (spec_lift hs _).bind fun _ => Triple.pre fun _ => (spec_change _).bind fun _ =>
      Triple.pure _ fun _ ht => ⟨_, v, ⟨⟨_, _, rfl⟩, rfl, ?_⟩, ht⟩
    rw [hid]
    exact ⟨fun h => (by cases h), fun h => absurd h.1 (by decide)⟩
  · refine (spec_lift hs _).bind fun _ => Triple.pre fun hempty => Triple.pure _ fun _ ht => ⟨f, v, ⟨hsame, rfl, ?_⟩, ht⟩
    exact ⟨fun _ => ⟨hid, bare_ok hempty⟩, fun _ => rfl⟩
  · refine (spec_lift hs _).bind fun _ => Triple.pre fun _ => Triple.pure _ fun _ ht => ⟨f, v, ⟨hsame, rfl, ?_⟩, ht⟩
    exact ⟨fun h => (by cases h), fun h => absurd h.1 hfinish⟩
  · refine (spec_lift hs _).bind fun _ => Triple.pre fun _ => Triple.pure _ fun _ ht => ⟨f, v, ⟨hsame, rfl, ?_⟩, ht⟩
    exact ⟨fun h => (by cases h), fun h => absurd h.1 hfinish⟩
  · refine Triple.pure _ fun _ ht => ⟨f, v, ⟨hsame, rfl, ?_⟩, ht⟩
    exact ⟨fun h => (by cases h), fun h => absurd h.1 hfinish⟩

/-! ## Into play -/

/-- In play, with no keepalive out. -/
structure Ready (profile : GameProfile) (f : Session) (v : View) : Prop extends Mirrors f v where
  stage : v.stage = .playing profile
  profile : f.profile = some profile
  keepalive : f.pendingKeepalive = none
  since : f.pendingSince = none
  waiting : v.waiting = none

theorem Ready.placed {profile : GameProfile} (h : Ready profile f v) (outbound : Bool) (sent : Nat) :
    Matches (.play outbound sent) f v := by
  refine ⟨h.toMirrors, ⟨profile, h.stage, h.profile⟩, ?_, ?_⟩
  · rw [h.since, h.keepalive]
    rfl
  · rw [h.waiting, Session.waits, h.since]

/-- A report that says nothing of presence. -/
theorem spec_report {k : ClientEventKind Intent} (hsame : ∀ presence, Presence.hearing k presence = presence)
    (htell : f.eventSender = true → ∀ queued, Allowed host v (.told k queued)) :
    Spec host now f v (report k) fun _ => Here host now f v := by
  unfold report
  refine spec_get.bind fun t => Triple.pre fun hget => Triple.ite (fun hsender => ?_) fun _ =>
    Triple.pure _ fun _ ht => ht
  rw [hget.sender] at hsender
  refine (spec_trySend (htell hsender)).conseq (fun _ ht => ht) (fun _ _ ht => ?_) fun _ _ ht => ht
  rwa [hsame] at ht

theorem spec_publishJoin {profile : GameProfile} (h : Ready profile f v) (hu : f.joined = false) :
    Spec host now f v (publishJoin host) fun _ => Reaches host now (Ready profile) := by
  have hsender : f.eventSender = false := h.sender.trans hu
  have hunknown : v.presence = .unknown := by rw [h.presence, hu]; rfl
  unfold publishJoin
  refine Triple.ite (fun _ => ?_) fun _ => Triple.pure _ fun _ ht => ⟨f, v, h, ht⟩
  refine spec_get.bind fun t => Triple.pre fun hget => ?_
  rw [hget.profile, h.profile]
  have haddress (queued : Bool) : Allowed host v (.told (.peerAddress host.peerIp) queued) :=
    h.toSound.tells (k := .peerAddress _) ⟨hunknown, rfl, profile, h.stage⟩ queued
  refine (spec_trySend haddress).bind fun _ => ?_
  refine (spec_trySend (k := .joined profile) (v := { v with presence := .addressed })
    fun _ => ⟨fun h => (by cases h), rfl, h.stage⟩).bind fun _ => ?_
  refine (spec_change _).bind fun _ => ?_
  have hforward : Spec host now { f with eventSender := true } { v with presence := .present }
      forwardDistance fun _ => Here host now { f with eventSender := true } { v with presence := .present } := by
    unfold forwardDistance
    refine spec_get.bind fun t => Triple.pre fun hget => ?_
    rw [hget.distance]
    split
    · exact spec_report (k := .viewDistance _) (fun _ => rfl) fun _ _ =>
        ⟨fun h => (by cases h), rfl, profile, h.stage⟩
    · exact Triple.pure _ fun _ ht => ht
  refine hforward.bind fun _ => (spec_change _).bind fun _ => Triple.pure _ fun _ ht => ⟨_, _, ?_, ht⟩
  exact {
    sender := rfl
    presence := rfl
    compression := h.compression
    codec := h.codec
    beats := h.beats
    stage := h.stage
    profile := h.profile
    keepalive := h.keepalive
    since := h.since
    waiting := h.waiting }

theorem spec_enterPlay {profile : GameProfile} (hm : Mirrors f v) (hstage : v.stage = .playing profile) :
    Spec host now f v (enterPlay host) fun _ => Here host now f { v with waiting := none } := by
  have hplaying : ∃ profile, v.stage = .playing profile := ⟨profile, hstage⟩
  have hjoin (join : JoinGame) : v.writing now (.joinGame join) = { v with waiting := none } := rfl
  have hm' : Mirrors f { v with waiting := none } := ⟨⟨hm.sender, hm.presence⟩, hm.compression, hm.codec, hm.beats⟩
  unfold enterPlay
  refine spec_get.bind fun t => Triple.pre fun hget => ?_
  split
  · exact Triple.throw _ fun _ ht => ht.stopped hm.toSound
  · refine (spec_send (p := .joinGame _) hm hplaying).bind fun _ => ?_
    rw [hjoin]
    refine (spec_send (p := .setChunkCacheCenter 0 0) hm' hplaying).bind fun _ => ?_
    rw [writing_same (p := .setChunkCacheCenter 0 0) rfl trivial]
    refine (spec_send (p := .setChunkCacheRadius _) hm' hplaying).conseq (fun _ ht => ht) (fun _ _ ht => ?_)
      fun _ _ ht => ht
    rwa [writing_same (p := .setChunkCacheRadius _) rfl trivial] at ht

theorem spec_beginPlay {profile : GameProfile} (h : Ready profile f v) (hu : f.joined = false) :
    Spec host now f v (beginPlay host) fun _ => Reaches host now (Ready profile) := by
  unfold beginPlay
  refine (spec_publishJoin h hu).bind fun outbound => spec_from fun f v h => Triple.ite (fun _ =>
    Triple.pure _ fun _ ht => ⟨f, v, h, ht⟩) fun _ => ?_
  refine (spec_enterPlay h.toMirrors h.stage).bind fun _ => Triple.pure _ fun _ ht => ⟨_, _, ?_, ht⟩
  exact ⟨⟨⟨h.sender, h.presence⟩, h.compression, h.codec, h.beats⟩, h.stage, h.profile, h.keepalive,
    h.since, rfl⟩

theorem Settings.mirrors {f' : Session} (h : Settings f f') (hm : Mirrors f v) : Mirrors f' v := by
  obtain ⟨locale, distance, rfl⟩ := h
  exact ⟨⟨hm.sender, hm.presence⟩, hm.compression, hm.codec, hm.beats⟩

/-- A connection that waits for the end of a configuration. -/
theorem spec_configurationRead {profile : GameProfile} {packet : RawPacket} {back : Option Bool}
    (hm : Mirrors f v) (hprofile : f.profile = some profile) (hu : back = none → Unstarted f v)
    (hstage : v.stage = if packet.id = serverbound.config.FINISH_CONFIGURATION ∧ packet.payload.isEmpty then
      .playing profile else .configuring profile) :
    Spec host now f v (configurationRead host back packet) (Settled host) := by
  unfold configurationRead
  refine (spec_configurationPacket hm.toSound).bind fun finished => spec_from fun f' v' ⟨hsettings, hv, hfinish⟩ => ?_
  subst hv
  have hm' := hsettings.mirrors hm
  obtain ⟨locale, distance, rfl⟩ := hsettings
  refine Triple.ite (fun hdone => ?_) fun hmore => Triple.pure _ fun _ ht => ?_
  · rw [if_pos (hfinish.mp hdone)] at hstage
    cases back with
    | none =>
      obtain ⟨hjoined, hkeepalive, hsince, hwaiting⟩ := hu rfl
      have hready : Ready profile { f with clientLocale := locale, clientViewDistance := distance } v' :=
        ⟨hm', hstage, hprofile, hkeepalive, hsince, hwaiting⟩
      refine (spec_beginPlay hready hjoined).bind fun outbound => spec_from fun f v h => ?_
      exact spec_get.bind fun t => Triple.pre fun _ => Triple.pure _ fun _ ht => ht.settled (h.placed _ _)
    | some outbound =>
      refine (spec_enterPlay hm' hstage).bind fun _ => (spec_change _).bind fun _ => spec_get.bind fun t =>
        Triple.pre fun _ => Triple.pure _ fun _ ht => ht.settled ?_
      exact ⟨⟨⟨hm.sender, hm.presence⟩, hm.compression, hm.codec, hm.beats⟩,
        ⟨profile, hstage, hprofile⟩, rfl, rfl⟩
  · rw [if_neg fun h => hmore (hfinish.mpr h)] at hstage
    cases back with
    | none =>
      obtain ⟨hjoined, hkeepalive, hsince, hwaiting⟩ := hu rfl
      exact ht.settled ⟨hm', ⟨profile, hstage, hprofile⟩, hjoined, hkeepalive, hsince, hwaiting⟩
    | some outbound => exact ht.settled ⟨hm', profile, hstage, hprofile⟩

/-! ## Play -/

/-- In play, waiting for the keepalive the protocol has. -/
structure InPlay (profile : GameProfile) (f : Session) (v : View) : Prop extends Mirrors f v where
  stage : v.stage = .playing profile
  profile : f.profile = some profile
  paired : f.pendingSince.isSome = f.pendingKeepalive.isSome
  waiting : v.waiting = f.waits

theorem InPlay.placed {profile : GameProfile} (h : InPlay profile f v) (outbound : Bool) (sent : Nat) :
    Matches (.play outbound sent) f v :=
  ⟨h.toMirrors, ⟨profile, h.stage, h.profile⟩, h.paired, h.waiting⟩

theorem spec_reportJoined {profile : GameProfile} {k : ClientEventKind Intent} (hm : Mirrors f v)
    (hstage : v.stage = .playing profile) (hk : (∃ i, k = .intent i) ∨ ∃ id, k = .unmodelled id) :
    Spec host now f v (reportJoined k) fun _ => Here host now f v := by
  have hsame (presence : Presence) : Presence.hearing k presence = presence := by
    obtain ⟨_, rfl⟩ | ⟨_, rfl⟩ := hk <;> rfl
  unfold reportJoined
  refine spec_get.bind fun t => Triple.pre fun hget => Triple.ite (fun hjoined => ?_) fun _ =>
    Triple.pure _ fun _ ht => ht
  rw [hget.joined] at hjoined
  have hpresent : v.presence = .present := by rw [hm.presence, hjoined]; rfl
  refine spec_report hsame fun _ queued => ?_
  obtain ⟨i, rfl⟩ | ⟨id, rfl⟩ := hk
  · exact hm.toSound.tells (k := .intent i) ⟨hpresent, profile, hstage⟩ queued
  · exact hm.toSound.tells (k := .unmodelled id) ⟨hpresent, profile, hstage⟩ queued

theorem spec_handleIntent {profile : GameProfile} {packet : RawPacket} (hm : Mirrors f v)
    (hstage : v.stage = .playing profile) :
    Spec host now f v (handleIntent host packet) fun _ => Here host now f v := by
  unfold handleIntent
  refine (spec_lift hm.toSound _).bind fun intent => Triple.pre fun _ => ?_
  cases intent with
  | some intent => exact spec_reportJoined hm hstage (.inl ⟨_, rfl⟩)
  | none => exact spec_reportJoined hm hstage (.inr ⟨_, rfl⟩)

/-- An answer ends the wait in the session as in the protocol. -/
theorem waits_answered (f : Session) (id : BitVec 64) (hpaired : f.pendingSince.isSome = f.pendingKeepalive.isSome) :
    (if f.pendingKeepalive = some id then { f with pendingKeepalive := none, pendingSince := none } else f).waits =
      f.waits.filter fun beat => some id ≠ some beat.2 := by
  by_cases hkeepalive : f.pendingKeepalive = some id
  · obtain ⟨since, hsince⟩ := Option.isSome_iff_exists.mp (hpaired.trans (by rw [hkeepalive]; rfl))
    rw [if_pos hkeepalive, Session.waits, Session.waits, hsince, hkeepalive]
    simp [Option.filter]
  · rw [if_neg hkeepalive, Session.waits]
    cases hsince : f.pendingSince with
    | none => rfl
    | some since =>
      cases hpending : f.pendingKeepalive with
      | none => rfl
      | some pending =>
        rw [hpending] at hkeepalive
        simp [Option.filter, Ne.symm (fun h => hkeepalive (congrArg some h))]

theorem answered_other {packet : RawPacket} (h : packet.id ≠ serverbound.play.KEEP_ALIVE)
    (waiting : Option (Nat × BitVec 64)) : waiting.filter (fun beat => answered packet ≠ some beat.2) = waiting := by
  rw [answered, if_neg h]
  cases waiting <;> simp [Option.filter]

theorem spec_playRead {profile : GameProfile} {packet : RawPacket} {outbound : Bool} {sent : Nat}
    (hm : Mirrors f v) (hstage : v.stage = .playing profile) (hprofile : f.profile = some profile)
    (hpaired : f.pendingSince.isSome = f.pendingKeepalive.isSome)
    (hwaiting : v.waiting = f.waits.filter fun beat => answered packet ≠ some beat.2) :
    Spec host now f v (playRead host outbound sent packet) (Settled host) := by
  unfold playRead
  refine Triple.ite (fun hid => ?_) fun hother => ?_
  · refine (spec_lift hm.toSound _).bind fun id => Triple.pre fun hdecode => (spec_change _
      (by intros; dsimp only; split <;> rfl)).bind fun _ => Triple.pure _ fun _ ht => ht.settled (InPlay.placed (show InPlay profile _ _ from ?_) _ _)
    have hanswered : answered packet = some id := by
      rw [answered, if_pos hid, hdecode]
      rfl
    rw [hanswered, ← waits_answered f id hpaired] at hwaiting
    by_cases hpending : f.pendingKeepalive = some id
    · rw [if_pos hpending] at hwaiting ⊢
      exact ⟨⟨⟨hm.sender, hm.presence⟩, hm.compression, hm.codec, hm.beats⟩, hstage, hprofile, rfl, hwaiting⟩
    · rw [if_neg hpending] at hwaiting ⊢
      exact ⟨hm, hstage, hprofile, hpaired, hwaiting⟩
  rw [answered_other hother] at hwaiting
  have hplay : InPlay profile f v := ⟨hm, hstage, hprofile, hpaired, hwaiting⟩
  refine Triple.ite (fun _ => ?_) fun _ => Triple.ite (fun _ => ?_) fun _ => Triple.ite (fun _ => ?_) fun _ => ?_
  · refine (spec_lift hm.toSound _).bind fun id => Triple.pre fun _ => ?_
    refine (spec_send (p := .playPong id) hm ⟨profile, hstage⟩).bind fun _ => Triple.pure _ fun _ ht => ?_
    rw [writing_same (p := .playPong id) rfl trivial] at ht
    exact ht.settled (hplay.placed _ _)
  · refine (spec_lift hm.toSound _).bind fun info => Triple.pre fun _ => (spec_change _).bind fun _ => ?_
    refine (spec_report (fun _ => rfl) fun hsender queued => ?_).bind fun _ => Triple.pure _ fun _ ht => ht.settled ?_
    · have hjoined : f.joined = true := hm.sender.symm.trans hsender
      have hpresent : v.presence = .present := by rw [hm.presence, hjoined]; rfl
      exact ⟨by rw [hpresent]; decide, hpresent, profile, hstage⟩
    · exact ⟨⟨⟨hm.sender, hm.presence⟩, hm.compression, hm.codec, hm.beats⟩, ⟨profile, hstage, hprofile⟩,
        hpaired, hwaiting⟩
  · refine (spec_lift hm.toSound _).bind fun _ => Triple.pre fun _ => ?_
    refine (spec_send (p := .startConfiguration) hm ⟨profile, hstage⟩).bind fun _ => ?_
    have hconfiguring : (v.writing now .startConfiguration).stage = .configuring profile := by
      show v.stage.writing .startConfiguration = _
      rw [hstage]
      rfl
    have hm' : Mirrors f (v.writing now .startConfiguration) :=
      ⟨⟨hm.sender, hm.presence⟩, hm.compression, hm.codec, hm.beats⟩
    refine (spec_sendConfiguration hm' hconfiguring).bind fun _ => Triple.pure _ fun _ ht => ht.settled ?_
    exact ⟨hm', profile, hconfiguring, hprofile⟩
  · refine (spec_handleIntent hm hstage).bind fun _ => Triple.pure _ fun _ ht => ht.settled (hplay.placed _ _)

theorem ofNat_beats (n : Nat) : BitVec.ofNat 64 (n + 1) + 1 = BitVec.ofNat 64 (n + 1 + 1) := by
  rw [show (1 : BitVec 64) = BitVec.ofNat 64 1 from rfl, ← BitVec.ofNat_add]

theorem spec_keepAlive {profile : GameProfile} {outbound : Bool} (h : InPlay profile f v) (hwaiting : v.waiting = none) :
    Spec host now
      { f with
        nextKeepaliveId := f.nextKeepaliveId + 1, pendingKeepalive := some f.nextKeepaliveId
        pendingSince := some now } v (do
      sendTyped host (.keepAlive f.nextKeepaliveId)
      return .play outbound now) (Settled host) := by
  have hsends : Sendable host v now (.keepAlive f.nextKeepaliveId) := ⟨⟨profile, h.stage⟩, hwaiting, h.beats⟩
  have hplaying : v.stage.writing (.keepAlive f.nextKeepaliveId) = .playing profile := by
    rw [h.stage]
    rfl
  have hknown := (h.toMirrors.sends hsends).known
  refine Triple.bind (spec_sendTyped ⟨h.sender, h.presence⟩ ⟨hknown, h.compression, hsends⟩) fun _ =>
    Triple.pure _ fun _ ht => ht.settled (InPlay.placed (show InPlay profile _ _ from ?_) _ _)
  refine ⟨⟨⟨h.sender, h.presence⟩, h.compression, h.codec, ?_⟩, hplaying, h.profile, rfl, rfl⟩
  show f.nextKeepaliveId + 1 = _
  rw [h.beats]
  exact ofNat_beats v.beats

theorem spec_timerFired {profile : GameProfile} {outbound : Bool} {sent : Nat} (h : InPlay profile f v)
    (hfired : nextEvent host.settings sent f.pendingSince ≤ now) :
    Spec host now f v (timerFired host outbound) (Settled host) := by
  have hpaired := h.paired
  unfold timerFired
  refine spec_get.bind fun t => Triple.pre fun hget => ?_
  rw [hget.keepalive, hget.next, hget.now]
  refine Triple.ite (fun hpending => ?_) fun hidle => ?_
  · obtain ⟨id, hid⟩ := Option.isSome_iff_exists.mp hpending
    obtain ⟨since, hsince⟩ := Option.isSome_iff_exists.mp (hpaired.trans hpending)
    have hwaiting : v.waiting = some (since, id) := by rw [h.waiting, Session.waits, hsince, hid]
    rw [hsince] at hfired
    have hsends : Sendable host v now (.playDisconnect (.literal "Timed out")) :=
      ⟨⟨profile, h.stage⟩, fun _ => ⟨since, id, hwaiting, hfired⟩⟩
    exact (spec_kick_play h.toSound (h.toMirrors.sends hsends)).bind fun _ =>
      spec_closed _ fun _ ht => ht.closed _
  · have hkeepalive : f.pendingKeepalive = none := by simpa using hidle
    have hsince : f.pendingSince = none := by simpa [hkeepalive] using hpaired
    have hwaiting : v.waiting = none := by rw [h.waiting, Session.waits, hsince]
    exact (spec_change _).bind fun _ => spec_keepAlive h hwaiting

theorem spec_took {α : Type} {next : RawPacket → Conn Intent α} {packet : RawPacket} {Q : α → Task Intent → Prop}
    (hs : Sound f v) (hlistens : v.stage.Listens) (h : Spec host now f (v.taking host packet) (next packet) Q) :
    Spec host now f v (took next packet) Q := by
  have hknown : v.presence ≠ .gone := by
    rw [hs.presence]
    split <;> decide
  exact (spec_did (a := .took packet) ⟨hknown, hlistens⟩ (by simp) fun _ => rfl).bind fun _ => h

theorem Mirrors.taking (hm : Mirrors f v) (host : Host Intent) (packet : RawPacket) :
    Mirrors f (v.taking host packet) :=
  ⟨⟨hm.sender, hm.presence⟩, hm.compression, hm.codec, hm.beats⟩

theorem spec_playTurn {profile : GameProfile} {input : Input} {outbound : Bool} {sent : Nat}
    (h : InPlay profile f v) : Spec host now f v (playTurn host input outbound sent) (Settled host) := by
  have hstays (t : Task Intent) (ht : Here host now f v t) : Settled host (.play outbound sent) t :=
    ht.settled (h.placed _ _)
  unfold playTurn
  refine spec_get.bind fun t => Triple.pre fun hget => ?_
  rw [hget.since, hget.now]
  refine Triple.ite (fun _ => ?_) fun _ => Triple.ite (fun hfired => spec_timerFired h hfired) fun _ => ?_
  · have hsends : Sendable host v now (.playDisconnect (.literal "Server shutting down")) :=
      ⟨⟨profile, h.stage⟩, fun heq => absurd heq (by decide)⟩
    exact (spec_kick_play h.toSound (h.toMirrors.sends hsends)).bind fun _ => Triple.throw _ fun _ ht => ht
  split
  · next raw _ =>
    have hsends : Sendable host v now (.game raw) := ⟨profile, h.stage⟩
    have hraw : toRaw host (.game raw) = .ok raw := rfl
    refine (spec_sendRaw h.toSound hraw (h.toMirrors.sends hsends)).bind fun _ => Triple.pure _ fun _ ht => ?_
    rw [writing_same (p := .game raw) rfl trivial] at ht
    exact hstays _ ht
  · exact Triple.pure _ hstays
  split
  · exact Triple.pure _ hstays
  · next packet _ =>
    have hlistens : v.stage.Listens := by rw [h.stage]; trivial
    refine spec_took h.toSound hlistens (spec_playRead (h.toMirrors.taking host packet) ?_ h.profile h.paired ?_)
    · show v.stage.taking host packet = _
      rw [h.stage]
      rfl
    · show v.waiting.filter _ = _
      rw [h.waiting]
  · exact Triple.pure _ fun _ ht => ht.settled h.toSound
  · exact Triple.ite (fun _ => Triple.pure _ hstays) fun _ => Triple.throw _ fun _ ht => ht.stopped h.toSound

theorem spec_awaited {eof : ServerResult Unit} {next : RawPacket → Conn Intent Phase}
    (hs : Sound f v) (hlistens : v.stage.Listens) (read : ServerResult (Option RawPacket))
    (h : ∀ packet, Spec host now f (v.taking host packet) (next packet) (Settled host)) :
    Spec host now f v (awaited eof next read) (Settled host) := by
  unfold awaited
  refine (spec_lift hs _).bind fun packet => Triple.pre fun _ => ?_
  cases packet with
  | none => exact Triple.pure _ fun _ ht => ht.settled hs
  | some packet => exact spec_took hs hlistens (h packet)

theorem Unstarted.taking (h : Unstarted f v) (host : Host Intent) (packet : RawPacket) :
    Unstarted f (v.taking host packet) :=
  ⟨h.joined, h.keepalive, h.since, by rw [View.taking, h.waiting]; rfl⟩

/-- A turn that waits for a read. -/
theorem spec_reads (input : Input) {phase : Phase} {x : Conn Intent Phase}
    {next : ServerResult (Option RawPacket) → Conn Intent Phase} (h : Matches phase f v)
    (hwait : input.read = none → x = pure phase) (hread : ∀ read, input.read = some read → x = next read)
    (hnext : ∀ read, Spec host now f v (next read) (Settled host)) : Spec host now f v x (Settled host) := by
  cases hcase : input.read with
  | none =>
    rw [hwait hcase]
    exact Triple.pure _ fun _ ht => ht.settled h
  | some read =>
    rw [hread read hcase]
    exact hnext read

/-- One turn. -/
theorem turn_spec (input : Input) {phase : Phase} (h : Matches phase f v) :
    Spec host now f v (turn host input phase) (Settled host) := by
  have hearly (hm : Mirrors f v) (ht : v.threshold = none) (hu : Unstarted f v) (packet : RawPacket) :
      Early f (v.taking host packet) := ⟨hm.taking host packet, hu.taking host packet, ht⟩
  have htaken {stage : Stage} (hstage : v.stage = stage) (packet : RawPacket) :
      (v.taking host packet).stage = stage.taking host packet := by
    rw [← hstage]
    rfl
  have hlistens {stage : Stage} (hstage : v.stage = stage) (hl : stage.Listens) : v.stage.Listens := by rwa [hstage]
  cases phase with
  | closed outcome => exact Triple.pure _ fun _ ht => ht.settled h
  | play outbound sent =>
    obtain ⟨hm, ⟨profile, hstage, hprofile⟩, hpaired, hwaiting⟩ := h
    exact spec_playTurn ⟨hm, hstage, hprofile, hpaired, hwaiting⟩
  | handshake =>
    refine spec_reads input h (fun hread => by simp only [turn, hread]) (fun read hread => by simp only [turn, hread]; rfl)
      fun read => ?_
    obtain ⟨hm, hstage, ht, hu⟩ := h
    exact spec_awaited hm.toSound (hlistens hstage trivial) read fun packet =>
      spec_handshakeRead (hearly hm ht hu packet) (htaken hstage packet)
  | status =>
    refine spec_reads input h (fun hread => by simp only [turn, hread]) (fun read hread => by simp only [turn, hread]; rfl)
      fun read => ?_
    obtain ⟨hm, hstage⟩ := h
    exact spec_awaited hm.toSound (hlistens hstage trivial) read fun packet =>
      spec_statusRead (hm.taking host packet) (htaken hstage packet)
  | hello =>
    refine spec_reads input h (fun hread => by simp only [turn, hread]) (fun read hread => by simp only [turn, hread]; rfl)
      fun read => ?_
    obtain ⟨hm, hstage, ht, hu⟩ := h
    exact spec_awaited hm.toSound (hlistens hstage trivial) read fun packet =>
      spec_helloRead (hearly hm ht hu packet) (htaken hstage packet)
  | key name token =>
    refine spec_reads input h (fun hread => by simp only [turn, hread]) (fun read hread => by simp only [turn, hread]; rfl)
      fun read => ?_
    obtain ⟨hm, hstage, ht, hu⟩ := h
    exact spec_awaited hm.toSound (hlistens hstage trivial) read fun packet =>
      spec_keyRead (hearly hm ht hu packet) (htaken hstage packet)
  | acknowledge =>
    refine spec_reads input h (fun hread => by simp only [turn, hread]) (fun read hread => by simp only [turn, hread]; rfl)
      fun read => ?_
    obtain ⟨hm, ⟨profile, hstage, hprofile⟩, hu⟩ := h
    exact spec_awaited hm.toSound (hlistens hstage trivial) read fun packet =>
      spec_acknowledgeRead (hm.taking host packet) (hu.taking host packet) hprofile (htaken hstage packet)
  | configuration back =>
    refine spec_reads input h (fun hread => by simp only [turn, hread]) (fun read hread => by simp only [turn, hread]; rfl)
      fun read => ?_
    have hm : Mirrors f v := h.1
    obtain ⟨profile, hstage, hprofile⟩ : ∃ p, v.stage = .configuring p ∧ f.profile = some p := by
      cases back with
      | none => exact h.2.1
      | some _ => exact h.2
    have hu (packet : RawPacket) (hback : back = none) : Unstarted f (v.taking host packet) := by
      subst hback
      exact h.2.2.taking host packet
    refine Triple.ite (fun _ => Triple.throw _ fun _ ht => ht.stopped hm.toSound) fun _ => ?_
    exact spec_awaited hm.toSound (hlistens hstage trivial) read fun packet =>
      spec_configurationRead (hm.taking host packet) hprofile (hu packet) (htaken hstage packet)

/-! ## Runs -/

/-- Where a connection is between turns. -/
structure Kept (host : Host Intent) (c : State Intent) : Prop where
  keeping : Keeping host c.trace
  lined : Lined host c.trace
  placed : match c.phase with
    | .closed _ => (view host c.trace).presence = if c.session.joined then .gone else .unknown
    | phase => Matches phase c.session (view host c.trace)
  cipher : c.phase.Open → c.session.cipher = line host c.trace

theorem kept_start (host : Host Intent) : Kept host (State.start Intent) where
  keeping := trivial
  lined := trivial
  placed := ⟨⟨⟨rfl, rfl⟩, rfl, rfl, rfl⟩, rfl, rfl, rfl, rfl, rfl, rfl⟩
  cipher := fun _ => rfl

/-- The game loop hears of the end. -/
theorem kept_leave {t : Task Intent} (h : Stopped host t) (ending : ServerResult Unit) :
    Kept host (settle (.closed ending) (leave t)) := by
  obtain ⟨hk, hl, hs⟩ := h
  unfold leave
  split
  · next hjoined =>
    have hsender : t.session.eventSender = true := hs.sender.trans hjoined
    have hpresent : (view host t.trace).presence = .present := by rw [hs.presence, hjoined]; rfl
    have hrun : (report .left t).2 =
        { t with queue := t.queue - 1, trace := t.trace ++ [.told .left (0 < t.queue)] } := by
      show (outcome (report .left) t).2 = _
      rw [report, outcome_bind]
      show (outcome (if t.session.eventSender then trySend .left else pure ()) t).2 = _
      rw [if_pos hsender]
      rfl
    rw [hrun]
    refine ⟨hk.snoc ⟨by rw [hpresent]; decide, hpresent⟩, lined_snoc hl (by simp), ?_, fun hopen => hopen.elim⟩
    show (view host (t.trace ++ [.told .left (0 < t.queue)])).presence = if t.session.joined then _ else _
    rw [view_snoc, hjoined]
    rfl
  · next hjoined =>
    refine ⟨hk, hl, ?_, fun hopen => hopen.elim⟩
    show (view host t.trace).presence = if t.session.joined then _ else _
    rw [hs.presence, if_neg hjoined, if_neg hjoined]

theorem Settled.stopped {t : Task Intent} {ending : ServerResult Unit} (h : Settled host (.closed ending) t) :
    Stopped host t := ⟨h.keeping, h.lined, h.placed⟩

theorem Kept.step {c : State Intent} (h : Kept host c) (input : Input) : Kept host (step host c input) := by
  unfold Connection.step
  split
  · exact h
  · next hopen =>
    obtain ⟨hk, hl, hplaced, hcipher⟩ := h
    have hmatches : Matches c.phase c.session (view host c.trace) := by
      cases hphase : c.phase with
      | closed outcome => exact absurd hphase (hopen outcome)
      | _ => rw [hphase] at hplaced; exact hplaced
    have hline : c.session.cipher = line host c.trace := by
      refine hcipher ?_
      cases hphase : c.phase with
      | closed outcome => exact absurd hphase (hopen outcome)
      | _ => trivial
    obtain ⟨hok, herror⟩ := turn_spec input hmatches
      ⟨c.session, input.now, input.room, input.queue, c.trace⟩ ⟨by rw [← hline], rfl, rfl, hk, hl⟩
    dsimp only
    split
    · next heq => exact kept_leave (hok _ _ heq).stopped _
    · next phase t hnotclosed heq =>
      obtain ⟨hk', hl', hm', hcipher'⟩ := hok _ _ heq
      refine ⟨hk', hl', ?_, hcipher'⟩
      cases phase with
      | closed outcome => exact absurd rfl (hnotclosed outcome)
      | _ => exact hm'
    · next heq => exact kept_leave (herror _ _ heq) _

theorem run_kept (host : Host Intent) (inputs : List Input) :
    Kept host (run (step host) (State.start Intent) inputs) :=
  run_inv (fun _ input h => h.step input) inputs (kept_start host)

end Apoptosis.L2.Connection
