import Apoptosis.L2Network.ConnectionRuns
/-!
# Who gets in

What lies behind each stage of a login, from the trace alone, and what a client
did before the game loop hears that it joined.

* `behind_snoc`: one action.
* `run_admitted`: a run.
-/
namespace Apoptosis.L2.Connection
open Apoptosis.Core Apoptosis.Core.Codec Apoptosis.L1.Login
open Apoptosis.L1.Frame (RawPacket)

variable {Intent : Type} {host : Host Intent}

/-! ## Readings -/

def Action.packet : Action Intent → Option RawPacket
  | .took packet => some packet
  | _ => none

/-- The packets a connection took. -/
def taken (trace : List (Action Intent)) : List RawPacket := trace.filterMap Action.packet

@[simp] theorem taken_snoc (trace : List (Action Intent)) (a : Action Intent) :
    taken (trace ++ [a]) = taken trace ++ a.packet.toList := by
  unfold taken
  rw [List.filterMap_append]
  cases h : a.packet <;> simp [h]

/-- A connection wrote the packet. -/
def Wrote (trace : List (Action Intent)) (p : Clientbound) : Prop :=
  ∃ now frame sent raw, Action.wrote now frame sent raw p ∈ trace

theorem Wrote.snoc {trace : List (Action Intent)} {p : Clientbound} (h : Wrote trace p) (a : Action Intent) :
    Wrote (trace ++ [a]) p := by
  obtain ⟨now, frame, sent, raw, h⟩ := h
  exact ⟨now, frame, sent, raw, List.mem_append_left _ h⟩

/-! ## What lies behind a stage -/

/-- The packet opens a login, under the server's version. -/
def Intends (host : Host Intent) (intention : RawPacket) : Prop :=
  intention.id = serverbound.handshake.INTENTION ∧ ∃ handshake, Handshake.decode intention.payload = .ok handshake ∧
    handshake.intent ≠ .status ∧ handshake.protocolVersion = host.settings.protocolVersion

/-- The packet asks to log in under a valid name. -/
def Hails (host : Host Intent) (name : String) (hello : RawPacket) : Prop :=
  hello.id = serverbound.login.HELLO ∧ validateUsername host.debug name = .ok () ∧
    ∃ loginStart, LoginStart.decode hello.payload = .ok loginStart ∧ loginStart.name = name

/-- The first packets say who the client is: by its name alone, or by a proof the session server
takes. -/
inductive Identified (host : Host Intent) (trace : List (Action Intent)) : GameProfile → List RawPacket → Prop
  | offline {name : String} {intention hello : RawPacket} :
    host.settings.onlineMode = false → Intends host intention → Hails host name hello →
      Identified host trace (offlineProfile host.md5 name) [intention, hello]
  | online {name : String} {publicKey token secret : Bytes} {profile : GameProfile} {intention hello key : RawPacket} :
    host.settings.onlineMode = true → Intends host intention → Hails host name hello →
      host.settings.onlineIdentity = some publicKey → Wrote trace (.encryptionRequest "" publicKey token true) →
      key.id = serverbound.login.KEY → Proves host token key secret →
      .asked name (host.serverIdHash "" secret publicKey) secret (.ok profile) ∈ trace →
      Identified host trace profile [intention, hello, key]

/-- The client was told its profile, after its first packets. -/
def Welcomed (host : Host Intent) (trace : List (Action Intent)) (p : GameProfile) (login : List RawPacket) : Prop :=
  Identified host trace p login ∧ Wrote trace (.loginSuccess p.id p.name p.properties)

def Acknowledges (packet : RawPacket) : Prop :=
  packet.id = serverbound.login.LOGIN_ACKNOWLEDGED ∧ packet.payload.isEmpty

def Finishes (packet : RawPacket) : Prop :=
  packet.id = serverbound.config.FINISH_CONFIGURATION ∧ packet.payload.isEmpty

/-- A client that is in: the packets of its login, its acknowledgement and the end of its
configuration, in this order. -/
def Admitted (host : Host Intent) (trace : List (Action Intent)) (p : GameProfile) : Prop :=
  ∃ login others ack more finish rest, taken trace = login ++ others ++ ack :: more ++ finish :: rest ∧
    Welcomed host trace p login ∧ Acknowledges ack ∧ Finishes finish

/-- What lies behind a stage. -/
def Behind (host : Host Intent) (trace : List (Action Intent)) : Stage → Prop
  | .opening => taken trace = []
  | .status | .turnedAway | .ended => True
  | .greeting => ∃ i, taken trace = [i] ∧ Intends host i
  | .named name => host.settings.onlineMode = true ∧ ∃ i h, taken trace = [i, h] ∧ Intends host i ∧ Hails host name h
  | .challenged name token =>
    host.settings.onlineMode = true ∧ ∃ publicKey, host.settings.onlineIdentity = some publicKey ∧
      Wrote trace (.encryptionRequest "" publicKey token true) ∧
      ∃ i h, taken trace = [i, h] ∧ Intends host i ∧ Hails host name h
  | .keyed name token key =>
    host.settings.onlineMode = true ∧ key.id = serverbound.login.KEY ∧
      ∃ publicKey, host.settings.onlineIdentity = some publicKey ∧
        Wrote trace (.encryptionRequest "" publicKey token true) ∧
        ∃ i h, taken trace = [i, h, key] ∧ Intends host i ∧ Hails host name h
  | .granted p => Identified host trace p (taken trace)
  | .welcomed p => ∃ login others, taken trace = login ++ others ∧ Welcomed host trace p login
  | .configuring p =>
    ∃ login others ack more, taken trace = login ++ others ++ ack :: more ∧ Welcomed host trace p login ∧ Acknowledges ack
  | .playing p => Admitted host trace p

theorem Identified.snoc {trace : List (Action Intent)} {p : GameProfile} {login : List RawPacket}
    (h : Identified host trace p login) (a : Action Intent) : Identified host (trace ++ [a]) p login := by
  cases h with
  | offline hoff hi hh => exact .offline hoff hi hh
  | online hon hi hh hidentity hwrote hkey hproves hasked =>
    exact .online hon hi hh hidentity (hwrote.snoc a) hkey hproves (List.mem_append_left _ hasked)

theorem Welcomed.snoc {trace : List (Action Intent)} {p : GameProfile} {login : List RawPacket}
    (h : Welcomed host trace p login) (a : Action Intent) : Welcomed host (trace ++ [a]) p login :=
  ⟨h.1.snoc a, h.2.snoc a⟩

/-- An action that takes no packet leaves what lies behind. -/
theorem behind_quiet {trace : List (Action Intent)} {stage : Stage} {a : Action Intent} (h : Behind host trace stage)
    (ha : a.packet = none) : Behind host (trace ++ [a]) stage := by
  have htaken : taken (trace ++ [a]) = taken trace := by rw [taken_snoc, ha, Option.toList_none, List.append_nil]
  cases stage with
  | opening => exact htaken.trans h
  | status | turnedAway | ended => trivial
  | greeting => obtain ⟨i, heq, hi⟩ := h; exact ⟨i, htaken.trans heq, hi⟩
  | named name => obtain ⟨hon, i, hello, heq, hrest⟩ := h; exact ⟨hon, i, hello, htaken.trans heq, hrest⟩
  | challenged name token =>
    obtain ⟨hon, publicKey, hidentity, hwrote, i, hello, heq, hrest⟩ := h
    exact ⟨hon, publicKey, hidentity, hwrote.snoc a, i, hello, htaken.trans heq, hrest⟩
  | keyed name token key =>
    obtain ⟨hon, hkey, publicKey, hidentity, hwrote, i, hello, heq, hrest⟩ := h
    exact ⟨hon, hkey, publicKey, hidentity, hwrote.snoc a, i, hello, htaken.trans heq, hrest⟩
  | granted p =>
    show Identified host _ p _
    rw [htaken]
    exact Identified.snoc h a
  | welcomed p =>
    obtain ⟨login, others, heq, hw⟩ := h
    exact ⟨login, others, htaken.trans heq, hw.snoc a⟩
  | configuring p =>
    obtain ⟨login, others, ack, more, heq, hw, hack⟩ := h
    exact ⟨login, others, ack, more, htaken.trans heq, hw.snoc a, hack⟩
  | playing p =>
    obtain ⟨login, others, ack, more, finish, rest, heq, hw, hends⟩ := h
    exact ⟨login, others, ack, more, finish, rest, htaken.trans heq, hw.snoc a, hends⟩

/-! ## One packet -/

theorem behind_afterHandshake {trace : List (Action Intent)} (h : taken trace = []) (packet : RawPacket) :
    Behind host (trace ++ [.took packet]) (afterHandshake host packet) := by
  unfold afterHandshake
  split
  · trivial
  next handshake hdecode =>
  split
  · trivial
  next hid =>
  split
  · trivial
  next hlogin =>
  split
  · trivial
  next hversion =>
  refine ⟨packet, by rw [taken_snoc, h]; rfl, not_not.mp hid, handshake, hdecode, hlogin, not_not.mp hversion⟩

theorem behind_afterHello {trace : List (Action Intent)} {i : RawPacket} (h : taken trace = [i])
    (hi : Intends host i) (packet : RawPacket) :
    Behind host (trace ++ [.took packet]) (afterHello host packet) := by
  have htaken : taken (trace ++ [.took packet]) = [i, packet] := by rw [taken_snoc, h]; rfl
  unfold afterHello
  split
  · trivial
  next loginStart hdecode =>
  split
  · trivial
  next hvalid =>
  rw [not_or, not_not, not_not] at hvalid
  have hhails : Hails host loginStart.name packet := ⟨hvalid.1, hvalid.2, loginStart, hdecode, rfl⟩
  split
  · next hon => exact ⟨hon, i, packet, htaken, hi, hhails⟩
  · next hoff =>
    show Identified host _ _ _
    rw [htaken]
    exact .offline (by simpa using hoff) hi hhails

theorem behind_took {trace : List (Action Intent)} {stage : Stage} (h : Behind host trace stage)
    (hlistens : stage.Listens) (packet : RawPacket) :
    Behind host (trace ++ [.took packet]) (stage.taking host packet) := by
  have htaken : taken (trace ++ [.took packet]) = taken trace ++ [packet] := by rw [taken_snoc]; rfl
  cases stage with
  | named | keyed | granted | turnedAway | ended => exact hlistens.elim
  | status => trivial
  | opening => exact behind_afterHandshake h packet
  | greeting => obtain ⟨i, heq, hi⟩ := h; exact behind_afterHello heq hi packet
  | challenged name token =>
    obtain ⟨hon, publicKey, hidentity, hwrote, i, hello, heq, hrest⟩ := h
    show Behind host _ (if packet.id = serverbound.login.KEY then .keyed name token packet else .turnedAway)
    split
    · next hkey =>
      exact ⟨hon, hkey, publicKey, hidentity, hwrote.snoc _, i, hello, by rw [htaken, heq]; rfl, hrest⟩
    · trivial
  | welcomed p =>
    obtain ⟨login, others, heq, hw⟩ := h
    show Behind host _ (if packet.id = serverbound.login.LOGIN_ACKNOWLEDGED ∧ packet.payload.isEmpty then .configuring p
      else .welcomed p)
    split
    · next hack =>
      exact ⟨login, others, packet, [], by rw [htaken, heq], hw.snoc _, hack⟩
    · exact ⟨login, others ++ [packet], by rw [htaken, heq, List.append_assoc], hw.snoc _⟩
  | configuring p =>
    obtain ⟨login, others, ack, more, heq, hw, hack⟩ := h
    show Behind host _ (if packet.id = serverbound.config.FINISH_CONFIGURATION ∧ packet.payload.isEmpty then .playing p
      else .configuring p)
    split
    · next hfinish =>
      exact ⟨login, others, ack, more, packet, [], by rw [htaken, heq], hw.snoc _, hack, hfinish⟩
    · exact ⟨login, others, ack, more ++ [packet], by rw [htaken, heq]; simp, hw.snoc _, hack⟩
  | playing p =>
    obtain ⟨login, others, ack, more, finish, rest, heq, hw, hends⟩ := h
    exact ⟨login, others, ack, more, finish, rest ++ [packet], by rw [htaken, heq]; simp, hw.snoc _, hends⟩

/-! ## One action -/

theorem wrote_snoc {trace : List (Action Intent)} {now : Nat} {frame sent : Bytes} {raw : RawPacket}
    {p : Clientbound} : Wrote (trace ++ [.wrote now frame sent raw p]) p :=
  ⟨now, frame, sent, raw, List.mem_append_right _ (List.mem_singleton_self _)⟩

theorem behind_wrote {trace : List (Action Intent)} {v : View} (h : Behind host trace v.stage) {now : Nat}
    {frame sent : Bytes} {raw : RawPacket} {p : Clientbound} (hp : Sendable host v now p) :
    Behind host (trace ++ [.wrote now frame sent raw p]) (v.stage.writing p) := by
  have hquiet {stage : Stage} (h : Behind host trace stage) :
      Behind host (trace ++ [.wrote now frame sent raw p]) stage := behind_quiet h rfl
  cases p with
  | loginDisconnect | configDisconnect | playDisconnect | statusPong => trivial
  | encryptionRequest serverId publicKey token auth =>
    obtain ⟨rfl, hidentity, rfl, name, hstage⟩ := hp
    rw [hstage] at h ⊢
    obtain ⟨hon, hgreeted⟩ := hquiet h
    exact ⟨hon, publicKey, hidentity, wrote_snoc, hgreeted⟩
  | loginSuccess uuid name properties =>
    obtain ⟨-, hstage⟩ := hp
    rw [hstage] at h ⊢
    exact ⟨_, [], (List.append_nil _).symm, hquiet h, wrote_snoc⟩
  | startConfiguration =>
    obtain ⟨profile, hstage⟩ := hp
    rw [hstage] at h ⊢
    obtain ⟨login, others, ack, more, finish, rest, heq, hw, hack, -⟩ := hquiet h
    exact ⟨login, others, ack, more ++ finish :: rest, by rw [heq]; simp, hw, hack⟩
  | _ => exact hquiet h

theorem behind_snoc {trace : List (Action Intent)} {v : View} {a : Action Intent} (h : Behind host trace v.stage)
    (ha : Allowed host v a) : Behind host (trace ++ [a]) (v.next host a).stage := by
  obtain ⟨-, ha⟩ := ha
  cases a with
  | took packet => exact behind_took h ha packet
  | told kind queued => exact behind_quiet h rfl
  | wrote now frame sent raw p =>
    have hstage : (v.writing now p).stage = v.stage.writing p := by
      unfold View.writing
      cases p <;> rfl
    show Behind host _ (v.writing now p).stage
    rw [hstage]
    exact behind_wrote h ha.2.2
  | asked name hash secret answer =>
    obtain ⟨rfl, token, key, hstage, hproves⟩ := ha
    rw [hstage] at h
    obtain ⟨hon, hkey, publicKey, hidentity, hwrote, i, hello, heq, hi, hhails⟩ := h
    cases answer with
    | error e => trivial
    | ok profile =>
      show Identified host _ profile _
      rw [taken_snoc, heq, hidentity]
      exact .online hon hi hhails hidentity (hwrote.snoc _) hkey hproves (by simp)

/-! ## Runs -/

theorem Keeping.behind {trace : List (Action Intent)} (h : Keeping host trace) :
    Behind host trace (view host trace).stage := by
  refine along_history (R := fun trace v => Behind host trace v.stage) ?_ (fun _ _ hb ha => behind_snoc hb ha) h
  exact rfl

/-- Every client the game loop hears of is in, under the profile it hears. -/
def Admits (host : Host Intent) (trace : List (Action Intent)) : Prop :=
  ∀ before profile queued after, trace = before ++ .told (.joined profile) queued :: after →
    Admitted host before profile

theorem Keeping.admits {trace : List (Action Intent)} (h : Keeping host trace) : Admits host trace := by
  rintro before profile queued after rfl
  obtain ⟨hbefore, -, htell⟩ := along_at h
  have hstage : (view host before).stage = .playing profile := htell.2
  have hbehind := Keeping.behind hbefore
  rwa [hstage] at hbehind

theorem run_admitted (host : Host Intent) (inputs : List Input) :
    Admits host (run (step host) (State.start Intent) inputs).trace :=
  Keeping.admits (run_kept host inputs).keeping

end Apoptosis.L2.Connection
