import Apoptosis.Core.Framing
import Apoptosis.Core.Runs
import Apoptosis.L2Players.PlayerList
/-!
# What a broadcast puts on the queues

* `sendRaw_sent`, `broadcastAll_sent`: the packets a send adds, queue by queue.
* `broadcastChange_spec`: what one change does to a client's list.
* `foldlM_broadcastChange_spec`: what a queue of changes does to it.
-/
namespace Apoptosis.L2.Players
open Apoptosis.Core

/-! ## Packets sent -/

namespace Outbound

def sendAll (o : Outbound) (packets : List RawPacket) : Outbound :=
  packets.foldl (fun o raw => (o.trySend raw).2) o

theorem sendAll_append (o : Outbound) (ps ps' : List RawPacket) :
    o.sendAll (ps ++ ps') = (o.sendAll ps).sendAll ps' := List.foldl_append ..

theorem trySend_accepted (o : Outbound) (raw : RawPacket) (h : (o.trySend raw).2.refused = false) :
    o.refused = false ∧ (o.trySend raw).2.accepted = o.accepted ++ [raw] := by
  unfold trySend at h ⊢
  split
  · next hfull => simp [hfull] at h
  · next hroom =>
    rw [if_neg hroom] at h
    exact ⟨h, rfl⟩

/-- A queue that refused nothing has taken everything in order. -/
theorem sendAll_accepted (packets : List RawPacket) (o : Outbound)
    (h : (o.sendAll packets).refused = false) :
    o.refused = false ∧ (o.sendAll packets).accepted = o.accepted ++ packets := by
  induction packets generalizing o with
  | nil => exact ⟨h, by simp [sendAll]⟩
  | cons raw packets ih =>
    obtain ⟨hfirst, hrest⟩ := ih (o.trySend raw).2 h
    obtain ⟨hbefore, htaken⟩ := o.trySend_accepted raw hfirst
    refine ⟨hbefore, ?_⟩
    rw [show o.sendAll (raw :: packets) = (o.trySend raw).2.sendAll packets from rfl, hrest, htaken,
      List.append_assoc, List.singleton_append]

end Outbound

namespace Game

def Has (game : Game) (id : ConnectionId) (profile : Uuid) : Prop :=
  ∃ s, game.sessions.get? id = some s ∧ s.profileId = profile

def Present (game : Game) (profile : Uuid) : Prop := ∃ id, game.Has id profile

/-- `game'` is `game` with these packets put on the queues. -/
structure Sent (game game' : Game) (packets : ConnectionId → List RawPacket) : Prop where
  sessions : ∀ id, game'.sessions.get? id = (game.sessions.get? id).map fun s =>
    { s with outbound := s.outbound.sendAll (packets id) }
  pending : game'.pendingPlayerInfo = game.pendingPlayerInfo

theorem Sent.refl (game : Game) : Sent game game fun _ => [] :=
  ⟨fun id => by cases game.sessions.get? id <;> rfl, rfl⟩

theorem Sent.trans {g g' g'' : Game} {f f' : ConnectionId → List RawPacket} (h : Sent g g' f)
    (h' : Sent g' g'' f') : Sent g g'' fun id => f id ++ f' id := by
  refine ⟨fun id => ?_, h'.pending.trans h.pending⟩
  rw [h'.sessions, h.sessions]
  cases g.sessions.get? id with
  | none => rfl
  | some s => simp [Outbound.sendAll_append]

theorem Sent.congr {g g' : Game} {f f' : ConnectionId → List RawPacket} (h : Sent g g' f)
    (hf : ∀ id s, g.sessions.get? id = some s → f id = f' id) : Sent g g' f' := by
  refine ⟨fun id => ?_, h.pending⟩
  rw [h.sessions]
  cases hs : g.sessions.get? id with
  | none => rfl
  | some s => simp [hf id s hs]

theorem Sent.has {g g' : Game} {f : ConnectionId → List RawPacket} (h : Sent g g' f)
    (id : ConnectionId) (profile : Uuid) : g'.Has id profile ↔ g.Has id profile := by
  simp only [Has, h.sessions]
  cases g.sessions.get? id <;> simp

theorem sendRaw_sent (game : Game) (id : ConnectionId) (raw : RawPacket) :
    Sent game (game.sendRaw id raw).2 fun k => if k = id then [raw] else [] := by
  unfold sendRaw
  cases hs : game.sessions.get? id with
  | none =>
    refine ⟨fun k => ?_, rfl⟩
    by_cases hk : k = id
    · simp [hk, hs]
    · cases game.sessions.get? k <;> simp [hk, Outbound.sendAll]
  | some s =>
    dsimp only
    have hget (k : ConnectionId) :
        (game.sessions.insert id { s with outbound := (s.outbound.trySend raw).2 }).get? k =
        (game.sessions.get? k).map fun s =>
          { s with outbound := s.outbound.sendAll (if k = id then [raw] else []) } := by
      rw [OrdMap.get?_insert]
      by_cases hk : k = id
      · simp [hk, hs, Outbound.sendAll]
      · cases game.sessions.get? k <;> simp [hk, Ne.symm hk, Outbound.sendAll]
    split
    · exact ⟨hget, rfl⟩
    · exact ⟨hget, rfl⟩

/-- Sessions are filed under their own ids. -/
def Keyed (game : Game) : Prop := ∀ id s, game.sessions.get? id = some s → s.id = id

def AllReady (game : Game) : Prop := ∀ id s, game.sessions.get? id = some s → s.ready = true

theorem Sent.keyed {g g' : Game} {f : ConnectionId → List RawPacket} (h : Sent g g' f)
    (hk : g.Keyed) : g'.Keyed := by
  intro id s hs
  rw [h.sessions, Option.map_eq_some_iff] at hs
  obtain ⟨s₀, hs₀, rfl⟩ := hs
  exact hk id s₀ hs₀

theorem Sent.allReady {g g' : Game} {f : ConnectionId → List RawPacket} (h : Sent g g' f)
    (hr : g.AllReady) : g'.AllReady := by
  intro id s hs
  rw [h.sessions, Option.map_eq_some_iff] at hs
  obtain ⟨s₀, hs₀, rfl⟩ := hs
  exact hr id s₀ hs₀

/-- Over a stretch of the map, one packet to each of its sessions. -/
theorem foldl_sendRaw_sent (raw : RawPacket) (l : List (ConnectionId × Session)) (game : Game)
    (hl : Ascending l) (hkey : ∀ e ∈ l, e.2.id = e.1) (hready : ∀ e ∈ l, e.2.ready = true) :
    Sent game (l.foldl (fun g e => if e.2.ready then (g.sendRaw e.2.id raw).2 else g) game)
      fun id => if id ∈ l.map Prod.fst then [raw] else [] := by
  induction l generalizing game with
  | nil => exact Sent.refl game
  | cons e l ih =>
    obtain ⟨hhead, htail⟩ := List.pairwise_cons.mp hl
    have hrest := ih (game.sendRaw e.2.id raw).2 htail (fun e' he' => hkey e' (.tail _ he'))
      (fun e' he' => hready e' (.tail _ he'))
    rw [List.foldl_cons, if_pos (hready e (.head _))]
    refine ((game.sendRaw_sent e.2.id raw).trans hrest).congr fun id s _ => ?_
    rw [hkey e (.head _)]
    have hnot : e.1 ∉ l.map Prod.fst := by
      intro hmem
      obtain ⟨e', he', heq⟩ := List.mem_map.mp hmem
      exact absurd (hhead e' he') (by simp [heq])
    by_cases hid : id = e.1
    · simp [hid, hnot]
    · simp only [hid, if_false, List.nil_append, List.map_cons, List.mem_cons, false_or]

theorem broadcastAll_sent {game : Game} (hk : game.Keyed) (hr : game.AllReady) (raw : RawPacket) :
    Sent game (game.broadcastAll raw) fun _ => [raw] := by
  have hget {e : ConnectionId × Session} (he : e ∈ game.sessions.entries) :
      game.sessions.get? e.1 = some e.2 := OrdMap.mem_entries.mp he
  refine (foldl_sendRaw_sent raw game.sessions.entries game game.sessions.sorted
    (fun e he => hk _ _ (hget he)) (fun e he => hr _ _ (hget he))).congr fun id s hs => ?_
  exact if_pos (List.mem_map.mpr ⟨(id, s), OrdMap.mem_entries.mpr hs, rfl⟩)

/-! ## One change of the list -/

theorem playerInfoUpdate_ok {entries : List PlayerInfoEntry} {raw : RawPacket}
    (h : playerInfoUpdate entries = .ok raw) : raw = .playerInfoUpdate entries := by
  unfold playerInfoUpdate at h
  split at h
  · exact nomatch h
  · obtain ⟨_, _, hraw⟩ := Framing.bind_ok h
    exact (Except.ok.inj hraw).symm

/-- Whether client `c` lists the profile after a change, if it did so `before`. -/
def Hears (game : Game) (c : ConnectionId) (profile : Uuid) (before : Prop) :
    PendingPlayerInfo → Prop
  | .join id => before ∨ game.Has id profile ∨ (id = c ∧ ∃ other, other ≠ c ∧ game.Has other profile)
  | .leave gone => before ∧ profile ≠ gone

theorem mem_existing {game : Game} (hk : game.Keyed) (id : ConnectionId) (profile : Uuid) :
    profile ∈ (((game.sessionList.filter (·.id ≠ id)).map playerListEntry).map (·.uuid)).toFinset ↔
      ∃ other, other ≠ id ∧ game.Has other profile := by
  simp only [List.mem_toFinset, List.mem_map, List.mem_filter, decide_eq_true_eq, sessionList]
  constructor
  · intro ⟨_, ⟨s, ⟨⟨e, he, hs⟩, hne⟩, rfl⟩, hprofile⟩
    have hget : game.sessions.get? e.1 = some e.2 := OrdMap.mem_entries.mp he
    subst hs
    exact ⟨e.1, hk _ _ hget ▸ hne, e.2, hget, hprofile⟩
  · intro ⟨other, hne, s, hs, hprofile⟩
    exact ⟨playerListEntry s, ⟨s, ⟨⟨(other, s), OrdMap.mem_entries.mpr hs, rfl⟩,
      by rwa [hk other s hs]⟩, rfl⟩, hprofile⟩

theorem sendExisting_spec {game game' : Game} (hk : game.Keyed) {id : ConnectionId}
    (h : game.sendExisting id = .ok game') :
    ∃ f, Sent game game' f ∧ ∀ c list profile, profile ∈ applyAll list (f c) ↔
      profile ∈ list ∨ (id = c ∧ ∃ other, other ≠ c ∧ game.Has other profile) := by
  unfold sendExisting at h
  dsimp only at h
  split at h
  · next hnone =>
    cases h
    refine ⟨_, Sent.refl game, fun c list profile => ?_⟩
    have hempty : ¬∃ other, other ≠ id ∧ game.Has other profile := by
      rw [← mem_existing hk id profile, hnone]
      simp
    constructor
    · exact Or.inl
    · intro hmem
      rcases hmem with hmem | ⟨rfl, hother⟩
      · exact hmem
      · exact absurd hother hempty
  · cases hraw : playerInfoUpdate ((game.sessionList.filter (·.id ≠ id)).map playerListEntry) with
    | error e => exact nomatch hraw ▸ h
    | ok raw =>
      rw [hraw] at h
      cases h
      refine ⟨_, game.sendRaw_sent id raw, fun c list profile => ?_⟩
      rw [playerInfoUpdate_ok hraw]
      by_cases hc : c = id
      · subst hc
        simp only [if_true, applyAll, List.foldl_cons, List.foldl_nil, applyPacket,
          Finset.mem_union, mem_existing hk, true_and]
      · simp [hc, Ne.symm hc, applyAll]

theorem announce_spec {game game' : Game} (hk : game.Keyed) (hr : game.AllReady)
    {id : ConnectionId} (h : game.announce id = .ok game') :
    ∃ f, Sent game game' f ∧ ∀ c list profile, profile ∈ applyAll list (f c) ↔
      profile ∈ list ∨ game.Has id profile := by
  unfold announce at h
  split at h
  · next hgone =>
    cases h
    exact ⟨_, Sent.refl game, fun c list profile => by simp [applyAll, Has, hgone]⟩
  · next s hs =>
    cases hraw : playerInfoUpdate [playerListEntry s] with
    | error e => exact nomatch hraw ▸ h
    | ok raw =>
      rw [hraw] at h
      cases h
      refine ⟨_, broadcastAll_sent hk hr raw, fun c list profile => ?_⟩
      rw [playerInfoUpdate_ok hraw]
      simp [applyAll, applyPacket, Has, hs, playerListEntry, eq_comm, or_comm]

theorem broadcastChange_spec {game game' : Game} (hk : game.Keyed) (hr : game.AllReady)
    {change : PendingPlayerInfo} (h : game.broadcastChange change = .ok game') :
    ∃ f, Sent game game' f ∧ ∀ c list profile,
      profile ∈ applyAll list (f c) ↔ game.Hears c profile (profile ∈ list) change := by
  cases change with
  | leave gone =>
    obtain rfl : game.broadcastAll (.playerInfoRemove [gone]) = game' := Except.ok.inj h
    refine ⟨_, broadcastAll_sent hk hr _, fun c list profile => ?_⟩
    simp [applyAll, applyPacket, Hears]
  | join id =>
    obtain ⟨g₁, hfirst, hsecond⟩ := Framing.bind_ok h
    obtain ⟨f, hsent, hexisting⟩ := sendExisting_spec hk hfirst
    obtain ⟨f', hsent', hannounced⟩ := announce_spec (hsent.keyed hk) (hsent.allReady hr) hsecond
    refine ⟨_, hsent.trans hsent', fun c list profile => ?_⟩
    rw [applyAll, List.foldl_append, ← applyAll, ← applyAll, hannounced, hexisting, hsent.has]
    rw [or_assoc]
    exact or_congr_right or_comm

/-! ## A whole broadcast -/

/-- No removal of the profile is the last word on it. -/
def Kept (game : Game) (profile : Uuid) : List PendingPlayerInfo → Prop
  | [] => True
  | .join _ :: rest => game.Kept profile rest
  | .leave gone :: rest =>
    (gone = profile → ∃ id, .join id ∈ rest ∧ game.Has id profile) ∧ game.Kept profile rest

/-- Some change of the queue tells client `c` of the profile. -/
def Tells (game : Game) (c : ConnectionId) (profile : Uuid) (queue : List PendingPlayerInfo) : Prop :=
  ∃ id, .join id ∈ queue ∧
    (game.Has id profile ∨ (id = c ∧ ∃ other, other ≠ c ∧ game.Has other profile))

theorem kept_congr {g g' : Game} (h : ∀ id profile, g'.Has id profile ↔ g.Has id profile)
    (profile : Uuid) (queue : List PendingPlayerInfo) : g'.Kept profile queue ↔ g.Kept profile queue := by
  induction queue with
  | nil => exact Iff.rfl
  | cons change rest ih => cases change <;> simp [Kept, h, ih]

theorem Sent.tells {g g' : Game} {f : ConnectionId → List RawPacket} (h : Sent g g' f)
    (c : ConnectionId) (profile : Uuid) (queue : List PendingPlayerInfo) :
    g'.Tells c profile queue ↔ g.Tells c profile queue := by
  simp only [Tells, h.has]

/-- What a queue of changes leaves on a client's list: the profiles that were there or are told of
and that no later removal takes, and no profile that is gone and removed. -/
theorem foldlM_broadcastChange_spec (queue : List PendingPlayerInfo) {game game' : Game}
    (hk : game.Keyed) (hr : game.AllReady) (h : queue.foldlM broadcastChange game = .ok game') :
    ∃ f, Sent game game' f ∧ ∀ c list profile,
      (game.Kept profile queue → profile ∈ list ∨ game.Tells c profile queue →
        profile ∈ applyAll list (f c)) ∧
      (¬game.Present profile → profile ∈ applyAll list (f c) →
        profile ∈ list ∧ .leave profile ∉ queue) := by
  induction queue generalizing game with
  | nil =>
    obtain rfl : game = game' := Except.ok.inj h
    refine ⟨_, Sent.refl game, fun c list profile => ⟨fun _ hmem => ?_, fun _ hmem => ⟨hmem, nofun⟩⟩⟩
    exact hmem.resolve_right fun ⟨_, hnone, _⟩ => nomatch hnone
  | cons change rest ih =>
    obtain ⟨g₁, hfirst, hrest⟩ := Framing.bind_ok h
    obtain ⟨f, hsent, hheard⟩ := broadcastChange_spec hk hr hfirst
    obtain ⟨f', hsent', hset⟩ := ih (hsent.keyed hk) (hsent.allReady hr) hrest
    refine ⟨_, hsent.trans hsent', fun c list profile => ?_⟩
    rw [applyAll, List.foldl_append, ← applyAll, ← applyAll]
    obtain ⟨hin, hout⟩ := hset c (applyAll list (f c)) profile
    simp only [hheard, kept_congr hsent.has, hsent.tells, Present, hsent.has] at hin hout
    cases change with
    | join id =>
      refine ⟨fun hkept hmem => hin hkept ?_, fun hgone hmem => ?_⟩
      · rcases hmem with hmem | ⟨id', hqueued, htold⟩
        · exact .inl (.inl hmem)
        · rcases List.mem_cons.mp hqueued with heq | hqueued
          · cases heq
            exact .inl (.inr htold)
          · exact .inr ⟨id', hqueued, htold⟩
      · obtain ⟨hmem, hrest⟩ := hout hgone hmem
        refine ⟨?_, by simpa using hrest⟩
        rcases hmem with hmem | hhas | ⟨-, other, -, hhas⟩
        · exact hmem
        · exact absurd ⟨id, hhas⟩ hgone
        · exact absurd ⟨other, hhas⟩ hgone
    | leave gone =>
      refine ⟨fun hkept hmem => hin hkept.2 ?_, fun hgone hmem => ?_⟩
      · by_cases heq : gone = profile
        · obtain ⟨id, hqueued, hhas⟩ := hkept.1 heq
          exact .inr ⟨id, hqueued, .inl hhas⟩
        · rcases hmem with hmem | ⟨id', hqueued, htold⟩
          · exact .inl ⟨hmem, Ne.symm heq⟩
          · exact .inr ⟨id', (List.mem_cons.mp hqueued).resolve_left nofun, htold⟩
      · obtain ⟨⟨hmem, hne⟩, hrest⟩ := hout hgone hmem
        exact ⟨hmem, by simp [hne, hrest]⟩

end Game
end Apoptosis.L2.Players
