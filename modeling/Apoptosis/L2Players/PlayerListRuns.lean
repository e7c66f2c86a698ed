import Apoptosis.L2Players.PlayerListSync
/-!
# Every client lists the same players

`leave` queues the removal of a profile for the Broadcast phase, `drop_session`
queues nothing, and a removal names a profile that another connection may have
joined under since.

* `phaseNetwork_run`: the Network phase is a run of the steps below.
* `lists_converge`: over runs that drop no announced player and leave no removal
  behind the join of the same profile, a broadcast gives every client the
  profiles of the sessions.
* `dropped_player_stays`: a kick leaves the others with an entry for nobody.
-/
namespace Apoptosis.L2.Players
open Apoptosis.Core

namespace Game

/-! ## Steps -/

inductive Label
  | event (event : ClientEvent)
  /-- The next connection of `report.overflowed` is dropped. -/
  | overflow
  /-- The next entry of `pending_disconnects` is dropped. -/
  | disconnect
  | kick (target : ConnectionId) (reason : Text)
  /-- Any packet that is not about the list. -/
  | send (id : ConnectionId) (packetId : Nat)
  | setGameMode (id : ConnectionId) (gameMode : Int)
  /-- The connection reads packets from its queue. -/
  | read (id : ConnectionId) (count : Nat)
  /-- The connection's end of the queue is gone. -/
  | close (id : ConnectionId)
  /-- The report of the tick before is put away. -/
  | newReport
  | broadcast

def modify (game : Game) (id : ConnectionId) (f : Session → Session) : Game :=
  match game.sessions.get? id with
  | none => game
  | some session => { game with sessions := game.sessions.insert id (f session) }

def step (game : Game) : Label → ServerResult Game
  | .event event => .ok (game.applyEvent event)
  | .overflow => match game.overflowed with
    | [] => .ok game
    | id :: rest => .ok ({ game with overflowed := rest }.dropSession id).2
  | .disconnect => match game.pendingDisconnects with
    | [] => .ok game
    | (id, _) :: rest => .ok ({ game with pendingDisconnects := rest }.dropSession id).2
  | .kick target reason => .ok (game.kickPlayer target reason)
  | .send id packetId => .ok (game.sendRaw id (.other packetId)).2
  | .setGameMode id gameMode => .ok (game.modify id fun s => { s with gameMode := gameMode })
  | .read id count => .ok (game.modify id fun s => { s with outbound := s.outbound.read count })
  | .close id => .ok (game.modify id fun s => { s with outbound := s.outbound.close })
  | .newReport => .ok { game with overflowed := [] }
  | .broadcast => game.broadcastPlayerInfo

/-- An error ends the tick, and the server with it. -/
def stepServer (server : ServerResult Game) (label : Label) : ServerResult Game :=
  server.bind (·.step label)

/-! ## The Network phase -/

theorem dropSession_overflowed (game : Game) (id : ConnectionId) (ids : List ConnectionId) :
    { ({ game with overflowed := ids }.dropSession id).2 with overflowed := [] } =
      ({ game with overflowed := [] }.dropSession id).2 := by
  unfold dropSession
  dsimp only
  split <;> rfl

theorem dropSession_disconnects (game : Game) (id : ConnectionId) (queued : List (ConnectionId × Text)) :
    { ({ game with pendingDisconnects := queued }.dropSession id).2 with pendingDisconnects := [] } =
      ({ game with pendingDisconnects := [] }.dropSession id).2 := by
  unfold dropSession
  dsimp only
  split <;> rfl

theorem events_run (events : List ClientEvent) (game : Game) :
    run stepServer (.ok game) (events.map .event) = .ok (events.foldl applyEvent game) := by
  induction events generalizing game with
  | nil => rfl
  | cons event events ih => exact ih (game.applyEvent event)

theorem overflow_run (ids : List ConnectionId) (game : Game) (h : game.overflowed = ids) :
    run stepServer (.ok game) (List.replicate ids.length .overflow) =
      .ok (enforceOverflow { game with overflowed := [] } ids) := by
  induction ids generalizing game with
  | nil =>
    rw [show ({ game with overflowed := [] } : Game) = game by rw [← h]]
    rfl
  | cons id rest ih =>
    have hstep : stepServer (.ok game) .overflow =
        .ok ({ game with overflowed := rest }.dropSession id).2 := by
      simp only [stepServer, step, Except.bind, h]
    have hrest : ({ game with overflowed := rest }.dropSession id).2.overflowed = rest := by
      unfold dropSession
      split <;> rfl
    rw [List.length_cons, List.replicate_succ, run, hstep, ih _ hrest, dropSession_overflowed]
    rfl

theorem disconnect_run (queued : List (ConnectionId × Text)) (game : Game)
    (h : game.pendingDisconnects = queued) :
    run stepServer (.ok game) (List.replicate queued.length .disconnect) =
      .ok (queued.foldl (fun g e => (g.dropSession e.1).2) { game with pendingDisconnects := [] }) := by
  induction queued generalizing game with
  | nil =>
    rw [show ({ game with pendingDisconnects := [] } : Game) = game by rw [← h]]
    rfl
  | cons e rest ih =>
    have hstep : stepServer (.ok game) .disconnect =
        .ok ({ game with pendingDisconnects := rest }.dropSession e.1).2 := by
      simp only [stepServer, step, Except.bind, h]
    have hrest : ({ game with pendingDisconnects := rest }.dropSession e.1).2.pendingDisconnects = rest := by
      unfold dropSession
      split <;> rfl
    rw [List.length_cons, List.replicate_succ, run, hstep, ih _ hrest, dropSession_disconnects]
    rfl

/-- The Network phase takes its steps one by one: the events, the overflows, the disconnects. -/
theorem phaseNetwork_run (game : Game) (events : List ClientEvent) :
    ∃ drops, run stepServer (.ok game) (events.map .event ++ drops) = .ok (game.phaseNetwork events) := by
  set joined := events.foldl applyEvent game with hjoined
  set enforced := enforceOverflow { joined with overflowed := [] } joined.overflowed with henforced
  refine ⟨List.replicate joined.overflowed.length .overflow ++
    List.replicate enforced.pendingDisconnects.length .disconnect, ?_⟩
  rw [run_append, run_append, events_run, overflow_run _ _ rfl, disconnect_run _ _ rfl]
  rfl

/-! ## What no step may leave behind -/

/-- The clients have been told, or the queue tells them, that the session is there. -/
def Announced (game : Game) (profile : Uuid) : Prop :=
  ∃ id, game.Has id profile ∧ .join id ∉ game.pendingPlayerInfo

/-- The session may go without a word: the clients have not been told of it, or a removal of its
profile is queued, or another session of the profile has been told of. -/
def Unmissed (game : Game) (session : Session) : Prop :=
  .join session.id ∈ game.pendingPlayerInfo ∨ .leave session.profileId ∈ game.pendingPlayerInfo ∨
    ∃ other, other ≠ session.id ∧ game.Has other session.profileId ∧
      .join other ∉ game.pendingPlayerInfo

/-- A step that leaves no client with a wrong list. -/
def Told (game : Game) : Label → Prop
  | .event (.joined id _ _ (.admitted _ _)) => ∀ s, game.sessions.get? id = some s → game.Unmissed s
  | .overflow => ∀ id ∈ game.overflowed.head?, ∀ s, game.sessions.get? id = some s → game.Unmissed s
  | .disconnect =>
    ∀ e ∈ game.pendingDisconnects.head?, ∀ s, game.sessions.get? e.1 = some s → game.Unmissed s
  | .broadcast => ∀ profile, game.Present profile → game.Kept profile game.pendingPlayerInfo
  | _ => True

/-- Every client that took all its packets lists the profiles of the sessions. -/
def ListsConverge (game : Game) : Prop :=
  ∀ id s, game.sessions.get? id = some s → s.outbound.refused = false →
    ∀ profile, profile ∈ s.playerList ↔ game.Present profile

/-- Between broadcasts: a client that has been told of lists those who have been told of, and
besides only those whose removal is queued. -/
structure Listed (game : Game) : Prop where
  keyed : game.Keyed
  ready : game.AllReady
  fresh : ∀ id s, game.sessions.get? id = some s → .join id ∈ game.pendingPlayerInfo →
    s.outbound.refused = false → s.playerList = ∅
  sound : ∀ id s, game.sessions.get? id = some s → .join id ∉ game.pendingPlayerInfo →
    s.outbound.refused = false → ∀ profile ∈ s.playerList,
      game.Announced profile ∨ .leave profile ∈ game.pendingPlayerInfo
  complete : ∀ id s, game.sessions.get? id = some s → .join id ∉ game.pendingPlayerInfo →
    s.outbound.refused = false → ∀ profile, game.Announced profile → profile ∈ s.playerList

theorem listed_empty : Listed .empty where
  keyed _ _ h := nomatch h
  ready _ _ h := nomatch h
  fresh _ _ h := nomatch h
  sound _ _ h := nomatch h
  complete _ _ h := nomatch h

/-! ## Steps that move no session -/

/-- The same player, whose list may have missed packets. -/
structure Alike (s s' : Session) : Prop where
  id : s'.id = s.id
  profileId : s'.profileId = s.profileId
  ready : s'.ready = s.ready
  list : s'.outbound.refused = false → s.outbound.refused = false ∧ s'.playerList = s.playerList

theorem Alike.refl (s : Session) : Alike s s := ⟨rfl, rfl, rfl, fun h => ⟨h, rfl⟩⟩

def AllAlike (game game' : Game) : Prop :=
  ∀ id, Option.Rel Alike (game.sessions.get? id) (game'.sessions.get? id)

theorem AllAlike.refl (game : Game) : AllAlike game game := fun id => by
  cases game.sessions.get? id with
  | none => exact .none
  | some s => exact .some (.refl s)

theorem AllAlike.before {g g' : Game} (h : AllAlike g g') {id : ConnectionId} {s' : Session}
    (hs' : g'.sessions.get? id = some s') : ∃ s, g.sessions.get? id = some s ∧ Alike s s' := by
  have hrel := h id
  rw [hs'] at hrel
  generalize g.sessions.get? id = found at hrel
  cases hrel with
  | some halike => exact ⟨_, rfl, halike⟩

theorem AllAlike.has {g g' : Game} (h : AllAlike g g') (id : ConnectionId) (profile : Uuid) :
    g'.Has id profile ↔ g.Has id profile := by
  have hrel := h id
  unfold Has
  generalize g.sessions.get? id = found at hrel ⊢
  generalize g'.sessions.get? id = found' at hrel ⊢
  cases hrel with
  | none => simp
  | some halike => simp [halike.profileId]

/-- Steps that leave the sessions alike may queue removals. -/
theorem Listed.alike {g g' : Game} (h : Listed g) (halike : AllAlike g g')
    (hjoin : ∀ id, .join id ∈ g'.pendingPlayerInfo ↔ .join id ∈ g.pendingPlayerInfo)
    (hleave : ∀ p, .leave p ∈ g.pendingPlayerInfo → .leave p ∈ g'.pendingPlayerInfo) :
    Listed g' := by
  have hannounced (profile : Uuid) : g'.Announced profile ↔ g.Announced profile := by
    simp only [Announced, halike.has, hjoin]
  refine ⟨fun id s' hs' => ?_, fun id s' hs' => ?_, fun id s' hs' hq hacc => ?_,
    fun id s' hs' hq hacc profile hmem => ?_, fun id s' hs' hq hacc profile hann => ?_⟩ <;>
    obtain ⟨s, hs, hsame⟩ := halike.before hs'
  · rw [hsame.id, h.keyed id s hs]
  · rw [hsame.ready, h.ready id s hs]
  · rw [(hsame.list hacc).2, h.fresh id s hs ((hjoin id).mp hq) (hsame.list hacc).1]
  · rw [(hsame.list hacc).2] at hmem
    have hbefore := h.sound id s hs (fun hin => hq ((hjoin id).mpr hin)) (hsame.list hacc).1 profile hmem
    exact hbefore.imp (hannounced profile).mpr (hleave profile)
  · rw [(hsame.list hacc).2]
    exact h.complete id s hs (fun hin => hq ((hjoin id).mpr hin)) (hsame.list hacc).1 profile
      ((hannounced profile).mp hann)

theorem Sent.alike {g g' : Game} {f : ConnectionId → List RawPacket} (h : Sent g g' f)
    (hf : ∀ id list, applyAll list (f id) = list) : AllAlike g g' := by
  intro id
  rw [h.sessions]
  cases g.sessions.get? id with
  | none => exact .none
  | some s =>
    refine .some ⟨rfl, rfl, rfl, fun hacc => ?_⟩
    obtain ⟨hbefore, htaken⟩ := s.outbound.sendAll_accepted (f id) hacc
    refine ⟨hbefore, ?_⟩
    rw [Session.playerList, htaken, applyAll, List.foldl_append, ← applyAll, ← applyAll, hf,
      Session.playerList]

theorem sendOther_alike (game : Game) (id : ConnectionId) (packetId : Nat) :
    AllAlike game (game.sendRaw id (.other packetId)).2 := by
  refine (game.sendRaw_sent id (.other packetId)).alike fun k list => ?_
  split <;> rfl

theorem sendOther_pending (game : Game) (id : ConnectionId) (packetId : Nat) :
    (game.sendRaw id (.other packetId)).2.pendingPlayerInfo = game.pendingPlayerInfo :=
  (game.sendRaw_sent id (.other packetId)).pending

theorem modify_alike (game : Game) (id : ConnectionId) (f : Session → Session)
    (hf : ∀ s, Alike s (f s)) : AllAlike game (game.modify id f) := by
  unfold modify
  cases hs : game.sessions.get? id with
  | none => exact .refl game
  | some s =>
    intro k
    rw [OrdMap.get?_insert]
    split
    · next heq =>
      rw [← heq, hs]
      exact .some (hf s)
    · exact AllAlike.refl game k

theorem modify_pending (game : Game) (id : ConnectionId) (f : Session → Session) :
    (game.modify id f).pendingPlayerInfo = game.pendingPlayerInfo := by
  unfold modify
  split <;> rfl

theorem Listed.modify {game : Game} (h : Listed game) (id : ConnectionId) {f : Session → Session}
    (hf : ∀ s, Alike s (f s)) : Listed (game.modify id f) :=
  h.alike (game.modify_alike id f hf) (fun _ => by rw [modify_pending])
    (fun _ hp => by rwa [modify_pending])

theorem Listed.sendOther {game : Game} (h : Listed game) (id : ConnectionId) (packetId : Nat) :
    Listed (game.sendRaw id (.other packetId)).2 :=
  h.alike (game.sendOther_alike id packetId) (fun _ => by rw [sendOther_pending])
    (fun _ hp => by rwa [sendOther_pending])

/-! ## Sessions that come and go -/

/-- Without a session that goes unmissed, the clients' lists are as right as with it. -/
theorem Listed.announced_without {game : Game} (h : Listed game) {id : ConnectionId}
    (hid : ∀ s, game.sessions.get? id = some s → game.Unmissed s) {profile : Uuid}
    (hann : game.Announced profile) :
    (∃ other, other ≠ id ∧ game.Has other profile ∧ .join other ∉ game.pendingPlayerInfo) ∨
      .leave profile ∈ game.pendingPlayerInfo := by
  obtain ⟨other, hhas, hqueue⟩ := hann
  by_cases hother : other = id
  · subst hother
    obtain ⟨s, hs, rfl⟩ := hhas
    rcases hid s hs with hwaiting | hleave | ⟨twin, hne, hhas, htold⟩
    · exact absurd (h.keyed other s hs ▸ hwaiting) hqueue
    · exact .inr hleave
    · exact .inl ⟨twin, h.keyed other s hs ▸ hne, hhas, htold⟩
  · exact .inl ⟨other, hother, hhas, hqueue⟩

theorem Listed.erase {game game' : Game} (h : Listed game) {id : ConnectionId}
    (hid : ∀ s, game.sessions.get? id = some s → game.Unmissed s)
    (hsessions : game'.sessions = game.sessions.erase id)
    (hpending : game'.pendingPlayerInfo = game.pendingPlayerInfo) : Listed game' := by
  have hget {k : ConnectionId} {s : Session} (hs : game'.sessions.get? k = some s) :
      k ≠ id ∧ game.sessions.get? k = some s := by
    rw [hsessions, OrdMap.get?_erase] at hs
    split at hs
    · exact nomatch hs
    · next hne => exact ⟨Ne.symm hne, hs⟩
  have hhas {k : ConnectionId} {profile : Uuid} (hk : k ≠ id) (hh : game.Has k profile) :
      game'.Has k profile := by
    obtain ⟨s, hs, hp⟩ := hh
    exact ⟨s, by rw [hsessions, OrdMap.get?_erase, if_neg (Ne.symm hk), hs], hp⟩
  refine ⟨fun k s hs => h.keyed k s (hget hs).2, fun k s hs => h.ready k s (hget hs).2,
    fun k s hs hq => h.fresh k s (hget hs).2 (hpending ▸ hq), fun k s hs hq hacc profile hmem => ?_,
    fun k s hs hq hacc profile hann => ?_⟩
  · rw [hpending] at hq ⊢
    rcases h.sound k s (hget hs).2 hq hacc profile hmem with hann | hleave
    · rcases h.announced_without hid hann with ⟨other, hne, hh, htold⟩ | hleave
      · exact .inl ⟨other, hhas hne hh, hpending ▸ htold⟩
      · exact .inr hleave
    · exact .inr hleave
  · obtain ⟨other, ⟨s', hs', hp⟩, htold⟩ := hann
    exact h.complete k s (hget hs).2 (hpending ▸ hq) hacc profile
      ⟨other, ⟨s', (hget hs').2, hp⟩, hpending ▸ htold⟩

/-- A session that nobody has been told of, in the place of one that goes unmissed. -/
theorem Listed.insert {game game' : Game} (h : Listed game) {id : ConnectionId} {session : Session}
    (hid : ∀ s, game.sessions.get? id = some s → game.Unmissed s)
    (hsessions : game'.sessions = game.sessions.insert id session)
    (hpending : game'.pendingPlayerInfo = game.pendingPlayerInfo ++ [.join id])
    (hsession : session.id = id) (hready : session.ready = true) (hnew : session.playerList = ∅) :
    Listed game' := by
  have hget {k : ConnectionId} {s : Session} (hs : game'.sessions.get? k = some s) :
      (k = id ∧ s = session) ∨ (k ≠ id ∧ game.sessions.get? k = some s) := by
    rw [hsessions, OrdMap.get?_insert] at hs
    split at hs
    · next heq => exact .inl ⟨heq.symm, (Option.some.inj hs).symm⟩
    · next hne => exact .inr ⟨Ne.symm hne, hs⟩
  have hqueue {k : ConnectionId} (hk : k ≠ id) :
      .join k ∈ game'.pendingPlayerInfo ↔ .join k ∈ game.pendingPlayerInfo := by
    simp [hpending, hk]
  have hself : .join id ∈ game'.pendingPlayerInfo := by simp [hpending]
  have hhas {k : ConnectionId} {profile : Uuid} (hk : k ≠ id) :
      game'.Has k profile ↔ game.Has k profile := by
    unfold Has
    rw [hsessions, OrdMap.get?_insert, if_neg (Ne.symm hk)]
  refine ⟨fun k s hs => ?_, fun k s hs => ?_, fun k s hs hq hacc => ?_,
    fun k s hs hq hacc profile hmem => ?_, fun k s hs hq hacc profile hann => ?_⟩ <;>
    rcases hget hs with ⟨rfl, rfl⟩ | ⟨hk, hs⟩
  · exact hsession
  · exact h.keyed k s hs
  · exact hready
  · exact h.ready k s hs
  · exact hnew
  · exact h.fresh k s hs ((hqueue hk).mp hq) hacc
  · exact absurd hself hq
  · rcases h.sound k s hs (fun hin => hq ((hqueue hk).mpr hin)) hacc profile hmem with hann | hleave
    · rcases h.announced_without hid hann with ⟨other, hne, hh, htold⟩ | hleave
      · exact .inl ⟨other, (hhas hne).mpr hh, fun hin => htold ((hqueue hne).mp hin)⟩
      · exact .inr (hpending ▸ List.mem_append_left _ hleave)
    · exact .inr (hpending ▸ List.mem_append_left _ hleave)
  · exact absurd hself hq
  · obtain ⟨other, hh, htold⟩ := hann
    have hne : other ≠ id := fun heq => htold (heq ▸ hself)
    exact h.complete k s hs (fun hin => hq ((hqueue hk).mpr hin)) hacc profile
      ⟨other, (hhas hne).mp hh, fun hin => htold ((hqueue hne).mpr hin)⟩

theorem burst_sent (id : ConnectionId) (burst : List Nat) (game : Game) :
    Sent game (burst.foldl (fun g packetId => (g.sendRaw id (.other packetId)).2) game)
      fun k => if k = id then burst.map .other else [] := by
  induction burst generalizing game with
  | nil => exact (Sent.refl game).congr fun k _ _ => by simp
  | cons packetId burst ih =>
    refine ((game.sendRaw_sent id (.other packetId)).trans (ih _)).congr fun k _ _ => ?_
    by_cases hk : k = id <;> simp [hk]

theorem applyAll_other (list : Finset Uuid) (burst : List Nat) :
    applyAll list (burst.map .other) = list := by
  induction burst with
  | nil => rfl
  | cons packetId burst ih => exact ih

/-- The session of a join, with the packets of its burst on its queue. -/
theorem Listed.join {game : Game} (h : Listed game) {id : ConnectionId}
    (hid : ∀ s, game.sessions.get? id = some s → game.Unmissed s) (profile : GameProfile)
    (capacity : Nat) (gameMode : Int) (burst : List Nat) :
    Listed (game.join id profile capacity (.admitted gameMode burst)) := by
  unfold Game.join
  dsimp only
  set session : Session :=
    ⟨id, profile.id, profile.name, profile.properties, gameMode, false, .new capacity⟩ with hsession
  have hsent := burst_sent id burst { game with sessions := game.sessions.insert id session }
  generalize burst.foldl (fun g packetId => (g.sendRaw id (.other packetId)).2)
    { game with sessions := game.sessions.insert id session } = sent at hsent ⊢
  have hget : sent.sessions.get? id = some { session with
      outbound := session.outbound.sendAll (burst.map .other) } := by
    rw [hsent.sessions, OrdMap.get?_insert]
    simp
  rw [hget]
  dsimp only
  refine Listed.sendOther ?_ id 0
  have hnew : Listed { game with
      sessions := game.sessions.insert id { session with ready := true }
      pendingPlayerInfo := game.pendingPlayerInfo ++ [PendingPlayerInfo.join id] } :=
    h.insert hid rfl rfl rfl rfl rfl
  refine hnew.alike (fun k => ?_) (fun _ => by simp [hsent.pending]) (fun _ hp => by
    simpa [hsent.pending] using hp)
  rw [OrdMap.get?_insert, OrdMap.get?_insert]
  by_cases hk : id = k
  · subst hk
    simp only [if_true]
    refine .some ⟨rfl, rfl, rfl, fun hacc => ⟨rfl, ?_⟩⟩
    rw [Session.playerList, (session.outbound.sendAll_accepted _ hacc).2]
    exact applyAll_other ∅ burst
  · rw [if_neg hk, if_neg hk, hsent.sessions, OrdMap.get?_insert, if_neg hk]
    cases game.sessions.get? k with
    | none => exact .none
    | some s =>
      rw [if_neg (Ne.symm hk)]
      exact .some (.refl s)

/-! ## Steps -/

theorem Listed.leave {game : Game} (h : Listed game) (id : ConnectionId) :
    Listed (game.leave id) := by
  unfold Game.leave
  split
  · exact h
  · next session hs =>
    have hqueued : Listed { game with
        pendingPlayerInfo := game.pendingPlayerInfo ++ [PendingPlayerInfo.leave session.profileId] } :=
      h.alike (.refl game) (fun k => by simp) (fun p hp => List.mem_append_left _ hp)
    refine hqueued.erase (fun s hs' => .inr (.inl ?_)) rfl rfl
    rw [show s = session from Option.some.inj (hs'.symm.trans hs)]
    exact List.mem_append_right _ (.head _)

theorem Listed.dropSession {game : Game} (h : Listed game) {id : ConnectionId}
    (hid : ∀ s, game.sessions.get? id = some s → game.Unmissed s) :
    Listed (game.dropSession id).2 := by
  unfold Game.dropSession
  split
  · exact h
  · exact h.erase hid rfl rfl

/-- A broadcast that leaves no removal after the joins of a profile settles every list. -/
theorem Listed.broadcast {game game' : Game} (h : Listed game)
    (hkept : ∀ profile, game.Present profile → game.Kept profile game.pendingPlayerInfo)
    (hok : game.broadcastPlayerInfo = .ok game') :
    game'.pendingPlayerInfo = [] ∧ game'.Keyed ∧ game'.AllReady ∧ game'.ListsConverge := by
  let cleared : Game := { game with pendingPlayerInfo := [] }
  obtain ⟨f, hsent, hlists⟩ :=
    foldlM_broadcastChange_spec game.pendingPlayerInfo (show cleared.Keyed from h.keyed) h.ready hok
  refine ⟨hsent.pending, hsent.keyed h.keyed, hsent.allReady h.ready, ?_⟩
  intro id s' hs' hacc profile
  rw [hsent.sessions, Option.map_eq_some_iff] at hs'
  obtain ⟨s, hs, rfl⟩ := hs'
  obtain ⟨hbefore, htaken⟩ := s.outbound.sendAll_accepted (f id) hacc
  rw [Session.playerList, htaken, applyAll, List.foldl_append, ← applyAll, ← applyAll,
    ← Session.playerList]
  obtain ⟨hin, hout⟩ := hlists id s.playerList profile
  have hpresent : game'.Present profile ↔ game.Present profile := by
    simp only [Present, hsent.has]
    exact Iff.rfl
  rw [hpresent]
  constructor
  · intro hmem
    by_contra hgone
    obtain ⟨hmem, hqueue⟩ := hout hgone hmem
    by_cases hq : .join id ∈ game.pendingPlayerInfo
    · rw [h.fresh id s hs hq hbefore] at hmem
      exact absurd hmem (Finset.notMem_empty profile)
    · rcases h.sound id s hs hq hbefore profile hmem with ⟨other, hhas, -⟩ | hleave
      · exact hgone ⟨other, hhas⟩
      · exact hqueue hleave
  · intro hthere
    obtain ⟨other, hhas⟩ := hthere
    refine hin ((kept_congr ?_ profile _).mpr (hkept profile ⟨other, hhas⟩)) ?_
    · exact fun _ _ => Iff.rfl
    by_cases hother : .join other ∈ game.pendingPlayerInfo
    · exact .inr ⟨other, hother, .inl hhas⟩
    by_cases hq : .join id ∈ game.pendingPlayerInfo
    · have hne : other ≠ id := fun heq => hother (heq ▸ hq)
      exact .inr ⟨id, hq, .inr ⟨rfl, other, hne, hhas⟩⟩
    · exact .inl (h.complete id s hs hq hbefore profile ⟨other, hhas, hother⟩)

theorem listed_of_converge {game : Game} (hk : game.Keyed) (hr : game.AllReady)
    (hqueue : game.pendingPlayerInfo = []) (h : game.ListsConverge) : Listed game := by
  refine ⟨hk, hr, fun id s hs hq => ?_, fun id s hs _ hacc profile hmem => ?_,
    fun id s hs _ hacc profile hann => ?_⟩
  · simp [hqueue] at hq
  · obtain ⟨other, hhas⟩ := (h id s hs hacc profile).mp hmem
    exact .inl ⟨other, hhas, by simp [hqueue]⟩
  · obtain ⟨other, hhas, -⟩ := hann
    exact (h id s hs hacc profile).mpr ⟨other, hhas⟩

theorem step_listed {game game' : Game} {label : Label} (h : Listed game) (ht : game.Told label)
    (hstep : game.step label = .ok game') : Listed game' := by
  cases label with
  | event event =>
    cases hstep
    cases event with
    | joined id profile capacity admission =>
      cases admission with
      | refused reason => exact h
      | admitted gameMode burst => exact h.join ht profile capacity gameMode burst
    | left id => exact h.leave id
  | overflow =>
    simp only [step] at hstep
    split at hstep
    · cases hstep
      exact h
    · next id rest hover =>
      cases hstep
      have hid := ht id (by simp [hover])
      exact @Listed.dropSession { game with overflowed := rest }
        (h.alike (.refl game) (fun _ => Iff.rfl) (fun _ hp => hp)) _ hid
  | disconnect =>
    simp only [step] at hstep
    split at hstep
    · cases hstep
      exact h
    · next id reason rest hqueued =>
      cases hstep
      have hid := ht (id, reason) (by simp [hqueued])
      exact @Listed.dropSession { game with pendingDisconnects := rest }
        (h.alike (.refl game) (fun _ => Iff.rfl) (fun _ hp => hp)) _ hid
  | kick target reason =>
    cases hstep
    unfold kickPlayer
    split
    · exact h.alike (.refl game) (fun _ => Iff.rfl) (fun _ hp => hp)
    · exact h
  | send id packetId =>
    cases hstep
    exact h.sendOther id packetId
  | setGameMode id gameMode =>
    cases hstep
    exact h.modify id fun s => ⟨rfl, rfl, rfl, fun hacc => ⟨hacc, rfl⟩⟩
  | read id count =>
    cases hstep
    exact h.modify id fun s => ⟨rfl, rfl, rfl, fun hacc => ⟨hacc, rfl⟩⟩
  | close id =>
    cases hstep
    exact h.modify id fun s => ⟨rfl, rfl, rfl, fun hacc => ⟨hacc, rfl⟩⟩
  | newReport =>
    cases hstep
    exact h.alike (.refl game) (fun _ => Iff.rfl) (fun _ hp => hp)
  | broadcast =>
    obtain ⟨hqueue, hk, hr, hlists⟩ := h.broadcast ht hstep
    exact listed_of_converge hk hr hqueue hlists

/-! ## Runs -/

/-- The state after a run, and whether the steps told the clients of what they did. -/
def ToldAlong (labels : List Label) : Prop :=
  Along stepServer (fun server label => ∀ game, server = .ok game → game.Told label) (.ok empty) labels

theorem run_listed {labels : List Label} (h : ToldAlong labels) {game : Game}
    (hrun : run stepServer (.ok empty) labels = .ok game) : Listed game := by
  refine @run_inv_along _ _ stepServer (fun server => ∀ game, server = .ok game → Listed game) _
    ?_ _ _ ?_ h game hrun
  · intro server label hinv htold game' hok
    obtain ⟨before, hbefore, hstep⟩ := Framing.bind_ok hok
    exact step_listed (hinv before hbefore) (htold before hbefore) hstep
  · intro game hempty
    cases hempty
    exact listed_empty

/-- After every broadcast of a run that tells the clients what it does, each client that took all
its packets lists the profiles of the sessions. -/
theorem lists_converge (labels : List Label) (h : ToldAlong (labels ++ [.broadcast])) {game : Game}
    (hrun : run stepServer (.ok empty) (labels ++ [.broadcast]) = .ok game) : game.ListsConverge := by
  obtain ⟨hbefore, hlast, -⟩ := (along_append labels [.broadcast] _).mp h
  rw [run_append] at hrun
  obtain ⟨before, hok, hstep⟩ := Framing.bind_ok hrun
  exact ((run_listed hbefore hok).broadcast (hlast before hok) hstep).2.2.2

/-! ## Two players -/

def alex : GameProfile := ⟨1, ['A'], []⟩

def steve : GameProfile := ⟨2, ['S'], []⟩

/-- Both are in and announced. -/
def bothJoined : List Label :=
  [.event (.joined 1 alex 8 (.admitted 0 [])), .event (.joined 2 steve 8 (.admitted 0 [])), .broadcast]

theorem lists_converge_left :
    ∃ game, run stepServer (.ok empty) (bothJoined ++ [.event (.left 2), .broadcast]) = .ok game ∧
      game.ListsConverge := by
  refine ⟨_, rfl, lists_converge (bothJoined ++ [.event (.left 2)]) ?_ rfl⟩
  refine ⟨?_, ?_, ?_, ?_, ?_, trivial⟩
  · intro game hgame s hs
    cases hgame
    exact nomatch hs
  · intro game hgame s hs
    cases hgame
    exact nomatch hs
  · intro game hgame profile _
    cases hgame
    trivial
  · intro game _
    trivial
  · intro game hgame profile hthere
    cases hgame
    refine ⟨fun hgone => ?_, trivial⟩
    obtain ⟨id, s, hs, hprofile⟩ := hthere
    have halone := List.mem_singleton.mp (show (id, s) ∈ [_] from OrdMap.mem_entries.mpr hs)
    cases halone
    exact absurd (hprofile.trans hgone.symm) (by decide)

/-- Steve is kicked, and the entry of a player who is not there stays with Alex. -/
theorem dropped_player_stays : ¬∀ (labels : List Label) (game : Game),
    run stepServer (.ok empty) (labels ++ [.broadcast]) = .ok game → game.ListsConverge := by
  intro h
  have hlists := h (bothJoined ++ [.kick 2 [], .disconnect]) _ rfl 1 _ rfl rfl steve.id
  obtain ⟨id, s, hs, hprofile⟩ := hlists.mp (by decide)
  have halone := List.mem_singleton.mp (show (id, s) ∈ [_] from OrdMap.mem_entries.mpr hs)
  cases halone
  exact absurd hprofile (by decide)

/-- Nor does a removal that comes after the join of the same profile spare the new session. -/
example : ∃ game s, run stepServer (.ok empty) (bothJoined ++
      [.event (.joined 3 alex 8 (.admitted 0 [])), .event (.left 1), .broadcast]) = .ok game ∧
    game.sessions.get? 2 = some s ∧ s.outbound.refused = false ∧ alex.id ∉ s.playerList ∧
    (game.sessions.get? 3).isSome :=
  ⟨_, _, rfl, rfl, rfl, by decide, rfl⟩

end Game
end Apoptosis.L2.Players
