import Apoptosis.Core.OrdMap
import Apoptosis.ServerError
/-!
# The player list (`server/src/game`: session.rs, tick.rs, mod.rs)

Who is in the session map, what waits to be told of it, and what each client's
queue has taken. The gates of a join (cap, whitelist, bans, stored player) and
the packets of its burst come with the event; all other packets are one kind.
-/
namespace Apoptosis.L2.Players
open Apoptosis.Core

abbrev Text := List Char
abbrev ConnectionId := Nat
abbrev Uuid := BitVec 128

/-! ## Packets -/

structure ProfileProperty where
  name : Text
  value : Text
  signature : Option Text
  deriving DecidableEq, Repr

/-- The entry of one player, with the fields its actions carry.
mirrors crates/protocol/src/packets/play/mod.rs:1985-2030 (`PlayerInfoEntry`) -/
structure PlayerInfoEntry where
  uuid : Uuid
  name : Text
  properties : List ProfileProperty
  gameMode : Int
  listed : Bool
  showHat : Bool
  deriving DecidableEq, Repr

/-- What a connection is sent. -/
inductive RawPacket
  | playerInfoUpdate (entries : List PlayerInfoEntry)
  | playerInfoRemove (profileIds : List Uuid)
  | playDisconnect (reason : Text)
  | other (packetId : Nat)
  deriving DecidableEq, Repr

def invariantError (msg : String) : ServerError := .invariant ("player_info_update: " ++ msg)

/-- mirrors crates/protocol/src/packets/play/mod.rs:2233-2265 (`write_profile_property`) -/
def ProfileProperty.write (property : ProfileProperty) : ServerResult Unit :=
  if 64 < property.name.length then
    .error (invariantError ("property name " ++ .ofList property.name ++
      " exceeds the 64-char wire cap"))
  else if 32767 < property.value.length then
    .error (invariantError ("property " ++ .ofList property.name ++
      " value exceeds the 32767-char wire cap"))
  else if property.signature.any (1024 < ·.length) then
    .error (invariantError ("property " ++ .ofList property.name ++
      " signature exceeds the 1024-char wire cap"))
  else .ok ()

/-- mirrors crates/protocol/src/packets/play/mod.rs:2053-2158 (`write_player_info_action`): the
entries of the tab list carry a value for each of their actions -/
def PlayerInfoEntry.write (entry : PlayerInfoEntry) : ServerResult Unit :=
  if 16 < entry.name.length then
    .error (invariantError ("name " ++ .ofList entry.name ++ " exceeds the 16-char wire cap"))
  else if 16 < entry.properties.length then
    .error (invariantError (toString entry.properties.length ++
      " profile properties exceed Vanilla's cap of 16"))
  else entry.properties.forM ProfileProperty.write

/-- mirrors crates/protocol/src/packets/play/mod.rs:2306-2325 (`PlayerInfoUpdate::encode`) -/
def playerInfoUpdate (entries : List PlayerInfoEntry) : ServerResult RawPacket :=
  if 2147483647 < entries.length then
    .error (.invariant ("length " ++ toString entries.length ++ " does not fit a VarInt"))
  else do
    entries.forM PlayerInfoEntry.write
    return .playerInfoUpdate entries

/-! ## Connections -/

/-- The queue to one connection: how many packets it may hold and holds, and all it has taken. -/
structure Outbound where
  capacity : Nat
  unread : Nat
  closed : Bool
  accepted : List RawPacket
  refused : Bool
  deriving DecidableEq, Repr

namespace Outbound

def new (capacity : Nat) : Outbound := ⟨capacity, 0, false, [], false⟩

/-- mirrors crates/network/src/bridge.rs:116-122 (`OutboundSender::try_send`) -/
def trySend (o : Outbound) (raw : RawPacket) : Bool × Outbound :=
  if o.closed || o.capacity ≤ o.unread then (false, { o with refused := true })
  else (true, { o with unread := o.unread + 1, accepted := o.accepted ++ [raw] })

/-- The connection reads from its end. -/
def read (o : Outbound) (n : Nat) : Outbound := { o with unread := o.unread - n }

def close (o : Outbound) : Outbound := { o with closed := true }

end Outbound

structure Session where
  id : ConnectionId
  profileId : Uuid
  name : Text
  properties : List ProfileProperty
  gameMode : Int
  ready : Bool
  outbound : Outbound
  deriving DecidableEq, Repr

/-- mirrors crates/server/src/game/mod.rs:722-737 (`PendingPlayerInfo`) -/
inductive PendingPlayerInfo
  | join (id : ConnectionId)
  | leave (profileId : Uuid)
  deriving DecidableEq, Repr

/-- mirrors crates/network/src/auth.rs:27-35 (`GameProfile`) -/
structure GameProfile where
  id : Uuid
  name : Text
  properties : List ProfileProperty
  deriving DecidableEq, Repr

/-- What the gates of a join come to: a refusal, or the mode the player has and the packets that
are sent before the player is ready. -/
inductive Admission
  | refused (reason : Text)
  | admitted (gameMode : Int) (burst : List Nat)

inductive ClientEvent
  | joined (id : ConnectionId) (profile : GameProfile) (capacity : Nat) (admission : Admission)
  | left (id : ConnectionId)

structure Game where
  sessions : OrdMap ConnectionId Session
  pendingPlayerInfo : List PendingPlayerInfo
  pendingDisconnects : List (ConnectionId × Text)
  /-- `overflowed` of the tick's report. -/
  overflowed : List ConnectionId

namespace Game

def empty : Game := ⟨.empty, [], [], []⟩

/-- mirrors crates/server/src/game/mod.rs:2333-2353 (`send_raw`) -/
def sendRaw (game : Game) (id : ConnectionId) (raw : RawPacket) : Bool × Game :=
  match game.sessions.get? id with
  | none => (false, game)
  | some session =>
    let (sent, outbound) := session.outbound.trySend raw
    let sessions := game.sessions.insert id { session with outbound := outbound }
    if sent then (true, { game with sessions := sessions })
    else (false, { game with
      sessions := sessions
      overflowed := if id ∈ game.overflowed then game.overflowed else game.overflowed ++ [id] })

/-- mirrors crates/server/src/game/mod.rs:2446-2452 (`broadcast_all`) -/
def broadcastAll (game : Game) (raw : RawPacket) : Game :=
  game.sessions.entries.foldl
    (fun g e => if e.2.ready then (g.sendRaw e.2.id raw).2 else g) game

/-- mirrors crates/server/src/game/session.rs:524-1005 (`join`): admission, the session, the burst,
readiness, and the change that the Broadcast phase will tell of -/
def join (game : Game) (id : ConnectionId) (profile : GameProfile) (capacity : Nat) :
    Admission → Game
  | .refused _ => game
  | .admitted gameMode burst =>
    let session : Session :=
      ⟨id, profile.id, profile.name, profile.properties, gameMode, false, .new capacity⟩
    let game := { game with sessions := game.sessions.insert id session }
    let game := burst.foldl (fun g packetId => (g.sendRaw id (.other packetId)).2) game
    let game := match game.sessions.get? id with
      | some session => { game with sessions := game.sessions.insert id { session with ready := true } }
      | none => game
    let game := { game with pendingPlayerInfo := game.pendingPlayerInfo ++ [PendingPlayerInfo.join id] }
    (game.sendRaw id (.other 0)).2

/-- mirrors crates/server/src/game/session.rs:433-518 (`leave`) -/
def leave (game : Game) (id : ConnectionId) : Game :=
  match game.sessions.get? id with
  | none => game
  | some session =>
    { game with
      sessions := game.sessions.erase id
      pendingPlayerInfo := game.pendingPlayerInfo ++ [PendingPlayerInfo.leave session.profileId] }

/-- mirrors crates/server/src/game/mod.rs:2490-2507 (`drop_session`); the last packet goes to a
queue that nobody has any more -/
def dropSession (game : Game) (id : ConnectionId) : Bool × Game :=
  match game.sessions.get? id with
  | none => (false, game)
  | some _ => (true, { game with sessions := game.sessions.erase id })

/-- mirrors crates/server/src/game/mod.rs:2473-2482 (`enforce_overflow`) -/
def enforceOverflow (game : Game) (ids : List ConnectionId) : Game :=
  ids.foldl (fun g id => (g.dropSession id).2) game

/-- mirrors crates/server/src/game/session.rs:1997-2001 (`kick_player`): `/kick` and `/ban` -/
def kickPlayer (game : Game) (target : ConnectionId) (reason : Text) : Game :=
  if (game.sessions.get? target).isSome then
    { game with pendingDisconnects := game.pendingDisconnects ++ [(target, reason)] }
  else game

/-- mirrors crates/server/src/game/tick.rs:4425-4447 (`apply_event`): the events that touch the
session map -/
def applyEvent (game : Game) : ClientEvent → Game
  | .joined id profile capacity admission => game.join id profile capacity admission
  | .left id => game.leave id

/-- mirrors crates/server/src/game/tick.rs:396-412 (`phase_network`) -/
def phaseNetwork (game : Game) (events : List ClientEvent) : Game :=
  let game := events.foldl applyEvent game
  let game := enforceOverflow { game with overflowed := [] } game.overflowed
  game.pendingDisconnects.foldl (fun g e => (g.dropSession e.1).2) { game with pendingDisconnects := [] }

/-- mirrors crates/server/src/game/tick.rs (`player_list_entry`) -/
def playerListEntry (session : Session) : PlayerInfoEntry :=
  ⟨session.profileId, session.name, session.properties, session.gameMode, true, true⟩

def sessionList (game : Game) : List Session := game.sessions.entries.map (·.2)

/-- Everyone already in the map, to the newcomer alone. -/
def sendExisting (game : Game) (id : ConnectionId) : ServerResult Game :=
  let existing := (game.sessionList.filter (·.id ≠ id)).map playerListEntry
  if existing = [] then .ok game
  else (playerInfoUpdate existing).map fun raw => (game.sendRaw id raw).2

/-- The newcomer to everyone, unless it is gone again. -/
def announce (game : Game) (id : ConnectionId) : ServerResult Game :=
  match game.sessions.get? id with
  | none => .ok game
  | some session => (playerInfoUpdate [playerListEntry session]).map game.broadcastAll

/-- One change of `broadcast_player_info`. -/
def broadcastChange (game : Game) : PendingPlayerInfo → ServerResult Game
  | .join id => do (← game.sendExisting id).announce id
  | .leave profileId => .ok (game.broadcastAll (.playerInfoRemove [profileId]))

/-- mirrors crates/server/src/game/tick.rs:3850-3899 (`broadcast_player_info`) -/
def broadcastPlayerInfo (game : Game) : ServerResult Game :=
  game.pendingPlayerInfo.foldlM broadcastChange { game with pendingPlayerInfo := [] }

end Game

/-! ## What a client shows -/

/-- A client's player list after one more packet. -/
def applyPacket (list : Finset Uuid) : RawPacket → Finset Uuid
  | .playerInfoUpdate entries => list ∪ (entries.map (·.uuid)).toFinset
  | .playerInfoRemove profileIds => list \ profileIds.toFinset
  | _ => list

def applyAll (list : Finset Uuid) (packets : List RawPacket) : Finset Uuid :=
  packets.foldl applyPacket list

/-- The profiles a client lists, from all that its queue took. -/
def Session.playerList (session : Session) : Finset Uuid := applyAll ∅ session.outbound.accepted

end Apoptosis.L2.Players
