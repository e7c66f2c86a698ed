import Apoptosis.L1Encoding.FrameCodec
import Apoptosis.L1Encoding.LoginPackets
import Apoptosis.L1Encoding.PacketCipher
/-!
# One connection (`network/src/connection.rs`)

The task of a connection reads packets, writes packets and tells the game loop
what the client does. `Phase` is where it waits; `turn` is what it does from
one wait to the next. A turn gets from outside what the socket gave, what else
was ready, how many more packets the socket takes and how many more events the
queue of the game loop takes; a failed write ends the connection.

`trace` lists what the connection did, in order: packets it took, answers of the
session server, packets that went out, as frames and as bytes, and events, with
whether the queue took them.

Parameters (`Host`): the payloads of the packets, RSA, AES and the session hash,
MD5, the decoder of play intents, the captured registry payload.
-/
namespace Apoptosis.L2.Connection
open Apoptosis.Core Apoptosis.Core.Codec Apoptosis.L1.Login Apoptosis.L1.Wire
open Apoptosis.L1 (PacketCipher)
open Apoptosis.L1.Frame (RawPacket)
open Apoptosis.L1.Components.WireRead (utf8Bytes)

/-! ## Profiles -/

/-- mirrors crates/protocol/src/packets/login.rs:183-190 (`ProfileProperty`) -/
structure ProfileProperty where
  name : String
  value : String
  signature : Option String
  deriving DecidableEq, Repr

/-- mirrors crates/network/src/auth.rs:27-36 (`GameProfile`) -/
structure GameProfile where
  id : BitVec 128
  name : String
  properties : List ProfileProperty
  deriving DecidableEq, Repr

/-- Byte `i` of sixteen, the first in front. -/
def byteAt (i : Nat) (byte : BitVec 8) : BitVec 128 := byte.setWidth 128 <<< (8 * (15 - i))

/-- mirrors crates/network/src/auth.rs:39-51 (`offline_profile`) -/
def offlineProfile (md5 : Bytes → BitVec 128) (name : String) : GameProfile :=
  let digest := md5 (utf8Bytes ("OfflinePlayer:" ++ name))
  let kept := digest &&& ~~~(byteAt 6 0xF0) &&& ~~~(byteAt 8 0xC0)
  ⟨kept ||| byteAt 6 0x30 ||| byteAt 8 0x80, name, []⟩

/-- mirrors crates/network/src/auth.rs:110-121 (`validate_username`); `debug` is `{:?}` -/
def validateUsername (debug : String → String) (name : String) : ServerResult Unit :=
  if name ≠ "" ∧ name.length ≤ 16 ∧ name.toList.all (fun c => c.isAlphanum || c == '_') then .ok ()
  else
    let quoted := debug name
    .error (.invalidAction s!"invalid username {quoted}")

/-! ## Packets -/

/-! The packet ids of a client (mirrors crates/protocol/src/ids.rs:52-189). -/
namespace serverbound

def handshake.INTENTION : BitVec 32 := 0
def status.STATUS_REQUEST : BitVec 32 := 0
def status.PING_REQUEST : BitVec 32 := 1
def login.HELLO : BitVec 32 := 0
def login.KEY : BitVec 32 := 1
def login.LOGIN_ACKNOWLEDGED : BitVec 32 := 3
def config.CLIENT_INFORMATION : BitVec 32 := 0
def config.FINISH_CONFIGURATION : BitVec 32 := 3
def config.KEEP_ALIVE : BitVec 32 := 4
def config.PONG : BitVec 32 := 5
def config.SELECT_KNOWN_PACKS : BitVec 32 := 7
def play.CLIENT_INFORMATION : BitVec 32 := 14
def play.CONFIGURATION_ACKNOWLEDGED : BitVec 32 := 16
def play.KEEP_ALIVE : BitVec 32 := 28
def play.PING_REQUEST : BitVec 32 := 38

end serverbound

/-! The ids of what a server sends (mirrors crates/protocol/src/ids.rs:178-290). -/
namespace clientbound

def status.STATUS_RESPONSE : BitVec 32 := 0
def status.PONG_RESPONSE : BitVec 32 := 1
def login.LOGIN_DISCONNECT : BitVec 32 := 0
def login.HELLO : BitVec 32 := 1
def login.LOGIN_FINISHED : BitVec 32 := 2
def login.LOGIN_COMPRESSION : BitVec 32 := 3
def config.DISCONNECT : BitVec 32 := 2
def config.FINISH_CONFIGURATION : BitVec 32 := 3
def config.UPDATE_ENABLED_FEATURES : BitVec 32 := 12
def config.SELECT_KNOWN_PACKS : BitVec 32 := 14
def play.DISCONNECT : BitVec 32 := 32
def play.KEEP_ALIVE : BitVec 32 := 44
def play.LOGIN : BitVec 32 := 49
def play.PONG_RESPONSE : BitVec 32 := 62
def play.SET_CHUNK_CACHE_CENTER : BitVec 32 := 94
def play.SET_CHUNK_CACHE_RADIUS : BitVec 32 := 95
def play.START_CONFIGURATION : BitVec 32 := 118

end clientbound

/-- mirrors crates/protocol/src/text.rs:29-46 (`TextComponent`) -/
inductive TextComponent where
  | literal (text : String)
  | translatable (key fallback : String)
  deriving DecidableEq, Repr

/-- mirrors crates/protocol/src/packets/play/mod.rs:128-169 (`JoinGame`) -/
structure JoinGame where
  entityId : Int
  hardcore : Bool
  dimensionNames : List String
  maxPlayers : Int
  viewDistance : Int
  simulationDistance : Int
  reducedDebugInfo : Bool
  enableRespawnScreen : Bool
  limitedCrafting : Bool
  dimensionTypeId : Int
  dimensionName : String
  hashedSeed : Int
  gameMode : Nat
  previousGameMode : Int
  isDebug : Bool
  isFlat : Bool
  deathLocation : Option (String × Int)
  portalCooldown : Int
  seaLevel : Int
  enforceSecureChat : Bool
  deriving DecidableEq, Repr

/-- The packets the connection sends: its own, those of the configuration and those of the game
loop. -/
inductive Clientbound where
  | statusResponse (json : String)
  | statusPong (payload : BitVec 64)
  | encryptionRequest (serverId : String) (publicKey verifyToken : Bytes) (shouldAuthenticate : Bool)
  | loginDisconnect (reason : TextComponent)
  | setCompression (threshold : BitVec 32)
  | loginSuccess (uuid : BitVec 128) (name : String) (properties : List ProfileProperty)
  | configDisconnect (reason : TextComponent)
  | playDisconnect (reason : TextComponent)
  | startConfiguration
  | joinGame (join : JoinGame)
  | setChunkCacheCenter (x z : Int)
  | setChunkCacheRadius (radius : Int)
  | keepAlive (id : BitVec 64)
  | playPong (id : BitVec 32)
  | configuration (raw : RawPacket)
  | game (raw : RawPacket)
  deriving DecidableEq

/-- `Packet::ID` -/
def Clientbound.id : Clientbound → BitVec 32
  | statusResponse _ => clientbound.status.STATUS_RESPONSE
  | statusPong _ => clientbound.status.PONG_RESPONSE
  | encryptionRequest .. => clientbound.login.HELLO
  | loginDisconnect _ => clientbound.login.LOGIN_DISCONNECT
  | setCompression _ => clientbound.login.LOGIN_COMPRESSION
  | loginSuccess .. => clientbound.login.LOGIN_FINISHED
  | configDisconnect _ => clientbound.config.DISCONNECT
  | playDisconnect _ => clientbound.play.DISCONNECT
  | startConfiguration => clientbound.play.START_CONFIGURATION
  | joinGame _ => clientbound.play.LOGIN
  | setChunkCacheCenter _ _ => clientbound.play.SET_CHUNK_CACHE_CENTER
  | setChunkCacheRadius _ => clientbound.play.SET_CHUNK_CACHE_RADIUS
  | keepAlive _ => clientbound.play.KEEP_ALIVE
  | playPong _ => clientbound.play.PONG_RESPONSE
  | configuration raw | game raw => raw.id

/-- mirrors crates/network/src/bridge.rs:203-238 (`ClientEventKind`) -/
inductive ClientEventKind (Intent : Type) where
  | joined (profile : GameProfile)
  | peerAddress (ip : String)
  | intent (intent : Intent)
  | unmodelled (packetId : BitVec 32)
  | viewDistance (distance : BitVec 8)
  | left

/-- What a connection did. -/
inductive Action (Intent : Type) where
  | took (packet : RawPacket)
  | asked (name hash : String) (secret : Bytes) (answer : ServerResult GameProfile)
  | wrote (now : Nat) (frame sent : Bytes) (raw : RawPacket) (packet : Clientbound)
  | told (kind : ClientEventKind Intent) (queued : Bool)

/-! ## The server around a connection -/

/-- mirrors crates/network/src/listener.rs:24-53 (`NetworkSettings`) -/
structure NetworkSettings where
  maxPlayers : Int
  onlineMode : Bool
  compressionThreshold : BitVec 32
  viewDistance : Int
  versionName : String
  protocolVersion : BitVec 32
  keepaliveInterval : Nat
  keepaliveTimeout : Nat
  /-- `public_der` of the login identity -/
  onlineIdentity : Option Bytes

/-- What a connection uses of the rest of the server. -/
structure Host (Intent : Type) where
  settings : NetworkSettings
  /-- a game loop is attached -/
  game : Bool
  peerIp : String
  zlib : StreamCodec
  md5 : Bytes → BitVec 128
  debug : String → String
  decrypt : Bytes → ServerResult Bytes
  serverIdHash : String → Bytes → Bytes → String
  aes : L1.Block → L1.Block → L1.Block
  statusJson : String
  /-- the payload of a packet of the connection's own -/
  encode : Clientbound → ServerResult Bytes
  capturedPayload : ServerResult (List RawPacket)
  decodeIntent : BitVec 32 → Bytes → ServerResult (Option Intent)

/-- What one turn gets from outside. -/
structure Input where
  now : Nat
  /-- shutdown was requested when the turn began -/
  shutdown : Bool
  /-- what the channel from the game loop gave, where it was ready -/
  outbound : Option (Option RawPacket)
  /-- what `read_packet` gave, where it was ready -/
  read : Option (ServerResult (Option RawPacket))
  /-- `OnlineIdentity::verify_token` -/
  token : Bytes
  /-- `authenticate_from` -/
  authenticate : String → String → String → ServerResult GameProfile
  /-- packets the socket takes before a write fails -/
  room : Nat
  /-- free places in the queue of the game loop -/
  queue : Nat

/-- mirrors crates/network/src/connection.rs:80-115 (`Session`), with the threshold of its codec -/
structure Session where
  compression : Option Int
  profile : Option GameProfile
  clientLocale : Option String
  clientViewDistance : Option (BitVec 8)
  nextKeepaliveId : BitVec 64
  pendingKeepalive : Option (BitVec 64)
  pendingSince : Option Nat
  /-- `event_sender` is set -/
  eventSender : Bool
  /-- its reading half moves in `read_packet` -/
  cipher : Option PacketCipher
  joined : Bool
  refused : Bool
  codecThreshold : Option Int
  deriving DecidableEq

/-- mirrors crates/network/src/connection.rs:113-134 (`Session::new`) -/
def Session.new : Session where
  compression := none
  profile := none
  clientLocale := none
  clientViewDistance := none
  nextKeepaliveId := 1
  pendingKeepalive := none
  pendingSince := none
  eventSender := false
  cipher := none
  joined := false
  refused := false
  codecThreshold := none

/-- A session in a turn, and what the connection did so far. -/
structure Task (Intent : Type) where
  session : Session
  now : Nat
  room : Nat
  queue : Nat
  trace : List (Action Intent)

abbrev Conn (Intent α : Type) := ExceptT ServerError (StateM (Task Intent)) α

/-- Where a connection waits. `back` of `configuration` is whether the game's channel is open
where play was left for it, `none` before the first play. -/
inductive Phase where
  | handshake
  | status
  | hello
  | key (name : String) (token : Bytes)
  | acknowledge
  | configuration (back : Option Bool)
  | play (outbound : Bool) (lastKeepaliveSent : Nat)
  | closed (outcome : ServerResult Unit)

section
variable {Intent : Type}

/-- mirrors crates/protocol/src/packets/mod.rs:45-47 (`Packet::to_raw`) and
crates/protocol/src/packets/login.rs:276-280 (`SetCompression::encode`) -/
def toRaw (host : Host Intent) (packet : Clientbound) : ServerResult RawPacket :=
  match packet with
  | .configuration raw | .game raw => .ok raw
  | .setCompression threshold => .ok ⟨packet.id, writeVarint threshold⟩
  | packet => do return ⟨packet.id, ← host.encode packet⟩

/-- A step that may fail without touching the session. -/
def lift {α : Type} (r : ServerResult α) : Conn Intent α := fun s => (r, s)

def change (f : Session → Session) : Conn Intent Unit := fun t => (.ok (), { t with session := f t.session })

def did (a : Action Intent) : Conn Intent Unit := fun t => (.ok (), { t with trace := t.trace ++ [a] })

/-! ## Writing -/

def encipher (host : Host Intent) (cipher : Option PacketCipher) (frame : Bytes) : Bytes × Option PacketCipher :=
  match cipher with
  | none => (frame, none)
  | some cipher =>
    let (sent, cipher) := cipher.encryptBytes host.aes frame
    (sent, some cipher)

/-- mirrors crates/network/src/connection.rs:976-991 and 1001-1006 (`send_raw`, `write_error`) -/
def sendRaw (host : Host Intent) (packet : Clientbound) (raw : RawPacket) : Conn Intent Unit := fun t =>
  match L1.Frame.encode host.zlib raw t.session.compression with
  | .error e => (.error e, t)
  | .ok frame =>
    let (sent, cipher) := encipher host t.session.cipher frame
    let t := { t with session := { t.session with cipher } }
    match t.room with
    | 0 =>
      let id := raw.id.toInt
      let written := sent.length
      (.error (.operational s!"the client's socket refused packet {id} ({written} bytes)"), t)
    | room + 1 => (.ok (), { t with room, trace := t.trace ++ [.wrote t.now frame sent raw packet] })

/-- mirrors crates/network/src/connection.rs:254-262 (`Session::send_typed`) -/
def sendTyped (host : Host Intent) (packet : Clientbound) : Conn Intent Unit := do
  let raw ← lift (toRaw host packet)
  sendRaw host packet raw

/-- mirrors crates/protocol/src/ids.rs:29-40 (`ConnectionState`) -/
inductive ConnectionState where
  | handshake | status | login | configuration | play
  deriving DecidableEq, Repr

/-- mirrors crates/network/src/connection.rs:279-320 (`Session::kick`) -/
def kick (host : Host Intent) (state : ConnectionState) (reason : TextComponent) : Conn Intent Unit := fun t =>
  let t := match state with
    | .login => (sendTyped host (.loginDisconnect reason) t).2
    | .configuration => (sendTyped host (.configDisconnect reason) t).2
    | .play => (sendTyped host (.playDisconnect reason) t).2
    | .handshake | .status => t
  (.ok (), { t with session := { t.session with refused := true } })

/-! ## The game loop's queue -/

/-- mirrors crates/network/src/bridge.rs:169-182 (`EventSender::try_send`) -/
def trySend (kind : ClientEventKind Intent) : Conn Intent Unit := fun t =>
  (.ok (), { t with queue := t.queue - 1, trace := t.trace ++ [.told kind (0 < t.queue)] })

/-- mirrors crates/network/src/connection.rs:895-901 (`Session::report`) -/
def report (kind : ClientEventKind Intent) : Conn Intent Unit := do
  if (← get).session.eventSender then trySend kind

/-- The settings of the configuration, for the game loop. -/
def forwardDistance : Conn Intent Unit := do
  match (← get).session.clientViewDistance with
  | some distance => report (.viewDistance distance)
  | none => pure ()

/-- mirrors crates/network/src/connection.rs:867-892 (`Session::publish_join`): whether there is a
channel from the game loop -/
def publishJoin (host : Host Intent) : Conn Intent Bool := do
  if host.game then
    match (← get).session.profile with
    | none => return false
    | some profile =>
      trySend (.peerAddress host.peerIp)
      trySend (.joined profile)
      change fun s => { s with eventSender := true }
      forwardDistance
      change fun s => { s with joined := true }
      return true
  else return false

/-! ## Handshake and status -/

def expected (what : String) (id : BitVec 32) : ServerError :=
  let id := id.toInt
  .protocol s!"expected {what}, got packet id {id}"

/-- mirrors crates/network/src/connection.rs:403-440 (`Session::run`, after its read) -/
def handshakeRead (host : Host Intent) (packet : RawPacket) : Conn Intent Phase := do
  if packet.id ≠ serverbound.handshake.INTENTION then throw (expected "handshake" packet.id)
  else
    let handshake ← lift (Handshake.decode packet.payload)
    if handshake.intent = .status then return .status
    else if handshake.protocolVersion ≠ host.settings.protocolVersion then
      let version := host.settings.versionName
      let reason :=
        if handshake.protocolVersion.toInt < host.settings.protocolVersion.toInt then
          s!"Outdated client! Please use {version}"
        else s!"Outdated server! I'm still on {version}"
      kick host .login (.literal reason)
      return .closed (.ok ())
    else return .hello

/-- mirrors crates/network/src/connection.rs:453-477 (`Session::run_status`, one turn of its loop) -/
def statusRead (host : Host Intent) (packet : RawPacket) : Conn Intent Phase := do
  if packet.id = serverbound.status.STATUS_REQUEST then
    lift (StatusRequest.decode packet.payload)
    sendTyped host (.statusResponse host.statusJson)
    return .status
  else if packet.id = serverbound.status.PING_REQUEST then
    let payload ← lift (StatusPing.decode packet.payload)
    sendTyped host (.statusPong payload)
    return .closed (.ok ())
  else return .status

/-! ## Login -/

/-- mirrors crates/core/src/error.rs:19-50 (the `Display` of `ServerError`) -/
def display : ServerError → String
  | .protocol msg => s!"malformed protocol input: {msg}"
  | .invalidAction msg => s!"invalid player action: {msg}"
  | .operational msg => s!"operational failure: {msg}"
  | .corruptData msg => s!"persistent data corruption: {msg}"
  | .invariant msg => s!"internal invariant violated: {msg}"
  | .shutdown => "shutdown requested"

def unverified : TextComponent :=
  .translatable "multiplayer.disconnect.unverified_username" "Failed to verify username!"

/-- `secret_array`, sixteen bytes of the secret -/
def secretArray (secret : Bytes) : L1.Block := .ofFn fun i => secret.getD i 0

/-- mirrors crates/network/src/online.rs:37 -/
def SHARED_SECRET_LEN : Nat := 16

/-- mirrors crates/network/src/online.rs:415-424 (`fixed_time_eq`) -/
def fixedTimeEq (a b : Bytes) : Bool :=
  if a.length ≠ b.length then false
  else (a.zip b).foldl (fun diff xy => diff ||| (xy.1 ^^^ xy.2)) (0 : UInt8) == 0

/-- The compression negotiation of `run_login`. -/
def announceCompression (host : Host Intent) : Conn Intent Unit := do
  let threshold := host.settings.compressionThreshold
  if threshold.toInt ≥ 0 then
    sendTyped host (.setCompression threshold)
    change fun s => { s with codecThreshold := some (max threshold.toInt 0), compression := some threshold.toInt }

/-- mirrors crates/network/src/connection.rs:523-547 (`Session::run_login`, from the profile to the
wait for the acknowledgement) -/
def welcome (host : Host Intent) (profile : GameProfile) : Conn Intent Phase := do
  announceCompression host
  sendTyped host (.loginSuccess profile.id profile.name profile.properties)
  change fun s => { s with profile := some profile }
  return .acknowledge

/-- mirrors crates/network/src/connection.rs:159-186 (`Session::run_online_login`, up to its read) -/
def requestEncryption (host : Host Intent) (name : String) (token : Bytes) : Conn Intent Phase := do
  match host.settings.onlineIdentity with
  | none =>
    kick host .login (.literal "online mode has no login identity")
    return .closed (.ok ())
  | some publicDer =>
    sendTyped host (.encryptionRequest "" publicDer token true)
    return .key name token

/-- mirrors crates/network/src/connection.rs:496-519 (`Session::run_login`, from the first packet to
the profile) -/
def helloRead (host : Host Intent) (token : Bytes) (packet : RawPacket) : Conn Intent Phase := do
  if packet.id ≠ serverbound.login.HELLO then throw (expected "LoginStart" packet.id)
  else
    let loginStart ← lift (LoginStart.decode packet.payload)
    match validateUsername host.debug loginStart.name with
    | .error invalid =>
      let invalid := display invalid
      kick host .login (.literal s!"Invalid username: {invalid}")
      return .closed (.ok ())
    | .ok () =>
      if host.settings.onlineMode then requestEncryption host loginStart.name token
      else welcome host (offlineProfile host.md5 loginStart.name)

/-- mirrors crates/network/src/connection.rs:191-252 (`Session::run_online_login`, after its read) -/
def keyRead (host : Host Intent) (authenticate : String → String → String → ServerResult GameProfile)
    (name : String) (token : Bytes) (packet : RawPacket) : Conn Intent Phase := do
  if packet.id ≠ serverbound.login.KEY then throw (expected "EncryptionResponse" packet.id)
  else
    let response ← lift (EncryptionResponse.decode packet.payload)
    let secret ← lift (host.decrypt response.sharedSecret)
    if secret.length ≠ SHARED_SECRET_LEN then
      let len := secret.length
      throw (.protocol s!"shared secret is {len} bytes, not {SHARED_SECRET_LEN}")
    else
      let echoed ← lift (host.decrypt response.verifyToken)
      if fixedTimeEq echoed token then
        let hash := host.serverIdHash "" secret (host.settings.onlineIdentity.getD [])
        let answer := authenticate name hash host.peerIp
        did (.asked name hash secret answer)
        match answer with
        | .ok profile =>
          change fun s => { s with cipher := some (.new (secretArray secret)) }
          welcome host profile
        | .error (.invalidAction _) =>
          kick host .login unverified
          return .closed (.ok ())
        | .error e =>
          kick host .login (.translatable "multiplayer.disconnect.authservers_down"
            "Authentication servers are unavailable")
          throw e
      else
        kick host .login unverified
        return .closed (.ok ())

/-! ## Configuration -/

/-- mirrors crates/network/src/registry_data/mod.rs:133-166 (`configuration_packets`); the known pack
and the feature flags go through their encoders -/
def configurationPackets (host : Host Intent) : ServerResult (List RawPacket) := do
  let version := host.settings.versionName
  let packs ← SelectKnownPacks.encode
    [⟨"minecraft", "core", if version = "" then "26.1.2" else version⟩]
  let flag ← writeString "minecraft:vanilla"
  let captured ← host.capturedPayload
  return [⟨clientbound.config.SELECT_KNOWN_PACKS, packs⟩,
    ⟨clientbound.config.UPDATE_ENABLED_FEATURES, writeVarint 1 ++ flag⟩] ++ captured ++
    [⟨clientbound.config.FINISH_CONFIGURATION, []⟩]

/-- The loop of `send_configuration`. -/
def sendAll (host : Host Intent) : List RawPacket → Conn Intent Unit
  | [] => pure ()
  | packet :: packets => do
    sendRaw host (.configuration packet) packet
    sendAll host packets

/-- mirrors crates/network/src/connection.rs:604-609 (`Session::send_configuration`) -/
def sendConfiguration (host : Host Intent) : Conn Intent Unit := do
  let packets ← lift (configurationPackets host)
  sendAll host packets

/-- mirrors crates/network/src/connection.rs:549-575 (`Session::run_login`, its last loop) and 584
(the start of `run_configuration`) -/
def acknowledgeRead (host : Host Intent) (packet : RawPacket) : Conn Intent Phase := do
  if packet.id = serverbound.login.LOGIN_ACKNOWLEDGED then
    lift (LoginAcknowledged.decode packet.payload)
    sendConfiguration host
    return .configuration none
  else return .acknowledge

/-- mirrors crates/network/src/connection.rs:614-647 (`Session::wait_for_configuration_ack`, one
packet): whether the client is done -/
def configurationPacket (packet : RawPacket) : Conn Intent Bool := do
  if packet.id = serverbound.config.SELECT_KNOWN_PACKS then
    let _ ← lift (SelectKnownPacks.decode packet.payload)
    return false
  else if packet.id = serverbound.config.CLIENT_INFORMATION then
    let info ← lift (ClientInformation.decode packet.payload)
    change fun s =>
      { s with clientLocale := some info.locale, clientViewDistance := some info.viewDistance }
    return false
  else if packet.id = serverbound.config.FINISH_CONFIGURATION then
    lift (FinishConfigurationAck.decode packet.payload)
    return true
  else if packet.id = serverbound.config.KEEP_ALIVE then
    let _ ← lift (ConfigKeepAlive.decode packet.payload)
    return false
  else if packet.id = serverbound.config.PONG then
    let _ ← lift (ConfigPong.decode packet.payload)
    return false
  else return false

/-! ## Play -/

/-- mirrors crates/network/src/registry_data/mod.rs:32 -/
def OVERWORLD : String := "minecraft:overworld"

/-- mirrors crates/network/src/connection.rs:764-803 (`Session::enter_play`) -/
def enterPlay (host : Host Intent) : Conn Intent Unit := do
  match (← get).session.profile with
  | none => throw (.invariant "entered play without a profile")
  | some _ =>
    let settings := host.settings
    sendTyped host (.joinGame {
      entityId := 1
      hardcore := false
      dimensionNames := [OVERWORLD]
      maxPlayers := settings.maxPlayers
      viewDistance := settings.viewDistance
      simulationDistance := settings.viewDistance
      reducedDebugInfo := false
      enableRespawnScreen := true
      limitedCrafting := false
      dimensionTypeId := 0
      dimensionName := OVERWORLD
      hashedSeed := 0
      gameMode := 0
      previousGameMode := -1
      isDebug := false
      isFlat := false
      deathLocation := none
      portalCooldown := 0
      seaLevel := 63
      enforceSecureChat := false })
    sendTyped host (.setChunkCacheCenter 0 0)
    sendTyped host (.setChunkCacheRadius settings.viewDistance)

/-- The start of `run_play`: the game loop sends the join packets where there is one. -/
def beginPlay (host : Host Intent) : Conn Intent Bool := do
  let outbound ← publishJoin host
  if outbound then return true
  else
    enterPlay host
    return false

/-- What follows a configuration, the first and a later one. -/
def configurationRead (host : Host Intent) (back : Option Bool) (packet : RawPacket) : Conn Intent Phase := do
  let finished ← configurationPacket packet
  if finished then
    match back with
    | none =>
      let outbound ← beginPlay host
      return .play outbound (← get).now
    | some outbound =>
      enterPlay host
      change fun s => { s with pendingKeepalive := none, pendingSince := none }
      return .play outbound (← get).now
  else return .configuration back

/-- `if self.joined { self.report(..) }` -/
def reportJoined (kind : ClientEventKind Intent) : Conn Intent Unit := do
  if (← get).session.joined then report kind

/-- The last arm of `handle_play_packet`. -/
def handleIntent (host : Host Intent) (packet : RawPacket) : Conn Intent Unit := do
  match ← lift (host.decodeIntent packet.id packet.payload) with
  | some intent => reportJoined (.intent intent)
  | none => reportJoined (.unmodelled packet.id)

/-- mirrors crates/network/src/connection.rs:806-861 (`Session::handle_play_packet`) and 747-754 (the
`Reconfigure` arm, up to its read) -/
def playRead (host : Host Intent) (outbound : Bool) (lastKeepaliveSent : Nat) (packet : RawPacket) :
    Conn Intent Phase := do
  if packet.id = serverbound.play.KEEP_ALIVE then
    let id ← lift (KeepAlive.decode packet.payload)
    change fun s =>
      if s.pendingKeepalive = some id then { s with pendingKeepalive := none, pendingSince := none } else s
    return .play outbound lastKeepaliveSent
  else if packet.id = serverbound.play.PING_REQUEST then
    let id ← lift (PlayPingRequest.decode packet.payload)
    sendTyped host (.playPong id)
    return .play outbound lastKeepaliveSent
  else if packet.id = serverbound.play.CLIENT_INFORMATION then
    let info ← lift (ClientInformation.decode packet.payload)
    change fun s =>
      { s with clientLocale := some info.locale, clientViewDistance := some info.viewDistance }
    report (.viewDistance info.viewDistance)
    return .play outbound lastKeepaliveSent
  else if packet.id = serverbound.play.CONFIGURATION_ACKNOWLEDGED then
    lift (ConfigurationAcknowledged.decode packet.payload)
    sendTyped host .startConfiguration
    sendConfiguration host
    return .configuration (some outbound)
  else
    handleIntent host packet
    return .play outbound lastKeepaliveSent

/-- When the timer of the play loop fires. -/
def nextEvent (settings : NetworkSettings) (lastKeepaliveSent : Nat) (pendingSince : Option Nat) : Nat :=
  match pendingSince with
  | none => lastKeepaliveSent + settings.keepaliveInterval
  | some since => since + settings.keepaliveTimeout

/-- The timer branch of `run_play`. -/
def timerFired (host : Host Intent) (outbound : Bool) : Conn Intent Phase := do
  let t ← get
  if t.session.pendingKeepalive.isSome then
    kick host .play (.literal "Timed out")
    return .closed (.ok ())
  else
    let id := t.session.nextKeepaliveId
    change fun s =>
      { s with nextKeepaliveId := id + 1, pendingKeepalive := some id, pendingSince := some t.now }
    sendTyped host (.keepAlive id)
    return .play outbound t.now

/-- mirrors crates/network/src/connection.rs:53 (`READ_TIMEOUT`) -/
def READ_TIMEOUT : String := "read timeout"

/-! ## Turns -/

/-- A packet off the socket. -/
def took {α : Type} (next : RawPacket → Conn Intent α) (packet : RawPacket) : Conn Intent α := do
  did (.took packet)
  next packet

/-- A wait for one packet outside play: the end of the stream ends the connection with `eof`. -/
def awaited (eof : ServerResult Unit) (next : RawPacket → Conn Intent Phase)
    (read : ServerResult (Option RawPacket)) : Conn Intent Phase := do
  match ← lift read with
  | none => return .closed eof
  | some packet => took next packet

/-- mirrors crates/network/src/connection.rs:700-768 (`Session::run_play`, one turn of its biased
`select!`) -/
def playTurn (host : Host Intent) (input : Input) (outbound : Bool) (lastKeepaliveSent : Nat) :
    Conn Intent Phase := do
  let t ← get
  if input.shutdown then
    kick host .play (.literal "Server shutting down")
    throw .shutdown
  else if nextEvent host.settings lastKeepaliveSent t.session.pendingSince ≤ t.now then
    timerFired host outbound
  else
    match if outbound then input.outbound else none with
    | some (some raw) =>
      sendRaw host (.game raw) raw
      return .play outbound lastKeepaliveSent
    | some none => return .play outbound lastKeepaliveSent
    | none =>
      match input.read with
      | none => return .play outbound lastKeepaliveSent
      | some (.ok (some packet)) => took (playRead host outbound lastKeepaliveSent) packet
      | some (.ok none) => return .closed (.ok ())
      | some (.error e) =>
        if e = .protocol READ_TIMEOUT then return .play outbound lastKeepaliveSent else throw e

/-- One turn of the task. Outside play it is one whole read: without a result there is none. -/
def turn (host : Host Intent) (input : Input) : Phase → Conn Intent Phase
  | .closed outcome => return .closed outcome
  | .play outbound lastKeepaliveSent => playTurn host input outbound lastKeepaliveSent
  | phase =>
    match input.read with
    | none => return phase
    | some read =>
      match phase with
      | .handshake => awaited (.ok ()) (handshakeRead host) read
      | .status => awaited (.ok ()) (statusRead host) read
      | .hello => awaited (.ok ()) (helloRead host input.token) read
      | .key name token => awaited (.ok ()) (keyRead host input.authenticate name token) read
      | .acknowledge => awaited (.ok ()) (acknowledgeRead host) read
      | .configuration back =>
        if input.shutdown then throw .shutdown
        else awaited (.error (.protocol "client closed during configuration")) (configurationRead host back) read
      | phase => return phase

structure State (Intent : Type) where
  phase : Phase
  session : Session
  trace : List (Action Intent)

def State.start (Intent : Type) : State Intent := ⟨.handshake, .new, []⟩

/-- mirrors crates/network/src/connection.rs:349-352: the game loop is told that the player is
gone -/
def leave (t : Task Intent) : Task Intent := if t.session.joined then (report .left t).2 else t

def settle (phase : Phase) (t : Task Intent) : State Intent := ⟨phase, t.session, t.trace⟩

/-- mirrors crates/network/src/connection.rs:330-366 (`run_connection`), turn by turn -/
def step (host : Host Intent) (c : State Intent) (input : Input) : State Intent :=
  match c.phase with
  | .closed _ => c
  | phase =>
    let t : Task Intent := ⟨c.session, input.now, input.room, input.queue, c.trace⟩
    match turn host input phase t with
    | (.ok (.closed outcome), t) => settle (.closed outcome) (leave t)
    | (.ok phase, t) => settle phase t
    | (.error e, t) => settle (.closed (.error e)) (leave t)

end

end Apoptosis.L2.Connection
