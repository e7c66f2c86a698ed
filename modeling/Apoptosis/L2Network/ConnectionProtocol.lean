import Apoptosis.Core.Histories
import Apoptosis.L2Network.Connection
/-!
# The protocol of a connection

What a connection may do next, given what it did. `View` sums up a trace:
where the login is, the compression announced, the keepalive that waits for its
answer and what the game loop was told. `Allowed` is the rule for the next
action; `Lined` is the rule of the cipher, which only hears the line. No program
is in it.
-/
namespace Apoptosis.L2.Connection
open Apoptosis.Core Apoptosis.Core.Codec Apoptosis.L1.Login
open Apoptosis.L1 (PacketCipher)
open Apoptosis.L1.Frame (RawPacket)

/-! ## What a trace comes to -/

inductive Stage where
  | opening
  | status
  | greeting
  | named (name : String)
  | challenged (name : String) (token : Bytes)
  | keyed (name : String) (token : Bytes) (response : RawPacket)
  | granted (profile : GameProfile)
  | welcomed (profile : GameProfile)
  | configuring (profile : GameProfile)
  | playing (profile : GameProfile)
  | turnedAway
  | ended
  deriving DecidableEq

/-- What the game loop knows of the client. -/
inductive Presence where
  | unknown | addressed | present | gone
  deriving DecidableEq, Repr

structure View where
  stage : Stage
  threshold : Option Int
  waiting : Option (Nat × BitVec 64)
  beats : Nat
  presence : Presence
  deriving DecidableEq

def View.start : View := ⟨.opening, none, none, 0, .unknown⟩

variable {Intent : Type}

def afterHandshake (host : Host Intent) (packet : RawPacket) : Stage :=
  match Handshake.decode packet.payload with
  | .error _ => .turnedAway
  | .ok handshake =>
    if packet.id ≠ serverbound.handshake.INTENTION then .turnedAway
    else if handshake.intent = .status then .status
    else if handshake.protocolVersion ≠ host.settings.protocolVersion then .turnedAway
    else .greeting

def afterHello (host : Host Intent) (packet : RawPacket) : Stage :=
  match LoginStart.decode packet.payload with
  | .error _ => .turnedAway
  | .ok loginStart =>
    if packet.id ≠ serverbound.login.HELLO ∨ validateUsername host.debug loginStart.name ≠ .ok () then .turnedAway
    else if host.settings.onlineMode then .named loginStart.name
    else .granted (offlineProfile host.md5 loginStart.name)

/-- The keepalive a packet answers. -/
def answered (packet : RawPacket) : Option (BitVec 64) :=
  if packet.id = serverbound.play.KEEP_ALIVE then (KeepAlive.decode packet.payload).toOption else none

namespace Stage

def taking (host : Host Intent) (packet : RawPacket) : Stage → Stage
  | opening => afterHandshake host packet
  | greeting => afterHello host packet
  | challenged name token => if packet.id = serverbound.login.KEY then keyed name token packet else turnedAway
  | welcomed profile =>
    if packet.id = serverbound.login.LOGIN_ACKNOWLEDGED ∧ packet.payload.isEmpty then configuring profile
    else welcomed profile
  | configuring profile =>
    if packet.id = serverbound.config.FINISH_CONFIGURATION ∧ packet.payload.isEmpty then playing profile
    else configuring profile
  | stage => stage

def writing (packet : Clientbound) (stage : Stage) : Stage :=
  match packet with
  | .loginDisconnect _ | .configDisconnect _ | .playDisconnect _ | .statusPong _ => ended
  | .encryptionRequest _ _ token _ => match stage with | named name => challenged name token | stage => stage
  | .loginSuccess .. => match stage with | granted profile => welcomed profile | stage => stage
  | .startConfiguration => match stage with | playing profile => configuring profile | stage => stage
  | _ => stage

/-- A connection in this stage reads. -/
def Listens : Stage → Prop
  | named _ | keyed .. | granted _ | turnedAway | ended => False
  | _ => True

end Stage

def Presence.hearing : ClientEventKind Intent → Presence → Presence
  | .peerAddress _, _ => addressed
  | .joined _, _ => present
  | .left, _ => gone
  | _, presence => presence

namespace View

def taking (host : Host Intent) (packet : RawPacket) (v : View) : View :=
  { v with
    stage := v.stage.taking host packet
    waiting := v.waiting.filter fun beat => answered packet ≠ some beat.2 }

def asking (v : View) : ServerResult GameProfile → View
  | .ok profile => { v with stage := .granted profile }
  | .error _ => { v with stage := .turnedAway }

def writing (now : Nat) (packet : Clientbound) (v : View) : View :=
  let v := { v with stage := v.stage.writing packet }
  match packet with
  | .setCompression threshold => { v with threshold := some threshold.toInt }
  | .keepAlive id => { v with waiting := some (now, id), beats := v.beats + 1 }
  | .joinGame _ => { v with waiting := none }
  | _ => v

def next (host : Host Intent) (v : View) : Action Intent → View
  | .took packet => v.taking host packet
  | .asked _ _ _ answer => v.asking answer
  | .wrote now _ _ _ packet => v.writing now packet
  | .told kind _ => { v with presence := v.presence.hearing kind }

end View

def view (host : Host Intent) (trace : List (Action Intent)) : View := run (View.next host) .start trace

/-! ## The rule -/

/-- The threshold a server with these settings announces. -/
def NetworkSettings.announces (settings : NetworkSettings) : Option (BitVec 32) :=
  if settings.compressionThreshold.toInt ≥ 0 then some settings.compressionThreshold else none

def TIMED_OUT : TextComponent := .literal "Timed out"

/-- `packet` may be written. -/
def Sendable (host : Host Intent) (v : View) (now : Nat) : Clientbound → Prop
  | .statusResponse _ | .statusPong _ => v.stage = .status
  | .encryptionRequest serverId publicKey _ shouldAuthenticate =>
    serverId = "" ∧ host.settings.onlineIdentity = some publicKey ∧ shouldAuthenticate = true ∧
      ∃ name, v.stage = .named name
  | .loginDisconnect _ =>
    v.stage = .turnedAway ∨ (∃ name, v.stage = .named name) ∨ ∃ name token packet, v.stage = .keyed name token packet
  | .setCompression threshold =>
    v.threshold = none ∧ host.settings.announces = some threshold ∧ ∃ profile, v.stage = .granted profile
  | .loginSuccess uuid name properties =>
    v.threshold = host.settings.announces.map BitVec.toInt ∧ v.stage = .granted ⟨uuid, name, properties⟩
  | .configuration _ => ∃ profile, v.stage = .configuring profile
  | .keepAlive id =>
    (∃ profile, v.stage = .playing profile) ∧ v.waiting = none ∧ id = BitVec.ofNat 64 (v.beats + 1)
  | .playDisconnect reason =>
    (∃ profile, v.stage = .playing profile) ∧ (reason = TIMED_OUT →
      ∃ since id, v.waiting = some (since, id) ∧ since + host.settings.keepaliveTimeout ≤ now)
  | .startConfiguration | .joinGame _ | .setChunkCacheCenter _ _ | .setChunkCacheRadius _ | .playPong _
  | .game _ => ∃ profile, v.stage = .playing profile
  | .configDisconnect _ => False

/-- The game loop may be told of `kind`. -/
def Tellable (host : Host Intent) (v : View) : ClientEventKind Intent → Prop
  | .peerAddress ip => v.presence = .unknown ∧ ip = host.peerIp ∧ ∃ profile, v.stage = .playing profile
  | .joined profile => v.presence = .addressed ∧ v.stage = .playing profile
  | .intent _ | .unmodelled _ | .viewDistance _ =>
    v.presence = .present ∧ ∃ profile, v.stage = .playing profile
  | .left => v.presence = .present

/-- The response holds the secret and gives the token back, both under the key of the server. -/
def Proves (host : Host Intent) (token : Bytes) (packet : RawPacket) (secret : Bytes) : Prop :=
  ∃ response, EncryptionResponse.decode packet.payload = .ok response ∧
    host.decrypt response.sharedSecret = .ok secret ∧ secret.length = SHARED_SECRET_LEN ∧
    host.decrypt response.verifyToken = .ok token

def Allowed (host : Host Intent) (v : View) (a : Action Intent) : Prop :=
  v.presence ≠ .gone ∧
    match a with
    | .took _ => v.stage.Listens
    | .asked name hash secret _ =>
      hash = host.serverIdHash "" secret (host.settings.onlineIdentity.getD []) ∧
        ∃ token packet, v.stage = .keyed name token packet ∧ Proves host token packet secret
    | .wrote now frame _ raw packet =>
      toRaw host packet = .ok raw ∧ L1.Frame.encode host.zlib raw v.threshold = .ok frame ∧ Sendable host v now packet
    | .told kind _ => Tellable host v kind

/-- A trace of the protocol. -/
def Keeping (host : Host Intent) (trace : List (Action Intent)) : Prop :=
  Along (View.next host) (Allowed host) .start trace

theorem view_snoc (host : Host Intent) (trace : List (Action Intent)) (a : Action Intent) :
    view host (trace ++ [a]) = (view host trace).next host a := run_snoc trace a

theorem Keeping.snoc {host : Host Intent} {trace : List (Action Intent)} {a : Action Intent}
    (h : Keeping host trace) (ha : Allowed host (view host trace) a) : Keeping host (trace ++ [a]) :=
  along_snoc.mpr ⟨h, ha⟩

/-! ## The line -/

/-- The cipher of the next byte. -/
def lineNext (host : Host Intent) (cipher : Option PacketCipher) : Action Intent → Option PacketCipher
  | .asked _ _ secret (.ok _) => some (.new (secretArray secret))
  | .wrote _ frame _ _ _ => (encipher host cipher frame).2
  | _ => cipher

def line (host : Host Intent) (trace : List (Action Intent)) : Option PacketCipher := run (lineNext host) none trace

/-- The bytes of each frame are what the cipher makes of it. -/
def Lined (host : Host Intent) (trace : List (Action Intent)) : Prop :=
  Along (lineNext host) (fun cipher a => ∀ now frame sent raw packet, a = .wrote now frame sent raw packet →
    sent = (encipher host cipher frame).1) none trace

theorem line_snoc (host : Host Intent) (trace : List (Action Intent)) (a : Action Intent) :
    line host (trace ++ [a]) = lineNext host (line host trace) a := run_snoc trace a

end Apoptosis.L2.Connection
