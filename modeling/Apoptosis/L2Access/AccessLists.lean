import Apoptosis.Core.Framing
import Apoptosis.L2Access.AccessFile
import Apoptosis.L2Access.BanTime
import Apoptosis.L2Command.Source
/-!
# Operators, whitelist and bans (`server/src/ops.rs`, `whitelist.rs`, `bans.rs`)

The rows of the four files, how they are written and read, and what the lists
do with them.

* `Operator.readable`, `Whitelisted.readable`, `PlayerBan.readable`,
  `IpBan.readable`: a row whose uuid a row can match, and whose times the files
  can hold, reads back as itself.
-/
namespace Apoptosis.L2.Access
open Apoptosis.Core Apoptosis.L2.Command

/-- mirrors crates/server/src/ops.rs:76-88 (`Operator`) -/
structure Operator where
  uuid : Text
  name : Text
  level : PermissionLevel
  bypassesPlayerLimit : Bool
  deriving DecidableEq

/-- mirrors crates/server/src/whitelist.rs:62-67 (`Whitelisted`) -/
structure Whitelisted where
  uuid : Text
  name : Text
  deriving DecidableEq

/-- mirrors crates/server/src/bans.rs:69-82 (`PlayerBan`) -/
structure PlayerBan where
  uuid : Text
  name : Text
  created : SystemTime
  source : Text
  expires : Option SystemTime
  reason : Text
  deriving DecidableEq

/-- mirrors crates/server/src/bans.rs:86-97 (`IpBan`) -/
structure IpBan (ext : External) where
  ip : ext.Ip
  created : SystemTime
  source : Text
  expires : Option SystemTime
  reason : Text

/-- mirrors crates/server/src/bans.rs:65 -/
def EXPIRES_FOREVER : Text := "forever".toList

/-! ## The rows of the files -/

/-- mirrors crates/server/src/ops.rs:278-285, a row of `OperatorList::save` -/
def Operator.fields (row : Operator) : Fields :=
  [("bypassesPlayerLimit".toList, .bool row.bypassesPlayerLimit),
    ("level".toList, .number (some row.level.level)),
    ("name".toList, .str row.name),
    ("uuid".toList, .str row.uuid)]

/-- mirrors crates/server/src/ops.rs:392-451 (`parse_entry`) -/
def Operator.parseEntry (ext : External) : Json → Except RowProblem Operator
  | .obj fields => do
    let uuid ← uuidFromRow ext fields
    let name := textOf fields "name"
    match (field fields "level").bind Json.asI64 with
    | none => .error (.noLevel uuid)
    | some raw =>
      if raw < 0 ∨ 255 < raw then .error (.levelOutside uuid raw)
      else
        match PermissionLevel.fromLevel raw.toNat with
        | none => .error (.unknownLevel uuid raw)
        | some level =>
          let bypasses := ((field fields "bypassesPlayerLimit").bind Json.asBool).getD false
          .ok ⟨uuid, name, level, bypasses⟩
  | entry => .error (.notObject entry.typeName)

/-- mirrors crates/server/src/whitelist.rs:220-225, a row of `Whitelist::save` -/
def Whitelisted.fields (row : Whitelisted) : Fields :=
  [("name".toList, .str row.name), ("uuid".toList, .str row.uuid)]

/-- mirrors crates/server/src/whitelist.rs:306-332 (`parse_entry`) -/
def Whitelisted.parseEntry (ext : External) : Json → Except RowProblem Whitelisted
  | .obj fields => do
    let uuid ← uuidFromRow ext fields
    .ok ⟨uuid, textOf fields "name"⟩
  | entry => .error (.notObject entry.typeName)

/-- The `expires` field of a ban. -/
def expiresText : Option SystemTime → Text
  | none => EXPIRES_FOREVER
  | some time => formatBanTime time

/-- mirrors crates/server/src/bans.rs:501-519 (`required_time`) -/
def requiredTime (fields : Fields) (name : String) : Except RowProblem SystemTime :=
  match (field fields name).bind Json.asStr with
  | none => .error (.noDate name)
  | some text =>
    match parseBanTime text with
    | none => .error (.badDate name text)
    | some time => .ok time

/-- mirrors crates/server/src/bans.rs:532-556 (`required_expires`) -/
def requiredExpires (fields : Fields) : Except RowProblem (Option SystemTime) :=
  match (field fields "expires").bind Json.asStr with
  | none => .error (.noDate "expires")
  | some text =>
    if text.map Char.toLower = EXPIRES_FOREVER then .ok none
    else
      match parseBanTime text with
      | none => .error (.badDate "expires" text)
      | some time => .ok (some time)

/-- mirrors crates/server/src/bans.rs:306-319, a player row of `BanList::save` -/
def PlayerBan.fields (row : PlayerBan) : Fields :=
  [("created".toList, .str (formatBanTime row.created)),
    ("expires".toList, .str (expiresText row.expires)),
    ("name".toList, .str row.name),
    ("reason".toList, .str row.reason),
    ("source".toList, .str row.source),
    ("uuid".toList, .str row.uuid)]

/-- mirrors crates/server/src/bans.rs:420-460 (`player_entry`) -/
def PlayerBan.parseEntry (ext : External) : Json → Except RowProblem PlayerBan
  | .obj fields => do
    let uuid ← uuidFromRow ext fields
    let created ← requiredTime fields "created"
    let expires ← requiredExpires fields
    .ok ⟨uuid, textOf fields "name", created, textOf fields "source", expires,
      textOf fields "reason"⟩
  | entry => .error (.notObject entry.typeName)

/-- mirrors crates/server/src/bans.rs:324-336, an address row of `BanList::save` -/
def IpBan.fields {ext : External} (row : IpBan ext) : Fields :=
  [("created".toList, .str (formatBanTime row.created)),
    ("expires".toList, .str (expiresText row.expires)),
    ("ip".toList, .str (ext.ipText row.ip)),
    ("reason".toList, .str row.reason),
    ("source".toList, .str row.source)]

/-- mirrors crates/server/src/bans.rs:463-498 (`ip_entry`) -/
def IpBan.parseEntry (ext : External) : Json → Except RowProblem (IpBan ext)
  | .obj fields =>
    match (field fields "ip").bind Json.asStr with
    | none => .error .noIp
    | some text =>
      match ext.ipParse (trim text) with
      | none => .error (.badIp text)
      | some ip => do
        let created ← requiredTime fields "created"
        let expires ← requiredExpires fields
        .ok ⟨ip, created, textOf fields "source", expires, textOf fields "reason"⟩
  | entry => .error (.notObject entry.typeName)

/-- `ops.json` -/
def operatorFormat (ext : External) : RowFormat Text Operator where
  key := Operator.uuid
  fields := Operator.fields
  parseEntry := Operator.parseEntry ext
  fields_plain row := by
    refine ⟨by simp [Operator.fields]; decide, ?_⟩
    have := row.level.level_le
    simp [Operator.fields, Json.Plain]
    omega

/-- `whitelist.json` -/
def whitelistFormat (ext : External) : RowFormat Text Whitelisted where
  key := Whitelisted.uuid
  fields := Whitelisted.fields
  parseEntry := Whitelisted.parseEntry ext
  fields_plain row := by
    refine ⟨by simp [Whitelisted.fields]; decide, ?_⟩
    simp [Whitelisted.fields, Json.Plain]

/-- `banned-players.json` -/
def playerBanFormat (ext : External) : RowFormat Text PlayerBan where
  key := PlayerBan.uuid
  fields := PlayerBan.fields
  parseEntry := PlayerBan.parseEntry ext
  fields_plain row := by
    refine ⟨by simp [PlayerBan.fields]; decide, ?_⟩
    simp [PlayerBan.fields, Json.Plain]

/-- `banned-ips.json` -/
def ipBanFormat (ext : External) : RowFormat ext.Ip (IpBan ext) where
  key := IpBan.ip
  fields := IpBan.fields
  parseEntry := IpBan.parseEntry ext
  fields_plain row := by
    refine ⟨by simp [IpBan.fields]; decide, ?_⟩
    simp [IpBan.fields, Json.Plain]

/-! ## The lists -/

abbrev OperatorList := OrdMap Text Operator

abbrev Whitelist := OrdMap Text Whitelisted

/-- mirrors crates/server/src/bans.rs:103-106 (`BanList`) -/
structure BanList (ext : External) where
  players : OrdMap Text PlayerBan
  ips : OrdMap ext.Ip (IpBan ext)

namespace OperatorList

/-- mirrors crates/server/src/ops.rs:218-241 (`OperatorList::insert`) -/
def grant (list : OperatorList) (uuid name : Text) (level : PermissionLevel) :
    OperatorList × Bool :=
  let uuid := normalise uuid
  let current := list.get? uuid
  let changed := current.all fun current =>
    current.level ≠ level || current.name ≠ name || current.bypassesPlayerLimit
  (list.insert uuid ⟨uuid, name, level, current.any (·.bypassesPlayerLimit)⟩, changed)

/-- mirrors crates/server/src/ops.rs:251-253 (`OperatorList::remove`) -/
def remove (list : OperatorList) (uuid : Text) : OperatorList := list.erase (normalise uuid)

/-- mirrors crates/server/src/ops.rs:260-262 (`OperatorList::restore`) -/
def restore (list : OperatorList) (row : Operator) : OperatorList := list.insert row.uuid row

/-- mirrors crates/server/src/ops.rs:320-322 (`OperatorList::get`) -/
def find (list : OperatorList) (uuid : Text) : Option Operator := list.get? (normalise uuid)

end OperatorList

namespace Whitelist

/-- mirrors crates/server/src/whitelist.rs:176-190 (`Whitelist::insert`) -/
def add (list : Whitelist) (uuid name : Text) : Whitelist × Bool :=
  let uuid := normalise uuid
  let changed := (list.get? uuid).all fun current => current.name ≠ name
  (list.insert uuid ⟨uuid, name⟩, changed)

/-- mirrors crates/server/src/whitelist.rs:198-200 (`Whitelist::remove`) -/
def remove (list : Whitelist) (uuid : Text) : Whitelist := list.erase (normalise uuid)

/-- mirrors crates/server/src/whitelist.rs:206-208 (`Whitelist::restore`) -/
def restore (list : Whitelist) (row : Whitelisted) : Whitelist := list.insert row.uuid row

/-- mirrors crates/server/src/whitelist.rs:268-270 (`Whitelist::get`) -/
def find (list : Whitelist) (uuid : Text) : Option Whitelisted := list.get? (normalise uuid)

end Whitelist

namespace BanList

variable {ext : External} (bans : BanList ext)

/-- mirrors crates/server/src/bans.rs:353-358 (`BanList::ban_player`) -/
def banPlayer (ban : PlayerBan) : BanList ext :=
  { bans with
    players := bans.players.insert (normalise ban.uuid) { ban with uuid := normalise ban.uuid } }

/-- mirrors crates/server/src/bans.rs:361-363 (`BanList::unban_player`) -/
def unbanPlayer (uuid : Text) : BanList ext :=
  { bans with players := bans.players.erase (normalise uuid) }

/-- mirrors crates/server/src/bans.rs:378-380 (`BanList::player_ban`) -/
def playerBan (uuid : Text) : Option PlayerBan := bans.players.get? (normalise uuid)

/-- mirrors crates/server/src/bans.rs:384-386 (`BanList::ip_ban`) -/
def ipBan (ip : ext.Ip) : Option (IpBan ext) := bans.ips.get? ip

/-- mirrors crates/server/src/bans.rs:389-391 (`BanList::ban_ip`) -/
def banIp (ban : IpBan ext) : BanList ext := { bans with ips := bans.ips.insert ban.ip ban }

/-- mirrors crates/server/src/bans.rs:394-396 (`BanList::unban_ip`) -/
def unbanIp (ip : ext.Ip) : BanList ext := { bans with ips := bans.ips.erase ip }

end BanList

/-! ## Rows that read back -/

/-- A uuid a row of a file can match: lower case, trimmed, and one the reader accepts. -/
def Matchable (ext : External) (uuid : Text) : Prop :=
  normalise uuid = uuid ∧ isValidUuid ext uuid = true

theorem uuidFromRow_of {ext : External} {fields : Fields} {uuid : Text}
    (hfield : field fields "uuid" = some (.str uuid)) (h : Matchable ext uuid) :
    uuidFromRow ext fields = .ok uuid := by
  rw [uuidFromRow, hfield]
  dsimp only [Option.bind_some, Json.asStr]
  rw [h.1, if_neg (isValidUuid_ne_nil h.2), if_neg (by simp [h.2])]

/-- What the reader accepts, a row can match. -/
theorem matchable_of_uuidFromRow {ext : External} {fields : Fields} {uuid : Text}
    (h : uuidFromRow ext fields = .ok uuid) : Matchable ext uuid := by
  unfold uuidFromRow at h
  split at h
  · cases h
  · rename_i raw _
    dsimp only at h
    split at h
    · cases h
    · split at h
      · cases h
      · rename_i hvalid
        cases h
        exact ⟨normalise_normalise raw, by simpa using hvalid⟩

theorem requiredTime_of {fields : Fields} {name : String} {text : Text} {time : SystemTime}
    (hfield : field fields name = some (.str text)) (h : parseBanTime text = some time) :
    requiredTime fields name = .ok time := by
  simp only [requiredTime, hfield, Option.bind_some, Json.asStr, h]

/-- A date starts with a digit. -/
theorem formatBanTime_head (time : SystemTime) :
    ∃ c text, formatBanTime time = c :: text ∧ c.isDigit := by
  rw [formatBanTime]
  generalize civilFromDays _ = civil
  obtain ⟨year, month, day⟩ := civil
  obtain ⟨c, text, hc⟩ := List.exists_cons_of_ne_nil (padded_ne_nil 4 year.toNat)
  have hdigit : c.isDigit := isDigit_padded (show c ∈ padded 4 year.toNat by simp [hc])
  simp only [joined3, hc, List.cons_append]
  exact ⟨c, _, rfl, hdigit⟩

theorem formatBanTime_ne_forever (time : SystemTime) :
    (formatBanTime time).map Char.toLower ≠ EXPIRES_FOREVER := by
  obtain ⟨c, text, htext, hdigit⟩ := formatBanTime_head time
  rw [htext, List.map_cons]
  intro h
  have hval : 48 ≤ c.toNat ∧ c.toNat ≤ 57 := by
    simpa [Char.isDigit, UInt32.le_iff_toNat_le] using hdigit
  have hf : c.toLower = 'f' := (List.cons.inj h).1
  obtain ⟨_, _, _⟩ | ⟨-, hsame⟩ := toLower_cases c
  · omega
  · rw [hsame] at hf
    rw [hf] at hdigit
    exact absurd hdigit (by decide)

theorem requiredExpires_of {fields : Fields} {text : Text} {expires : Option SystemTime}
    (hfield : field fields "expires" = some (.str text))
    (h : text.map Char.toLower = EXPIRES_FOREVER ∧ expires = none ∨
      text.map Char.toLower ≠ EXPIRES_FOREVER ∧ ∃ time, expires = some time ∧
        parseBanTime text = some time) :
    requiredExpires fields = .ok expires := by
  obtain ⟨hforever, rfl⟩ | ⟨hdate, time, rfl, hparse⟩ := h
  · simp only [requiredExpires, hfield, Option.bind_some, Json.asStr, hforever, if_true]
  · simp only [requiredExpires, hfield, Option.bind_some, Json.asStr, hdate, if_false, hparse]

theorem expiresText_spec {expires : Option SystemTime} (h : ∀ time ∈ expires, Storable time) :
    (expiresText expires).map Char.toLower = EXPIRES_FOREVER ∧ expires = none ∨
      (expiresText expires).map Char.toLower ≠ EXPIRES_FOREVER ∧ ∃ time, expires = some time ∧
        parseBanTime (expiresText expires) = some time := by
  cases expires with
  | none => exact .inl ⟨by decide, rfl⟩
  | some time =>
    exact .inr ⟨formatBanTime_ne_forever time, time, rfl, parseBanTime_formatBanTime (h time rfl)⟩

theorem Operator.matchable {ext : External} {entry : Json} {row : Operator}
    (h : Operator.parseEntry ext entry = .ok row) : Matchable ext row.uuid := by
  unfold Operator.parseEntry at h
  split at h
  · obtain ⟨uuid, huuid, h⟩ := Framing.bind_ok h
    dsimp only at h
    split at h
    · cases h
    · split at h
      · cases h
      · split at h
        · cases h
        · cases h
          exact matchable_of_uuidFromRow huuid
  · cases h

theorem Whitelisted.matchable {ext : External} {entry : Json} {row : Whitelisted}
    (h : Whitelisted.parseEntry ext entry = .ok row) : Matchable ext row.uuid := by
  unfold Whitelisted.parseEntry at h
  split at h
  · obtain ⟨uuid, huuid, h⟩ := Framing.bind_ok h
    cases h
    exact matchable_of_uuidFromRow huuid
  · cases h

theorem PlayerBan.matchable {ext : External} {entry : Json} {row : PlayerBan}
    (h : PlayerBan.parseEntry ext entry = .ok row) : Matchable ext row.uuid := by
  unfold PlayerBan.parseEntry at h
  split at h
  · obtain ⟨uuid, huuid, h⟩ := Framing.bind_ok h
    obtain ⟨created, -, h⟩ := Framing.bind_ok h
    obtain ⟨expires, -, h⟩ := Framing.bind_ok h
    cases h
    exact matchable_of_uuidFromRow huuid
  · cases h

theorem Operator.readable {ext : External} {row : Operator} (h : Matchable ext row.uuid) :
    Operator.parseEntry ext (.obj row.fields) = .ok row := by
  have huuid : uuidFromRow ext row.fields = .ok row.uuid := uuidFromRow_of rfl h
  have hlevel := row.level.level_le
  rw [Operator.parseEntry, huuid]
  simp only [bind, Except.bind]
  rw [show (field row.fields "level").bind Json.asI64 = some (row.level.level : Int) from rfl]
  dsimp only
  rw [if_neg (by omega), Int.toNat_natCast, PermissionLevel.fromLevel_level]
  rfl

theorem Whitelisted.readable {ext : External} {row : Whitelisted} (h : Matchable ext row.uuid) :
    Whitelisted.parseEntry ext (.obj row.fields) = .ok row := by
  have huuid : uuidFromRow ext row.fields = .ok row.uuid := uuidFromRow_of rfl h
  rw [Whitelisted.parseEntry, huuid]
  rfl

theorem PlayerBan.parseEntry_of {ext : External} {fields : Fields} {uuid : Text}
    {created : SystemTime} {expires : Option SystemTime}
    (huuid : uuidFromRow ext fields = .ok uuid) (htime : requiredTime fields "created" = .ok created)
    (hexp : requiredExpires fields = .ok expires) :
    PlayerBan.parseEntry ext (.obj fields) = .ok ⟨uuid, textOf fields "name", created,
      textOf fields "source", expires, textOf fields "reason"⟩ := by
  simp only [PlayerBan.parseEntry, huuid, bind, Except.bind, htime, hexp]

theorem PlayerBan.readable {ext : External} {row : PlayerBan} (h : Matchable ext row.uuid)
    (hcreated : Storable row.created) (hexpires : ∀ time ∈ row.expires, Storable time) :
    PlayerBan.parseEntry ext (.obj row.fields) = .ok row := by
  have huuid : uuidFromRow ext row.fields = .ok row.uuid :=
    uuidFromRow_of (by simp [field, PlayerBan.fields, lookupEntry]) h
  have htime : requiredTime row.fields "created" = .ok row.created :=
    requiredTime_of (by simp [field, PlayerBan.fields, lookupEntry])
      (parseBanTime_formatBanTime hcreated)
  have hexp : requiredExpires row.fields = .ok row.expires :=
    requiredExpires_of (by simp [field, PlayerBan.fields, lookupEntry]) (expiresText_spec hexpires)
  rw [PlayerBan.parseEntry_of huuid htime hexp]
  simp [textOf, field, PlayerBan.fields, lookupEntry, Json.asStr]

theorem IpBan.parseEntry_of {ext : External} {fields : Fields} {text : Text} {ip : ext.Ip}
    {created : SystemTime} {expires : Option SystemTime}
    (hfield : field fields "ip" = some (.str text)) (hip : ext.ipParse (trim text) = some ip)
    (htime : requiredTime fields "created" = .ok created)
    (hexp : requiredExpires fields = .ok expires) :
    IpBan.parseEntry ext (.obj fields) = .ok ⟨ip, created, textOf fields "source", expires,
      textOf fields "reason"⟩ := by
  simp only [IpBan.parseEntry, hfield, Option.bind_some, Json.asStr, hip, bind, Except.bind, htime,
    hexp]

theorem IpBan.readable {ext : External} {row : IpBan ext}
    (hcreated : Storable row.created) (hexpires : ∀ time ∈ row.expires, Storable time) :
    IpBan.parseEntry ext (.obj row.fields) = .ok row := by
  have htime : requiredTime row.fields "created" = .ok row.created :=
    requiredTime_of (by simp [field, IpBan.fields, lookupEntry])
      (parseBanTime_formatBanTime hcreated)
  have hexp : requiredExpires row.fields = .ok row.expires :=
    requiredExpires_of (by simp [field, IpBan.fields, lookupEntry]) (expiresText_spec hexpires)
  rw [IpBan.parseEntry_of (by simp [field, IpBan.fields, lookupEntry]) (ext.ipParse_ipText row.ip)
    htime hexp]
  simp [textOf, field, IpBan.fields, lookupEntry, Json.asStr]

end Apoptosis.L2.Access
