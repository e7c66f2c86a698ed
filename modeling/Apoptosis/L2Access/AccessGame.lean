import Apoptosis.Core.Runs
import Apoptosis.L2Access.AccessLists
import Apoptosis.ServerError
/-!
# Access operations (`server/src/game/session.rs`)

Operators, whitelist and bans are changed in memory, saved, and put back when
the save fails. A write of a file is atomic: it replaces the file or leaves it.
What each write of an operation comes to is a parameter of the step.

* `grantOperator_keeps` and its seven siblings: what an operation leaves of the
  lists and the files.
* `access_lists_agree`: over any run whose steps avoid the failed undo and the
  half-written ban list, the lists are what a reload gives.
-/
namespace Apoptosis.L2.Access
open Apoptosis.Core Apoptosis.L2.Command

/-- The files beside `ops.json`. -/
inductive File
  | ops
  | whitelist
  | bannedPlayers
  | bannedIps
  deriving DecidableEq, Repr

/-- What each file holds, if it is there. -/
abbrev Disk (ext : External) := File → Option ext.Contents

/-- What a session tells of its connection. -/
structure Session (ext : External) where
  id : Nat
  uuid : AccessUuid ext
  name : Text
  ip : Option ext.Ip
  permission : PermissionLevel

/-- The game as the access operations see it, with the files they write. -/
structure Game (ext : External) where
  opsDirectory : Bool
  sessions : OrdMap Nat (Session ext)
  operators : OperatorList
  whitelist : Whitelist
  bans : BanList ext
  disk : Disk ext

variable {ext : External}

/-! ## Saving -/

/-- mirrors crates/persistence/src/save.rs:88-116 (`write_atomic`) -/
def writeAtomic (lands : Bool) (disk : Disk ext) (file : File) (text : ext.Contents) :
    Disk ext × ServerResult Unit :=
  if lands then (Function.update disk file (some text), .ok ())
  else (disk, .error (.operational "cannot write the file"))

/-- mirrors crates/server/src/ops.rs:274-309 (`OperatorList::save`) -/
def OperatorList.save (lands : Bool) (disk : Disk ext) (list : OperatorList) :
    Disk ext × ServerResult Unit :=
  writeAtomic lands disk .ops (Access.save (operatorFormat ext) ext list)

/-- mirrors crates/server/src/whitelist.rs:219-251 (`Whitelist::save`) -/
def Whitelist.save (lands : Bool) (disk : Disk ext) (list : Whitelist) :
    Disk ext × ServerResult Unit :=
  writeAtomic lands disk .whitelist (Access.save (whitelistFormat ext) ext list)

/-- mirrors crates/server/src/bans.rs:301-347 (`BanList::save`): the players, then the addresses -/
def BanList.save (lands : Bool × Bool) (disk : Disk ext) (bans : BanList ext) :
    Disk ext × ServerResult Unit :=
  match writeAtomic lands.1 disk .bannedPlayers (Access.save (playerBanFormat ext) ext bans.players)
  with
  | (disk, .error e) => (disk, .error e)
  | (disk, .ok _) => writeAtomic lands.2 disk .bannedIps (Access.save (ipBanFormat ext) ext bans.ips)

namespace Game

/-! ## The operations -/

def eqIgnoreAsciiCase (a b : Text) : Bool := a.map Char.toLower = b.map Char.toLower

/-- mirrors crates/server/src/game/session.rs:2130-2140 (`Game::session_id_by_name`) -/
def sessionIdByName (game : Game ext) (name : Text) : Option Nat :=
  game.sessions.entries.findSome? fun entry =>
    if eqIgnoreAsciiCase entry.2.name name then some entry.2.id else none

/-- mirrors crates/server/src/game/session.rs:2061-2084 (`Game::grant_operator`) -/
def grantOperator (game : Game ext) (lands : Bool) (target : Nat) (level : PermissionLevel) :
    Game ext × ServerResult (Option (Text × Bool)) :=
  if !game.opsDirectory then (game, .ok none)
  else
    match game.sessions.get? target with
    | none => (game, .ok none)
    | some session =>
      let (operators, changed) := game.operators.grant session.uuid.text session.name level
      let saved := if changed then operators.save lands game.disk else (game.disk, .ok ())
      match saved with
      | (disk, .error e) =>
        ({ game with operators := operators.remove session.uuid.text, disk }, .error e)
      | (disk, .ok _) =>
        ({ game with
            operators, disk
            sessions := game.sessions.insert target { session with permission := level } },
          .ok (some (session.name, changed)))

/-- mirrors crates/server/src/game/session.rs:2098-2123 (`Game::revoke_operator`) -/
def revokeOperator (game : Game ext) (lands : Bool) (target : Nat) :
    Game ext × ServerResult (Option Text) :=
  if !game.opsDirectory then (game, .ok none)
  else
    match game.sessions.get? target with
    | none => (game, .ok none)
    | some session =>
      match game.operators.find session.uuid.text with
      | none => (game, .ok none)
      | some previous =>
        let operators := game.operators.remove session.uuid.text
        match operators.save lands game.disk with
        | (disk, .error e) => ({ game with operators := operators.restore previous, disk }, .error e)
        | (disk, .ok _) =>
          ({ game with
              operators, disk
              sessions := game.sessions.insert target { session with permission := .all } },
            .ok (some session.name))

/-- The uuid and the name a command means: the session's, or the ones derived from the name. -/
def identity (banUuidFor : Text → AccessUuid ext) (game : Game ext) (name : Text) :
    Option (AccessUuid ext × Text) :=
  match game.sessionIdByName name with
  | some target => (game.sessions.get? target).map fun session => (session.uuid, session.name)
  | none => some (banUuidFor name, name)

/-- mirrors crates/server/src/game/session.rs:1718-1737 (`Game::add_to_whitelist`) -/
def addToWhitelist (banUuidFor : Text → AccessUuid ext) (game : Game ext) (lands : Bool)
    (name : Text) : Game ext × ServerResult (Option (Text × Bool)) :=
  if !game.opsDirectory then (game, .ok none)
  else
    match game.identity banUuidFor name with
    | none => (game, .ok none)
    | some (uuid, name) =>
      let (whitelist, changed) := game.whitelist.add uuid.text name
      let saved := if changed then whitelist.save lands game.disk else (game.disk, .ok ())
      match saved with
      | (disk, .error e) => ({ game with whitelist := whitelist.remove uuid.text, disk }, .error e)
      | (disk, .ok _) => ({ game with whitelist, disk }, .ok (some (name, changed)))

/-- The row `remove_from_whitelist` means, mirrors crates/server/src/game/session.rs:1769-1778 -/
def listedUuid (banUuidFor : Text → AccessUuid ext) (game : Game ext) (uuid : AccessUuid ext)
    (name : Text) : AccessUuid ext :=
  if (game.whitelist.find uuid.text).isSome then uuid
  else
    let derived := banUuidFor name
    if derived.text ≠ uuid.text && (game.whitelist.find derived.text).isSome then derived else uuid

/-- mirrors crates/server/src/game/session.rs:1751-1788 (`Game::remove_from_whitelist`) -/
def removeFromWhitelist (banUuidFor : Text → AccessUuid ext) (game : Game ext) (lands : Bool)
    (name : Text) : Game ext × ServerResult (Option Text) :=
  if !game.opsDirectory then (game, .ok none)
  else
    match game.identity banUuidFor name with
    | none => (game, .ok none)
    | some (uuid, name) =>
      let uuid := game.listedUuid banUuidFor uuid name
      match game.whitelist.find uuid.text with
      | none => (game, .ok none)
      | some previous =>
        let whitelist := game.whitelist.remove uuid.text
        match whitelist.save lands game.disk with
        | (disk, .error e) => ({ game with whitelist := whitelist.restore previous, disk }, .error e)
        | (disk, .ok _) => ({ game with whitelist, disk }, .ok (some name))

/-- mirrors crates/server/src/game/session.rs:1892-1909 (`Game::file_player_ban`) -/
def filePlayerBan (game : Game ext) (lands : Bool × Bool) (ban : PlayerBan) :
    Game ext × ServerResult Bool :=
  if !game.opsDirectory then (game, .ok false)
  else
    let previous := game.bans.playerBan ban.uuid
    let bans := game.bans.banPlayer ban
    match bans.save lands game.disk with
    | (disk, .error e) =>
      let bans := match previous with
        | some row => bans.banPlayer row
        | none => bans.unbanPlayer ban.uuid
      ({ game with bans, disk }, .error e)
    | (disk, .ok _) => ({ game with bans, disk }, .ok true)

/-- mirrors crates/server/src/game/session.rs:1921-1947 (`Game::file_ip_ban`) -/
def fileIpBan (game : Game ext) (lands : Bool × Bool) (ban : IpBan ext) :
    Game ext × ServerResult (Option (List Nat)) :=
  if !game.opsDirectory then (game, .ok none)
  else
    let previous := game.bans.ipBan ban.ip
    let bans := game.bans.banIp ban
    match bans.save lands game.disk with
    | (disk, .error e) =>
      let bans := match previous with
        | some row => bans.banIp row
        | none => bans.unbanIp ban.ip
      ({ game with bans, disk }, .error e)
    | (disk, .ok _) =>
      let holders := (game.sessions.entries.filter fun entry => entry.2.ip = some ban.ip).map
        fun entry => entry.2.id
      ({ game with bans, disk }, .ok (some holders))

/-- mirrors crates/server/src/game/session.rs:1957-1970 (`Game::pardon_player`) -/
def pardonPlayer (game : Game ext) (lands : Bool × Bool) (uuid : Text) :
    Game ext × ServerResult Bool :=
  if !game.opsDirectory then (game, .ok false)
  else
    match game.bans.playerBan uuid with
    | none => (game, .ok false)
    | some previous =>
      let bans := game.bans.unbanPlayer uuid
      match bans.save lands game.disk with
      | (disk, .error e) => ({ game with bans := bans.banPlayer previous, disk }, .error e)
      | (disk, .ok _) => ({ game with bans, disk }, .ok true)

/-- mirrors crates/server/src/game/session.rs:1977-1990 (`Game::pardon_address`) -/
def pardonAddress (game : Game ext) (lands : Bool × Bool) (ip : ext.Ip) :
    Game ext × ServerResult Bool :=
  if !game.opsDirectory then (game, .ok false)
  else
    match game.bans.ipBan ip with
    | none => (game, .ok false)
    | some previous =>
      let bans := game.bans.unbanIp ip
      match bans.save lands game.disk with
      | (disk, .error e) => ({ game with bans := bans.banIp previous, disk }, .error e)
      | (disk, .ok _) => ({ game with bans, disk }, .ok true)

end Game

/-! ## What an operation keeps -/

/-- The lists are what a reload of their files gives. -/
structure Synced (game : Game ext) : Prop where
  operators : load (operatorFormat ext) ext (game.disk .ops) = .ok game.operators
  whitelist : load (whitelistFormat ext) ext (game.disk .whitelist) = .ok game.whitelist
  players : load (playerBanFormat ext) ext (game.disk .bannedPlayers) = .ok game.bans.players
  ips : load (ipBanFormat ext) ext (game.disk .bannedIps) = .ok game.bans.ips

/-- The lists and the files are as they were. -/
structure Unchanged (game game' : Game ext) : Prop where
  operators : game'.operators = game.operators
  whitelist : game'.whitelist = game.whitelist
  bans : game'.bans = game.bans
  disk : game'.disk = game.disk

def failed {α : Type} (result : ServerResult α) : Prop := ∃ e, result = .error e

/-- What is promised of an operation: the lists agree with the files, and a failure changed
neither. -/
structure Keeps {α : Type} (game : Game ext) (after : Game ext × ServerResult α) : Prop where
  synced : Synced after.1
  unchanged : failed after.2 → Unchanged game after.1

theorem Unchanged.refl (game : Game ext) : Unchanged game game := ⟨rfl, rfl, rfl, rfl⟩

theorem Unchanged.synced {game game' : Game ext} (h : Unchanged game game') (hs : Synced game) :
    Synced game' := by
  obtain ⟨ho, hw, hb, hd⟩ := h
  exact ⟨hd ▸ ho ▸ hs.operators, hd ▸ hw ▸ hs.whitelist, hd ▸ hb ▸ hs.players, hd ▸ hb ▸ hs.ips⟩

theorem Synced.keeps {α : Type} {game : Game ext} {after : Game ext × ServerResult α}
    (hs : Synced game) (h : Unchanged game after.1) : Keeps game after :=
  ⟨h.synced hs, fun _ => h⟩

theorem Synced.keeps_ok {α : Type} {game : Game ext} {after : Game ext × ServerResult α} {a : α}
    (h : Synced after.1) (ha : after.2 = .ok a) : Keeps game after := by
  refine ⟨h, ?_⟩
  intro ⟨e, he⟩
  rw [ha] at he
  cases he

/-! ## Tables that read back -/

section Tables

variable {κ ρ : Type} [LinearOrder κ] {format : RowFormat κ ρ}

theorem Readable.insert {rows : OrdMap κ ρ} (h : Readable format rows) {k : κ} {row : ρ}
    (hkey : format.key row = k) (hparse : format.parseEntry (.obj (format.fields row)) = .ok row) :
    Readable format (rows.insert k row) := by
  intro k' row' hget
  rw [OrdMap.get?_insert] at hget
  split at hget
  · rename_i hk
    cases hget
    exact ⟨hkey.trans hk, hparse⟩
  · exact h k' row' hget

theorem Readable.erase {rows : OrdMap κ ρ} (h : Readable format rows) (k : κ) :
    Readable format (rows.erase k) := by
  intro k' row' hget
  rw [OrdMap.get?_erase] at hget
  split at hget
  · cases hget
  · exact h k' row' hget

end Tables

theorem Synced.operators_readable {game : Game ext} (h : Synced game) :
    Readable (operatorFormat ext) game.operators := by
  intro k row hget
  obtain ⟨hkey, entry, hparse⟩ := loaded_of_load h.operators k row hget
  exact ⟨hkey, Operator.readable (Operator.matchable hparse)⟩

theorem Synced.whitelist_readable {game : Game ext} (h : Synced game) :
    Readable (whitelistFormat ext) game.whitelist := by
  intro k row hget
  obtain ⟨hkey, entry, hparse⟩ := loaded_of_load h.whitelist k row hget
  exact ⟨hkey, Whitelisted.readable (Whitelisted.matchable hparse)⟩

/-- A row whose dates the files can hold. -/
def Dated (created : SystemTime) (expires : Option SystemTime) : Prop :=
  Storable created ∧ ∀ time ∈ expires, Storable time

/-- Every row of the ban list is dated so. -/
structure BanList.Dated (bans : BanList ext) : Prop where
  players : ∀ k row, bans.players.get? k = some row → Access.Dated row.created row.expires
  ips : ∀ k row, bans.ips.get? k = some row → Access.Dated row.created row.expires

theorem Synced.players_readable {game : Game ext} (h : Synced game) (hdated : game.bans.Dated) :
    Readable (playerBanFormat ext) game.bans.players := by
  intro k row hget
  obtain ⟨hkey, entry, hparse⟩ := loaded_of_load h.players k row hget
  obtain ⟨hcreated, hexpires⟩ := hdated.players k row hget
  exact ⟨hkey, PlayerBan.readable (PlayerBan.matchable hparse) hcreated hexpires⟩

theorem Synced.ips_readable {game : Game ext} (h : Synced game) (hdated : game.bans.Dated) :
    Readable (ipBanFormat ext) game.bans.ips := by
  intro k row hget
  obtain ⟨hkey, -⟩ := loaded_of_load h.ips k row hget
  obtain ⟨hcreated, hexpires⟩ := hdated.ips k row hget
  exact ⟨hkey, IpBan.readable hcreated hexpires⟩

/-- The file a table is saved to is one the reader takes. -/
def Fits {κ ρ : Type} [LinearOrder κ] (ext : External) (format : RowFormat κ ρ)
    (rows : OrdMap κ ρ) : Prop :=
  ext.len (save format ext rows) ≤ MAX_BYTES

instance {κ ρ : Type} [LinearOrder κ] (ext : External) (format : RowFormat κ ρ)
    (rows : OrdMap κ ρ) : Decidable (Fits ext format rows) :=
  inferInstanceAs (Decidable (_ ≤ _))

/-! ## Operators and whitelist -/

/-- A saved operator list is the one a reload gives. -/
theorem Synced.save_operators {game : Game ext} (h : Synced game) {operators : OperatorList}
    (hread : Readable (operatorFormat ext) operators) (hfits : Fits ext (operatorFormat ext) operators)
    (sessions : OrdMap Nat (Session ext)) :
    Synced { game with
      operators, sessions
      disk := Function.update game.disk .ops (some (save (operatorFormat ext) ext operators)) } where
  operators := by
    dsimp only
    rw [Function.update_self]
    exact load_save _ ext hread hfits
  whitelist := h.whitelist
  players := h.players
  ips := h.ips

theorem Synced.save_whitelist {game : Game ext} (h : Synced game) {whitelist : Whitelist}
    (hread : Readable (whitelistFormat ext) whitelist)
    (hfits : Fits ext (whitelistFormat ext) whitelist) :
    Synced { game with
      whitelist
      disk := Function.update game.disk .whitelist
        (some (save (whitelistFormat ext) ext whitelist)) } where
  operators := h.operators
  whitelist := by
    dsimp only
    rw [Function.update_self]
    exact load_save _ ext hread hfits
  players := h.players
  ips := h.ips

theorem AccessUuid.matchable (uuid : AccessUuid ext) : Matchable ext uuid.text :=
  ⟨uuid.normal, uuid.valid⟩

theorem grant_fst (list : OperatorList) (uuid : AccessUuid ext) (name : Text)
    (level : PermissionLevel) :
    (list.grant uuid.text name level).1 = list.insert uuid.text ⟨uuid.text, name, level,
      (list.get? uuid.text).any (·.bypassesPlayerLimit)⟩ := by
  simp only [OperatorList.grant, uuid.normal]

theorem grant_readable {game : Game ext} (h : Synced game) (uuid : AccessUuid ext) (name : Text)
    (level : PermissionLevel) :
    Readable (operatorFormat ext) (game.operators.grant uuid.text name level).1 := by
  rw [grant_fst]
  exact h.operators_readable.insert rfl (Operator.readable uuid.matchable)

/-- A grant that changes nothing writes the row that is there. -/
theorem grant_unchanged {game : Game ext} (h : Synced game) (uuid : AccessUuid ext) {name : Text}
    {level : PermissionLevel} (hsame : (game.operators.grant uuid.text name level).2 = false) :
    (game.operators.grant uuid.text name level).1 = game.operators := by
  rw [grant_fst]
  apply OrdMap.insert_self
  simp only [OperatorList.grant, uuid.normal] at hsame
  cases hrow : OrdMap.get? game.operators uuid.text with
  | none => simp [hrow] at hsame
  | some row =>
    have hkey : row.uuid = uuid.text := (h.operators_readable _ row hrow).1
    simp only [hrow, Option.all_some, Bool.or_eq_false_iff, decide_eq_false_iff_not, not_not] at hsame
    obtain ⟨⟨hlevel, hname⟩, hbypass⟩ := hsame
    rw [Option.any_some, hbypass, ← hkey, ← hlevel, ← hname, ← hbypass]

/-- The condition on a grant: a save that lands fits, and one that fails had no row to undo to. -/
def GrantOk (game : Game ext) (lands : Bool) (target : Nat) (level : PermissionLevel) : Prop :=
  ∀ session, game.sessions.get? target = some session →
    (game.operators.grant session.uuid.text session.name level).2 = true →
      if lands then
        Fits ext (operatorFormat ext)
          (game.operators.grant session.uuid.text session.name level).1
      else game.operators.get? session.uuid.text = none

theorem grantOperator_keeps {game : Game ext} (h : Synced game) {lands : Bool} {target : Nat}
    {level : PermissionLevel} (hok : GrantOk game lands target level) :
    Keeps game (game.grantOperator lands target level) := by
  unfold Game.grantOperator
  split
  · exact h.keeps (.refl game)
  · split
    · exact h.keeps (.refl game)
    · rename_i session hsession
      have hok := hok session hsession
      have hread := grant_readable h session.uuid session.name level
      have hsame := @grant_unchanged _ _ h session.uuid session.name level
      have hfst := grant_fst game.operators session.uuid session.name level
      generalize game.operators.grant session.uuid.text session.name level = granted at *
      obtain ⟨operators, changed⟩ := granted
      cases changed with
      | false =>
        simp only [Bool.false_eq_true, if_false]
        exact h.keeps ⟨hsame rfl, rfl, rfl, rfl⟩
      | true =>
        cases lands with
        | true => exact (h.save_operators hread (hok rfl) _).keeps_ok rfl
        | false =>
          simp only [OperatorList.save, writeAtomic, Bool.false_eq_true, if_false, if_true]
          refine h.keeps ⟨?_, rfl, rfl, rfl⟩
          dsimp only
          rw [OperatorList.remove, session.uuid.normal, show operators = _ from hfst]
          exact OrdMap.erase_insert_of_none (hok rfl) _

/-- The condition on a revocation: a save that lands fits. -/
def RevokeOk (game : Game ext) (lands : Bool) (target : Nat) : Prop :=
  ∀ session, game.sessions.get? target = some session →
    (game.operators.find session.uuid.text).isSome → lands = true →
      Fits ext (operatorFormat ext) (game.operators.remove session.uuid.text)

theorem revokeOperator_keeps {game : Game ext} (h : Synced game) {lands : Bool} {target : Nat}
    (hok : RevokeOk game lands target) : Keeps game (game.revokeOperator lands target) := by
  unfold Game.revokeOperator
  split
  · exact h.keeps (.refl game)
  · split
    · exact h.keeps (.refl game)
    · rename_i session hsession
      split
      · exact h.keeps (.refl game)
      · rename_i previous hfind
        have hfits := hok session hsession (by simp [hfind])
        rw [OperatorList.find] at hfind
        have hkey : previous.uuid = normalise session.uuid.text :=
          (h.operators_readable _ previous hfind).1
        cases lands with
        | true =>
          exact (h.save_operators (h.operators_readable.erase _) (hfits rfl) _).keeps_ok rfl
        | false =>
          simp only [OperatorList.save, writeAtomic, Bool.false_eq_true, if_false]
          refine h.keeps ⟨?_, rfl, rfl, rfl⟩
          dsimp only
          rw [OperatorList.restore, OperatorList.remove, hkey]
          exact OrdMap.insert_erase_of_some hfind

theorem add_fst (list : Whitelist) (uuid : AccessUuid ext) (name : Text) :
    (list.add uuid.text name).1 = list.insert uuid.text ⟨uuid.text, name⟩ := by
  simp only [Whitelist.add, uuid.normal]

theorem add_readable {game : Game ext} (h : Synced game) (uuid : AccessUuid ext) (name : Text) :
    Readable (whitelistFormat ext) (game.whitelist.add uuid.text name).1 := by
  rw [add_fst]
  exact h.whitelist_readable.insert rfl (Whitelisted.readable uuid.matchable)

theorem add_unchanged {game : Game ext} (h : Synced game) (uuid : AccessUuid ext) {name : Text}
    (hsame : (game.whitelist.add uuid.text name).2 = false) :
    (game.whitelist.add uuid.text name).1 = game.whitelist := by
  rw [add_fst]
  apply OrdMap.insert_self
  simp only [Whitelist.add, uuid.normal] at hsame
  cases hrow : OrdMap.get? game.whitelist uuid.text with
  | none => simp [hrow] at hsame
  | some row =>
    have hkey : row.uuid = uuid.text := (h.whitelist_readable _ row hrow).1
    simp only [hrow, Option.all_some, decide_eq_false_iff_not, not_not] at hsame
    rw [← hkey, ← hsame]

/-- The condition on a listing: a save that lands fits, and one that fails had no row to undo to. -/
def AddOk (banUuidFor : Text → AccessUuid ext) (game : Game ext) (lands : Bool) (name : Text) :
    Prop :=
  ∀ uuid listed, game.identity banUuidFor name = some (uuid, listed) →
    (game.whitelist.add uuid.text listed).2 = true →
      if lands then Fits ext (whitelistFormat ext) (game.whitelist.add uuid.text listed).1
      else game.whitelist.get? uuid.text = none

theorem addToWhitelist_keeps {banUuidFor : Text → AccessUuid ext} {game : Game ext}
    (h : Synced game) {lands : Bool} {name : Text} (hok : AddOk banUuidFor game lands name) :
    Keeps game (game.addToWhitelist banUuidFor lands name) := by
  unfold Game.addToWhitelist
  split
  · exact h.keeps (.refl game)
  · split
    · exact h.keeps (.refl game)
    · rename_i uuid listed hidentity
      have hok := hok uuid listed hidentity
      have hread := add_readable h uuid listed
      have hsame := @add_unchanged _ _ h uuid listed
      have hfst := add_fst game.whitelist uuid listed
      generalize game.whitelist.add uuid.text listed = added at *
      obtain ⟨whitelist, changed⟩ := added
      cases changed with
      | false =>
        simp only [Bool.false_eq_true, if_false]
        exact h.keeps ⟨rfl, hsame rfl, rfl, rfl⟩
      | true =>
        cases lands with
        | true => exact (h.save_whitelist hread (hok rfl)).keeps_ok rfl
        | false =>
          simp only [Whitelist.save, writeAtomic, Bool.false_eq_true, if_false, if_true]
          refine h.keeps ⟨rfl, ?_, rfl, rfl⟩
          dsimp only
          rw [Whitelist.remove, uuid.normal, show whitelist = _ from hfst]
          exact OrdMap.erase_insert_of_none (hok rfl) _

/-- The condition on an unlisting: a save that lands fits. -/
def RemoveOk (banUuidFor : Text → AccessUuid ext) (game : Game ext) (lands : Bool) (name : Text) :
    Prop :=
  ∀ uuid listed, game.identity banUuidFor name = some (uuid, listed) →
    (game.whitelist.find (game.listedUuid banUuidFor uuid listed).text).isSome → lands = true →
      Fits ext (whitelistFormat ext)
        (game.whitelist.remove (game.listedUuid banUuidFor uuid listed).text)

theorem removeFromWhitelist_keeps {banUuidFor : Text → AccessUuid ext} {game : Game ext}
    (h : Synced game) {lands : Bool} {name : Text} (hok : RemoveOk banUuidFor game lands name) :
    Keeps game (game.removeFromWhitelist banUuidFor lands name) := by
  unfold Game.removeFromWhitelist
  split
  · exact h.keeps (.refl game)
  · split
    · exact h.keeps (.refl game)
    · rename_i uuid listed hidentity
      dsimp only
      split
      · exact h.keeps (.refl game)
      · rename_i previous hfind
        have hfits := hok uuid listed hidentity (by simp [hfind])
        rw [Whitelist.find] at hfind
        have hkey := (h.whitelist_readable _ previous hfind).1
        cases lands with
        | true =>
          exact (h.save_whitelist (h.whitelist_readable.erase _) (hfits rfl)).keeps_ok rfl
        | false =>
          simp only [Whitelist.save, writeAtomic, Bool.false_eq_true, if_false]
          refine h.keeps ⟨rfl, ?_, rfl, rfl⟩
          dsimp only
          rw [Whitelist.restore, Whitelist.remove, show previous.uuid = _ from hkey]
          exact OrdMap.insert_erase_of_some hfind

/-! ## Bans -/

/-- What the two writes of the ban files come to: nothing, the players alone, or both. -/
theorem BanList.save_cases (lands : Bool × Bool) (disk : Disk ext) (bans : BanList ext) :
    (lands.1 = false ∧ ∃ e, bans.save lands disk = (disk, .error e)) ∨
    (lands = (true, false) ∧ ∃ e, bans.save lands disk =
      (Function.update disk .bannedPlayers (some (Access.save (playerBanFormat ext) ext bans.players)),
        .error e)) ∨
    (lands = (true, true) ∧ bans.save lands disk =
      (Function.update
        (Function.update disk .bannedPlayers
          (some (Access.save (playerBanFormat ext) ext bans.players)))
        .bannedIps (some (Access.save (ipBanFormat ext) ext bans.ips)), .ok ())) := by
  obtain ⟨_ | _, _ | _⟩ := lands
  · exact .inl ⟨rfl, _, rfl⟩
  · exact .inl ⟨rfl, _, rfl⟩
  · exact .inr (.inl ⟨rfl, _, rfl⟩)
  · exact .inr (.inr ⟨rfl, rfl⟩)

/-- The condition on a change of the bans: where both writes land, every date of the list can be
written and both files fit; where only the first does, it writes what the file holds. -/
def BanOk (game : Game ext) (lands : Bool × Bool) (bans : BanList ext) : Prop :=
  match lands with
  | (false, _) => True
  | (true, false) =>
    game.disk .bannedPlayers = some (save (playerBanFormat ext) ext bans.players)
  | (true, true) =>
    game.bans.Dated ∧ Fits ext (playerBanFormat ext) bans.players ∧
      Fits ext (ipBanFormat ext) bans.ips

/-- A change of the bans, saved, and undone when the save fails. -/
theorem bans_keep {α : Type} {game : Game ext} (h : Synced game) {lands : Bool × Bool}
    {bans undone : BanList ext} (hok : BanOk game lands bans)
    (hread : game.bans.Dated → Readable (playerBanFormat ext) bans.players ∧
      Readable (ipBanFormat ext) bans.ips)
    (hundone : undone = game.bans) (a : α) :
    Keeps game (match bans.save lands game.disk with
      | (disk, .error e) => ({ game with bans := undone, disk }, .error e)
      | (disk, .ok _) => ({ game with bans, disk }, .ok a)) := by
  obtain ⟨_, e, hsave⟩ | ⟨rfl, e, hsave⟩ | ⟨rfl, hsave⟩ := bans.save_cases lands game.disk
  · rw [hsave]
    exact h.keeps ⟨rfl, rfl, hundone, rfl⟩
  · rw [hsave]
    refine h.keeps ⟨rfl, rfl, hundone, ?_⟩
    exact Function.update_eq_self_iff.mpr hok.symm
  · rw [hsave]
    obtain ⟨hdated, hplayers, hips⟩ := hok
    obtain ⟨hreadPlayers, hreadIps⟩ := hread hdated
    refine Synced.keeps_ok ⟨h.operators, h.whitelist, ?_, ?_⟩ rfl
    · exact load_save _ ext hreadPlayers hplayers
    · exact load_save _ ext hreadIps hips

/-- A row put back under the key it was found under. -/
theorem banPlayer_previous {game : Game ext} (h : Synced game) {uuid : Text} {row : PlayerBan}
    (hrow : game.bans.playerBan uuid = some row) :
    normalise row.uuid = normalise uuid ∧ { row with uuid := normalise row.uuid } = row := by
  have hkey : row.uuid = normalise uuid := (loaded_of_load h.players _ row hrow).1
  have hnormal : normalise row.uuid = row.uuid := by rw [hkey, normalise_normalise]
  exact ⟨hnormal.trans hkey, by rw [hnormal]⟩

/-- The condition on a new row: it has a uuid a row can match, and dates the file can hold. -/
def PlayerRowOk (ext : External) (ban : PlayerBan) : Prop :=
  isValidUuid ext (normalise ban.uuid) = true ∧ Dated ban.created ban.expires

theorem filePlayerBan_keeps {game : Game ext} (h : Synced game) {lands : Bool × Bool}
    {ban : PlayerBan} (hok : BanOk game lands (game.bans.banPlayer ban))
    (hrow : PlayerRowOk ext ban) : Keeps game (game.filePlayerBan lands ban) := by
  unfold Game.filePlayerBan
  split
  · exact h.keeps (.refl game)
  · refine bans_keep h hok ?_ ?_ true
    · intro hdated
      refine ⟨(h.players_readable hdated).insert rfl ?_, h.ips_readable hdated⟩
      exact PlayerBan.readable ⟨normalise_normalise ban.uuid, hrow.1⟩ hrow.2.1 hrow.2.2
    · cases hprevious : game.bans.playerBan ban.uuid with
      | none =>
        simp only [BanList.unbanPlayer, BanList.banPlayer]
        rw [OrdMap.erase_insert_of_none hprevious]
      | some row =>
        obtain ⟨hkey, hsame⟩ := banPlayer_previous h hprevious
        simp only [BanList.banPlayer]
        rw [hsame, hkey, OrdMap.insert_insert, OrdMap.insert_self hprevious]

theorem pardonPlayer_keeps {game : Game ext} (h : Synced game) {lands : Bool × Bool} {uuid : Text}
    (hok : (game.bans.playerBan uuid).isSome → BanOk game lands (game.bans.unbanPlayer uuid)) :
    Keeps game (game.pardonPlayer lands uuid) := by
  unfold Game.pardonPlayer
  split
  · exact h.keeps (.refl game)
  · split
    · exact h.keeps (.refl game)
    · rename_i row hrow
      refine bans_keep h (hok (by simp [hrow])) ?_ ?_ true
      · exact fun hdated => ⟨(h.players_readable hdated).erase _, h.ips_readable hdated⟩
      · obtain ⟨hkey, hsame⟩ := banPlayer_previous h hrow
        simp only [BanList.banPlayer, BanList.unbanPlayer]
        rw [hsame, hkey, OrdMap.insert_erase_of_some hrow]

theorem fileIpBan_keeps {game : Game ext} (h : Synced game) {lands : Bool × Bool} {ban : IpBan ext}
    (hok : BanOk game lands (game.bans.banIp ban)) (hdates : Dated ban.created ban.expires) :
    Keeps game (game.fileIpBan lands ban) := by
  unfold Game.fileIpBan
  split
  · exact h.keeps (.refl game)
  · refine bans_keep h hok ?_ ?_ _
    · intro hdated
      refine ⟨h.players_readable hdated, (h.ips_readable hdated).insert rfl ?_⟩
      exact IpBan.readable hdates.1 hdates.2
    · cases hprevious : game.bans.ipBan ban.ip with
      | none =>
        simp only [BanList.unbanIp, BanList.banIp]
        rw [OrdMap.erase_insert_of_none hprevious]
      | some row =>
        have hkey : row.ip = ban.ip := (loaded_of_load h.ips _ row hprevious).1
        simp only [BanList.banIp]
        rw [hkey, OrdMap.insert_insert, OrdMap.insert_self hprevious]

theorem pardonAddress_keeps {game : Game ext} (h : Synced game) {lands : Bool × Bool} {ip : ext.Ip}
    (hok : (game.bans.ipBan ip).isSome → BanOk game lands (game.bans.unbanIp ip)) :
    Keeps game (game.pardonAddress lands ip) := by
  unfold Game.pardonAddress
  split
  · exact h.keeps (.refl game)
  · split
    · exact h.keeps (.refl game)
    · rename_i row hrow
      refine bans_keep h (hok (by simp [hrow])) ?_ ?_ true
      · exact fun hdated => ⟨h.players_readable hdated, (h.ips_readable hdated).erase _⟩
      · have hkey : row.ip = ip := (loaded_of_load h.ips _ row hrow).1
        simp only [BanList.banIp, BanList.unbanIp]
        rw [hkey, OrdMap.insert_erase_of_some hrow]

/-! ## Runs -/

/-- A call of an access operation. `connections` stands for the joins and leaves between them. -/
inductive Request (ext : External)
  | grantOperator (target : Nat) (level : PermissionLevel)
  | revokeOperator (target : Nat)
  | addToWhitelist (name : Text)
  | removeFromWhitelist (name : Text)
  | filePlayerBan (ban : PlayerBan)
  | fileIpBan (ban : IpBan ext)
  | pardonPlayer (uuid : Text)
  | pardonAddress (ip : ext.Ip)
  | connections (sessions : OrdMap Nat (Session ext))

/-- A call, and whether the writes it makes would land. -/
structure Call (ext : External) where
  request : Request ext
  lands : Bool × Bool

/-- The game after a call, and whether the call reported a failure. -/
def perform (banUuidFor : Text → AccessUuid ext) (game : Game ext) (call : Call ext) :
    Game ext × ServerResult Unit :=
  let forget {α : Type} (after : Game ext × ServerResult α) : Game ext × ServerResult Unit :=
    (after.1, after.2.map fun _ => ())
  match call.request with
  | .grantOperator target level => forget (game.grantOperator call.lands.1 target level)
  | .revokeOperator target => forget (game.revokeOperator call.lands.1 target)
  | .addToWhitelist name => forget (game.addToWhitelist banUuidFor call.lands.1 name)
  | .removeFromWhitelist name => forget (game.removeFromWhitelist banUuidFor call.lands.1 name)
  | .filePlayerBan ban => forget (game.filePlayerBan call.lands ban)
  | .fileIpBan ban => forget (game.fileIpBan call.lands ban)
  | .pardonPlayer uuid => forget (game.pardonPlayer call.lands uuid)
  | .pardonAddress ip => forget (game.pardonAddress call.lands ip)
  | .connections sessions => ({ game with sessions }, .ok ())

/-- The condition on a call, in the state it finds. -/
def CallOk (banUuidFor : Text → AccessUuid ext) (game : Game ext) (call : Call ext) : Prop :=
  match call.request with
  | .grantOperator target level => GrantOk game call.lands.1 target level
  | .revokeOperator target => RevokeOk game call.lands.1 target
  | .addToWhitelist name => AddOk banUuidFor game call.lands.1 name
  | .removeFromWhitelist name => RemoveOk banUuidFor game call.lands.1 name
  | .filePlayerBan ban =>
    BanOk game call.lands (game.bans.banPlayer ban) ∧ PlayerRowOk ext ban
  | .fileIpBan ban => BanOk game call.lands (game.bans.banIp ban) ∧ Dated ban.created ban.expires
  | .pardonPlayer uuid =>
    (game.bans.playerBan uuid).isSome → BanOk game call.lands (game.bans.unbanPlayer uuid)
  | .pardonAddress ip =>
    (game.bans.ipBan ip).isSome → BanOk game call.lands (game.bans.unbanIp ip)
  | .connections _ => True

theorem Keeps.forget {α : Type} {game : Game ext} {after : Game ext × ServerResult α}
    (h : Keeps game after) : Keeps game (after.1, after.2.map fun _ => ()) := by
  refine ⟨h.synced, ?_⟩
  intro ⟨e, he⟩
  cases hresult : after.2 with
  | error e' => exact h.unchanged ⟨e', hresult⟩
  | ok a => simp [hresult, Except.map] at he

theorem perform_keeps {banUuidFor : Text → AccessUuid ext} {game : Game ext} {call : Call ext}
    (h : Synced game) (hok : CallOk banUuidFor game call) :
    Keeps game (perform banUuidFor game call) := by
  obtain ⟨request, lands⟩ := call
  cases request with
  | grantOperator target level => exact (grantOperator_keeps h hok).forget
  | revokeOperator target => exact (revokeOperator_keeps h hok).forget
  | addToWhitelist name => exact (addToWhitelist_keeps h hok).forget
  | removeFromWhitelist name => exact (removeFromWhitelist_keeps h hok).forget
  | filePlayerBan ban => exact (filePlayerBan_keeps h hok.1 hok.2).forget
  | fileIpBan ban => exact (fileIpBan_keeps h hok.1 hok.2).forget
  | pardonPlayer uuid => exact (pardonPlayer_keeps h hok).forget
  | pardonAddress ip => exact (pardonAddress_keeps h hok).forget
  | connections sessions =>
    exact Synced.keeps_ok ⟨h.operators, h.whitelist, h.players, h.ips⟩ rfl

/-- The game after a call. -/
def afterCall (banUuidFor : Text → AccessUuid ext) (game : Game ext) (call : Call ext) : Game ext :=
  (perform banUuidFor game call).1

theorem afterCall_synced {banUuidFor : Text → AccessUuid ext} {game : Game ext} {call : Call ext}
    (h : Synced game) (hok : CallOk banUuidFor game call) :
    Synced (afterCall banUuidFor game call) :=
  (perform_keeps h hok).synced

/-! ## A server with one address -/

namespace Local

/-- The length of a value on a line. -/
def valueLen : Json → Nat
  | .str s => s.length + 2
  | .bool true => 4
  | .bool false => 5
  | .number (some n) => (toString n).length
  | _ => 4

/-- The length of a row of the pretty printer, four spaces in. -/
def rowLen : Json → Nat
  | .obj fields => (fields.map fun field => field.1.length + 8 + valueLen field.2 + 2).sum + 6
  | value => valueLen value

/-- The length of a file of rows. -/
def fileLen : Json → Nat
  | .arr rows => (rows.map fun row => rowLen row + 2).sum + 2
  | value => valueLen value

/-- Files kept as what they parse to, and the loopback address alone. -/
def external : External where
  Contents := Json
  toStringPretty := id
  fromStr := some
  len := fileLen
  fromStr_toStringPretty _ _ := rfl
  uuidParses text := text.length = 32 || text.length = 36
  Ip := Unit
  ipOrder := inferInstance
  ipText _ := "127.0.0.1".toList
  ipParse text := if text = "127.0.0.1".toList then some () else none
  ipParse_ipText := by decide

/-- The offline uuid of the name `Notch`. -/
def notch : AccessUuid external where
  text := "b50ad385-829d-3141-a216-7e7d7539ba7f".toList
  normal := by decide
  valid := by decide

def session : Session external := ⟨1, notch, "Notch".toList, some (), .all⟩

/-- No file is there yet, and one player is online. -/
def fresh : Game external where
  opsDirectory := true
  sessions := OrdMap.empty.insert 1 session
  operators := .empty
  whitelist := .empty
  bans := ⟨.empty, .empty⟩
  disk _ := none

theorem fresh_synced : Synced fresh := ⟨rfl, rfl, rfl, rfl⟩

theorem grant_ok (level : PermissionLevel) : GrantOk fresh true 1 level := by
  intro s hs _
  have hs : s = session := (Option.some.inj hs).symm
  subst hs
  simp only [if_true]
  cases level <;> decide

/-- The player is an operator of level 2. -/
def granted : Game external := (fresh.grantOperator true 1 .operator).1

theorem granted_synced : Synced granted := (grantOperator_keeps fresh_synced (grant_ok _)).synced

/-- A ban of the player, with a date of one and a half seconds. -/
def ban (created : SystemTime) : PlayerBan :=
  ⟨notch.text, "Notch".toList, created, "Server".toList, none, "".toList⟩

/-- The player table with that ban. -/
def bannedAt (created : SystemTime) : OrdMap Text PlayerBan :=
  (fresh.bans.banPlayer (ban created)).players

/-- The file of a ban filed within the second reads back as one filed on the second. -/
theorem load_bannedAt :
    load (playerBanFormat external) external
      (some (save (playerBanFormat external) external (bannedAt 1500000000))) =
      .ok (bannedAt 1000000000) := by
  have hsame : save (playerBanFormat external) external (bannedAt 1500000000) =
      save (playerBanFormat external) external (bannedAt 1000000000) := by
    have htext : formatBanTime 1500000000 = formatBanTime 1000000000 := by decide
    simp only [save, bannedAt, BanList.banPlayer, ban, OrdMap.insert, insertEntry, fresh,
      OrdMap.empty, List.map_cons, List.map_nil, playerBanFormat, PlayerBan.fields, htext]
  have hread : Readable (playerBanFormat external) (bannedAt 1000000000) :=
    Readable.insert (show Readable (playerBanFormat external) .empty from fun _ _ h => by cases h) rfl
      (PlayerBan.readable notch.matchable (by decide) fun _ h => by cases h)
  rw [hsame]
  exact load_save _ external hread (by decide)

end Local

/-- Over any run whose calls all meet the condition, the lists agree with the files after every
call, and a call that failed changed neither. -/
theorem access_lists_agree (ext : External) (banUuidFor : Text → AccessUuid ext) (game : Game ext)
    (calls : List (Call ext)) (h : Synced game)
    (hok : Along (afterCall banUuidFor) (CallOk banUuidFor) game calls) :
    Synced (run (afterCall banUuidFor) game calls) ∧
    Along (afterCall banUuidFor) (fun game call => Keeps game (perform banUuidFor game call))
      game calls := by
  constructor
  · exact run_inv_along (fun _ _ hs hc => afterCall_synced hs hc) h hok
  · exact along_imp (fun _ _ hs hc => afterCall_synced hs hc) (fun _ _ hs hc => perform_keeps hs hc)
      h hok

open Local in
/-- A grant that lands, a revocation that does not, and a ban filed on the second. -/
theorem access_lists_agree_local :
    Synced (run (afterCall fun _ => notch) fresh
      [⟨.grantOperator 1 .console, true, true⟩, ⟨.revokeOperator 1, false, true⟩,
        ⟨.filePlayerBan (ban 1000000000), true, true⟩]) ∧
    Along (afterCall fun _ => notch) (fun game call => Keeps game (perform (fun _ => notch) game call))
      fresh [⟨.grantOperator 1 .console, true, true⟩, ⟨.revokeOperator 1, false, true⟩,
        ⟨.filePlayerBan (ban 1000000000), true, true⟩] := by
  apply access_lists_agree external _ fresh _ fresh_synced
  refine ⟨grant_ok .console, ?_, ⟨⟨⟨?_, ?_⟩, by decide, by decide⟩, by decide, by decide, nofun⟩,
    trivial⟩
  · intro _ _ _ hlands
    cases hlands
  · intro _ _ hrow
    cases hrow
  · intro _ _ hrow
    cases hrow

open Local in
/-- A failed grant deletes the row it should have put back; a ban whose second file fails stays in
the first; a ban filed within a second is not the one a reload gives. -/
theorem access_lists_diverge :
    (Synced granted ∧ failed (granted.grantOperator false 1 .console).2 ∧
      granted.operators.get? notch.text = some ⟨notch.text, "Notch".toList, .operator, false⟩ ∧
      (granted.grantOperator false 1 .console).1.operators.get? notch.text = none ∧
      (granted.grantOperator false 1 .console).1.disk = granted.disk) ∧
    (Synced fresh ∧ failed (fresh.filePlayerBan (true, false) (ban 0)).2 ∧
      fresh.disk .bannedPlayers = none ∧
      (fresh.filePlayerBan (true, false) (ban 0)).1.disk .bannedPlayers ≠ none) ∧
    (¬failed (fresh.filePlayerBan (true, true) (ban 1500000000)).2 ∧
      ¬Synced (fresh.filePlayerBan (true, true) (ban 1500000000)).1) := by
  refine ⟨⟨granted_synced, ⟨_, rfl⟩, by decide, by decide, rfl⟩,
    ⟨fresh_synced, ⟨_, rfl⟩, rfl, by decide⟩, ?_, ?_⟩
  · intro ⟨e, he⟩
    cases he
  · intro h
    have hload := h.players.symm.trans load_bannedAt
    have hrow := congrArg (fun rows => (OrdMap.get? rows notch.text).map PlayerBan.created)
      (Except.ok.inj hload)
    exact absurd hrow (by decide)

end Apoptosis.L2.Access
