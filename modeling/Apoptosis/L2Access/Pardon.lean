import Apoptosis.L2Access.AccessGame
/-!
# Ban and pardon, whitelist add and remove (`server/src/commands.rs`)

A row is filed under a uuid; the commands name a player. A ban takes the uuid of
the session of that name and derives one only without a session, a pardon always
derives it, and the removal from the whitelist takes the session's, then the
derived one. Who joins under a name has the uuid of the account or the derived
one, as the server authenticates.

* `pardon_spec`, `remove_spec`: the rows a command leaves.
* `undone_iff`: when a pardon undoes a ban, and a removal an addition.
-/
namespace Apoptosis.L2.Access
open Apoptosis.Core Apoptosis.L2.Command

variable {ext : External}

/-- mirrors crates/server/src/bans.rs:65 -/
def DEFAULT_BAN_REASON : Text := "Banned by an operator.".toList

/-- mirrors crates/server/src/bans.rs:370-374 (`BanList::is_player_banned_at`) -/
def BanList.isPlayerBannedAt (bans : BanList ext) (uuid : Text) (now : SystemTime) : Bool :=
  (bans.playerBan uuid).any fun ban => ban.expires.all (now < ·)

/-- How a server tells who a player is: by the accounts of the names, or from the name. -/
structure Names (ext : External) where
  /-- `offline_profile(name).id` -/
  banUuidFor : Text → AccessUuid ext
  /-- What `hasJoined` answers for the name. -/
  account : Text → AccessUuid ext

def Names.joinsAs (names : Names ext) (online : Bool) (name : Text) : AccessUuid ext :=
  if online then names.account name else names.banUuidFor name

namespace Game

/-- mirrors crates/server/src/commands.rs:1379-1387 (`ban_identity_for`) -/
def banIdentityFor (banUuidFor : Text → AccessUuid ext) (game : Game ext) (name : Text) :
    AccessUuid ext × Text :=
  match game.sessionIdByName name with
  | some target => match game.sessions.get? target with
    | some session => (session.uuid, session.name)
    | none => (banUuidFor name, name)
  | none => (banUuidFor name, name)

/-- mirrors crates/server/src/commands.rs:1418-1467 (`command_ban`): the session to be kicked, and what
`file_player_ban` came to -/
def commandBan (banUuidFor : Text → AccessUuid ext) (game : Game ext) (lands : Bool × Bool)
    (created : SystemTime) (source name : Text) (reason : Option Text) :
    Game ext × ServerResult Bool × Option Nat :=
  let reason := reason.getD []
  let reason := if reason = [] then DEFAULT_BAN_REASON else reason
  let (uuid, listed) := game.banIdentityFor banUuidFor name
  let target := game.sessionIdByName name
  let (game, filed) := game.filePlayerBan lands ⟨uuid.text, listed, created, source, none, reason⟩
  match filed with
  | .ok true => (game, filed, target)
  | _ => (game, filed, none)

/-- mirrors crates/server/src/commands.rs:1519-1539 (`command_pardon`) -/
def commandPardon (banUuidFor : Text → AccessUuid ext) (game : Game ext) (lands : Bool × Bool)
    (name : Text) : Game ext × ServerResult Bool :=
  game.pardonPlayer lands (banUuidFor name).text

end Game

/-- What a pardon reports. -/
def pardonMessage (name : Text) : ServerResult Bool → Text
  | .error _ => "Could not persist the pardon, and nothing was changed: ".toList
  | .ok true => "Pardoned ".toList ++ name
  | .ok false => "Nothing changed: ".toList ++ name ++ " is not banned".toList

/-! ## Joins and leaves -/

inductive Visit (ext : External)
  | joined (id : Nat) (name : Text) (online : Bool) (ip : Option ext.Ip) (permission : PermissionLevel)
  | left (id : Nat)

/-- Joins that were let in, and leaves. -/
def visit (names : Names ext) (game : Game ext) : Visit ext → Game ext
  | .joined id name online ip permission => { game with
      sessions := game.sessions.insert id ⟨id, names.joinsAs online name, name, ip, permission⟩ }
  | .left id => { game with sessions := game.sessions.erase id }

theorem run_visit (names : Names ext) (visits : List (Visit ext)) (game : Game ext) :
    run (visit names) game visits =
      { game with sessions := (run (visit names) game visits).sessions } := by
  induction visits generalizing game with
  | nil => rfl
  | cons v visits ih =>
    rw [run, ih]
    cases v <;> rfl

/-- Visits go by the sessions alone. -/
theorem run_visit_sessions (names : Names ext) (visits : List (Visit ext)) {game game' : Game ext}
    (h : game.sessions = game'.sessions) :
    (run (visit names) game visits).sessions = (run (visit names) game' visits).sessions := by
  induction visits generalizing game game' with
  | nil => exact h
  | cons v visits ih =>
    refine ih ?_
    cases v <;> simp only [visit, h]

/-! ## Rows -/

/-- A row refuses its player, at some time at least. -/
theorem never_banned_iff (bans : BanList ext) (uuid : Text) :
    (∀ now, bans.isPlayerBannedAt uuid now = false) ↔ bans.playerBan uuid = none := by
  unfold BanList.isPlayerBannedAt
  cases bans.playerBan uuid with
  | none => simp
  | some row =>
    simp only [Option.any_some, reduceCtorEq, iff_false, not_forall]
    cases hexpires : row.expires with
    | none => exact ⟨0, by simp⟩
    | some time => exact ⟨time - 1, by simp⟩

theorem playerBan_banPlayer (bans : BanList ext) (ban : PlayerBan) (uuid : AccessUuid ext) :
    (bans.banPlayer ban).playerBan uuid.text =
      if normalise ban.uuid = uuid.text then some { ban with uuid := normalise ban.uuid }
      else bans.playerBan uuid.text := by
  simp only [BanList.banPlayer, BanList.playerBan, OrdMap.get?_insert, uuid.normal]
  split <;> simp [*]

theorem playerBan_unbanPlayer (bans : BanList ext) (uuid : Text) (uuid' : AccessUuid ext) :
    (bans.unbanPlayer uuid).playerBan uuid'.text =
      if normalise uuid = uuid'.text then none else bans.playerBan uuid'.text := by
  simp only [BanList.unbanPlayer, BanList.playerBan, OrdMap.get?_erase, uuid'.normal]
  split <;> simp [*]

theorem filePlayerBan_spec {game game' : Game ext} {lands : Bool × Bool} {ban : PlayerBan}
    (h : game.filePlayerBan lands ban = (game', .ok true)) :
    game.opsDirectory = true ∧ game'.opsDirectory = true ∧ game'.sessions = game.sessions ∧
      game'.bans = game.bans.banPlayer ban := by
  unfold Game.filePlayerBan at h
  cases hops : game.opsDirectory with
  | false =>
    rw [hops] at h
    exact nomatch h
  | true =>
    rw [hops] at h
    simp only [Bool.not_true, Bool.false_eq_true, if_false] at h
    split at h
    · exact nomatch h
    · cases h
      exact ⟨rfl, rfl, rfl, rfl⟩

/-- What a ban that was filed leaves. -/
theorem commandBan_spec {banUuidFor : Text → AccessUuid ext} {game game' : Game ext} {lands : Bool × Bool}
    {created : SystemTime} {source name : Text} {reason : Option Text} {kicked : Option Nat}
    (h : game.commandBan banUuidFor lands created source name reason = (game', .ok true, kicked)) :
    game.opsDirectory = true ∧ game'.opsDirectory = true ∧ game'.sessions = game.sessions ∧
      ∀ uuid : AccessUuid ext, game'.bans.playerBan uuid.text = none ↔
        (game.banIdentityFor banUuidFor name).1.text ≠ uuid.text ∧ game.bans.playerBan uuid.text = none := by
  unfold Game.commandBan at h
  dsimp only at h
  set row : PlayerBan := ⟨(game.banIdentityFor banUuidFor name).1.text, _, created, source, none, _⟩
  have hfiled : game.filePlayerBan lands row = (game', .ok true) := by
    split at h
    · rename_i hok
      rw [Prod.mk.injEq] at h
      exact Prod.ext h.1 hok
    · rename_i hno
      rw [Prod.mk.injEq, Prod.mk.injEq] at h
      exact absurd h.2.1 hno
  obtain ⟨hops, hops', hsessions, hbans⟩ := filePlayerBan_spec hfiled
  refine ⟨hops, hops', hsessions, fun uuid => ?_⟩
  rw [hbans, playerBan_banPlayer, (game.banIdentityFor banUuidFor name).1.normal]
  split
  · rename_i heq
    simp [heq]
  · rename_i hne
    simp [hne]

theorem commandBan_lands (banUuidFor : Text → AccessUuid ext) {game : Game ext} (hops : game.opsDirectory = true)
    (name : Text) : ∃ game' kicked,
      game.commandBan banUuidFor (true, true) 0 [] name none = (game', .ok true, kicked) := by
  unfold Game.commandBan Game.filePlayerBan
  rw [hops]
  exact ⟨_, _, rfl⟩

/-- What a pardon leaves and reports. -/
theorem pardon_spec {game : Game ext} (hops : game.opsDirectory = true) (lands : Bool × Bool)
    (derived : AccessUuid ext) (uuid : AccessUuid ext) :
    ((game.pardonPlayer lands derived.text).2 = .ok false ↔ game.bans.playerBan derived.text = none) ∧
      ((game.pardonPlayer lands derived.text).2 = .ok true →
        ((game.pardonPlayer lands derived.text).1.bans.playerBan uuid.text = none ↔
          derived.text = uuid.text ∨ game.bans.playerBan uuid.text = none)) := by
  unfold Game.pardonPlayer
  rw [hops]
  simp only [Bool.not_true, Bool.false_eq_true, if_false]
  cases hrow : game.bans.playerBan derived.text with
  | none => exact ⟨⟨fun _ => rfl, fun _ => rfl⟩, fun h => (nomatch h)⟩
  | some row =>
    dsimp only
    split
    · exact ⟨⟨fun h => (nomatch h), fun h => (nomatch h)⟩, fun h => (nomatch h)⟩
    · refine ⟨⟨fun h => (nomatch h), fun h => (nomatch h)⟩, fun _ => ?_⟩
      dsimp only
      rw [playerBan_unbanPlayer, derived.normal]
      split
      · rename_i heq
        simp [heq]
      · rename_i hne
        simp [hne]

theorem pardon_lands {game : Game ext} (hops : game.opsDirectory = true) {derived : AccessUuid ext}
    (hrow : game.bans.playerBan derived.text ≠ none) :
    (game.pardonPlayer (true, true) derived.text).2 = .ok true := by
  unfold Game.pardonPlayer
  rw [hops]
  obtain ⟨row, hrow⟩ := Option.ne_none_iff_exists'.mp hrow
  rw [hrow]
  rfl

theorem find_add (list : Whitelist) (added : AccessUuid ext) (name : Text) (uuid : AccessUuid ext) :
    (list.add added.text name).1.find uuid.text = none ↔
      added.text ≠ uuid.text ∧ list.find uuid.text = none := by
  simp only [Whitelist.add, Whitelist.find, OrdMap.get?_insert, uuid.normal, added.normal]
  split
  · rename_i heq
    simp [heq]
  · rename_i hne
    simp [hne]

/-- What an addition that was reported leaves. -/
theorem add_spec {banUuidFor : Text → AccessUuid ext} {game game' : Game ext} {lands : Bool} {name listed : Text}
    {changed : Bool} (h : game.addToWhitelist banUuidFor lands name = (game', .ok (some (listed, changed)))) :
    game.opsDirectory = true ∧ game'.opsDirectory = true ∧ game'.sessions = game.sessions ∧
      ∃ added, game.identity banUuidFor name = some (added, listed) ∧
        game'.whitelist = (game.whitelist.add added.text listed).1 := by
  unfold Game.addToWhitelist at h
  cases hops : game.opsDirectory with
  | false =>
    rw [hops] at h
    exact nomatch h
  | true =>
    rw [hops] at h
    simp only [Bool.not_true, Bool.false_eq_true, if_false] at h
    cases hid : game.identity banUuidFor name with
    | none =>
      rw [hid] at h
      exact nomatch h
    | some found =>
      rw [hid] at h
      dsimp only at h
      split at h
      · exact nomatch h
      · cases h
        exact ⟨rfl, rfl, rfl, found.1, rfl, rfl⟩

/-- The row a removal by name means. -/
def rowMeant (banUuidFor : Text → AccessUuid ext) (game : Game ext) (name : Text) : Option (AccessUuid ext) :=
  (game.identity banUuidFor name).map fun found => game.listedUuid banUuidFor found.1 found.2

/-- What a removal leaves, unless the write of the file fails. -/
theorem remove_spec {banUuidFor : Text → AccessUuid ext} {game : Game ext} (hops : game.opsDirectory = true)
    (lands : Bool) (name : Text) (uuid : AccessUuid ext)
    (hok : ¬ failed (game.removeFromWhitelist banUuidFor lands name).2) :
    (game.removeFromWhitelist banUuidFor lands name).1.whitelist.find uuid.text = none ↔
      (rowMeant banUuidFor game name).map (·.text) = some uuid.text ∨ game.whitelist.find uuid.text = none := by
  unfold rowMeant
  unfold Game.removeFromWhitelist at hok ⊢
  rw [hops] at hok ⊢
  simp only [Bool.not_true, Bool.false_eq_true, if_false] at hok ⊢
  cases hid : game.identity banUuidFor name with
  | none => simp
  | some found =>
    rw [hid] at hok
    dsimp only at hok ⊢
    rw [Option.map_some, Option.map_some, Option.some.injEq]
    generalize game.listedUuid banUuidFor found.1 found.2 = meant at hok ⊢
    cases hrow : game.whitelist.find meant.text with
    | none =>
      dsimp only
      rw [or_iff_right_of_imp]
      intro heq
      rw [← heq, hrow]
    | some row =>
      rw [hrow] at hok
      dsimp only at hok ⊢
      split
      · rename_i hsave
        rw [hsave] at hok
        exact absurd ⟨_, rfl⟩ hok
      · dsimp only
        simp only [Whitelist.remove, Whitelist.find, OrdMap.get?_erase, uuid.normal, meant.normal]
        split
        · rename_i heq
          exact ⟨fun _ => .inl heq, fun _ => rfl⟩
        · rename_i hne
          exact (or_iff_right hne).symm

theorem remove_lands (banUuidFor : Text → AccessUuid ext) (game : Game ext) (name : Text) :
    ¬ failed (game.removeFromWhitelist banUuidFor true name).2 := by
  intro ⟨e, he⟩
  unfold Game.removeFromWhitelist at he
  split at he
  · exact nomatch he
  split at he
  · exact nomatch he
  dsimp only at he
  split at he
  · exact nomatch he
  · exact nomatch he

theorem add_lands (banUuidFor : Text → AccessUuid ext) {game : Game ext} (hops : game.opsDirectory = true)
    {name : Text} {found : AccessUuid ext × Text} (hid : game.identity banUuidFor name = some found) :
    ∃ game' changed, game.addToWhitelist banUuidFor true name = (game', .ok (some (found.2, changed))) := by
  unfold Game.addToWhitelist
  rw [hops, hid]
  simp only [Bool.not_true, Bool.false_eq_true, if_false]
  generalize hadd : game.whitelist.add found.1.text found.2 = added
  obtain ⟨whitelist, changed⟩ := added
  cases changed <;> exact ⟨_, _, rfl⟩

/-! ## Undoing -/

/-- After a ban of the name that is filed, and any visits, a pardon never reports that nobody is
banned, and one that goes through leaves no row that refuses the player. -/
def PardonUndoes (names : Names ext) (game : Game ext) (visits : List (Visit ext)) (name : Text)
    (player : AccessUuid ext) : Prop :=
  ∀ lands created source reason game' kicked,
    game.commandBan names.banUuidFor lands created source name reason = (game', .ok true, kicked) →
    ∀ lands, let after := (run (visit names) game' visits).commandPardon names.banUuidFor lands name
      after.2 ≠ .ok false ∧
        (after.2 = .ok true → ∀ now, after.1.bans.isPlayerBannedAt player.text now = false)

/-- After an addition of the name to the whitelist that is reported, and any visits, a removal leaves
no row that admits the player, unless it fails. -/
def RemovalUndoes (names : Names ext) (game : Game ext) (visits : List (Visit ext)) (name : Text)
    (player : AccessUuid ext) : Prop :=
  ∀ lands game' listed changed,
    game.addToWhitelist names.banUuidFor lands name = (game', .ok (some (listed, changed))) →
    ∀ lands, let after := (run (visit names) game' visits).removeFromWhitelist names.banUuidFor lands name
      ¬ failed after.2 → after.1.whitelist.find player.text = none

/-- The ban is filed under the uuid that is derived from the name, or that one was banned before; and
the player has the derived uuid, or one that neither this ban nor an earlier one is filed under. -/
def PardonReaches (names : Names ext) (game : Game ext) (name : Text) (player : AccessUuid ext) : Prop :=
  let filed := (game.banIdentityFor names.banUuidFor name).1
  let derived := names.banUuidFor name
  (filed.text = derived.text ∨ game.bans.playerBan derived.text ≠ none) ∧
    (derived.text = player.text ∨ (filed.text ≠ player.text ∧ game.bans.playerBan player.text = none))

/-- The row the removal means, with the name added and the sessions as they are by then, is the
player's, or the player has none. -/
def RemovalReaches (names : Names ext) (game : Game ext) (visits : List (Visit ext)) (name : Text)
    (player : AccessUuid ext) : Prop :=
  ∀ added listed, game.identity names.banUuidFor name = some (added, listed) →
    (rowMeant names.banUuidFor { run (visit names) game visits with
      whitelist := (game.whitelist.add added.text listed).1 } name).map (·.text) = some player.text ∨
    (added.text ≠ player.text ∧ game.whitelist.find player.text = none)

variable {names : Names ext} {game : Game ext}

theorem pardonUndoes_iff (hops : game.opsDirectory = true) (visits : List (Visit ext)) (name : Text)
    (player : AccessUuid ext) :
    PardonUndoes names game visits name player ↔ PardonReaches names game name player := by
  -- what a pardon does after the ban and the visits, by the rows before the ban
  have hpardon {lands created source reason game' kicked} (hban : game.commandBan names.banUuidFor lands
      created source name reason = (game', .ok true, kicked)) (lands' : Bool × Bool) :
      let after := (run (visit names) game' visits).commandPardon names.banUuidFor lands' name
      (after.2 = .ok false ↔ (game.banIdentityFor names.banUuidFor name).1.text ≠ (names.banUuidFor name).text ∧
        game.bans.playerBan (names.banUuidFor name).text = none) ∧
      (after.2 = .ok true → ((∀ now, after.1.bans.isPlayerBannedAt player.text now = false) ↔
        (names.banUuidFor name).text = player.text ∨
          ((game.banIdentityFor names.banUuidFor name).1.text ≠ player.text ∧
            game.bans.playerBan player.text = none))) := by
    obtain ⟨-, hops', -, hrows⟩ := commandBan_spec hban
    rw [run_visit]
    have hspec := @pardon_spec ext { game' with sessions := (run (visit names) game' visits).sessions }
      hops' lands' (names.banUuidFor name) player
    refine ⟨hspec.1.trans (hrows _), fun hok => ?_⟩
    rw [never_banned_iff]
    exact (hspec.2 hok).trans (or_congr_right (hrows player))
  constructor
  · intro h
    obtain ⟨game', kicked, hban⟩ := commandBan_lands names.banUuidFor hops name
    obtain ⟨hnever, hrow⟩ := h _ _ _ _ _ _ hban (true, true)
    obtain ⟨hfalse, hleft⟩ := hpardon hban (true, true)
    have hthere := (not_congr hfalse).mp hnever
    refine ⟨by rwa [not_and_or, not_not] at hthere, ?_⟩
    obtain ⟨-, hops', -, hrows⟩ := commandBan_spec hban
    have hok : ((run (visit names) game' visits).commandPardon names.banUuidFor (true, true) name).2 =
        .ok true := by
      rw [run_visit]
      exact @pardon_lands ext { game' with sessions := (run (visit names) game' visits).sessions } hops' _
        ((not_congr (hrows _)).mpr hthere)
    exact (hleft hok).mp (hrow hok)
  · intro ⟨hthere, hleft⟩ lands created source reason game' kicked hban lands'
    obtain ⟨hfalse, hrow⟩ := hpardon hban lands'
    refine ⟨(not_congr hfalse).mpr ?_, fun hok => (hrow hok).mpr hleft⟩
    rw [not_and_or, not_not]
    exact hthere

theorem removalUndoes_iff (hops : game.opsDirectory = true) (visits : List (Visit ext)) (name : Text)
    (player : AccessUuid ext) :
    RemovalUndoes names game visits name player ↔ RemovalReaches names game visits name player := by
  -- what a removal leaves after the addition and the visits
  have hremove {lands game' listed changed} (hadd : game.addToWhitelist names.banUuidFor lands name =
      (game', .ok (some (listed, changed)))) {added : AccessUuid ext}
      (hid : game.identity names.banUuidFor name = some (added, listed)) (lands' : Bool)
      (hok : ¬ failed ((run (visit names) game' visits).removeFromWhitelist names.banUuidFor lands' name).2) :
      ((run (visit names) game' visits).removeFromWhitelist names.banUuidFor lands' name).1.whitelist.find
          player.text = none ↔
        (rowMeant names.banUuidFor { run (visit names) game visits with
          whitelist := (game.whitelist.add added.text listed).1 } name).map (·.text) = some player.text ∨
        (added.text ≠ player.text ∧ game.whitelist.find player.text = none) := by
    obtain ⟨-, hops', hsessions, added', hid', hlist⟩ := add_spec hadd
    obtain rfl : added' = added := (Prod.mk.inj (Option.some.inj (hid'.symm.trans hid))).1
    have hvisits := run_visit names visits game'
    have hspec := @remove_spec ext names.banUuidFor (run (visit names) game' visits) (by rw [hvisits]; exact hops') lands' name player hok
    rw [hspec]
    have hrows : (run (visit names) game' visits).whitelist = (game.whitelist.add added'.text listed).1 := by
      rw [hvisits]
      exact hlist
    have hmeant : rowMeant names.banUuidFor (run (visit names) game' visits) name =
        rowMeant names.banUuidFor { run (visit names) game visits with
          whitelist := (game.whitelist.add added'.text listed).1 } name := by
      have hsame := run_visit_sessions names visits hsessions
      simp only [rowMeant, Game.identity, Game.sessionIdByName, Game.listedUuid, hsame, hrows]
    rw [hmeant, hrows, find_add]
  constructor
  · intro h added listed hid
    obtain ⟨game', changed, hadd⟩ := add_lands names.banUuidFor hops hid
    have hok := remove_lands names.banUuidFor (run (visit names) game' visits) name
    exact (hremove hadd hid true hok).mp (h _ _ _ _ hadd true hok)
  · intro h lands game' listed changed hadd lands' after hok
    obtain ⟨-, -, -, added, hid, -⟩ := add_spec hadd
    exact (hremove hadd hid lands' hok).mpr (h added listed hid)

/-- Pardon undoes ban and removal undoes addition, just when each means the rows of the player. -/
theorem undone_iff (names : Names ext) (game : Game ext) (visits : List (Visit ext)) (name : Text)
    (online : Bool) :
    (PardonUndoes names game visits name (names.joinsAs online name) ∧
      RemovalUndoes names game visits name (names.joinsAs online name)) ↔
    (game.opsDirectory = true → PardonReaches names game name (names.joinsAs online name) ∧
      RemovalReaches names game visits name (names.joinsAs online name)) := by
  cases hops : game.opsDirectory with
  | true =>
    rw [pardonUndoes_iff hops, removalUndoes_iff hops]
    simp
  | false =>
    refine ⟨fun _ h => (by cases h), fun _ => ⟨?_, ?_⟩⟩
    · intro lands created source reason game' kicked hban
      rw [(commandBan_spec hban).1] at hops
      cases hops
    · intro lands game' listed changed hadd
      rw [(add_spec hadd).1] at hops
      cases hops

/-! ## A ban that cannot be pardoned -/

open Local in
/-- The uuid of the account `Notch`. -/
def notchAccount : AccessUuid external where
  text := "069a79f4-44e9-4726-a5be-fca90e38aaf5".toList
  normal := by decide
  valid := by decide

open Local in
/-- A server that asks for the account, with the player online. -/
def authenticated : Game external :=
  run (visit ⟨fun _ => notch, fun _ => notchAccount⟩) { fresh with sessions := .empty }
    [.joined 1 "Notch".toList true none .all]

open Local in
/-- The player is banned and kicked; the pardon finds no ban, and the player is still refused. A row
of the whitelist stays in the same way. -/
theorem pardon_misses_account :
    let names : Names external := ⟨fun _ => notch, fun _ => notchAccount⟩
    let banned := (authenticated.commandBan names.banUuidFor (true, true) 0 [] "Notch".toList none)
    let pardoned := (run (visit names) banned.1 [.left 1]).commandPardon names.banUuidFor (true, true) "Notch".toList
    banned.2 = (.ok true, some 1) ∧ pardoned.2 = .ok false ∧
      pardoned.1.bans.isPlayerBannedAt (names.joinsAs true "Notch".toList).text 0 = true ∧
      ¬ PardonUndoes names authenticated [.left 1] "Notch".toList (names.joinsAs true "Notch".toList) ∧
      ¬ RemovalUndoes names authenticated [.left 1] "Notch".toList (names.joinsAs true "Notch".toList) := by
  extract_lets names banned pardoned
  have hbanned : banned.2 = (.ok true, some 1) := by rfl
  have hpardoned : pardoned.2 = .ok false := by rfl
  refine ⟨hbanned, hpardoned, by rfl, fun h => ?_, fun h => ?_⟩
  · have hban : authenticated.commandBan names.banUuidFor (true, true) 0 [] "Notch".toList none =
        (banned.1, .ok true, some 1) := Prod.ext rfl hbanned
    exact (h _ _ _ _ _ _ hban (true, true)).1 hpardoned
  · have hadd : (authenticated.addToWhitelist names.banUuidFor true "Notch".toList).2 =
        .ok (some ("Notch".toList, true)) := by rfl
    have hnone := h true _ _ _ (Prod.ext rfl hadd) true (remove_lands _ _ _)
    exact absurd hnone (by decide)

end Apoptosis.L2.Access
