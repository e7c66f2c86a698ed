import Apoptosis.Core.OrdMap
import Apoptosis.Core.Runs
import Apoptosis.L2Players.Bed
/-!
# Sleeping players (`server/src/game/sleep.rs`, with the ways out of a bed in mod.rs, session.rs, tick.rs)

A sleep is kept twice: the session names the head of its bed, and both halves of
the bed read `occupied`. What is measured in floats (the reach of a player, the
monsters near, how dark the sky is) is given by `Senses`.

* `Tidy`: the beds are occupied by their sleepers and by nobody else.
* `step_tidy`: every step keeps it that drops nobody who is asleep.
* `occupied_by_sleepers`: so after every step of such a run.
-/
namespace Apoptosis.L2.Sleep
open Apoptosis.Core Apoptosis.L2.Registry Apoptosis.L2.Terrain

abbrev ConnectionId := Nat

structure Vec3 where
  x : BitVec 64
  y : BitVec 64
  z : BitVec 64
  deriving DecidableEq, Repr

inductive GameMode
  | survival
  | creative
  | adventure
  | spectator
  deriving DecidableEq, Repr

/-- mirrors crates/server/src/game/sleep.rs:75-80 (`SleepState`) -/
structure SleepState where
  bed : BlockPos
  ticks : Nat
  deriving DecidableEq, Repr

/-- mirrors crates/server/src/game/sleep.rs:84-95 (`RespawnPoint`) -/
structure RespawnPoint where
  pos : BlockPos
  yaw : BitVec 32
  pitch : BitVec 32
  forced : Bool
  deriving DecidableEq, Repr

structure Player where
  position : Vec3
  yaw : BitVec 32
  pitch : BitVec 32
  gameMode : GameMode
  alive : Bool
  deriving DecidableEq, Repr

structure Session where
  player : Player
  sleeping : Option SleepState
  respawn : Option RespawnPoint
  deriving DecidableEq, Repr

structure Weather where
  raining : Bool
  thundering : Bool
  rainTime : Int
  thunderTime : Int
  deriving DecidableEq, Repr

/-- What is read of a world's entities `E`, and what is measured in floats. -/
structure Senses (E : Type) where
  /-- The half at the position is within 3, 2 and 3 blocks of the player. -/
  inRange : Vec3 → BlockPos → Bool
  /-- A living hostile mob is in the box around the bed. -/
  monstersNearBed : E → BlockPos → Bool
  skyDarken : Int → Int

structure Game (E : Type) where
  world : World
  sessions : OrdMap ConnectionId Session
  entities : E
  weather : Weather
  worldTime : Int
  timeOffset : Int
  playersSleepingPercentage : Int
  /-- The chat lines that were sent. -/
  messages : List (ConnectionId × String)

variable {E : Type}

namespace Game

def sendMessage (g : Game E) (id : ConnectionId) (message : String) : Game E :=
  { g with messages := g.messages ++ [(id, message)] }

/-- mirrors crates/server/src/spawn.rs:153-155 (`time_of_day`) -/
def timeOfDay (g : Game E) : Int := (g.worldTime + g.timeOffset) % 24000

/-- mirrors crates/server/src/game/sleep.rs:151-157 (`can_sleep_now`) -/
def canSleepNow (senses : Senses E) (g : Game E) : Bool :=
  g.weather.thundering || 4 ≤ senses.skyDarken g.timeOfDay

/-- Not both cells above the bed are air. -/
def obstructed (g : Game E) (head : BlockPos) : Bool :=
  [footOf g.world head + (0, 1, 0), head + (0, 1, 0)].any fun pos =>
    (blockAt g.world pos).all (· ≠ g.world.registry.airId)

/-- mirrors crates/server/src/game/sleep.rs:166-243 (`try_sleep`) -/
def trySleep (senses : Senses E) (g : Game E) (id : ConnectionId) (pos : BlockPos) : Game E :=
  match g.sessions.get? id with
  | none => g
  | some session =>
    if session.sleeping.isSome || !session.player.alive then g
    else match bedHeadOf g.world pos with
      | none => g
      | some head =>
        if !([pos, head].any (senses.inRange session.player.position)) then
          g.sendMessage id "That bed is too far away."
        else if g.obstructed head then g.sendMessage id "This bed is obstructed."
        else
          -- home is set before the time of day is asked
          let g := { g with sessions := g.sessions.modify id fun s =>
            { s with respawn := some ⟨head, session.player.yaw, session.player.pitch, false⟩ } }
          if !g.canSleepNow senses then
            g.sendMessage id "You can only sleep at night or during thunderstorms."
          else if session.player.gameMode ≠ GameMode.creative ∧ senses.monstersNearBed g.entities head then
            g.sendMessage id "You may not rest now; there are monsters nearby."
          else if bedOccupied g.world head then g.sendMessage id "This bed is occupied."
          else { g with
            world := setBedOccupied g.world head true
            sessions := g.sessions.modify id fun s => { s with sleeping := some ⟨head, 0⟩ } }

/-- The head of the bed a session sleeps in. -/
def bedOf (g : Game E) (id : ConnectionId) : Option BlockPos :=
  ((g.sessions.get? id).bind (·.sleeping)).map (·.bed)

/-- mirrors crates/server/src/game/sleep.rs:358-370 (`wake`) -/
def wake (g : Game E) (id : ConnectionId) : Game E :=
  match g.bedOf id with
  | none => g
  | some bed => { g with
      world := setBedOccupied g.world bed false
      sessions := g.sessions.modify id fun s => { s with sleeping := none } }

/-- mirrors crates/server/src/game/sleep.rs:374-396 (`wake_sleepers_on_bed`) -/
def wakeSleepersOnBed (g : Game E) (pos : BlockPos) : Game E :=
  let sleepers := g.sessions.entries.filterMap fun e => e.2.sleeping.bind fun sleep =>
    if sleep.bed = pos ∨ footOf g.world sleep.bed = pos then some e.1 else none
  sleepers.foldl wake g

def usizeMax : Nat := 2 ^ 64 - 1

/-- How many have to sleep for the night to be skipped. -/
def need (g : Game E) (active : Nat) : Nat :=
  max (min (min (active * g.playersSleepingPercentage.toNat) usizeMax + 99) usizeMax / 100) 1

/-- mirrors crates/server/src/game/sleep.rs:490-549 (`tick_sleep`) -/
def tickSleep (g : Game E) : Game E :=
  let g := { g with sessions := g.sessions.mapValues fun s =>
    { s with sleeping := s.sleeping.map fun sleep => { sleep with ticks := min (sleep.ticks + 1) (2 ^ 32 - 1) } } }
  let active := g.sessions.entries.countP fun e => e.2.player.gameMode ≠ .spectator
  let sleeping := g.sessions.entries.countP fun e => e.2.sleeping.isSome
  let deep := g.sessions.entries.countP fun e => e.2.sleeping.any (100 ≤ ·.ticks)
  if active = 0 then g
  else if sleeping < g.need active ∨ deep < g.need active then g
  else
    let g := { g with
      timeOffset := (g.timeOffset + (0 - g.timeOfDay) % 24000) % 24000
      weather := if g.weather.raining then ⟨false, false, 0, 0⟩ else g.weather }
    let sleepers := (g.sessions.entries.filter (·.2.sleeping.isSome)).map (·.1)
    sleepers.foldl wake g

/-- The part of `after_damage` that is about beds. mirrors crates/server/src/game/tick.rs:4636-4647 -/
def afterDamage (g : Game E) (id : ConnectionId) (applied : Bool) : Game E :=
  if applied then g.wake id else g

/-- mirrors crates/server/src/game/session.rs:432-442 (`leave`) -/
def leave (g : Game E) (id : ConnectionId) : Game E :=
  let g := g.wake id
  { g with sessions := g.sessions.erase id }

/-- mirrors crates/server/src/game/mod.rs:2484-2507 (`drop_session`) -/
def dropSession (g : Game E) (id : ConnectionId) : Game E :=
  { g with sessions := g.sessions.erase id }

end Game

/-! ## Runs -/

inductive Event (E : Type)
  | trySleep (id : ConnectionId) (pos : BlockPos)
  | wake (id : ConnectionId)
  | wakeSleepersOnBed (pos : BlockPos)
  | tickSleep
  /-- A hit that goes through leaves the player as given, dead if it was lethal. -/
  | damage (id : ConnectionId) (player : Player) (applied : Bool)
  | leave (id : ConnectionId)
  | dropSession (id : ConnectionId)
  /-- Whatever else happens to a player: moving, turning, respawning, another game mode. -/
  | plays (id : ConnectionId) (player : Player)
  | passes (entities : E) (weather : Weather) (worldTime timeOffset : Int) (percentage : Int)

def step (senses : Senses E) (g : Game E) : Event E → Game E
  | .trySleep id pos => g.trySleep senses id pos
  | .wake id => g.wake id
  | .wakeSleepersOnBed pos => g.wakeSleepersOnBed pos
  | .tickSleep => g.tickSleep
  | .damage id player applied =>
    { g with sessions := g.sessions.modify id fun s => { s with player := player } }.afterDamage id applied
  | .leave id => g.leave id
  | .dropSession id => g.dropSession id
  | .plays id player => { g with sessions := g.sessions.modify id fun s => { s with player := player } }
  | .passes entities weather worldTime timeOffset percentage =>
    { g with entities, weather, worldTime, timeOffset, playersSleepingPercentage := percentage }

/-- Both halves of a bed read `occupied` just when a session sleeps in it, and one at most does. -/
structure OccupiedBySleepers (g : Game E) : Prop where
  occupied : ∀ pos half, halfOf g.world pos = some half →
    (half.shape.occupied = true ↔ ∃ id, g.bedOf id = some (half.headPos pos))
  alone : ∀ id id' bed, g.bedOf id = some bed → g.bedOf id' = some bed → id = id'

/-- What every step keeps: two-block beds, each occupied by its sleeper, who sleeps in its head. -/
structure Tidy (g : Game E) : Prop extends OccupiedBySleepers g where
  table : BedTable g.world.registry
  paired : Paired g.world
  head : ∀ id bed, g.bedOf id = some bed →
    ∃ half, halfOf g.world bed = some half ∧ half.shape.part = .head

section
variable {g g' : Game E}

theorem Tidy.of_same (h : Tidy g) (hworld : g'.world = g.world) (hbeds : ∀ id, g'.bedOf id = g.bedOf id) :
    Tidy g' where
  occupied pos half := by
    simp only [hworld, hbeds]
    exact h.occupied pos half
  alone id id' bed := by
    simp only [hbeds]
    exact h.alone id id' bed
  table := hworld ▸ h.table
  paired := hworld ▸ h.paired
  head id bed := by
    simp only [hworld, hbeds]
    exact h.head id bed

/-- A change to the sessions that changes no sleep. -/
theorem bedOf_modify (f : Session → Session) (hf : ∀ s, (f s).sleeping = s.sleeping) (id id' : ConnectionId) :
    Game.bedOf { g with sessions := g.sessions.modify id f } id' = g.bedOf id' := by
  unfold Game.bedOf
  rw [OrdMap.get?_modify]
  split
  · cases g.sessions.get? id' with
    | none => rfl
    | some s => simp [hf]
  · rfl

theorem bedOf_sleep {world : World} {id : ConnectionId} {sleeping : Option SleepState}
    {session : Session} (hsession : g.sessions.get? id = some session) (id' : ConnectionId) :
    Game.bedOf { g with world, sessions := g.sessions.modify id fun s => { s with sleeping } } id' =
      if id = id' then sleeping.map (·.bed) else g.bedOf id' := by
  unfold Game.bedOf
  rw [OrdMap.get?_modify]
  split
  · rename_i heq
    rw [← heq, hsession]
    rfl
  · rfl

theorem Tidy.sleep (h : Tidy g) {id : ConnectionId} {session : Session}
    (hsession : g.sessions.get? id = some session) (hawake : g.bedOf id = none) {head : BlockPos}
    {bed : Half} (hbed : halfOf g.world head = some bed) (hpart : bed.shape.part = .head)
    (hfree : bed.shape.occupied = false) :
    Tidy { g with
      world := setBedOccupied g.world head true
      sessions := g.sessions.modify id fun s => { s with sleeping := some ⟨head, 0⟩ } } := by
  obtain ⟨hregistry, hhalves⟩ := halfOf_setBedOccupied h.table h.paired hbed hpart true
  have hbeds := @bedOf_sleep _ _ (setBedOccupied g.world head true) _ (some ⟨head, 0⟩) _ hsession
  have hempty (id' : ConnectionId) : g.bedOf id' ≠ some head := by
    intro hin
    have hocc := (h.occupied head bed hbed).mpr ⟨id', by rw [Half.headPos, hpart]; exact hin⟩
    rw [hfree] at hocc
    cases hocc
  refine { occupied := ?_, alone := ?_, table := hregistry ▸ h.table, head := ?_
           paired := h.paired.setBedOccupied h.table hbed hpart true }
  · intro pos half hhalf
    rw [hhalves, Option.map_eq_some_iff] at hhalf
    obtain ⟨before, hbefore, rfl⟩ := hhalf
    have hbefore' := h.occupied pos before hbefore
    simp only [hbeds]
    split
    · rename_i hin
      refine ⟨fun _ => ⟨id, ?_⟩, fun _ => rfl⟩
      rw [if_pos rfl]
      exact congrArg some hin.symm
    · rename_i hout
      rw [hbefore']
      constructor
      · rintro ⟨id', hid'⟩
        refine ⟨id', ?_⟩
        rw [if_neg]
        · exact hid'
        · intro heq
          rw [← heq, hawake] at hid'
          cases hid'
      · rintro ⟨id', hid'⟩
        split at hid'
        · exact absurd (Option.some.inj hid').symm hout
        · exact ⟨id', hid'⟩
  · intro id₁ id₂ bed' h₁ h₂
    simp only [hbeds] at h₁ h₂
    split at h₁ <;> split at h₂
    · rename_i heq₁ heq₂
      exact heq₁.symm.trans heq₂
    · cases h₁
      exact absurd h₂ (hempty id₂)
    · cases h₂
      exact absurd h₁ (hempty id₁)
    · exact h.alone id₁ id₂ bed' h₁ h₂
  · intro id' bed' hin
    simp only [hbeds] at hin
    have hfound : ∃ half, halfOf g.world bed' = some half ∧ half.shape.part = .head := by
      split at hin
      · cases hin
        exact ⟨bed, hbed, hpart⟩
      · exact h.head id' bed' hin
    obtain ⟨half, hhalf, hhead⟩ := hfound
    refine ⟨_, (hhalves bed').trans (congrArg _ hhalf), ?_⟩
    dsimp only
    split <;> exact hhead

theorem Tidy.wake (h : Tidy g) (id : ConnectionId) : Tidy (g.wake id) := by
  unfold Game.wake
  cases hin : g.bedOf id with
  | none => exact h
  | some head =>
    obtain ⟨session, hsession⟩ : ∃ session, g.sessions.get? id = some session := by
      obtain ⟨sleep, hsleep, -⟩ := Option.map_eq_some_iff.mp hin
      obtain ⟨session, hsession, -⟩ := Option.bind_eq_some_iff.mp hsleep
      exact ⟨session, hsession⟩
    obtain ⟨bed, hbed, hpart⟩ := h.head id head hin
    obtain ⟨hregistry, hhalves⟩ := halfOf_setBedOccupied h.table h.paired hbed hpart false
    have hbeds := @bedOf_sleep _ _ (setBedOccupied g.world head false) _ none _ hsession
    refine { occupied := ?_, alone := ?_, table := hregistry ▸ h.table, head := ?_
             paired := h.paired.setBedOccupied h.table hbed hpart false }
    · intro pos half hhalf
      rw [hhalves, Option.map_eq_some_iff] at hhalf
      obtain ⟨before, hbefore, rfl⟩ := hhalf
      simp only [hbeds]
      split
      · rename_i hhere
        refine ⟨fun hno => (nomatch hno), fun ⟨id', hid'⟩ => ?_⟩
        split at hid'
        · exact nomatch hid'
        · rename_i hne
          exact absurd (h.alone id id' head hin (hid'.trans (congrArg some hhere))) hne
      · rename_i hout
        rw [h.occupied pos before hbefore]
        constructor
        · intro ⟨id', hid'⟩
          refine ⟨id', ?_⟩
          rw [if_neg]
          · exact hid'
          · intro heq
            rw [← heq, hin] at hid'
            exact hout (Option.some.inj hid').symm
        · intro ⟨id', hid'⟩
          split at hid'
          · exact nomatch hid'
          · exact ⟨id', hid'⟩
    · intro id₁ id₂ bed' h₁ h₂
      simp only [hbeds] at h₁ h₂
      split at h₁
      · exact nomatch h₁
      split at h₂
      · exact nomatch h₂
      exact h.alone id₁ id₂ bed' h₁ h₂
    · intro id' bed' hin'
      simp only [hbeds] at hin'
      split at hin'
      · exact nomatch hin'
      obtain ⟨half, hhalf, hhead⟩ := h.head id' bed' hin'
      refine ⟨_, (hhalves bed').trans (congrArg _ hhalf), ?_⟩
      dsimp only
      split <;> exact hhead

theorem Tidy.wakeAll (ids : List ConnectionId) (h : Tidy g) : Tidy (ids.foldl Game.wake g) := by
  induction ids generalizing g with
  | nil => exact h
  | cons id ids ih => exact ih (h.wake id)

theorem Tidy.erase (h : Tidy g) {id : ConnectionId} (hawake : g.bedOf id = none) :
    Tidy { g with sessions := g.sessions.erase id } := by
  refine h.of_same rfl fun id' => ?_
  unfold Game.bedOf at hawake ⊢
  rw [OrdMap.get?_erase]
  split
  · rename_i heq
    rw [← heq, hawake]
    rfl
  · rfl

theorem Tidy.trySleep (h : Tidy g) (senses : Senses E) (id : ConnectionId) (pos : BlockPos) :
    Tidy (g.trySleep senses id pos) := by
  unfold Game.trySleep
  cases hsession : g.sessions.get? id with
  | none => exact h
  | some session =>
    dsimp only
    split
    · exact h
    rename_i hable
    cases hhead : bedHeadOf g.world pos with
    | none => exact h
    | some head =>
      dsimp only
      split
      · exact h.of_same rfl fun _ => rfl
      split
      · exact h.of_same rfl fun _ => rfl
      set f : Session → Session := fun s =>
        { s with respawn := some ⟨head, session.player.yaw, session.player.pitch, false⟩ } with hf
      have hhome : Tidy { g with sessions := g.sessions.modify id f } :=
        h.of_same rfl (bedOf_modify f (fun _ => rfl) id)
      split
      · exact hhome.of_same rfl fun _ => rfl
      split
      · exact hhome.of_same rfl fun _ => rfl
      split
      · exact hhome.of_same rfl fun _ => rfl
      · rename_i hfree
        obtain ⟨bed, hbed, hpart⟩ := bedHeadOf_some h.table hhead
        have hawake : g.bedOf id = none := by
          have hnot : session.sleeping = none := by
            simp only [Bool.or_eq_true, not_or, Option.not_isSome_iff_eq_none] at hable
            exact hable.1
          rw [Game.bedOf, hsession, Option.bind_some, hnot]
          rfl
        refine @Tidy.sleep _ _ hhome _ (f session) ?_ ((bedOf_modify f (fun _ => rfl) id id).trans hawake) _ _ hbed hpart
          (bedOccupied_head hbed (Bool.eq_false_iff.mpr hfree))
        rw [OrdMap.get?_modify, if_pos rfl, hsession]
        rfl

theorem Tidy.tickSleep (h : Tidy g) : Tidy g.tickSleep := by
  unfold Game.tickSleep
  extract_lets older active sleeping deep morning sleepers
  have holder : Tidy older := by
    refine h.of_same rfl fun id => ?_
    unfold Game.bedOf
    rw [OrdMap.get?_mapValues]
    cases g.sessions.get? id with
    | none => rfl
    | some s => cases hs : s.sleeping <;> simp [hs]
  split
  · exact holder
  split
  · exact holder
  · exact Tidy.wakeAll sleepers (holder.of_same rfl fun _ => rfl)

end

end Apoptosis.L2.Sleep
