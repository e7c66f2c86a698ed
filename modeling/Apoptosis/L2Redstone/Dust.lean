import Apoptosis.L2Redstone.Wires
/-!
# Dust settles

Passes over a world of air, wire and redstone blocks change nothing but the
powers of wires, and each change makes the network of its wires lighter. So the
queue runs empty under any budgets. Where no push was refused every wire has
then settled, and holds what is left of the full level at its distance from a
redstone block.

* `serve_spec`: a wire takes the state of its next level, and its neighbours are queued.
* `weightOf_lt`: a change makes the network lighter.
* `dust_settles`: the run to its end.
-/
namespace Apoptosis.L2.Redstone
open Apoptosis.Core Apoptosis.L2.Registry BlockView EmitterTable

instance : Finite I32 := Set.Finite.to_subtype (Set.finite_Ico (-2 ^ 31 : Int) (2 ^ 31))

instance : Finite BlockPos :=
  Finite.of_injective (fun pos : BlockPos => (pos.x, pos.y, pos.z)) fun p q h => by
    simp only [Prod.mk.injEq] at h
    exact BlockPos.ext h.1 h.2.1 h.2.2

noncomputable instance : Fintype BlockPos := Fintype.ofFinite BlockPos

variable {V : Type} [LawfulBlockView V] {table : EmitterTable} {start world : V}

/-- The wires of a world. -/
noncomputable def wires (table : EmitterTable) (world : V) : Finset BlockPos :=
  Finset.univ.filter (IsWire table world)

theorem mem_wires {pos : BlockPos} : pos ∈ wires table world ↔ IsWire table world pos := by
  simp [wires]

/-! ## One position -/

/-- What passes keep of the world they start from. -/
structure Rewired (table : EmitterTable) (start world : V) : Prop where
  dust : DustWorld table world
  blocks : blockAt table world = blockAt table start

theorem Rewired.wire (h : Rewired table start world) {pos : BlockPos} :
    IsWire table world pos ↔ pos ∈ wires table start := by
  rw [mem_wires, IsWire, IsWire, h.blocks]

/-- The powers the states store. -/
def powers (table : EmitterTable) (states : BlockPos → Option Int) (pos : BlockPos) : Nat :=
  storedPower table (states pos)

/-- The level a wire of `start` takes next. -/
noncomputable def nextPower (table : EmitterTable) (start : V) : (BlockPos → Nat) → BlockPos → Nat :=
  Settle.spread (wires table start) NeighbourSet.of (TouchesBlock table start) 15

/-- The state a position takes next. -/
noncomputable def nextId (table : EmitterTable) (start : V) (states : BlockPos → Option Int)
    (pos : BlockPos) : Option Int :=
  if pos ∈ wires table start then
    table.wireState (.fromRaw (nextPower table start (powers table states) pos))
  else states pos

theorem nextPower_spreads (table : EmitterTable) (start : V) :
    Settle.Spreads (wires table start) NeighbourSet.of (TouchesBlock table start) 15
      (nextPower table start) :=
  Settle.spread_spreads

theorem storedPower_wire {id : Int} {power : PowerLevel}
    (hname : table.registry.blockName id = some REDSTONE_WIRE) (hpower : table.wirePower id = some power) :
    storedPower table (some id) = power.val := by
  rw [storedPower, Option.map_some, classify_wire hname hpower]

theorem storedPower_le (state : Option Int) : storedPower table state ≤ 15 := by
  unfold storedPower
  split
  · exact PowerLevel.val_le _
  · omega

theorem nextPower_le (states : BlockPos → Option Int) {pos : BlockPos} (hpos : pos ∈ wires table start) :
    nextPower table start (powers table states) pos ≤ 15 := by
  by_contra hgt
  have hge : 16 ≤ nextPower table start (powers table states) pos := by omega
  rcases (nextPower_spreads table start _ pos hpos 16 (by omega)).mp hge with h | ⟨q, -, -, hq⟩
  · omega
  · have := @storedPower_le table (states q)
    unfold powers at hq
    omega

theorem wire_of_storedPower (h : Rewired table start world)
    {pos : BlockPos} (hpower : 0 < storedPower table (getState world pos)) : pos ∈ wires table start := by
  rw [← h.wire, IsWire, blockAt]
  cases hid : getState world pos with
  | none =>
    rw [hid] at hpower
    exact absurd hpower (lt_irrefl 0)
  | some id =>
    rw [hid, storedPower, Option.map_some] at hpower
    rcases h.dust pos id hid with hname | hname | hname
    · rw [classify_air hname] at hpower
      exact absurd hpower (by decide)
    · exact hname
    · rw [classify_block hname] at hpower
      exact absurd hpower (by decide)

/-- A wire takes the level of the network's rule. -/
theorem wireLevel_eq (hr : WireRegistry table.registry) (h : Rewired table start world) {pos : BlockPos}
    (hpos : pos ∈ wires table start) :
    (wireLevel world table pos).val = nextPower table start (powers table (getState world)) pos := by
  refine eq_of_forall_le_iff fun v => ?_
  rcases Nat.eq_zero_or_pos v with rfl | hv
  · simp
  rw [le_wireLevel hr h.dust pos hv, nextPower_spreads table start _ pos hpos v hv]
  have htouches : TouchesBlock table world pos ↔ TouchesBlock table start pos := by
    rw [TouchesBlock, TouchesBlock, h.blocks]
  have hread : (∃ q ∈ NeighbourSet.of pos, v + 1 ≤ storedPower table (getState world q)) ↔
      ∃ q ∈ NeighbourSet.of pos, q ∈ wires table start ∧ v + 1 ≤ powers table (getState world) q := by
    constructor
    · intro ⟨q, hq, hle⟩
      exact ⟨q, hq, wire_of_storedPower h (by omega), hle⟩
    · intro ⟨q, hq, _, hle⟩
      exact ⟨q, hq, hle⟩
  rw [htouches, hread]

theorem processOne_wire (hr : WireRegistry table.registry) (h : Rewired table start world) {pos : BlockPos}
    (hpos : pos ∈ wires table start) : ∃ id power next, getState world pos = some id ∧
      table.classify id = .wire power ∧ nextId table start (getState world) pos = some next ∧
      table.registry.blockName next = some REDSTONE_WIRE ∧
      table.wirePower next = some (wireLevel world table pos) ∧
      processOne world table pos =
        if next = id then (world, none)
        else if !(setState world pos next).2 then ((setState world pos next).1, none)
        else ((setState world pos next).1, some ⟨pos, .neighborChanged, id, next,
          table.emittedForId id (gatherInputs world table pos true)⟩) := by
  obtain ⟨id, hid, hname⟩ := Option.bind_eq_some_iff.mp (h.wire.mpr hpos)
  obtain ⟨power, hpower⟩ := exists_wirePower hr hname
  obtain ⟨next, hnext, hnextName, hnextPower⟩ := wireState_spec hr (wireLevel world table pos)
  have hrole := classify_wire hname hpower
  refine ⟨id, power, next, hid, hrole, ?_, hnextName, hnextPower, ?_⟩
  · rw [nextId, if_pos hpos, ← wireLevel_eq hr h hpos, PowerLevel.fromRaw_val, hnext]
  · have hnew : newState world table pos (.wire power) (gatherInputs world table pos true) id = some next :=
      hnext
    simp only [processOne, hid, hrole, BlockRole.isWire, hnew]

/-- Away from the wires nothing is rewritten and nothing forwarded. -/
theorem processOne_other (h : Rewired table start world) {pos : BlockPos} (hpos : pos ∉ wires table start) :
    processOne world table pos = (world, none) ∧ forwarded world table pos = [] := by
  unfold processOne forwarded
  cases hid : getState world pos with
  | none => exact ⟨rfl, rfl⟩
  | some id =>
    rcases h.dust pos id hid with hname | hname | hname
    · have hconductive := isConductive_air hname
      simp [classify_air hname, newState, hconductive]
    · refine absurd (h.wire.mp ?_) hpos
      rw [IsWire, blockAt, hid]
      exact hname
    · have hconductive : table.isConductive id = false := by simp only [isConductive, classify_block hname]
      simp [classify_block hname, newState, hconductive]

/-- Serving a position either changes nothing and queues nothing, or a wire takes its next state and
its neighbours are queued. -/
theorem serve_spec (hr : WireRegistry table.registry) {pass : Pass V}
    (h : Rewired table start pass.world) (pos : BlockPos) :
    (nextId table start (getState pass.world) pos = getState pass.world pos ∧
      (serve table pass pos).world = pass.world ∧ (serve table pass pos).queued = pass.queued) ∨
    (pos ∈ wires table start ∧
      nextId table start (getState pass.world) pos ≠ getState pass.world pos ∧
      Rewired table start (serve table pass pos).world ∧
      getState (serve table pass pos).world =
        Settle.recompute (nextId table start) (getState pass.world) pos ∧
      (serve table pass pos).queued =
        pushAll pass.queue pass.report.updatesRefused (NeighbourSet.of pos)) := by
  by_cases hpos : pos ∈ wires table start
  · obtain ⟨id, power, next, hid, hrole, hnext, hname, -, hprocess⟩ := processOne_wire hr h hpos
    by_cases hsame : next = id
    · rw [if_pos hsame] at hprocess
      have hforward : forwarded pass.world table pos = [] := by
        simp only [forwarded, hid, isConductive, hrole, Bool.not_false, if_true]
      obtain ⟨hworld, hqueued⟩ := serve_unchanged hprocess
      rw [hforward] at hqueued
      exact .inl ⟨by rw [hnext, hid, hsame], hworld, hqueued⟩
    · obtain ⟨hwritten, hstates⟩ := LawfulBlockView.setState_spec pass.world hid hsame
      rw [if_neg hsame, hwritten, Bool.not_true, if_neg Bool.false_ne_true] at hprocess
      obtain ⟨hworld, hqueued⟩ := serve_changed hprocess
      have hother : ∀ q, q ≠ pos → getState (setState pass.world pos next).1 q = getState pass.world q :=
        fun q hq => by rw [hstates, Function.update_of_ne hq]
      have hself : getState (setState pass.world pos next).1 pos = some next := by
        rw [hstates, Function.update_self]
      refine .inr ⟨hpos, ?_, ?_, ?_, hqueued⟩
      · rw [hnext, hid]
        exact fun heq => hsame (Option.some.inj heq)
      · rw [hworld]
        refine ⟨fun q state hq => ?_, ?_⟩
        · by_cases hqp : q = pos
          · rw [hqp, hself] at hq
            exact .inr (.inl (Option.some.inj hq ▸ hname))
          · rw [hother q hqp] at hq
            exact h.dust q state hq
        · rw [← h.blocks]
          funext q
          rw [blockAt, blockAt]
          by_cases hqp : q = pos
          · rw [hqp, hself, Option.bind_some, hname]
            exact (h.wire.mpr hpos).symm
          · rw [hother q hqp]
      · rw [hworld, hstates, Settle.recompute, hnext]
  · obtain ⟨hprocess, hforward⟩ := processOne_other h hpos
    obtain ⟨hworld, hqueued⟩ := serve_unchanged hprocess
    rw [hforward] at hqueued
    exact .inl ⟨if_neg hpos, hworld, hqueued⟩

/-! ## Every change makes the network lighter -/

/-- The levels on the wrong side, and the wires whose state is not the one their level is written as. -/
noncomputable def weightOf (table : EmitterTable) (start : V) (states : BlockPos → Option Int) : Nat :=
  Settle.weight (wires table start) (nextPower table start) (powers table states) 15 +
    ((wires table start).filter fun pos =>
      states pos ≠ table.wireState (.fromRaw (powers table states pos))).card

/-- What a wire takes next stores its next level. -/
theorem powers_nextId (hr : WireRegistry table.registry) (states : BlockPos → Option Int) {pos : BlockPos}
    (hpos : pos ∈ wires table start) :
    storedPower table (nextId table start states pos) = nextPower table start (powers table states) pos := by
  rw [nextId, if_pos hpos]
  obtain ⟨next, hnext, hname, hpower⟩ := wireState_spec hr
    (.fromRaw (nextPower table start (powers table states) pos))
  have hle : nextPower table start (powers table states) pos ≤ MAX_POWER := nextPower_le states hpos
  rw [hnext, storedPower_wire hname hpower, PowerLevel.fromRaw, dif_pos hle]

theorem powers_recompute (hr : WireRegistry table.registry) (states : BlockPos → Option Int) {pos : BlockPos}
    (hpos : pos ∈ wires table start) :
    powers table (Settle.recompute (nextId table start) states pos) =
      Settle.recompute (nextPower table start) (powers table states) pos := by
  funext q
  by_cases hq : q = pos
  · subst hq
    rw [powers, Settle.recompute, Settle.recompute, Function.update_self, Function.update_self,
      powers_nextId hr states hpos]
  · rw [powers, Settle.recompute, Settle.recompute, Function.update_of_ne hq, Function.update_of_ne hq,
      powers]

theorem weightOf_lt (hr : WireRegistry table.registry) {states : BlockPos → Option Int} {pos : BlockPos}
    (hpos : pos ∈ wires table start) (hchange : nextId table start states pos ≠ states pos) :
    weightOf table start (Settle.recompute (nextId table start) states pos) < weightOf table start states := by
  have hpowers := powers_recompute hr states hpos
  -- The rewritten wire is written as its level asks, whatever it was.
  have hsub : ((wires table start).filter fun q => Settle.recompute (nextId table start) states pos q ≠
      table.wireState (.fromRaw (powers table (Settle.recompute (nextId table start) states pos) q))) ⊆
      (wires table start).filter fun q =>
        q ≠ pos ∧ states q ≠ table.wireState (.fromRaw (powers table states q)) := by
    intro q hq
    obtain ⟨hq, hodd⟩ := Finset.mem_filter.mp hq
    have hqp : q ≠ pos := by
      rintro rfl
      refine hodd ?_
      rw [hpowers, Settle.recompute, Settle.recompute, Function.update_self, Function.update_self, nextId,
        if_pos hpos]
    rw [hpowers, Settle.recompute, Settle.recompute, Function.update_of_ne hqp,
      Function.update_of_ne hqp] at hodd
    exact Finset.mem_filter.mpr ⟨hq, hqp, hodd⟩
  have hcard := Finset.card_le_card hsub
  unfold weightOf
  by_cases hsame : nextPower table start (powers table states) pos = powers table states pos
  · -- The level stays, so the state was not the one the level is written as.
    have hkeep : powers table (Settle.recompute (nextId table start) states pos) = powers table states := by
      rw [hpowers, Settle.recompute, hsame, Function.update_eq_self]
    have hodd : states pos ≠ table.wireState (.fromRaw (powers table states pos)) := by
      intro heq
      refine hchange ?_
      rw [nextId, if_pos hpos, hsame, heq]
    have hlt : ((wires table start).filter fun q =>
        q ≠ pos ∧ states q ≠ table.wireState (.fromRaw (powers table states q))).card <
        ((wires table start).filter fun q =>
          states q ≠ table.wireState (.fromRaw (powers table states q))).card := by
      refine Finset.card_lt_card (Finset.ssubset_iff_subset_ne.mpr ⟨fun q hq => ?_, fun heq => ?_⟩)
      · obtain ⟨hq, -, hq'⟩ := Finset.mem_filter.mp hq
        exact Finset.mem_filter.mpr ⟨hq, hq'⟩
      · have hmem : pos ∈ (wires table start).filter fun q =>
            states q ≠ table.wireState (.fromRaw (powers table states q)) :=
          Finset.mem_filter.mpr ⟨hpos, hodd⟩
        rw [← heq] at hmem
        exact (Finset.mem_filter.mp hmem).2.1 rfl
    rw [hkeep] at hcard ⊢
    omega
  · have hweight := Settle.weight_recompute (nextPower_spreads table start).graded hpos hsame
      (storedPower_le (states pos)) (nextPower_le states hpos)
    have hle : ((wires table start).filter fun q =>
        q ≠ pos ∧ states q ≠ table.wireState (.fromRaw (powers table states q))).card ≤
        ((wires table start).filter fun q =>
          states q ≠ table.wireState (.fromRaw (powers table states q))).card := by
      refine Finset.card_le_card fun q hq => ?_
      obtain ⟨hq, -, hq'⟩ := Finset.mem_filter.mp hq
      exact Finset.mem_filter.mpr ⟨hq, hq'⟩
    rw [hpowers] at hcard ⊢
    omega

/-! ## A pass -/

/-- What a drain takes was pending, and what it leaves is the rest. -/
theorem drainAtMost_current (queue : UpdateQueue BlockPos) (limit : Nat) (pos : BlockPos) :
    pos ∈ queue.current ↔
      pos ∈ (queue.drainAtMost limit).1.current ∨ pos ∈ (queue.drainAtMost limit).2.positions := by
  have hreleases := UpdateQueue.takeNeighbours_releases queue (queue.lastDrainedTick.getD 0)
    (min (max limit 1) MAX_ENTRIES)
  have hrest := hreleases.rest (.neighbour pos)
  have hpending := hreleases.pending (.neighbour pos)
  simp only [UpdateQueue.Pending, List.mem_map, UpdateQueue.Entry.neighbour.injEq, exists_eq_right]
    at hrest hpending
  unfold UpdateQueue.drainAtMost
  tauto

theorem drainAtMost_scheduled (queue : UpdateQueue BlockPos) (limit : Nat) :
    (queue.drainAtMost limit).1.scheduled = queue.scheduled := rfl

theorem drainAtMost_card (queue : UpdateQueue BlockPos) (limit : Nat) :
    (queue.drainAtMost limit).1.current.card + (queue.drainAtMost limit).2.positions.length =
      queue.current.card := by
  have hlen := (UpdateQueue.takeNeighbours_releases queue (queue.lastDrainedTick.getD 0)
    (min (max limit 1) MAX_ENTRIES)).len
  rw [List.length_map] at hlen
  change (queue.drainAtMost limit).1.len + (queue.drainAtMost limit).2.positions.length = queue.len at hlen
  rw [UpdateQueue.len_eq, UpdateQueue.len_eq, drainAtMost_scheduled] at hlen
  omega

/-- What is left to do: the weight of the network first, then the positions waiting. -/
noncomputable def remaining (table : EmitterTable) (start world : V) (queue : UpdateQueue BlockPos)
    (todo : List BlockPos) : Nat ×ₗ Nat :=
  toLex (weightOf table start (getState world), queue.current.card + todo.length)

theorem remaining_drain (queue : UpdateQueue BlockPos) (limit : Nat) :
    remaining table start world (queue.drainAtMost limit).1 (queue.drainAtMost limit).2.positions =
      remaining table start world queue [] := by
  rw [remaining, drainAtMost_card, remaining, List.length_nil, Nat.add_zero]

theorem remaining_serve (hr : WireRegistry table.registry) {pass : Pass V}
    (h : Rewired table start pass.world) (pos : BlockPos) (todo : List BlockPos) :
    remaining table start (serve table pass pos).world (serve table pass pos).queue todo <
      remaining table start pass.world pass.queue (pos :: todo) := by
  rw [remaining, remaining, Prod.Lex.toLex_lt_toLex]
  rcases serve_spec hr h pos with ⟨-, hworld, hqueued⟩ | ⟨hpos, hchange, -, hstates, -⟩
  · right
    rw [hworld, (Prod.mk.inj hqueued).1, List.length_cons]
    exact ⟨rfl, by dsimp only; omega⟩
  · left
    rw [hstates]
    exact weightOf_lt hr hpos hchange

theorem rewired_serve (hr : WireRegistry table.registry) {pass : Pass V}
    (h : Rewired table start pass.world) (pos : BlockPos) :
    Rewired table start (serve table pass pos).world := by
  rcases serve_spec hr h pos with ⟨-, hworld, -⟩ | ⟨-, -, hrewired, -⟩
  · rw [hworld]
    exact h
  · exact hrewired

/-- A pass over a queue that is not empty brings the end nearer. -/
theorem propagate_lt (hr : WireRegistry table.registry) (h : Rewired table start world)
    {queue : UpdateQueue BlockPos} (hqueue : queue.current ≠ ∅) {budget : UpdateBudget}
    (hbudget : 0 < budget.neighbourUpdatesPerTick) :
    remaining table start (propagate world queue table budget).world
        (propagate world queue table budget).queue [] < remaining table start world queue [] := by
  let Nearer : V → UpdateQueue BlockPos → Nat → List BlockPos → Prop := fun w q _ todo =>
    Rewired table start w ∧ remaining table start w q todo < remaining table start world queue []
  have hfinal : (propagate world queue table budget).Holds Nearer [] := by
    refine propagate_holds_of_first ?_ ?_ hbudget hqueue ?_
    · intro w q limit _ ⟨hw, hlt⟩
      exact ⟨hw, by rw [remaining_drain]; exact hlt⟩
    · intro pass pos todo ⟨hw, hlt⟩
      exact ⟨rewired_serve hr hw pos, (remaining_serve hr hw pos todo).trans hlt⟩
    · intro limit pos todo hdrained
      have hstart : Rewired table start (Pass.mk world (queue.drainAtMost limit).1 .empty).world := h
      refine ⟨rewired_serve hr hstart pos, (remaining_serve hr hstart pos todo).trans_eq ?_⟩
      dsimp only
      rw [← hdrained, remaining_drain]
  exact hfinal.2

/-! ## Wires out of place are waiting -/

/-- Every wire holds its next state but for those queued or drained. -/
def Waiting (table : EmitterTable) (start world : V) (queue : UpdateQueue BlockPos)
    (todo : List BlockPos) : Prop :=
  Settle.SettledBut (· ∈ wires table start) (nextId table start) (getState world)
    fun pos => pos ∈ queue.current ∨ pos ∈ todo

theorem nextId_local (table : EmitterTable) (start : V) :
    Settle.Local (· ∈ wires table start) NeighbourSet.of (nextId table start) := by
  intro x y pos hpos hsame
  have hpowers : nextPower table start (powers table x) pos = nextPower table start (powers table y) pos :=
    Settle.spread_congr fun q hq => by rw [powers, powers, hsame q hq]
  rw [nextId, nextId, if_pos hpos, if_pos hpos, hpowers]

theorem waiting_serve (hr : WireRegistry table.registry) {pass : Pass V}
    (h : Rewired table start pass.world) {pos : BlockPos} {todo : List BlockPos}
    (hwaiting : Waiting table start pass.world pass.queue (pos :: todo))
    (hrefused : (serve table pass pos).report.updatesRefused = pass.report.updatesRefused) :
    Waiting table start (serve table pass pos).world (serve table pass pos).queue todo := by
  rcases serve_spec hr h pos with ⟨hsame, hworld, hqueued⟩ | ⟨-, -, -, hstates, hqueued⟩
  · rw [hworld, (Prod.mk.inj hqueued).1]
    intro q hq
    rcases hwaiting q hq with hq | hq | hq
    · exact .inl hq
    · exact .inr (.inl hq)
    · rcases List.mem_cons.mp hq with rfl | hq
      · exact .inl hsame
      · exact .inr (.inr hq)
  · obtain ⟨-, hgrows, -, -, hall⟩ :=
      pushAll_spec (NeighbourSet.of pos) pass.queue pass.report.updatesRefused
    rw [← hqueued] at hgrows hall
    unfold Waiting
    rw [hstates]
    refine Settle.settledBut_recompute (nextId_local table start) (fun q => mem_of_comm) ?_ ?_ hwaiting
    · intro q hq
      rcases hq with hq | hq
      · exact .inr (.inl (hgrows hq))
      · exact (List.mem_cons.mp hq).imp_right .inr
    · exact fun q hq => .inl (hall hrefused q hq)

theorem refused_le_serve (hr : WireRegistry table.registry) {pass : Pass V}
    (h : Rewired table start pass.world) (pos : BlockPos) :
    pass.report.updatesRefused ≤ (serve table pass pos).report.updatesRefused := by
  rcases serve_spec hr h pos with ⟨-, -, hqueued⟩ | ⟨-, -, -, -, hqueued⟩
  · rw [(Prod.mk.inj hqueued).2]
  · obtain ⟨-, -, -, hle, -⟩ := pushAll_spec (NeighbourSet.of pos) pass.queue pass.report.updatesRefused
    rw [← hqueued] at hle
    exact hle

theorem propagate_rewired (hr : WireRegistry table.registry) (h : Rewired table start world)
    (queue : UpdateQueue BlockPos) (budget : UpdateBudget) :
    Rewired table start (propagate world queue table budget).world :=
  @propagate_holds _ _ table (fun w _ _ _ => Rewired table start w) (fun _ _ _ _ hw => hw)
    (fun _ pos _ hw => rewired_serve hr hw pos) _ queue budget h

theorem propagate_waiting (hr : WireRegistry table.registry) (h : Rewired table start world)
    {queue : UpdateQueue BlockPos} (hwaiting : Waiting table start world queue []) {budget : UpdateBudget}
    (hrefused : (propagate world queue table budget).report.updatesRefused = 0) :
    Waiting table start (propagate world queue table budget).world
      (propagate world queue table budget).queue [] := by
  let Good : V → UpdateQueue BlockPos → Nat → List BlockPos → Prop := fun w q refused todo =>
    Rewired table start w ∧ (refused = 0 → Waiting table start w q todo)
  have hfinal : (propagate world queue table budget).Holds Good [] := by
    refine propagate_holds ?_ ?_ budget ⟨h, fun _ => hwaiting⟩
    · intro w q limit refused ⟨hw, hq⟩
      refine ⟨hw, fun hzero pos hpos => ?_⟩
      rcases hq hzero pos hpos with hq | hq | hq
      · exact .inl hq
      · exact .inr ((drainAtMost_current q limit pos).mp hq)
      · exact nomatch hq
    · intro pass pos todo ⟨hw, hq⟩
      refine ⟨rewired_serve hr hw pos, fun hzero => ?_⟩
      have hle := refused_le_serve hr hw pos
      have hbefore : pass.report.updatesRefused = 0 := by omega
      exact waiting_serve hr hw (hq hbefore) (hzero.trans hbefore.symm)
  exact hfinal.2 hrefused

/-! ## Room for every push -/

/-- The queue and what is drained lie in `room`, which fits beside the scheduled ticks. -/
structure Roomy (room : Finset BlockPos) (queue : UpdateQueue BlockPos) (todo : List BlockPos) : Prop where
  current : queue.current ⊆ room
  drained : ∀ pos ∈ todo, pos ∈ room
  fits : room.card + UpdateQueue.scheduledLen queue.scheduled ≤ MAX_ENTRIES

theorem propagate_roomy (hr : WireRegistry table.registry) (h : Rewired table start world)
    {room : Finset BlockPos} (hnear : ∀ pos ∈ wires table start, ∀ q ∈ NeighbourSet.of pos, q ∈ room)
    {queue : UpdateQueue BlockPos} (hroomy : Roomy room queue []) (budget : UpdateBudget) :
    Roomy room (propagate world queue table budget).queue [] ∧
      (propagate world queue table budget).report.updatesRefused = 0 := by
  let Good : V → UpdateQueue BlockPos → Nat → List BlockPos → Prop := fun w q refused todo =>
    Rewired table start w ∧ Roomy room q todo ∧ refused = 0
  have hfinal : (propagate world queue table budget).Holds Good [] := by
    refine propagate_holds ?_ ?_ budget ⟨h, hroomy, rfl⟩
    · intro w q limit refused ⟨hw, hq, hzero⟩
      refine ⟨hw, ⟨fun pos hpos => ?_, fun pos hpos => ?_, hq.fits⟩, hzero⟩
      · exact hq.current ((drainAtMost_current q limit pos).mpr (.inl hpos))
      · exact hq.current ((drainAtMost_current q limit pos).mpr (.inr hpos))
    · intro pass pos todo ⟨hw, hq, hzero⟩
      refine ⟨rewired_serve hr hw pos, ?_⟩
      have hrest : ∀ q ∈ todo, q ∈ room := fun q hq' => hq.drained q (.tail _ hq')
      rcases serve_spec hr hw pos with ⟨-, -, hqueued⟩ | ⟨hpos, -, -, -, hqueued⟩
      · rw [(Prod.mk.inj hqueued).1, (Prod.mk.inj hqueued).2]
        exact ⟨⟨hq.current, hrest, hq.fits⟩, hzero⟩
      · obtain ⟨hscheduled, -, honly, -, -⟩ :=
          pushAll_spec (NeighbourSet.of pos) pass.queue pass.report.updatesRefused
        have hroom := pushAll_room (NeighbourSet.of pos) pass.queue pass.report.updatesRefused hq.fits
          hq.current (hnear pos hpos)
        rw [← hqueued] at hscheduled honly hroom
        refine ⟨⟨fun q hmem => ?_, hrest, ?_⟩, hroom.trans hzero⟩
        · rcases honly q hmem with hmem | hmem
          · exact hq.current hmem
          · exact hnear pos hpos q hmem
        · exact (congrArg (fun s => room.card + UpdateQueue.scheduledLen s) hscheduled).trans_le hq.fits
  exact hfinal.2

/-! ## Runs -/

/-- Call after call of `propagate`, with a budget for each. -/
def passes (table : EmitterTable) (budgets : Nat → UpdateBudget) (world : V)
    (queue : UpdateQueue BlockPos) : Nat → Pass V
  | 0 => ⟨world, queue, .empty⟩
  | n + 1 =>
    let pass := passes table budgets world queue n
    propagate pass.world pass.queue table (budgets n)

/-- A path of face-adjacent wires to one that touches a redstone block, by its steps. -/
abbrev WirePath (table : EmitterTable) (world : V) : Nat → BlockPos → Prop :=
  Settle.Path (IsWire table world) NeighbourSet.of (TouchesBlock table world)

/-- A wire stands here and stores this power. -/
def Stores (table : EmitterTable) (world : V) (pos : BlockPos) (power : Nat) : Prop :=
  ∃ id stored, getState world pos = some id ∧ table.classify id = .wire stored ∧ stored.val = power

theorem Rewired.stores (hr : WireRegistry table.registry) (h : Rewired table start world) {pos : BlockPos}
    (hpos : pos ∈ wires table start) : Stores table world pos (powers table (getState world) pos) := by
  obtain ⟨id, hid, hname⟩ := Option.bind_eq_some_iff.mp (h.wire.mpr hpos)
  obtain ⟨power, hpower⟩ := exists_wirePower hr hname
  refine ⟨id, power, hid, classify_wire hname hpower, ?_⟩
  rw [powers, hid, storedPower_wire hname hpower]

section Run

variable {budgets : Nat → UpdateBudget} {queue : UpdateQueue BlockPos}

theorem passes_rewired (hr : WireRegistry table.registry) (hdust : DustWorld table start) (n : Nat) :
    Rewired table start (passes table budgets start queue n).world := by
  induction n with
  | zero => exact ⟨hdust, rfl⟩
  | succ n ih => exact propagate_rewired hr ih _ (budgets n)

/-- Budgets that are positive run the queue empty. -/
theorem exists_empty (hr : WireRegistry table.registry) (hdust : DustWorld table start)
    (hbudgets : ∀ n, 0 < (budgets n).neighbourUpdatesPerTick) :
    ∃ n, (passes table budgets start queue n).queue.current = ∅ := by
  by_contra hnone
  push Not at hnone
  refine not_strictAnti_of_wellFoundedLT (fun n => remaining table start
    (passes table budgets start queue n).world (passes table budgets start queue n).queue []) ?_
  refine strictAnti_nat_of_succ_lt fun n => ?_
  exact propagate_lt hr (passes_rewired hr hdust n) (Finset.nonempty_iff_ne_empty.mp (hnone n)) (hbudgets n)

theorem passes_waiting (hr : WireRegistry table.registry) (hdust : DustWorld table start)
    (hqueued : ∀ pos, IsWire table start pos → pos ∈ queue.current) {n : Nat}
    (hrefused : ∀ m ≤ n, (passes table budgets start queue m).report.updatesRefused = 0) :
    Waiting table start (passes table budgets start queue n).world
      (passes table budgets start queue n).queue [] := by
  induction n with
  | zero => exact fun pos hpos => .inr (.inl (hqueued pos (mem_wires.mp hpos)))
  | succ n ih =>
    exact propagate_waiting hr (passes_rewired hr hdust n) (ih fun m hm => hrefused m (by omega))
      (hrefused (n + 1) le_rfl)

theorem passes_roomy (hr : WireRegistry table.registry) (hdust : DustWorld table start)
    {room : Finset BlockPos} (hnear : ∀ pos, IsWire table start pos → ∀ q ∈ NeighbourSet.of pos, q ∈ room)
    (hroomy : Roomy room queue []) (n : Nat) :
    Roomy room (passes table budgets start queue n).queue [] ∧
      (passes table budgets start queue n).report.updatesRefused = 0 := by
  induction n with
  | zero => exact ⟨hroomy, rfl⟩
  | succ n ih =>
    exact propagate_roomy hr (passes_rewired hr hdust n) (fun pos hpos => hnear pos (mem_wires.mp hpos)) ih.1 _

/-- With nothing queued the wires that were all waiting have settled, at their distances. -/
theorem waiting_settled (hr : WireRegistry table.registry) (h : Rewired table start world)
    {queue : UpdateQueue BlockPos} (hwaiting : Waiting table start world queue [])
    (hempty : queue.current = ∅) {pos : BlockPos} (hpos : IsWire table start pos) :
    (∀ d, IsLeast {n | WirePath table start n pos} d → Stores table world pos (15 - d)) ∧
      ((∀ n, ¬WirePath table start n pos) → Stores table world pos 0) := by
  have hsettled : ∀ q ∈ wires table start,
      nextPower table start (powers table (getState world)) q = powers table (getState world) q := by
    intro q hq
    rcases hwaiting q hq with h' | h' | h'
    · rw [← powers_nextId hr _ hq, h', powers]
    · rw [hempty] at h'
      exact absurd h' (Finset.notMem_empty q)
    · exact nomatch h'
  have hpath : ∀ n, WirePath table start n pos ↔
      Settle.Path (· ∈ wires table start) NeighbourSet.of (TouchesBlock table start) n pos := by
    have hcells : (· ∈ wires table start) = IsWire table start := funext fun _ => propext mem_wires
    intro n
    rw [hcells]
  have heq := Settle.settled_eq (nextPower_spreads table start)
    (fun q _ => storedPower_le (getState world q)) hsettled (mem_wires.mpr hpos)
  have hstores := h.stores hr (mem_wires.mpr hpos)
  simp only [hpath]
  constructor
  · intro d hd
    rw [← heq.1 d hd]
    exact hstores
  · intro hnone
    rw [← heq.2 hnone]
    exact hstores

end Run

/-- Positive budgets run the queue empty. If no push was refused on the way each wire then stores what
is left of the full power at its distance from a redstone block; and none is refused where the wires,
their neighbours and what is queued fit. -/
theorem dust_settles (hr : WireRegistry table.registry) {world : FlatWorld} (hdust : DustWorld table world)
    {queue : UpdateQueue BlockPos} (hqueued : ∀ pos, IsWire table world pos → pos ∈ queue.current)
    {budgets : Nat → UpdateBudget} (hbudgets : ∀ n, 0 < (budgets n).neighbourUpdatesPerTick) :
    (∃ n, (passes table budgets world queue n).queue.current = ∅) ∧
    (∀ n, (passes table budgets world queue n).queue.current = ∅ →
      (∀ m ≤ n, (passes table budgets world queue m).report.updatesRefused = 0) →
      ∀ pos, IsWire table world pos →
        (∀ d, IsLeast {k | WirePath table world k pos} d →
          Stores table (passes table budgets world queue n).world pos (15 - d)) ∧
        ((∀ k, ¬WirePath table world k pos) →
          Stores table (passes table budgets world queue n).world pos 0)) ∧
    (∀ room : Finset BlockPos, queue.current ⊆ room →
      (∀ pos, IsWire table world pos → ∀ q ∈ NeighbourSet.of pos, q ∈ room) →
      room.card + UpdateQueue.scheduledLen queue.scheduled ≤ MAX_ENTRIES →
      ∀ m, (passes table budgets world queue m).report.updatesRefused = 0) := by
  refine ⟨exists_empty hr hdust hbudgets, fun n hempty hrefused pos hpos => ?_,
    fun room hcurrent hnear hfits m => ?_⟩
  · exact waiting_settled hr (passes_rewired hr hdust n) (passes_waiting hr hdust hqueued hrefused) hempty hpos
  · exact (passes_roomy hr hdust hnear ⟨hcurrent, (fun _ h => nomatch h), hfits⟩ m).2

/-! ## Lines of dust -/

def origin : BlockPos := ⟨.zero, .zero, .zero⟩

/-- A row of states along `x`. -/
def line (states : List Int) : FlatWorld := ⟨origin, (states.length, 1, 1), states, by simp⟩

/-- The position `x` of the row. -/
def onLine (x : Nat) : BlockPos := ⟨.clamp x, .zero, .zero⟩

theorem line_get (states : List Int) (pos : BlockPos) : getState (line states) pos =
    if pos.y.val = 0 ∧ pos.z.val = 0 ∧ 0 ≤ pos.x.val then states[pos.x.val.toNat]? else none := by
  have hplace : ∀ a : I32, FlatWorld.place a .zero = if 0 ≤ a.val then some a.val.toNat else none := by
    intro a
    have := a.property
    simp only [FlatWorld.place, I32.checkedSub, I32.zero_val, Int.sub_zero]
    rw [dif_pos a.property, Option.bind_some]
  have hindex : FlatWorld.index (line states) pos =
      (FlatWorld.place pos.x .zero).bind fun x => (FlatWorld.place pos.y .zero).bind fun y =>
        (FlatWorld.place pos.z .zero).bind fun z =>
          if x ≥ states.length ∨ y ≥ 1 ∨ z ≥ 1 then none
          else some (x + z * states.length + y * states.length * 1) := rfl
  change (FlatWorld.index (line states) pos).bind (states[·]?) = _
  rw [hindex, hplace, hplace, hplace]
  by_cases hrow : pos.y.val = 0 ∧ pos.z.val = 0 ∧ 0 ≤ pos.x.val
  · rw [if_pos hrow]
    obtain ⟨hy, hz, hx⟩ := hrow
    rw [if_pos hx, if_pos hy.ge, if_pos hz.ge, Option.bind_some, Option.bind_some,
      Option.bind_some, hy, hz]
    by_cases hin : pos.x.val.toNat < states.length
    · rw [if_neg (by simpa using hin)]
      simp
    · rw [if_pos (by omega), List.getElem?_eq_none (by omega)]
      rfl
  · rw [if_neg hrow]
    by_cases hx : 0 ≤ pos.x.val
    · by_cases hy : 0 ≤ pos.y.val
      · by_cases hz : 0 ≤ pos.z.val
        · rw [if_pos hx, if_pos hy, if_pos hz, Option.bind_some, Option.bind_some, Option.bind_some,
            if_pos (by omega)]
          rfl
        · rw [if_pos hx, if_pos hy, if_neg hz]
          rfl
      · rw [if_pos hx, if_neg hy]
        rfl
    · rw [if_neg hx]
      rfl

/-- What stands in a row of air, wires and blocks of the small table. -/
theorem line_block {states : List Int} {pos : BlockPos} {name : Text}
    (h : blockAt dustTable (line states) pos = some name) :
    pos.y.val = 0 ∧ pos.z.val = 0 ∧ 0 ≤ pos.x.val ∧
      ∃ id, states[pos.x.val.toNat]? = some id ∧ dustTable.registry.blockName id = some name := by
  obtain ⟨id, hid, hname⟩ := Option.bind_eq_some_iff.mp h
  rw [line_get] at hid
  split at hid
  · next hrow => exact ⟨hrow.1, hrow.2.1, hrow.2.2, id, hid, hname⟩
  · exact nomatch hid

theorem line_dust {states : List Int} (h : ∀ id ∈ states, 0 ≤ id ∧ id ≤ 1297) :
    DustWorld dustTable (line states) := by
  intro pos id hid
  rw [line_get] at hid
  split at hid
  · have hrange := h id (List.mem_of_getElem? hid)
    rw [dustTable_name]
    by_cases hair : id = 0
    · exact .inl (if_pos hair)
    by_cases hblock : id = 1297
    · right
      right
      rw [if_neg hair, if_neg (by omega), if_pos hblock]
    · right
      left
      rw [if_neg hair, if_pos (by omega)]
  · exact nomatch hid

/-- A queue that holds these positions. -/
def queueOf (positions : List BlockPos) : UpdateQueue BlockPos :=
  { UpdateQueue.new with current := positions.toFinset }

theorem pair_settles :
    (∃ n, (passes dustTable (fun _ => ⟨1, 0⟩) (line [1, 1297]) (queueOf [origin]) n).queue.current = ∅) ∧
    (∀ n, (passes dustTable (fun _ => ⟨1, 0⟩) (line [1, 1297]) (queueOf [origin]) n).queue.current = ∅ →
      (∀ m ≤ n, (passes dustTable (fun _ => ⟨1, 0⟩) (line [1, 1297]) (queueOf [origin]) m).report.updatesRefused
        = 0) →
      ∀ pos, IsWire dustTable (line [1, 1297]) pos →
        (∀ d, IsLeast {k | WirePath dustTable (line [1, 1297]) k pos} d → Stores dustTable
          (passes dustTable (fun _ => ⟨1, 0⟩) (line [1, 1297]) (queueOf [origin]) n).world pos (15 - d)) ∧
        ((∀ k, ¬WirePath dustTable (line [1, 1297]) k pos) → Stores dustTable
          (passes dustTable (fun _ => ⟨1, 0⟩) (line [1, 1297]) (queueOf [origin]) n).world pos 0)) ∧
    (∀ room : Finset BlockPos, (queueOf [origin]).current ⊆ room →
      (∀ pos, IsWire dustTable (line [1, 1297]) pos → ∀ q ∈ NeighbourSet.of pos, q ∈ room) →
      room.card + UpdateQueue.scheduledLen (queueOf [origin]).scheduled ≤ MAX_ENTRIES →
      ∀ m, (passes dustTable (fun _ => ⟨1, 0⟩) (line [1, 1297]) (queueOf [origin]) m).report.updatesRefused
        = 0) := by
  refine dust_settles dustTable_wire (line_dust (by decide)) ?_ (fun _ => Nat.one_pos)
  intro pos hpos
  obtain ⟨hy, hz, hx, id, hid, hname⟩ := line_block hpos
  have hzero : pos.x.val = 0 := by
    by_contra hne
    have hone : pos.x.val.toNat = 1 := by
      have := (List.getElem?_eq_some_iff.mp hid).1
      rw [List.length_cons, List.length_singleton] at this
      omega
    rw [hone] at hid
    obtain rfl : id = 1297 := (Option.some.inj hid).symm
    rw [dustTable_name] at hname
    exact absurd hname (by decide)
  have horigin : pos = origin := BlockPos.ext (Subtype.ext hzero) (Subtype.ext hy) (Subtype.ext hz)
  rw [horigin]
  exact List.mem_toFinset.mpr (.head _)

/-! ## A queue that fills up -/

section Crowd

theorem onLine_x {x : Nat} (hx : x < 2 ^ 31) : (onLine x).x.val = x := by
  simp only [onLine, I32.clamp]
  omega

theorem onLine_near {x : Nat} (hx : x + 1 < 2 ^ 31) {q : BlockPos} (hq : q ∈ NeighbourSet.of (onLine x)) :
    (q.x.val - x).natAbs + q.y.val.natAbs + q.z.val.natAbs = 1 := by
  have hval := onLine_x (show x < 2 ^ 31 by omega)
  have hy : (onLine x).y.val = 0 := rfl
  have hz : (onLine x).z.val = 0 := rfl
  simp only [NeighbourSet.of, List.mem_cons, List.not_mem_nil, or_false] at hq
  rcases hq with rfl | rfl | rfl | rfl | rfl | rfl <;>
    simp only [BlockPos.offset, I32.clamp, hval, hy, hz] <;> omega

theorem onLine_near_nodup {x : Nat} (hx : x + 1 < 2 ^ 31) : (NeighbourSet.of (onLine x)).Nodup := by
  have hval := onLine_x (show x < 2 ^ 31 by omega)
  have hy : (onLine x).y.val = 0 := rfl
  have hz : (onLine x).z.val = 0 := rfl
  refine List.Nodup.of_map (fun q : BlockPos => (q.x.val, q.y.val, q.z.val)) ?_
  simp only [NeighbourSet.of, List.map_cons, List.map_nil, BlockPos.offset, I32.clamp, hval, hy, hz,
    List.nodup_cons, List.mem_cons, List.not_mem_nil, or_false, not_false_eq_true, List.nodup_nil, and_true,
    Prod.mk.injEq]
  omega

/-- A wire of full power. -/
def fullDust : Int := (dustTable.wireState .MAX).getD 0

theorem fullDust_spec : dustTable.registry.blockName fullDust = some REDSTONE_WIRE ∧
    dustTable.wirePower fullDust = some .MAX := by
  obtain ⟨id, hid, hname, hpower⟩ := wireState_spec dustTable_wire .MAX
  rw [fullDust, hid]
  exact ⟨hname, hpower⟩

/-- Wires three apart, and two side by side at the end. -/
def Dusty (x : Nat) : Prop := (x < 2049 ∧ x % 3 = 0) ∨ x = 2060 ∨ x = 2061

instance : DecidablePred Dusty := fun x =>
  inferInstanceAs (Decidable ((x < 2049 ∧ x % 3 = 0) ∨ x = 2060 ∨ x = 2061))

def crowd : FlatWorld := line ((List.range 2100).map fun x => if Dusty x then fullDust else 0)

theorem crowd_get {x : Nat} (hx : x < 2100) :
    getState crowd (onLine x) = some (if Dusty x then fullDust else 0) := by
  have hval := onLine_x (show x < 2 ^ 31 by omega)
  rw [crowd, line_get, if_pos ⟨rfl, rfl, by omega⟩, hval, Int.toNat_natCast, List.getElem?_map,
    List.getElem?_range hx]
  rfl

theorem crowd_block {pos : BlockPos} {name : Text} (h : blockAt dustTable crowd pos = some name) :
    ∃ x < 2100, pos = onLine x ∧ name = if Dusty x then REDSTONE_WIRE else AIR := by
  obtain ⟨hy, hz, hx, id, hid, hname⟩ := line_block h
  obtain ⟨n, hn, rfl⟩ : ∃ n, (List.range 2100)[pos.x.val.toNat]? = some n ∧
      (if Dusty n then fullDust else 0) = id := by
    rw [List.getElem?_map] at hid
    exact Option.map_eq_some_iff.mp hid
  obtain ⟨hlt, hval⟩ := List.getElem?_eq_some_iff.mp hn
  rw [List.getElem_range] at hval
  rw [List.length_range] at hlt
  refine ⟨n, by omega, BlockPos.ext (Subtype.ext ?_) (Subtype.ext hy) (Subtype.ext hz), ?_⟩
  · rw [onLine_x (by omega)]
    omega
  · by_cases hdusty : Dusty n
    · rw [if_pos hdusty] at hname ⊢
      exact Option.some.inj (hname.symm.trans fullDust_spec.1)
    · rw [if_neg hdusty] at hname ⊢
      rw [dustTable_name, if_pos rfl] at hname
      exact (Option.some.inj hname).symm

theorem crowd_wire {pos : BlockPos} : pos ∈ wires dustTable crowd ↔ ∃ x, Dusty x ∧ pos = onLine x := by
  rw [mem_wires]
  constructor
  · intro h
    obtain ⟨x, hx, rfl, hname⟩ := crowd_block h
    by_cases hdusty : Dusty x
    · exact ⟨x, hdusty, rfl⟩
    · rw [if_neg hdusty] at hname
      exact absurd hname (by decide)
  · intro ⟨x, hdusty, hpos⟩
    rw [IsWire, blockAt, hpos, crowd_get (by unfold Dusty at hdusty; omega), if_pos hdusty]
    exact fullDust_spec.1

theorem crowd_noBlock (pos : BlockPos) : ¬TouchesBlock dustTable crowd pos := by
  intro ⟨q, _, hq⟩
  obtain ⟨x, -, -, hname⟩ := crowd_block hq
  by_cases hdusty : Dusty x
  · rw [if_pos hdusty] at hname
    exact absurd hname (by decide)
  · rw [if_neg hdusty] at hname
    exact absurd hname (by decide)

theorem crowd_dust : DustWorld dustTable crowd := by
  intro pos id hid
  cases hname : dustTable.registry.blockName id with
  | none =>
    have hrange : ∀ id' ∈ (List.range 2100).map fun x => if Dusty x then fullDust else 0,
        dustTable.registry.blockName id' ≠ none := by
      intro id' hid'
      obtain ⟨x, -, rfl⟩ := List.mem_map.mp hid'
      by_cases hdusty : Dusty x
      · rw [if_pos hdusty, fullDust_spec.1]
        exact Option.some_ne_none _
      · rw [if_neg hdusty, dustTable_name, if_pos rfl]
        exact Option.some_ne_none _
    rw [crowd, line_get] at hid
    split at hid
    · exact absurd hname (hrange id (List.mem_of_getElem? hid))
    · exact nomatch hid
  | some name =>
    have hblock : blockAt dustTable crowd pos = some name := by rw [blockAt, hid, Option.bind_some, hname]
    obtain ⟨x, -, -, hx⟩ := crowd_block hblock
    by_cases hdusty : Dusty x
    · rw [if_pos hdusty] at hx
      exact .inr (.inl (congrArg some hx))
    · rw [if_neg hdusty] at hx
      exact .inl (congrArg some hx)

theorem onLine_inj {x y : Nat} (hx : x < 2 ^ 31) (hy : y < 2 ^ 31) (h : onLine x = onLine y) : x = y := by
  have hval : (onLine x).x.val = (onLine y).x.val := by rw [h]
  rw [onLine_x hx, onLine_x hy] at hval
  exact Int.ofNat.inj hval

theorem onLine_lt {x y : Nat} (hxy : x < y) (hy : y < 2 ^ 31) : onLine x < onLine y := by
  have hkey : BlockPos.key (onLine x) < BlockPos.key (onLine y) := by
    refine Prod.Lex.toLex_lt_toLex.mpr (.inl ?_)
    change (onLine x).x.val < (onLine y).x.val
    rw [onLine_x (by omega), onLine_x hy]
    exact_mod_cast hxy
  exact hkey

/-- The wires in their order. -/
def dustyPlaces : List Nat := (List.range 683).map (3 * ·) ++ [2060, 2061]

theorem dustyPlaces_sorted : dustyPlaces.Pairwise (· < ·) := by
  refine List.pairwise_append.mpr ⟨?_, by decide, ?_⟩
  · exact List.pairwise_map.mpr (List.pairwise_lt_range.imp fun h => by omega)
  · intro x hx y hy
    obtain ⟨i, hi, rfl⟩ := List.mem_map.mp hx
    have hi := List.mem_range.mp hi
    simp only [List.mem_cons, List.not_mem_nil, or_false] at hy
    omega

theorem mem_dustyPlaces {x : Nat} : x ∈ dustyPlaces ↔ Dusty x := by
  simp only [dustyPlaces, List.mem_append, List.mem_map, List.mem_range, List.mem_cons, List.not_mem_nil,
    or_false, Dusty]
  constructor
  · rintro (⟨i, hi, rfl⟩ | h)
    · exact .inl (by omega)
    · exact .inr h
  · rintro (h | h)
    · exact .inl ⟨x / 3, by omega, by omega⟩
    · exact .inr h

def crowdQueue : UpdateQueue BlockPos := queueOf (dustyPlaces.map onLine)

theorem mem_crowdQueue {pos : BlockPos} : pos ∈ crowdQueue.current ↔ IsWire dustTable crowd pos := by
  rw [← mem_wires, crowd_wire]
  change pos ∈ (dustyPlaces.map onLine).toFinset ↔ _
  rw [List.mem_toFinset, List.mem_map]
  constructor
  · intro ⟨x, hx, hpos⟩
    exact ⟨x, mem_dustyPlaces.mp hx, hpos.symm⟩
  · intro ⟨x, hx, hpos⟩
    exact ⟨x, mem_dustyPlaces.mpr hx, hpos.symm⟩

/-- The first round drains all the wires in order. -/
theorem crowdQueue_drain : (crowdQueue.drainAtMost 10000).2.positions = dustyPlaces.map onLine ∧
    (crowdQueue.drainAtMost 10000).1.current = ∅ ∧
    (crowdQueue.drainAtMost 10000).1.scheduled = .empty := by
  have hsmall : ∀ x ∈ dustyPlaces, x < 2100 := by
    intro x hx
    have := mem_dustyPlaces.mp hx
    unfold Dusty at this
    omega
  have hsorted : (dustyPlaces.map onLine).Pairwise (· < ·) := by
    refine List.pairwise_map.mpr (dustyPlaces_sorted.imp_of_mem fun hx hy h => ?_)
    exact onLine_lt h (by have := hsmall _ hy; omega)
  have hnodup : (dustyPlaces.map onLine).Nodup := hsorted.imp fun h => h.ne
  have hrotation : rotation crowdQueue.current crowdQueue.cursor = dustyPlaces.map onLine :=
    (List.toFinset_sort _ hnodup).mpr (hsorted.imp fun h => h.le)
  have hlength : (dustyPlaces.map onLine).length = 685 := by
    simp [dustyPlaces]
  have hpositions : (crowdQueue.drainAtMost 10000).2.positions = dustyPlaces.map onLine := by
    change (rotation crowdQueue.current crowdQueue.cursor).take (min (max 10000 1) MAX_ENTRIES) = _
    rw [hrotation, List.take_of_length_le]
    rw [hlength]
    decide
  refine ⟨hpositions, ?_, drainAtMost_scheduled crowdQueue 10000⟩
  have hcard := drainAtMost_card crowdQueue 10000
  have hcurrent : crowdQueue.current.card = 685 := by
    change (dustyPlaces.map onLine).toFinset.card = 685
    rw [List.toFinset_card_of_nodup hnodup, hlength]
  rw [hpositions, hlength, hcurrent] at hcard
  exact Finset.card_eq_zero.mp (Nat.add_right_cancel (hcard.trans (Nat.zero_add 685).symm))

theorem serve_other (hr : WireRegistry table.registry) {pass : Pass V}
    (h : Rewired table start pass.world) {pos q : BlockPos} (hq : q ≠ pos) :
    getState (serve table pass pos).world q = getState pass.world q := by
  rcases serve_spec hr h pos with ⟨-, hworld, -⟩ | ⟨-, -, -, hstates, -⟩
  · rw [hworld]
  · rw [hstates, Settle.recompute, Function.update_of_ne hq]

theorem serve_self (hr : WireRegistry table.registry) {pass : Pass V}
    (h : Rewired table start pass.world) (pos : BlockPos) :
    getState (serve table pass pos).world pos = nextId table start (getState pass.world) pos := by
  rcases serve_spec hr h pos with ⟨hsame, hworld, -⟩ | ⟨-, -, -, hstates, -⟩
  · rw [hworld, hsame]
  · rw [hstates, Settle.recompute, Function.update_self]

theorem serve_full (hr : WireRegistry table.registry) {pass : Pass V}
    (h : Rewired table start pass.world) (pos : BlockPos) (hfull : pass.queue.len ≥ MAX_ENTRIES) :
    (serve table pass pos).queue.current = pass.queue.current ∧
      (serve table pass pos).queue.len ≥ MAX_ENTRIES := by
  rcases serve_spec hr h pos with ⟨-, -, hqueued⟩ | ⟨-, -, -, -, hqueued⟩
  · rw [(Prod.mk.inj hqueued).1]
    exact ⟨rfl, hfull⟩
  · have hcurrent := pushAll_full (NeighbourSet.of pos) pass.queue pass.report.updatesRefused hfull
    have hscheduled := (pushAll_spec (NeighbourSet.of pos) pass.queue pass.report.updatesRefused).1
    rw [← hqueued] at hcurrent hscheduled
    refine ⟨hcurrent, ?_⟩
    rw [UpdateQueue.len_eq] at hfull ⊢
    rw [show (serve table pass pos).queue.current = pass.queue.current from hcurrent,
      show (serve table pass pos).queue.scheduled = pass.queue.scheduled from hscheduled]
    exact hfull

/-- After `k` of the scattered wires: they are dark, and their neighbours are queued as far as they fit. -/
structure Crowded (k : Nat) (pass : Pass FlatWorld) : Prop where
  rewired : Rewired dustTable crowd pass.world
  kept : ∀ x, 3 * k ≤ x → Dusty x → getState pass.world (onLine x) = some fullDust
  scheduled : pass.queue.scheduled = .empty
  len : pass.queue.len = min (6 * k) MAX_ENTRIES
  near : ∀ q ∈ pass.queue.current, ∃ i < k, q ∈ NeighbourSet.of (onLine (3 * i))

theorem crowded_serve {k : Nat} (hk : k < 683) {pass : Pass FlatWorld} (h : Crowded k pass) :
    Crowded (k + 1) (serve dustTable pass (onLine (3 * k))) := by
  have hdusty : Dusty (3 * k) := .inl (by omega)
  have hstate := h.kept (3 * k) le_rfl hdusty
  have hwire : onLine (3 * k) ∈ wires dustTable crowd := crowd_wire.mpr ⟨_, hdusty, rfl⟩
  -- Nothing near is a wire, so the level falls to none.
  have hdark : nextPower dustTable crowd (powers dustTable (getState pass.world)) (onLine (3 * k)) = 0 := by
    by_contra hpos
    rcases (nextPower_spreads dustTable crowd _ _ hwire _ (Nat.pos_of_ne_zero hpos)).mp le_rfl with
      h' | ⟨q, hq, hcell, -⟩
    · exact crowd_noBlock _ h'.1
    · obtain ⟨x, hx, rfl⟩ := crowd_wire.mp hcell
      have hdist := onLine_near (by omega) hq
      have hy : (onLine x).y.val = 0 := rfl
      have hz : (onLine x).z.val = 0 := rfl
      unfold Dusty at hx
      rw [onLine_x (by omega), hy, hz] at hdist
      omega
  have hchange : nextId dustTable crowd (getState pass.world) (onLine (3 * k)) ≠
      getState pass.world (onLine (3 * k)) := by
    intro heq
    have hpower := powers_nextId dustTable_wire (getState pass.world) hwire
    rw [heq, hstate, hdark, storedPower_wire fullDust_spec.1 fullDust_spec.2] at hpower
    exact absurd hpower (by decide)
  rcases serve_spec dustTable_wire h.rewired (onLine (3 * k)) with ⟨hsame, -⟩ | ⟨-, -, hrewired, -, hqueued⟩
  · exact absurd hsame hchange
  have hapart : ∀ q ∈ NeighbourSet.of (onLine (3 * k)), q ∉ pass.queue.current := by
    intro q hq hmem
    obtain ⟨i, hi, hnear⟩ := h.near q hmem
    have hdist := onLine_near (by omega) hq
    have hdist' := onLine_near (by omega) hnear
    omega
  have hlen := pushAll_card (NeighbourSet.of (onLine (3 * k))) pass.queue pass.report.updatesRefused
    (onLine_near_nodup (by omega)) hapart (by rw [h.len]; exact min_le_right _ _)
  obtain ⟨hscheduled, -, honly, -, -⟩ := pushAll_spec (NeighbourSet.of (onLine (3 * k))) pass.queue
    pass.report.updatesRefused
  rw [← hqueued] at hlen hscheduled honly
  refine ⟨hrewired, fun x hx hdusty' => ?_, hscheduled.trans h.scheduled, ?_, fun q hq => ?_⟩
  · have hne : onLine x ≠ onLine (3 * k) := by
      intro heq
      unfold Dusty at hdusty'
      have := onLine_inj (by omega) (by omega) heq
      omega
    rw [serve_other dustTable_wire h.rewired hne]
    exact h.kept x (by omega) hdusty'
  · refine hlen.trans ?_
    rw [h.len, show (NeighbourSet.of (onLine (3 * k))).length = 6 from rfl]
    omega
  · rcases honly q hq with hq | hq
    · obtain ⟨i, hi, hnear⟩ := h.near q hq
      exact ⟨i, by omega, hnear⟩
    · exact ⟨k, by omega, hq⟩

theorem crowded_serveAll {k : Nat} (hk : k ≤ 683) {pass : Pass FlatWorld} (h : Crowded 0 pass) :
    Crowded k (((List.range k).map fun i => onLine (3 * i)).foldl (serve dustTable) pass) := by
  induction k with
  | zero => exact h
  | succ k ih =>
    rw [List.range_succ, List.map_append, List.foldl_append, List.map_cons, List.map_nil, List.foldl_cons,
      List.foldl_nil]
    exact crowded_serve (by omega) (ih (by omega))

/-- Only positions without dust wait, and the first of the pair is lit. -/
structure Stuck (world : FlatWorld) (queue : UpdateQueue BlockPos) (refused : Nat) (todo : List BlockPos) :
    Prop where
  rewired : Rewired dustTable crowd world
  lit : 0 < powers dustTable (getState world) (onLine 2060)
  current : ∀ pos ∈ queue.current, pos ∉ wires dustTable crowd
  drained : ∀ pos ∈ todo, pos ∉ wires dustTable crowd

theorem stuck_drain (world : FlatWorld) (queue : UpdateQueue BlockPos) (limit refused : Nat)
    (h : Stuck world queue refused []) :
    Stuck world (queue.drainAtMost limit).1 refused (queue.drainAtMost limit).2.positions := by
  refine ⟨h.rewired, h.lit, fun pos hpos => h.current pos ?_, fun pos hpos => h.current pos ?_⟩
  · exact (drainAtMost_current queue limit pos).mpr (.inl hpos)
  · exact (drainAtMost_current queue limit pos).mpr (.inr hpos)

theorem stuck_serve (pass : Pass FlatWorld) (pos : BlockPos) (todo : List BlockPos)
    (h : pass.Holds Stuck (pos :: todo)) : (serve dustTable pass pos).Holds Stuck todo := by
  have hstuck : Stuck pass.world pass.queue pass.report.updatesRefused (pos :: todo) := h
  rcases serve_spec dustTable_wire hstuck.rewired pos with ⟨-, hworld, hqueued⟩ | ⟨hwire, -⟩
  · rw [Pass.Holds, hworld, (Prod.mk.inj hqueued).1]
    exact ⟨hstuck.rewired, hstuck.lit, hstuck.current, fun q hq => hstuck.drained q (.tail _ hq)⟩
  · exact absurd hwire (hstuck.drained pos (.head _))

/-- The pair then changes with nobody told. -/
theorem crowded_pair {pass : Pass FlatWorld} (h : Crowded 683 pass) :
    (([2060, 2061].map onLine).foldl (serve dustTable) pass).Holds Stuck [] := by
  rw [List.map_cons, List.map_cons, List.map_nil, List.foldl_cons, List.foldl_cons, List.foldl_nil]
  have hwire : ∀ x, Dusty x → onLine x ∈ wires dustTable crowd := fun x hx => crowd_wire.mpr ⟨x, hx, rfl⟩
  have hfull : pass.queue.len ≥ MAX_ENTRIES := by
    rw [h.len]
    decide
  have hfirst := rewired_serve dustTable_wire h.rewired (onLine 2060)
  obtain ⟨hcurrent, hfull'⟩ := serve_full dustTable_wire h.rewired (onLine 2060) hfull
  have hcurrent' := (serve_full dustTable_wire hfirst (onLine 2061) hfull').1
  refine ⟨rewired_serve dustTable_wire hfirst _, ?_, fun pos hpos hmem => ?_, fun _ hq => nomatch hq⟩
  · -- The second of the pair is still full when the first reads it.
    have hne : onLine 2060 ≠ onLine 2061 := (onLine_lt (by omega) (by omega)).ne
    have hread : 1 ≤ nextPower dustTable crowd (powers dustTable (getState pass.world)) (onLine 2060) := by
      refine (nextPower_spreads dustTable crowd _ _ (hwire 2060 (by decide)) 1 Nat.one_pos).mpr
        (.inr ⟨onLine 2061, ?_, hwire 2061 (by decide), ?_⟩)
      · decide
      · rw [powers, h.kept 2061 (by omega) (by decide), storedPower_wire fullDust_spec.1 fullDust_spec.2]
        decide
    rw [powers, serve_other dustTable_wire hfirst hne, serve_self dustTable_wire h.rewired,
      powers_nextId dustTable_wire _ (hwire 2060 (by decide))]
    exact hread
  · rw [hcurrent', hcurrent] at hpos
    obtain ⟨i, hi, hnear⟩ := h.near pos hpos
    obtain ⟨x, hx, rfl⟩ := crowd_wire.mp hmem
    have hdist := onLine_near (by omega) hnear
    have hy : (onLine x).y.val = 0 := rfl
    have hz : (onLine x).z.val = 0 := rfl
    unfold Dusty at hx
    rw [onLine_x (by omega), hy, hz] at hdist
    omega

theorem crowd_round : (((crowdQueue.drainAtMost 10000).2.positions).foldl (serve dustTable)
    ⟨crowd, (crowdQueue.drainAtMost 10000).1, .empty⟩).Holds Stuck [] := by
  obtain ⟨hpositions, hcurrent, hscheduled⟩ := crowdQueue_drain
  have hlen : (crowdQueue.drainAtMost 10000).1.len = 0 := by
    rw [UpdateQueue.len_eq, hcurrent, hscheduled]
    rfl
  have hstart : Crowded 0 ⟨crowd, (crowdQueue.drainAtMost 10000).1, .empty⟩ := by
    refine ⟨⟨crowd_dust, rfl⟩, fun x _ hx => ?_, hscheduled, ?_, fun q hq => ?_⟩
    · rw [crowd_get (by unfold Dusty at hx; omega), if_pos hx]
    · dsimp only
      rw [hlen]
      rfl
    · dsimp only at hq
      rw [hcurrent] at hq
      exact absurd hq (Finset.notMem_empty q)
  have hcrowded := crowded_serveAll le_rfl hstart
  rw [hpositions, dustyPlaces, List.map_append, List.map_map, List.foldl_append]
  have hscattered : (List.range 683).map (onLine ∘ (3 * ·)) = (List.range 683).map fun i => onLine (3 * i) := rfl
  rw [hscattered]
  generalize ((List.range 683).map fun i => onLine (3 * i)).foldl (serve dustTable)
    ⟨crowd, (crowdQueue.drainAtMost 10000).1, .empty⟩ = pass at hcrowded ⊢
  exact crowded_pair hcrowded

theorem crowd_stuck (n : Nat) :
    (passes dustTable (fun _ => ⟨10000, 0⟩) crowd crowdQueue (n + 1)).Holds Stuck [] := by
  induction n with
  | zero =>
    refine propagate_holds_of_round stuck_drain stuck_serve (by decide) ?_ crowd_round
    intro hempty
    have hmem := mem_crowdQueue.mpr (mem_wires.mp (crowd_wire.mpr ⟨0, by decide, rfl⟩))
    change onLine 0 ∈ crowdQueue.current at hmem
    have hempty' : crowdQueue.current = ∅ := hempty
    rw [hempty'] at hmem
    exact absurd hmem (Finset.notMem_empty _)
  | succ n ih =>
    have hstuck : Stuck _ _ _ [] := ih
    exact propagate_holds stuck_drain stuck_serve _ ⟨hstuck.rewired, hstuck.lit, hstuck.current, hstuck.drained⟩

end Crowd

/-- The scattered wires fill the queue with their neighbours, and the pair stays lit. -/
theorem crowd_stays_lit : ¬ ∀ (table : EmitterTable) (world : FlatWorld) (queue : UpdateQueue BlockPos)
    (budgets : Nat → UpdateBudget), WireRegistry table.registry → world.states.length ≤ 4096 →
      DustWorld table world → (∀ pos, pos ∈ queue.current ↔ IsWire table world pos) →
      queue.scheduled = .empty → (∀ n, 0 < (budgets n).neighbourUpdatesPerTick) →
      ∃ n, (passes table budgets world queue n).queue.current = ∅ ∧ ∀ pos, IsWire table world pos →
        (∀ d, IsLeast {k | WirePath table world k pos} d →
          Stores table (passes table budgets world queue n).world pos (15 - d)) ∧
        ((∀ k, ¬WirePath table world k pos) →
          Stores table (passes table budgets world queue n).world pos 0) := by
  intro hall
  obtain ⟨n, hempty, hstores⟩ := hall dustTable crowd crowdQueue (fun _ => ⟨10000, 0⟩) dustTable_wire
    (by simp [crowd, line]) crowd_dust (fun _ => mem_crowdQueue) rfl (fun _ => by decide)
  have hwire : IsWire dustTable crowd (onLine 2060) := mem_wires.mp (crowd_wire.mpr ⟨2060, by decide, rfl⟩)
  cases n with
  | zero =>
    have hmem := mem_crowdQueue.mpr hwire
    have hempty' : crowdQueue.current = ∅ := hempty
    rw [hempty'] at hmem
    exact absurd hmem (Finset.notMem_empty _)
  | succ n =>
    have hstuck : Stuck _ _ _ [] := crowd_stuck n
    obtain ⟨id, stored, hid, hrole, hzero⟩ := (hstores (onLine 2060) hwire).2 fun k hpath => by
      have hsource : ∀ m q, WirePath dustTable crowd m q → False := by
        intro m q h
        induction h with
        | here _ hsource => exact crowd_noBlock _ hsource
        | step _ _ _ ih => exact ih
      exact hsource k _ hpath
    have hlit := hstuck.lit
    rw [powers, hid, storedPower, Option.map_some, hrole] at hlit
    dsimp only at hlit
    omega

end Apoptosis.L2.Redstone
