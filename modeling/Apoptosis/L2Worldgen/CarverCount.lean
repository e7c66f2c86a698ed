import Apoptosis.L2World.ChunkWrites
import Apoptosis.L2Worldgen.CarverReach
/-!
# What a carver pass changes and counts (`worldgen/src/carver.rs`)

Hundreds of ellipsoids of many systems look at the same cells. A cell that was
carved holds air, water or lava, and where no carver may replace those it is
left alone from then on. `carve_chunk` counts a system once when its roll
succeeds and once more when it adds up the system's own numbers.

Results:
* `carveCell_cases`: what one cell of one ellipsoid does.
* `ledger`: the cells written, each once.
* `carveChunk_passes`: the counters, by the writes.
* `carve_accounted`: everything but the systems is counted right.
* `carve_exact_iff`.
-/
namespace Apoptosis.L2.Carver
open Apoptosis.Core Apoptosis.RandomDoubles Apoptosis.L2.Registry Apoptosis.L2.Storage Apoptosis.L2.Terrain
open Apoptosis.L2.Terrain.Chunk (SameCell SameShape changed)
open Apoptosis.L2.Worldgen

/-! ## One cell -/

/-- The counters a cell can raise, and the systems. -/
def CarverStats.tally (stats : CarverStats) : ℕ × ℕ × ℕ × ℕ :=
  (stats.systems, stats.blocksCarved, stats.blocksWater, stats.blocksLava)

theorem CarverStats.tally_record (stats other : CarverStats) :
    (stats.record other).tally = stats.tally + other.tally := rfl

/-- A cell is left alone, or it held a replaceable block and holds the fill. -/
theorem carveCell_cases (carver : CarverConfig) (registry : BlockRegistry) (fluids : FluidFill) (e : Ellipsoid)
    (carving : Carving) (cell : Cell) :
    ((carveCell carver registry fluids e carving cell).chunk = carving.chunk ∧
        (carveCell carver registry fluids e carving cell).stats.tally = carving.stats.tally) ∨
      ∃ old ∈ carver.replaceable, old ≠ fluids.fillFor cell.y ∧
        carving.chunk.idAt cell.x cell.y cell.z = some old ∧
        SameShape carving.chunk (carveCell carver registry fluids e carving cell).chunk ∧
        (∀ x y z, (carveCell carver registry fluids e carving cell).chunk.idAt x y z =
          if SameCell cell.x cell.y cell.z x y z then some (fluids.fillFor cell.y)
          else carving.chunk.idAt x y z) ∧
        (carveCell carver registry fluids e carving cell).stats =
          carving.stats.recordFill cell.y (fluids.fillFor cell.y) fluids := by
  unfold carveCell
  dsimp only
  split
  · exact .inl ⟨rfl, rfl⟩
  split
  · exact .inl ⟨rfl, rfl⟩
  split
  · exact .inl ⟨rfl, rfl⟩
  next hne =>
  split
  · exact .inl ⟨rfl, rfl⟩
  split
  · exact .inl ⟨rfl, rfl⟩
  next hreplaceable =>
  split
  · next change chunk hset =>
    obtain ⟨old, hold, -, -⟩ := Chunk.setBlock_changed hset
    obtain ⟨hpos, hlow, hsections, hcells⟩ := Chunk.setBlock_spec hset
    have hget : carving.chunk.getBlock cell.x cell.y cell.z = old := by
      rw [Chunk.getBlock_eq, hold]
      rfl
    rw [hget] at hne hreplaceable
    exact .inr ⟨old, not_not.mp hreplaceable, hne, hold, ⟨hpos, hlow, hsections⟩, hcells, rfl⟩
  · exact .inl ⟨rfl, rfl⟩

/-! ## The writes of a run -/

namespace Visit

def Covers (visit : Visit) (x y z : Int) : Prop := SameCell visit.cell.x visit.cell.y visit.cell.z x y z

instance (visit : Visit) (x y z : Int) : Decidable (visit.Covers x y z) := inferInstanceAs (Decidable (SameCell ..))

theorem covers_self (visit : Visit) : visit.Covers visit.cell.x visit.cell.y visit.cell.z := ⟨rfl, rfl, rfl⟩

theorem Covers.symm {v w : Visit} (h : v.Covers w.cell.x w.cell.y w.cell.z) :
    w.Covers v.cell.x v.cell.y v.cell.z := ⟨h.1.symm, h.2.1.symm, h.2.2.symm⟩

theorem Covers.idAt {visit : Visit} {x y z : Int} (h : visit.Covers x y z) (chunk : Chunk) :
    chunk.idAt x y z = chunk.idAt visit.cell.x visit.cell.y visit.cell.z := by
  obtain ⟨hx, rfl, hz⟩ := h
  simp only [Chunk.idAt, hx, hz]

/-- The cell in the chunk's own columns. -/
def place (visit : Visit) : Int × Int × Int := (visit.cell.x % 16, visit.cell.y, visit.cell.z % 16)

theorem covers_place (visit : Visit) : visit.Covers visit.place.1 visit.place.2.1 visit.place.2.2 :=
  ⟨Int.emod_emod_of_dvd _ (dvd_refl 16), rfl, Int.emod_emod_of_dvd _ (dvd_refl 16)⟩

theorem covers_of_place_eq {v w : Visit} (h : v.place = w.place) : v.Covers w.cell.x w.cell.y w.cell.z := by
  obtain ⟨hx, hyz⟩ := Prod.mk.inj h
  obtain ⟨hy, hz⟩ := Prod.mk.inj hyz
  exact ⟨hx.symm, hy.symm, hz.symm⟩

end Visit

section writes
variable (context : WorldgenContext) (registry : BlockRegistry)

/-- What the visit's carver puts at its height. -/
def Visit.fill (visit : Visit) : Int := (fluidFill context registry visit.carver).fillFor visit.cell.y

/-- The visit leaves another block in its cell. -/
def Writes (chunk : Chunk) (visit : Visit) : Prop :=
  (carveVisit context registry chunk visit).idAt visit.cell.x visit.cell.y visit.cell.z ≠
    chunk.idAt visit.cell.x visit.cell.y visit.cell.z

open Classical in
/-- The visits of a run that write, in order. -/
noncomputable def writes : Chunk → List Visit → List Visit
  | _, [] => []
  | chunk, visit :: found =>
    (if Writes context registry chunk visit then [visit] else []) ++
      writes (carveVisit context registry chunk visit) found

variable {context registry}

/-- A visit writes nothing, or it replaces a replaceable block by the fill. -/
theorem carveVisit_cases (chunk : Chunk) (visit : Visit) :
    (carveVisit context registry chunk visit = chunk ∧ ¬Writes context registry chunk visit) ∨
      ∃ old ∈ visit.carver.replaceable, old ≠ visit.fill context registry ∧
        chunk.idAt visit.cell.x visit.cell.y visit.cell.z = some old ∧
        SameShape chunk (carveVisit context registry chunk visit) ∧
        (∀ x y z, (carveVisit context registry chunk visit).idAt x y z =
          if visit.Covers x y z then some (visit.fill context registry) else chunk.idAt x y z) ∧
        Writes context registry chunk visit := by
  rcases carveCell_cases visit.carver registry (fluidFill context registry visit.carver) visit.e ⟨chunk, {}⟩
    visit.cell with ⟨hsame, -⟩ | ⟨old, hmem, hne, hold, hshape, hcells, -⟩
  · have hvisit : carveVisit context registry chunk visit = chunk := hsame
    exact .inl ⟨hvisit, fun h => h (by rw [hvisit])⟩
  · refine .inr ⟨old, hmem, hne, hold, hshape, hcells, fun h => hne ?_⟩
    have hfilled := (hcells visit.cell.x visit.cell.y visit.cell.z).trans (if_pos visit.covers_self)
    exact Option.some.inj (hold.symm.trans (h.symm.trans hfilled))

theorem writes_nil (chunk : Chunk) : writes context registry chunk [] = [] := by rw [writes]

theorem writes_append (chunk : Chunk) (found found' : List Visit) :
    writes context registry chunk (found ++ found') = writes context registry chunk found ++
      writes context registry (found.foldl (carveVisit context registry) chunk) found' := by
  induction found generalizing chunk with
  | nil =>
    rw [writes_nil]
    rfl
  | cons visit found ih =>
    rw [List.cons_append, writes, writes, ih, List.append_assoc]
    rfl

theorem writes_sublist (chunk : Chunk) (found : List Visit) : (writes context registry chunk found).Sublist found := by
  induction found generalizing chunk with
  | nil =>
    rw [writes_nil]
  | cons visit found ih =>
    rw [writes]
    split
    · exact (ih _).cons_cons visit
    · exact (ih _).cons visit

/-! ## Each cell once -/

variable (registry) in
/-- What a chunk floods with, below the sea level. -/
def waterId : Int := (registry.defaultState "minecraft:water".toList).getD registry.airId

variable (registry) in
def lavaId : Int := (registry.defaultState "minecraft:lava".toList).getD registry.airId

variable (registry) in
/-- The carver may replace neither air nor water nor lava. -/
def Dry (carver : CarverConfig) : Prop :=
  ∀ id ∈ carver.replaceable, id ≠ registry.airId ∧ id ≠ waterId registry ∧ id ≠ lavaId registry

theorem fill_not_replaceable {carver : CarverConfig} (hdry : Dry registry carver) (visit : Visit) :
    visit.fill context registry ∉ carver.replaceable := by
  intro hmem
  obtain ⟨hair, hwater, hlava⟩ := hdry _ hmem
  unfold Visit.fill FluidFill.fillFor at hair hwater hlava
  split at hair
  · next hlow =>
    rw [if_pos hlow] at hlava
    exact hlava rfl
  · next hlow =>
    rw [if_neg hlow] at hwater
    split at hair
    · next hsea =>
      rw [if_pos hsea] at hwater
      exact hwater rfl
    · exact hair rfl

/-- A cell no carver of the run may replace is left alone. -/
theorem settled {chunk : Chunk} {found : List Visit} {x y z id : Int} (hid : chunk.idAt x y z = some id)
    (hkept : ∀ visit ∈ found, id ∉ visit.carver.replaceable) :
    (found.foldl (carveVisit context registry) chunk).idAt x y z = some id ∧
      ∀ visit ∈ writes context registry chunk found, ¬visit.Covers x y z := by
  induction found generalizing chunk with
  | nil =>
    rw [writes_nil, List.foldl_nil]
    exact ⟨hid, fun _ h => absurd h List.not_mem_nil⟩
  | cons visit found ih =>
    have hkept' := fun v hv => hkept v (List.mem_cons_of_mem _ hv)
    rw [List.foldl_cons, writes]
    rcases @carveVisit_cases context registry chunk visit with
      ⟨hsame, hidle⟩ | ⟨old, hmem, -, hold, -, hcells, hwrites⟩
    · rw [if_neg hidle, List.nil_append, hsame]
      exact ih hid hkept'
    · have hfree : ¬visit.Covers x y z := fun hcover => by
        rw [hcover.idAt, hold] at hid
        cases hid
        exact hkept visit List.mem_cons_self hmem
      obtain ⟨hfinal, hlater⟩ := ih (((hcells x y z).trans (if_neg hfree)).trans hid) hkept'
      rw [if_pos hwrites]
      refine ⟨hfinal, fun v hv => ?_⟩
      rcases List.mem_cons.mp hv with rfl | hv
      · exact hfree
      · exact hlater v hv

variable (context registry) in
/-- What lies between two states of a chunk: the writes of a run, each of a cell of its own. -/
structure Ledger (before after : Chunk) (log : List Visit) : Prop where
  shape : SameShape before after
  once : log.Pairwise fun v w => ¬v.Covers w.cell.x w.cell.y w.cell.z
  filled : ∀ v ∈ log, (∃ old ∈ v.carver.replaceable, old ≠ v.fill context registry ∧
      before.idAt v.cell.x v.cell.y v.cell.z = some old) ∧
    after.idAt v.cell.x v.cell.y v.cell.z = some (v.fill context registry)
  kept : ∀ x y z, (∀ v ∈ log, ¬v.Covers x y z) → after.idAt x y z = before.idAt x y z

theorem ledger (chunk : Chunk) {found : List Visit}
    (hdry : ∀ v ∈ found, ∀ w ∈ found, v.fill context registry ∉ w.carver.replaceable) :
    Ledger context registry chunk (found.foldl (carveVisit context registry) chunk)
      (writes context registry chunk found) := by
  induction found generalizing chunk with
  | nil =>
    rw [writes_nil, List.foldl_nil]
    exact ⟨.refl _, .nil, fun _ h => absurd h List.not_mem_nil, fun _ _ _ _ => rfl⟩
  | cons visit found ih =>
    have hdry' := fun v hv w hw => hdry v (List.mem_cons_of_mem _ hv) w (List.mem_cons_of_mem _ hw)
    have hrest := ih (carveVisit context registry chunk visit) hdry'
    rw [List.foldl_cons, writes]
    rcases @carveVisit_cases context registry chunk visit with
      ⟨hsame, hidle⟩ | ⟨old, hmem, hne, hold, hshape, hcells, hwrites⟩
    · rw [if_neg hidle, List.nil_append]
      rwa [hsame] at hrest ⊢
    · -- the cell just filled is settled
      have hfilled := (hcells visit.cell.x visit.cell.y visit.cell.z).trans (if_pos visit.covers_self)
      obtain ⟨hfinal, hlater⟩ := settled hfilled fun v hv =>
        hdry visit List.mem_cons_self v (List.mem_cons_of_mem _ hv)
      rw [if_pos hwrites]
      refine ⟨hshape.trans hrest.shape, List.pairwise_cons.mpr ⟨fun w hw h => hlater w hw h.symm, hrest.once⟩,
        fun v hv => ?_, fun x y z hfree => ?_⟩
      · rcases List.mem_cons.mp hv with rfl | hv
        · exact ⟨⟨old, hmem, hne, hold⟩, hfinal⟩
        · obtain ⟨⟨old', hmem', hne', hold'⟩, hafter⟩ := hrest.filled v hv
          rw [hcells, if_neg fun h => hlater v hv h.symm] at hold'
          exact ⟨⟨old', hmem', hne', hold'⟩, hafter⟩
      · rw [hrest.kept x y z fun v hv => hfree v (List.mem_cons_of_mem _ hv), hcells,
          if_neg (hfree visit List.mem_cons_self)]

namespace Ledger
variable {before after : Chunk} {log : List Visit}

/-- The cells that changed are those of the writes. -/
theorem changed_eq (h : Ledger context registry before after log) :
    changed before after = {c | ∃ v ∈ log, v.place = c} := by
  ext c
  constructor
  · rintro ⟨hx, hz, hne⟩
    by_contra hnone
    refine hne (h.kept _ _ _ fun v hv hcover => hnone ⟨v, hv, ?_⟩)
    refine Prod.ext (hcover.1.symm.trans ?_) (Prod.ext hcover.2.1.symm (hcover.2.2.symm.trans ?_))
    · exact Int.emod_eq_of_lt hx.1 hx.2
    · exact Int.emod_eq_of_lt hz.1 hz.2
  · rintro ⟨v, hv, rfl⟩
    obtain ⟨⟨old, -, hne, hold⟩, hafter⟩ := h.filled v hv
    refine ⟨Chunk.mod_range _, Chunk.mod_range _, ?_⟩
    rw [v.covers_place.idAt, v.covers_place.idAt, hold, hafter]
    exact fun heq => hne (Option.some.inj heq).symm

/-- Writes of one kind, counted by their cells. -/
theorem ncard_eq (h : Ledger context registry before after log) (kind : Visit → Bool) :
    {c | ∃ v ∈ log, kind v ∧ v.place = c}.ncard = log.countP kind := by
  have hcells : {c | ∃ v ∈ log, kind v ∧ v.place = c} =
      (((log.filter kind).map Visit.place).toFinset : Set _) := by
    ext c
    rw [Finset.mem_coe, List.mem_toFinset, List.mem_map]
    simp only [List.mem_filter, Set.mem_ofPred_eq, and_assoc]
  have hnodup : ((log.filter kind).map Visit.place).Nodup := by
    rw [List.Nodup, List.pairwise_map]
    exact (h.once.filter _).imp fun {v w} hfree heq => hfree (Visit.covers_of_place_eq heq)
  rw [hcells, Set.ncard_coe_finset, List.toFinset_card_of_nodup hnodup, List.length_map,
    List.countP_eq_length_filter]

/-- The cells that changed and hold an id, by the fill of their writes. -/
theorem holding_eq (h : Ledger context registry before after log) (id : Int) :
    {c ∈ changed before after | after.idAt c.1 c.2.1 c.2.2 = some id} =
      {c | ∃ v ∈ log, (v.fill context registry = id : Bool) ∧ v.place = c} := by
  rw [h.changed_eq]
  ext c
  constructor
  · rintro ⟨⟨v, hv, rfl⟩, hid⟩
    rw [v.covers_place.idAt, (h.filled v hv).2] at hid
    exact ⟨v, hv, decide_eq_true (Option.some.inj hid), rfl⟩
  · rintro ⟨v, hv, hid, rfl⟩
    refine ⟨⟨v, hv, rfl⟩, ?_⟩
    rw [v.covers_place.idAt, (h.filled v hv).2, of_decide_eq_true hid]

end Ledger

/-! ## The counters -/

variable (context registry) in
def Visit.isWater (visit : Visit) : Bool :=
  (fluidFill context registry visit.carver).isWater visit.cell.y (visit.fill context registry)

variable (context registry) in
def Visit.isLava (visit : Visit) : Bool :=
  (fluidFill context registry visit.carver).isLava visit.cell.y (visit.fill context registry)

variable (context registry) in
/-- What so many systems and these writes add to the counters. -/
def count (systems : ℕ) (log : List Visit) : ℕ × ℕ × ℕ × ℕ :=
  (systems, log.length, log.countP (Visit.isWater context registry), log.countP (Visit.isLava context registry))

theorem count_append (n m : ℕ) (log log' : List Visit) :
    count context registry (n + m) (log ++ log') = count context registry n log + count context registry m log' := by
  unfold count
  rw [List.length_append, List.countP_append, List.countP_append]
  rfl

/-- A cell below the lava's top floods with no water. -/
theorem tally_recordFill (stats : CarverStats) (visit : Visit) :
    (stats.recordFill visit.cell.y (visit.fill context registry) (fluidFill context registry visit.carver)).tally =
      stats.tally + count context registry 0 [visit] := by
  have hapart : visit.isWater context registry → ¬visit.isLava context registry := by
    intro hwater hlava
    have hhigh := (of_decide_eq_true hwater).2.2
    have hlow := (of_decide_eq_true hlava).2.2
    omega
  have hkinds : count context registry 0 [visit] =
      (0, 1, if visit.isWater context registry then 1 else 0, if visit.isLava context registry then 1 else 0) := by
    rw [count, List.countP_singleton, List.countP_singleton, List.length_singleton]
  rw [hkinds]
  show (if visit.isWater context registry then _ else if visit.isLava context registry then _ else _ :
    CarverStats).tally = _
  by_cases hwater : visit.isWater context registry
  · rw [if_pos hwater, if_pos hwater, if_neg (hapart hwater)]
    rfl
  · rw [if_neg hwater, if_neg hwater]
    by_cases hlava : visit.isLava context registry
    · rw [if_pos hlava, if_pos hlava]
      rfl
    · rw [if_neg hlava, if_neg hlava]
      rfl

variable (context registry) in
/-- A pass over the chunk at `pos` leaves the blocks that visiting these cells leaves, and counts so
many systems and the writes. -/
structure Passes (pos : ChunkPos) (found : List Visit) (systems : ℕ) (pass : Carving → Carving) : Prop where
  blocks : Carves context registry pos found pass
  counts : ∀ carving, carving.chunk.pos = pos →
    (pass carving).stats.tally =
      carving.stats.tally + count context registry systems (writes context registry carving.chunk found)

variable {pos : ChunkPos}

theorem passes_foldl {α : Type} {step : Carving → α → Carving} {found : α → List Visit} {systems : α → ℕ}
    (h : ∀ a, Passes context registry pos (found a) (systems a) fun carving => step carving a) (passes : List α) :
    Passes context registry pos (passes.flatMap found) (passes.map systems).sum fun carving =>
      passes.foldl step carving := by
  refine ⟨carves_foldl (fun a => (h a).blocks) passes, ?_⟩
  induction passes with
  | nil =>
    intro carving _
    rw [List.flatMap_nil, writes_nil]
    rfl
  | cons a passes ih =>
    intro carving hpos
    have hstep := (h a).blocks carving hpos
    have hpos' : (step carving a).chunk.pos = pos := by
      rw [hstep, foldl_carveVisit_pos, hpos]
    rw [List.foldl_cons, ih (step carving a) hpos', (h a).counts carving hpos, List.flatMap_cons, writes_append,
      List.map_cons, List.sum_cons, count_append, ← hstep, add_assoc]

theorem passes_cell (carver : CarverConfig) (e : Ellipsoid) (cell : Cell) :
    Passes context registry pos [⟨carver, e, cell⟩] 0 fun carving =>
      carveCell carver registry (fluidFill context registry carver) e carving cell := by
  refine ⟨fun carving _ => carveCell_chunk context registry carver e carving cell, fun carving _ => ?_⟩
  have hchunk := carveCell_chunk context registry carver e carving cell
  rw [writes, writes_nil, List.append_nil]
  rcases carveCell_cases carver registry (fluidFill context registry carver) e carving cell with
    ⟨hsame, htally⟩ | ⟨old, -, hne, hold, -, hcells, hstats⟩
  · rw [if_neg fun h => h (by rw [← hchunk, hsame]), htally]
    rfl
  · have hwrites : Writes context registry carving.chunk ⟨carver, e, cell⟩ := by
      intro h
      rw [← hchunk, hcells, if_pos ⟨rfl, rfl, rfl⟩, hold] at h
      exact hne (Option.some.inj h).symm
    rw [if_pos hwrites, hstats]
    exact tally_recordFill carving.stats ⟨carver, e, cell⟩

theorem passes_ellipsoid (carver : CarverConfig) (e : Ellipsoid) :
    Passes context registry pos (ellipsoidVisits context carver pos e) 0 fun carving =>
      carveEllipsoid context carver registry (fluidFill context registry carver) carving e := by
  refine ⟨carves_ellipsoid carver e, fun carving hpos => ?_⟩
  have hcells := passes_foldl (@passes_cell context registry pos carver e) (e.cells context pos)
  unfold carveEllipsoid
  subst hpos
  dsimp only
  split_ifs with hout
  · rw [ellipsoidVisits, e.cells_nil context hout, List.map_nil, writes_nil]
    rfl
  · have hcounts := hcells.counts carving rfl
    have hvisits : (e.cells context carving.chunk.pos).flatMap (fun cell => [(⟨carver, e, cell⟩ : Visit)]) =
        ellipsoidVisits context carver carving.chunk.pos e := by
      rw [ellipsoidVisits, ← List.flatMap_singleton' (List.map _ _), List.flatMap_map]
    rw [hvisits] at hcounts
    exact hcounts.trans (by rw [List.map_const', List.sum_replicate, smul_zero])

end writes

section chunk
variable {R : Type} [RandomDoubles R] (featureRandom : Int → String → ChunkPos → Nat → R)
  (context : WorldgenContext) (registry : BlockRegistry)

/-- The roll of a carver for a source succeeds. -/
def Succeeds (carver : CarverConfig) (source : ChunkPos) : Prop :=
  (nextF64 (carverRandom featureRandom context carver source)).1 < carver.probability

variable {registry} {pos : ChunkPos}

open Classical in
/-- A system is counted by the loop and again with its own numbers. -/
theorem passes_source (carver : CarverConfig) (source : ChunkPos) :
    Passes context registry pos (sourceVisits featureRandom context carver pos source)
      (if Succeeds featureRandom context carver source then 2 else 0) fun carving =>
      carveSource featureRandom context registry carver carving source := by
  refine ⟨carves_source featureRandom carver source, fun carving hpos => ?_⟩
  unfold carveSource sourceVisits system Succeeds
  generalize nextF64 (carverRandom featureRandom context carver source) = draw
  obtain ⟨roll, random⟩ := draw
  dsimp only
  by_cases hroll : carver.probability ≤ roll
  · rw [if_pos hroll, if_pos hroll, if_neg (not_lt.mpr hroll), List.flatMap_nil, writes_nil]
    rfl
  · have hwalk := (passes_foldl (@passes_ellipsoid context registry pos carver)
      (walk context carver source random)).counts ⟨carving.chunk, { systems := 1 }⟩ hpos
    have hlocal : (walkAndCarve context carver registry (fluidFill context registry carver) source
        ⟨carving.chunk, { systems := 1 }⟩ random).1 =
        (walk context carver source random).foldl
          (carveEllipsoid context carver registry (fluidFill context registry carver))
          ⟨carving.chunk, { systems := 1 }⟩ := carveSteps_eq carver _ _ _ _ _ _ _
    rw [List.map_const', List.sum_replicate, smul_zero] at hwalk
    rw [if_neg hroll, if_neg hroll, if_pos (not_le.mp hroll), CarverStats.tally_record, hlocal, hwalk]
    simp only [CarverStats.tally, count, Prod.mk_add_mk, Nat.zero_add, Nat.add_zero, Nat.add_assoc]

open Classical in
/-- The (carver, source) pairs whose roll succeeds. -/
noncomputable def successes (radius : Int) (carvers : List CarverConfig) (pos : ChunkPos) : ℕ :=
  (carvers.map fun carver => (sources radius pos).countP fun source =>
    Succeeds featureRandom context carver source).sum

theorem successes_eq_zero {radius : Int} {carvers : List CarverConfig} :
    successes featureRandom context radius carvers pos = 0 ↔
      ∀ carver ∈ carvers, ∀ source ∈ sources radius pos, ¬Succeeds featureRandom context carver source := by
  simp only [successes, List.sum_eq_zero_iff, List.mem_map, forall_exists_index, and_imp,
    forall_apply_eq_imp_iff₂, List.countP_eq_zero, decide_eq_true_eq]

open Classical in
theorem systems_sum (carvers : List CarverConfig) (found : List ChunkPos) :
    (carvers.map fun carver => (found.map fun source =>
      if Succeeds featureRandom context carver source then 2 else 0).sum).sum =
      2 * (carvers.map fun carver => found.countP fun source =>
        Succeeds featureRandom context carver source).sum := by
  have hrow : ∀ carver, (found.map fun source =>
      if Succeeds featureRandom context carver source then 2 else 0).sum =
      2 * found.countP fun source => Succeeds featureRandom context carver source := by
    intro carver
    induction found with
    | nil => rfl
    | cons source found ih =>
      rw [List.map_cons, List.sum_cons, ih, List.countP_cons]
      simp only [decide_eq_true_eq]
      split <;> omega
  simp only [hrow, List.sum_map_mul_left]

/-- The cells `carve_chunk` considers in a chunk, in order, with the sources around `pos`. -/
noncomputable def visitsAround (radius : Int) (carvers : List CarverConfig) (own pos : ChunkPos) : List Visit :=
  carvers.flatMap fun carver => (sources radius pos).flatMap (sourceVisits featureRandom context carver own)

theorem visitsAround_carver {radius : Int} {carvers : List CarverConfig} {own : ChunkPos} {visit : Visit}
    (h : visit ∈ visitsAround featureRandom context radius carvers own pos) : visit.carver ∈ carvers := by
  simp only [visitsAround, sourceVisits, ellipsoidVisits, List.mem_flatMap, List.mem_map] at h
  obtain ⟨carver, hmem, -, -, -, -, -, -, rfl⟩ := h
  exact hmem

variable (registry)

/-- The counters after a pass, by its writes; every system counts twice. -/
theorem carveChunk_passes (carvers : List CarverConfig) (chunk : Chunk) (pos : ChunkPos) :
    (carveChunk featureRandom context registry carvers chunk pos).chunk =
      (visitsAround featureRandom context CARVER_SOURCE_RADIUS_CHUNKS carvers chunk.pos pos).foldl
        (carveVisit context registry) chunk ∧
    (carveChunk featureRandom context registry carvers chunk pos).stats.tally =
      count context registry (2 * successes featureRandom context CARVER_SOURCE_RADIUS_CHUNKS carvers pos)
        (writes context registry chunk
          (visitsAround featureRandom context CARVER_SOURCE_RADIUS_CHUNKS carvers chunk.pos pos)) := by
  have hpasses := passes_foldl (fun carver => passes_foldl
    (@passes_source R _ featureRandom context registry chunk.pos carver) (sources CARVER_SOURCE_RADIUS_CHUNKS pos)) carvers
  refine ⟨hpasses.blocks ⟨chunk, {}⟩ rfl, (hpasses.counts ⟨chunk, {}⟩ rfl).trans ?_⟩
  rw [systems_sum]
  exact zero_add _

/-- The table tells water from lava, unless it knows neither. -/
def TellsFluids : Prop := waterId registry = lavaId registry → waterId registry = registry.airId

variable {context registry} in
theorem isWater_iff (h : TellsFluids registry) (visit : Visit) :
    visit.isWater context registry ↔
      waterId registry ≠ registry.airId ∧ visit.fill context registry = waterId registry := by
  rw [Visit.isWater, FluidFill.isWater, decide_eq_true_iff]
  refine ⟨fun ⟨hfill, hair, _⟩ => ⟨hair, hfill⟩,
    fun ⟨hair, hfill⟩ => ⟨hfill, hair, not_le.mp fun hlow => hair (h ?_)⟩⟩
  rw [Visit.fill, FluidFill.fillFor, if_pos hlow] at hfill
  exact hfill.symm

variable {context registry} in
theorem isLava_iff (h : TellsFluids registry) (visit : Visit) :
    visit.isLava context registry ↔
      lavaId registry ≠ registry.airId ∧ visit.fill context registry = lavaId registry := by
  rw [Visit.isLava, FluidFill.isLava, decide_eq_true_iff]
  refine ⟨fun ⟨hfill, hair, _⟩ => ⟨hair, hfill⟩,
    fun ⟨hair, hfill⟩ => ⟨hfill, hair, not_lt.mp fun hhigh => hair ?_⟩⟩
  rw [Visit.fill, FluidFill.fillFor, if_neg (not_le.mpr hhigh)] at hfill
  split at hfill
  · exact hfill.symm.trans (h hfill)
  · exact hfill.symm

variable {context registry} in
/-- Writes that flood their cell with `id`, counted by the cells that hold it. -/
theorem Ledger.flooded {before after : Chunk} {log : List Visit} (h : Ledger context registry before after log)
    {id : Int} {kind : Visit → Bool}
    (hkind : ∀ v, kind v ↔ id ≠ registry.airId ∧ v.fill context registry = id) :
    log.countP kind =
      {c ∈ changed before after | id ≠ registry.airId ∧ after.idAt c.1 c.2.1 c.2.2 = some id}.ncard := by
  by_cases hair : id = registry.airId
  · have hnone : {c ∈ changed before after | id ≠ registry.airId ∧ after.idAt c.1 c.2.1 c.2.2 = some id} = ∅ :=
      Set.eq_empty_iff_forall_notMem.mpr fun _ hc => hc.2.1 hair
    rw [hnone, Set.ncard_empty, List.countP_eq_zero]
    exact fun v _ hv => ((hkind v).mp hv).1 hair
  · have hall : {c ∈ changed before after | id ≠ registry.airId ∧ after.idAt c.1 c.2.1 c.2.2 = some id} =
        {c ∈ changed before after | after.idAt c.1 c.2.1 c.2.2 = some id} := by
      ext c
      exact ⟨fun hc => ⟨hc.1, hc.2.2⟩, fun hc => ⟨hc.1, hair, hc.2⟩⟩
    rw [hall, h.holding_eq, h.ncard_eq]
    refine List.countP_congr fun v _ => ?_
    rw [hkind, decide_eq_true_iff]
    exact ⟨fun hv => hv.2, fun hv => ⟨hair, hv⟩⟩

/-- After a pass, cells changed as their carvers may, each once, and counted. -/
structure Accounted (carvers : List CarverConfig) (chunk : Chunk) (pos : ChunkPos) (after : Carving) : Prop where
  cells : ∀ x y z, after.chunk.idAt x y z = chunk.idAt x y z ∨
    ∃ carver ∈ carvers, ∃ old ∈ carver.replaceable, chunk.idAt x y z = some old ∧
      after.chunk.idAt x y z = some ((fluidFill context registry carver).fillFor y)
  once : (writes context registry chunk
      (visitsAround featureRandom context CARVER_SOURCE_RADIUS_CHUNKS carvers chunk.pos pos)).Pairwise
    fun v w => ¬v.Covers w.cell.x w.cell.y w.cell.z
  carved : after.stats.blocksCarved = (changed chunk after.chunk).ncard
  water : TellsFluids registry → after.stats.blocksWater = {c ∈ changed chunk after.chunk |
    waterId registry ≠ registry.airId ∧ after.chunk.idAt c.1 c.2.1 c.2.2 = some (waterId registry)}.ncard
  lava : TellsFluids registry → after.stats.blocksLava = {c ∈ changed chunk after.chunk |
    lavaId registry ≠ registry.airId ∧ after.chunk.idAt c.1 c.2.1 c.2.2 = some (lavaId registry)}.ncard

/-- A pass counts the systems as well. -/
structure Exact (carvers : List CarverConfig) (chunk : Chunk) (pos : ChunkPos) (after : Carving) : Prop
    extends Accounted featureRandom context registry carvers chunk pos after where
  systems : after.stats.systems = successes featureRandom context CARVER_SOURCE_RADIUS_CHUNKS carvers pos

theorem carve_accounted {carvers : List CarverConfig} (hdry : ∀ carver ∈ carvers, Dry registry carver)
    (chunk : Chunk) (pos : ChunkPos) : Accounted featureRandom context registry carvers chunk pos
      (carveChunk featureRandom context registry carvers chunk pos) := by
  obtain ⟨hblocks, htally⟩ := carveChunk_passes featureRandom context registry carvers chunk pos
  have hledger := @ledger context registry chunk
    (visitsAround featureRandom context CARVER_SOURCE_RADIUS_CHUNKS carvers chunk.pos pos)
    fun v _ w hw => fill_not_replaceable (hdry _ (visitsAround_carver featureRandom context hw)) v
  have hmem : ∀ v ∈ writes context registry chunk
      (visitsAround featureRandom context CARVER_SOURCE_RADIUS_CHUNKS carvers chunk.pos pos), v.carver ∈ carvers :=
    fun v hv => visitsAround_carver featureRandom context ((writes_sublist chunk _).subset hv)
  rw [← hblocks] at hledger
  simp only [CarverStats.tally, count, Prod.mk.injEq] at htally
  obtain ⟨-, hcarved, hwater, hlava⟩ := htally
  refine ⟨fun x y z => ?_, hledger.once, hcarved.trans ?_, fun htells => hwater.trans ?_, fun htells => hlava.trans ?_⟩
  · by_cases hfree : ∀ v ∈ writes context registry chunk
        (visitsAround featureRandom context CARVER_SOURCE_RADIUS_CHUNKS carvers chunk.pos pos), ¬v.Covers x y z
    · exact .inl (hledger.kept x y z hfree)
    · push Not at hfree
      obtain ⟨v, hv, hcover⟩ := hfree
      obtain ⟨⟨old, hold, -, hbefore⟩, hafter⟩ := hledger.filled v hv
      refine .inr ⟨v.carver, hmem v hv, old, hold, (hcover.idAt _).trans hbefore, (hcover.idAt _).trans ?_⟩
      rw [hafter, hcover.2.1, Visit.fill]
  · rw [hledger.changed_eq, ← List.countP_true, ← hledger.ncard_eq]
    simp only [true_and]
  · exact hledger.flooded (isWater_iff htells)
  · exact hledger.flooded (isLava_iff htells)

theorem systems_twice (carvers : List CarverConfig) (chunk : Chunk) (pos : ChunkPos) :
    (carveChunk featureRandom context registry carvers chunk pos).stats.systems =
      2 * successes featureRandom context CARVER_SOURCE_RADIUS_CHUNKS carvers pos :=
  congrArg Prod.fst (carveChunk_passes featureRandom context registry carvers chunk pos).2

/-- A pass is exact when no roll succeeds, and never when one does: the loop counts a system, and
adding up the system's own numbers counts it again. -/
theorem carve_exact_iff {carvers : List CarverConfig} (hdry : ∀ carver ∈ carvers, Dry registry carver)
    (chunk : Chunk) (pos : ChunkPos) :
    Exact featureRandom context registry carvers chunk pos
        (carveChunk featureRandom context registry carvers chunk pos) ↔
      ∀ carver ∈ carvers, ∀ source ∈ sources CARVER_SOURCE_RADIUS_CHUNKS pos,
        ¬Succeeds featureRandom context carver source := by
  have hsystems := systems_twice featureRandom context registry carvers chunk pos
  rw [← successes_eq_zero]
  constructor
  · intro h
    have := h.systems
    omega
  · intro h
    exact ⟨carve_accounted featureRandom context registry hdry chunk pos, by omega⟩

end chunk

/-! ## The pack's cave -/

/-- Air, stone and the two fluids. -/
def caveTable : BlockRegistry where
  byName name :=
    if name = "minecraft:air".toList then some ⟨0, 0, 1, []⟩
    else if name = "minecraft:stone".toList then some ⟨1, 1, 1, []⟩
    else if name = "minecraft:water".toList then some ⟨2, 2, 1, []⟩
    else if name = "minecraft:lava".toList then some ⟨3, 3, 1, []⟩
    else none
  byId := ["minecraft:air".toList, "minecraft:stone".toList, "minecraft:water".toList, "minecraft:lava".toList]
  airId := 0
  emptyIds := [0]

theorem packCave_dry : ∀ carver ∈ [packCave], Dry caveTable carver := by
  intro carver hmem
  rw [List.mem_singleton.mp hmem]
  intro id hid
  rw [List.mem_singleton.mp hid]
  decide +kernel

/-- The overworld's first chunk, before anything is generated in it. -/
def emptyChunk : Chunk := Chunk.air ⟨0, 0⟩ (-4) 24 caveTable

/-- Rolls of a half start no cave. -/
theorem carve_exact_quiet : Exact (fun _ _ _ _ => ([] : List (Fin (2 ^ 53)))) overworld caveTable [packCave]
    emptyChunk ⟨0, 0⟩
    (carveChunk (fun _ _ _ _ => ([] : List (Fin (2 ^ 53)))) overworld caveTable [packCave] emptyChunk ⟨0, 0⟩) := by
  refine (carve_exact_iff _ overworld caveTable packCave_dry emptyChunk ⟨0, 0⟩).mpr fun carver hmem source _ h => ?_
  rw [List.mem_singleton.mp hmem, Succeeds, carverRandom, nextF64_nil] at h
  norm_num [packCave] at h

/-- A roll of zero starts one. -/
theorem systems_counted_twice : (∀ carver ∈ [packCave], Dry caveTable carver) ∧
    ¬Exact (fun _ _ _ _ => [(0 : Fin (2 ^ 53))]) overworld caveTable [packCave] emptyChunk ⟨0, 0⟩
      (carveChunk (fun _ _ _ _ => [(0 : Fin (2 ^ 53))]) overworld caveTable [packCave] emptyChunk ⟨0, 0⟩) := by
  refine ⟨packCave_dry, fun h => ?_⟩
  have htwice := systems_twice (fun _ _ _ _ => [(0 : Fin (2 ^ 53))]) overworld caveTable [packCave] emptyChunk ⟨0, 0⟩
  have hnone := (successes_eq_zero (fun _ _ _ _ => [(0 : Fin (2 ^ 53))]) overworld).mp
    (show successes _ _ CARVER_SOURCE_RADIUS_CHUNKS [packCave] ⟨0, 0⟩ = 0 by have := h.systems; omega)
  refine hnone packCave List.mem_cons_self ⟨0, 0⟩ (by decide) ?_
  rw [Succeeds, carverRandom, nextF64_cons]
  norm_num [packCave]

end Apoptosis.L2.Carver
