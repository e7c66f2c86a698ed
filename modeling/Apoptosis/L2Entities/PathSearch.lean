import Apoptosis.L2Entities.Pathfind
/-!
# The search for a path

The state of the search keeps the invariant of best-first search over the legal
moves, and each turn brings its end nearer.

* `turn_sound`, `turn_measure`, `turn_expanded`: what a turn keeps, and what it lowers.
* `run_ends`: a run of the search ends, in a state that still keeps the invariant.
* `find_path_walks`: the path found is a walk of legal moves, within the limits.
-/
namespace Apoptosis.L2.Entities.Pathfind

open Core BestFirst

variable {view : BlockView} {start goal : Pos} {limits : SearchLimits} {clearance : UInt8}

/-! ## The invariant -/

def Search.Queued (search : Search) (cell : Pos) (f : Int) : Prop := ⟨f, cell⟩ ∈ search.frontier

/-- The invariant of the search, with the moves that are still to be offered. -/
abbrev Search.Offering (view : BlockView) (clearance : UInt8) (start goal : Pos) (search : Search)
    (pending : Pos → Pos → Int → Prop) : Prop :=
  Frontier (Moves view clearance) start (manhattan · goal) I64_MAX search.closed search.table
    search.Queued pending

abbrev Search.Sound (view : BlockView) (clearance : UInt8) (start goal : Pos) (search : Search) : Prop :=
  search.Offering view clearance start goal fun _ _ _ => False

theorem manhattan_le (a b : Pos) : manhattan a b ≤ I64_MAX := by
  have := a.x.property; have := a.y.property; have := a.z.property
  have := b.x.property; have := b.y.property; have := b.z.property
  unfold manhattan I64_MAX
  omega

theorem init_sound (stats : SearchStats) : (Search.init start goal stats).Sound view clearance start goal := by
  have h := @Frontier.init Pos _ (Moves view clearance) start (manhattan · goal) I64_MAX (manhattan_le start goal)
  refine h.skip (fun a f hq => .inr ?_) (fun a f hq => ?_)
  · obtain ⟨rfl, rfl⟩ := hq
    exact List.mem_singleton.mpr (by rw [Node.new, zero_add, min_eq_right (manhattan_le ..)])
  · have := List.mem_singleton.mp hq
    rw [Node.new, zero_add, min_eq_right (manhattan_le ..), Node.mk.injEq] at this
    exact ⟨this.2, this.1⟩

/-! ## The offers of a cell -/

section
variable {current : Pos} {costHere : Int} {search : Search} {neighbour : Pos × Int}

@[simp] theorem offer_closed : (offer goal current costHere search neighbour).closed = search.closed := by
  unfold offer
  split
  · rfl
  · split <;> rfl

@[simp] theorem offer_expanded :
    (offer goal current costHere search neighbour).stats.expanded = search.stats.expanded := by
  unfold offer
  split
  · rfl
  · split <;> rfl

theorem offer_length :
    (offer goal current costHere search neighbour).frontier.length ≤ search.frontier.length + 1 := by
  unfold offer
  split
  · exact Nat.le_succ _
  · split
    · exact (List.orderedInsert_length ..).le
    · exact Nat.le_succ _

theorem offer_bestCost_of_closed {a : Pos} (ha : a ∈ search.closed) :
    (offer goal current costHere search neighbour).table.bestCost a = search.table.bestCost a := by
  unfold offer
  split
  · rfl
  · next hopen =>
    have hne : a ≠ neighbour.1 := fun heq => hopen (heq ▸ ha)
    split
    · exact Table.enter_bestCost_of_ne _ _ _ _ hne
    · rfl

/-- One move is offered. -/
theorem offer_sound {pending pending' : Pos → Pos → Int → Prop}
    (h : search.Offering view clearance start goal pending) (hclosed : current ∈ search.closed)
    (hstart : start ∈ search.closed) (hcost : search.table.bestCost current = some costHere)
    (hmove : Moves view clearance current neighbour.1 neighbour.2)
    (hpend : ∀ a b d, pending a b d →
      pending' a b d ∨ (a = current ∧ b = neighbour.1 ∧ d = neighbour.2)) :
    (offer goal current costHere search neighbour).Offering view clearance start goal pending' := by
  unfold offer
  split
  · next hnext => exact h.offer_closed hnext hpend
  · next hnext =>
    split
    · next hbetter =>
      refine h.offer_better hclosed hnext hstart hcost hmove hbetter hpend fun a f => ?_
      rw [Search.Queued, push, List.mem_orderedInsert, Node.new, Node.mk.injEq]
      exact ⟨fun hq => hq.elim (fun heq => .inr ⟨heq.2, heq.1⟩) .inl,
        fun hq => hq.elim .inr fun heq => .inl ⟨heq.2, heq.1⟩⟩
    · next hworse => exact h.offer_worse hcost hworse hpend

variable (moves : List (Pos × Int))

theorem offers_expanded :
    (moves.foldl (offer goal current costHere) search).stats.expanded = search.stats.expanded := by
  induction moves generalizing search with
  | nil => rfl
  | cons move moves ih => rw [List.foldl_cons, ih, offer_expanded]

theorem offers_length :
    (moves.foldl (offer goal current costHere) search).frontier.length ≤
      search.frontier.length + moves.length := by
  induction moves generalizing search with
  | nil => exact le_rfl
  | cons move moves ih =>
    have := @ih (offer goal current costHere search move)
    have := @offer_length goal current costHere search move
    rw [List.foldl_cons, List.length_cons]
    omega

/-- The moves are offered one after another, until none is pending. -/
theorem offers_sound
    (h : search.Offering view clearance start goal fun a b d => a = current ∧ (b, d) ∈ moves)
    (hclosed : current ∈ search.closed) (hstart : start ∈ search.closed)
    (hcost : search.table.bestCost current = some costHere)
    (hmoves : ∀ move ∈ moves, Moves view clearance current move.1 move.2) :
    (moves.foldl (offer goal current costHere) search).Sound view clearance start goal := by
  induction moves generalizing search with
  | nil => exact h.repend fun a b c _ hp => absurd hp.2 List.not_mem_nil
  | cons move moves ih =>
    refine ih (offer_sound h hclosed hstart hcost (hmoves move (List.mem_cons_self ..)) ?_)
      (by rwa [offer_closed]) (by rwa [offer_closed]) ((offer_bestCost_of_closed hclosed).trans hcost)
      fun m hm => hmoves m (List.mem_cons_of_mem _ hm)
    rintro a b d ⟨ha, hmem⟩
    rcases List.mem_cons.mp hmem with heq | hmem
    · exact .inr ⟨ha, congrArg Prod.fst heq, congrArg Prod.snd heq⟩
    · exact .inl ⟨ha, hmem⟩

end

/-! ## A turn of the search -/

/-- What the turns can do: pass an entry over, or expand a cell. -/
theorem turn_go {search search' : Search} (h : turn view start goal limits search = .go search') :
    ∃ node frontier, search.frontier = node :: frontier ∧ node.cell ≠ goal ∧
      ((node.cell ∈ search.closed ∧ search' = { search with frontier }) ∨
      (node.cell ∉ search.closed ∧ search.stats.expanded < limits.maxNodes ∧
        ∃ moves stats, neighbours view node.cell limits.clearance DIRECTIONS
            { search.stats with expanded := search.stats.expanded + 1 } = (moves, stats) ∧
          search' = moves.foldl (offer goal node.cell ((search.table.bestCost node.cell).getD 0))
            { frontier, table := search.table, closed := search.closed ++ [node.cell], stats })) := by
  unfold turn at h
  split at h
  · exact nomatch h
  · next node frontier heq =>
    refine ⟨node, frontier, heq, ?_⟩
    split at h
    · exact nomatch h
    · next hgoal =>
      refine ⟨hgoal, ?_⟩
      split at h
      · next hclosed =>
        cases h
        exact .inl ⟨hclosed, rfl⟩
      · next hopen =>
        split at h
        · exact nomatch h
        · next hbudget =>
          cases h
          exact .inr ⟨hopen, not_le.mp hbudget, _, _, rfl, rfl⟩

theorem turn_sound (hpos : 1 ≤ limits.clearance.toNat) {search search' : Search}
    (h : turn view start goal limits search = .go search')
    (hsound : search.Sound view limits.clearance start goal) :
    search'.Sound view limits.clearance start goal := by
  obtain ⟨node, frontier, hfront, -, ⟨hclosed, rfl⟩ | ⟨hopen, -, moves, stats, hmoves, rfl⟩⟩ := turn_go h
  · refine hsound.skip (fun a f hq => ?_) fun a f hq => ?_
    · rw [Search.Queued, hfront] at hq
      rcases List.mem_cons.mp hq with rfl | hq
      · exact .inl hclosed
      · exact .inr hq
    · rw [Search.Queued, hfront]
      exact List.mem_cons_of_mem _ hq
  · have hpop : search.Queued node.cell node.f := by
      rw [Search.Queued, hfront]
      exact List.mem_cons_self ..
    obtain ⟨g, hg, -⟩ := hsound.valid _ _ hpop
    have hclose : Frontier (Moves view limits.clearance) start (manhattan · goal) I64_MAX
        (search.closed ++ [node.cell]) search.table (fun a f => ⟨f, a⟩ ∈ frontier)
        fun a _ _ => a = node.cell := by
      refine hsound.close hpop hopen (fun a f hq => ?_) fun a f hq => ?_
      · rw [Search.Queued, hfront] at hq
        rcases List.mem_cons.mp hq with rfl | hq
        · exact .inl rfl
        · exact .inr hq
      · rw [Search.Queued, hfront]
        exact List.mem_cons_of_mem _ hq
    have hstart := hclose.started.resolve_right (by simp)
    have hiff (b : Pos) (d : Int) : (b, d) ∈ moves ↔ Moves view limits.clearance node.cell b d := by
      rw [← mem_neighbours_iff hpos { search.stats with expanded := search.stats.expanded + 1 }, hmoves]
    rw [hg, Option.getD_some]
    refine offers_sound moves (hclose.repend ?_) (List.mem_append_right _ (List.mem_singleton_self _)) hstart hg
      fun move hmem => (hiff move.1 move.2).mp hmem
    rintro a b d hedge rfl
    exact ⟨rfl, (hiff b d).mpr hedge⟩

/-- What is left of the budget, and of the queue. -/
def Search.measure (limits : SearchLimits) (search : Search) : Nat :=
  5 * (limits.maxNodes - search.stats.expanded) + search.frontier.length

theorem turn_measure {search search' : Search} (h : turn view start goal limits search = .go search') :
    search'.measure limits < search.measure limits := by
  obtain ⟨node, frontier, hfront, -, ⟨-, rfl⟩ | ⟨-, hbudget, moves, stats, hmoves, rfl⟩⟩ := turn_go h
  · unfold Search.measure
    rw [hfront, List.length_cons]
    dsimp only
    omega
  · have hexp : stats.expanded = search.stats.expanded + 1 := by
      rw [show stats = _ from (congrArg Prod.snd hmoves).symm, neighbours_expanded]
    have hlen : moves.length ≤ 4 := by
      rw [show moves = _ from (congrArg Prod.fst hmoves).symm]
      exact neighbours_length ..
    have := @offers_length goal node.cell ((search.table.bestCost node.cell).getD 0)
      { frontier, table := search.table, closed := search.closed ++ [node.cell], stats } moves
    unfold Search.measure
    rw [offers_expanded, hfront, List.length_cons, hexp]
    dsimp only at this
    omega

theorem turn_expanded {search search' : Search} (h : turn view start goal limits search = .go search')
    (hle : search.stats.expanded ≤ limits.maxNodes) : search'.stats.expanded ≤ limits.maxNodes := by
  obtain ⟨node, frontier, -, -, ⟨-, rfl⟩ | ⟨-, hbudget, moves, stats, hmoves, rfl⟩⟩ := turn_go h
  · exact hle
  · rw [offers_expanded, show stats = _ from (congrArg Prod.snd hmoves).symm, neighbours_expanded]
    exact hbudget

/-! ## The run -/

theorem run_ends {Inv : Search → Prop}
    (hstep : ∀ search search', turn view start goal limits search = .go search' → Inv search → Inv search')
    {fuel : Nat} {search : Search} (hfuel : search.measure limits < fuel) (hinv : Inv search) :
    ∃ last path stats, Inv last ∧ turn view start goal limits last = .done path stats ∧
      run view start goal limits fuel search = path.map (·, stats) := by
  induction fuel generalizing search with
  | zero => omega
  | succ fuel ih =>
    cases hturn : turn view start goal limits search with
    | done path stats =>
      refine ⟨search, path, stats, hinv, hturn, ?_⟩
      rw [run, hturn]
    | go search' =>
      have hlt := turn_measure hturn
      rw [run, hturn]
      exact ih (by omega) (hstep _ _ hturn hinv)

theorem init_measure (stats : SearchStats) :
    (Search.init start goal stats).measure limits < 5 * limits.maxNodes + 2 := by
  unfold Search.measure Search.init
  rw [List.length_singleton]
  omega

/-- The parents of a cell lead back to the start, by the moves they were entered with. -/
theorem reconstruct_walk {closed : List Pos} {table : Table Pos}
    (h : Tree (Moves view clearance) start closed table) {fuel : Nat} {current : Pos} {g w : Int}
    {path : List Pos} (hfuel : closed.idxOf current < fuel) (hg : table.bestCost current = some g)
    (hpath : Walk (Moves view clearance) current path goal w) :
    ∃ path', reconstruct table.cameFrom start fuel current path = some (some path') ∧
      Walk (Moves view clearance) start path' goal (g + w) := by
  induction fuel generalizing current g w path with
  | zero => omega
  | succ fuel ih =>
    rw [reconstruct]
    by_cases heq : current = start
    · rw [if_pos heq]
      rw [heq, h.start_cost] at hg
      cases hg
      rw [heq] at hpath
      exact ⟨path, rfl, by rwa [zero_add]⟩
    · rw [if_neg heq]
      obtain ⟨parent, hparent⟩ := (h.known current g hg).resolve_left heq
      obtain ⟨hlt, gp, c, hgp, hmove, hcur⟩ := h.parent current parent hparent
      rw [hcur] at hg
      cases hg
      rw [hparent, add_assoc]
      exact ih (by omega) hgp (.cons hmove hpath)

/-- How a run of turns can end. -/
theorem turn_done {search : Search} (hsound : search.Sound view limits.clearance start goal)
    {path : Option (Option (List Pos))} {stats : SearchStats}
    (h : turn view start goal limits search = .done path stats) :
    stats = search.stats ∧
      ((path = some none ∧ (search.frontier = [] ∨ limits.maxNodes ≤ stats.expanded)) ∨
      ∃ f frontier g found, search.frontier = ⟨f, goal⟩ :: frontier ∧ search.table.bestCost goal = some g ∧
        path = some (some found) ∧ Walk (Moves view limits.clearance) start found goal g) := by
  unfold turn at h
  split at h
  · next heq =>
    cases h
    exact ⟨rfl, .inl ⟨rfl, .inl heq⟩⟩
  · next node frontier heq =>
    split at h
    · next hgoal =>
      cases h
      obtain ⟨f, cell⟩ := node
      obtain rfl : cell = goal := hgoal
      obtain ⟨g, hg, -⟩ := hsound.valid cell f (by rw [Search.Queued, heq]; exact List.mem_cons_self ..)
      obtain ⟨found, hfound, hwalk⟩ := reconstruct_walk hsound.tree
        (Nat.lt_succ_of_le List.idxOf_le_length) hg (.nil cell)
      rw [add_zero] at hwalk
      exact ⟨rfl, .inr ⟨f, frontier, g, found, heq, hg, hfound, hwalk⟩⟩
    · split at h
      · exact nomatch h
      · split at h
        · next hbudget =>
          cases h
          exact ⟨rfl, .inl ⟨rfl, .inr hbudget⟩⟩
        · exact nomatch h

theorem clamped_clearance_pos (limits : SearchLimits) : 1 ≤ limits.clamped.clearance.toNat := by
  show 1 ≤ (clampClearance limits.clearance).toNat
  unfold clampClearance
  split
  · decide
  · next h =>
    split
    · decide
    · exact not_lt.mp h

theorem clamped_maxPathLen (limits : SearchLimits) :
    limits.clamped.maxPathLen.val = max 1 limits.maxPathLen.val := by
  unfold SearchLimits.clamped
  dsimp only
  split
  · rw [I32.one_val]
    omega
  · omega

/-- The search ends within its budget, with nothing or with a path that can be walked. -/
theorem astar_walks (hpos : 1 ≤ limits.clearance.toNat) :
    ∃ path stats, astar view start goal limits .zero = some (path, stats) ∧
      stats.expanded ≤ limits.maxNodes ∧
      ∀ found, path = some found → ∃ cost, Walk (Moves view limits.clearance) start found goal cost := by
  obtain ⟨last, path, stats, ⟨hsound, hle⟩, hdone, hrun⟩ := @run_ends view start goal limits
    (fun search => search.Sound view limits.clearance start goal ∧ search.stats.expanded ≤ limits.maxNodes)
    (fun _ _ hturn hinv => ⟨turn_sound hpos hturn hinv.1, turn_expanded hturn hinv.2⟩) _ _
    (init_measure .zero) ⟨init_sound .zero, Nat.zero_le _⟩
  obtain ⟨rfl, ⟨rfl, -⟩ | ⟨f, frontier, g, found, -, -, rfl, hwalk⟩⟩ := turn_done hsound hdone
  · exact ⟨none, _, hrun, hle, fun _ h => nomatch h⟩
  · refine ⟨some found, _, hrun, hle, fun found' h => ?_⟩
    cases h
    exact ⟨g, hwalk⟩

/-- Every search ends within its budget, and a path it returns can be walked. -/
theorem find_path_walks (view : BlockView) (start goal : Pos) (limits : SearchLimits) :
    ∃ path stats, findPathWithStats view start goal limits = some (path, stats) ∧
      stats.expanded ≤ max 1 limits.maxNodes ∧
      ∀ found, path = some found → (found.length : Int) ≤ max 1 limits.maxPathLen.val ∧
        ∃ cost, Walk (Moves view limits.clamped.clearance) start found goal cost := by
  unfold findPathWithStats
  split
  · next heq =>
    refine ⟨_, _, rfl, Nat.zero_le _, fun found h => ?_⟩
    cases h
    exact ⟨by simp, 0, heq ▸ .nil start⟩
  split
  · exact ⟨_, _, rfl, Nat.zero_le _, fun _ h => nomatch h⟩
  split
  · exact ⟨_, _, rfl, Nat.zero_le _, fun _ h => nomatch h⟩
  split
  · exact ⟨_, _, rfl, Nat.zero_le _, fun _ h => nomatch h⟩
  obtain ⟨path, stats, hastar, hle, hwalk⟩ :=
    @astar_walks view start goal limits.clamped (clamped_clearance_pos limits)
  have hbudget : stats.expanded ≤ max 1 limits.maxNodes := hle.trans (max_comm ..).le
  rw [hastar]
  cases path with
  | none => exact ⟨_, _, rfl, hbudget, fun _ h => nomatch h⟩
  | some path =>
    by_cases hlen : path.length > limits.clamped.maxPathLen.val.toNat
    · exact ⟨none, stats, by simp [hlen], hbudget, fun _ h => nomatch h⟩
    · refine ⟨some path, stats, by simp [hlen], hbudget, fun found h => ?_⟩
      cases h
      have := clamped_maxPathLen limits
      exact ⟨by omega, hwalk path rfl⟩

end Apoptosis.L2.Entities.Pathfind
