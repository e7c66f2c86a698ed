import Mathlib.Tactic
/-!
# Best-first search

A search over edges that cost something. It closes one cell after another, and
keeps for each cell it has seen the least cost found and the cell it was entered
from, which is closed. A queue orders the open cells by their cost and an
estimate of what is left, cut at a cap.

* `Frontier.offer_better` and its siblings: one edge of the cell that was closed last.
* `Frontier.front_le`, `Exact.close`: where the estimate is consistent, a cell is closed at its least cost.
* `Frontier.exhausted`: with nothing queued, what can be reached is closed.
-/
namespace Apoptosis.Core.BestFirst

variable {α : Type*}

/-- A walk, as the list of the cells that are entered. -/
inductive Walk (edge : α → α → Int → Prop) : α → List α → α → Int → Prop
  | nil (a : α) : Walk edge a [] a 0
  | cons {a b d : α} {path : List α} {c w : Int} :
      edge a b c → Walk edge b path d w → Walk edge a (b :: path) d (c + w)

namespace Walk
variable {edge : α → α → Int → Prop}

theorem append {a b d : α} {path path' : List α} {c w : Int} (h : Walk edge a path b c)
    (h' : Walk edge b path' d w) : Walk edge a (path ++ path') d (c + w) := by
  induction h with
  | nil a => simpa using h'
  | cons hedge _ ih =>
    rw [List.cons_append, add_assoc]
    exact .cons hedge (ih h')

theorem snoc {a b d : α} {path : List α} {c w : Int} (h : Walk edge a path b c) (hedge : edge b d w) :
    Walk edge a (path ++ [d]) d (c + w) := by
  have := h.append (.cons hedge (.nil d))
  rwa [add_zero] at this

theorem nonneg (hpos : ∀ a b c, edge a b c → 0 ≤ c) {a b : α} {path : List α} {c : Int}
    (h : Walk edge a path b c) : 0 ≤ c := by
  induction h with
  | nil a => exact le_rfl
  | cons hedge _ ih => exact add_nonneg (hpos _ _ _ hedge) ih

end Walk

/-- An estimate that no edge within reach lowers by more than it costs. -/
def Consistent (edge : α → α → Int → Prop) (start : α) (left : α → Int) : Prop :=
  ∀ path a b c w, Walk edge start path a w → edge a b c → left a ≤ c + left b

theorem Consistent.walk {edge : α → α → Int → Prop} {start : α} {left : α → Int}
    (hcons : Consistent edge start left) {path path' : List α} {a b : α} {c w : Int}
    (h : Walk edge start path a w) (h' : Walk edge a path' b c) : left a ≤ c + left b := by
  induction h' generalizing path w with
  | nil a => omega
  | cons hedge _ ih =>
    have := hcons _ _ _ _ _ h hedge
    have := ih (h.snoc hedge)
    omega

/-! ## The tree of parents -/

/-- What is known of the cells that were seen. -/
structure Table (α : Type*) where
  cameFrom : α → Option α
  bestCost : α → Option Int

variable [DecidableEq α]

namespace Table

def init (start : α) : Table α where
  cameFrom _ := none
  bestCost := Function.update (fun _ => none) start (some 0)

theorem init_bestCost_self (start : α) : (init start).bestCost start = some 0 := by
  simp [init]

theorem init_bestCost {start a : α} {g : Int} (h : (init start).bestCost a = some g) :
    a = start ∧ g = 0 := by
  by_cases ha : a = start
  · rw [ha, init_bestCost_self] at h
    cases h
    exact ⟨ha, rfl⟩
  · simp [init, Function.update_of_ne ha] at h

def enter (t : Table α) (current next : α) (cost : Int) : Table α where
  cameFrom := Function.update t.cameFrom next (some current)
  bestCost := Function.update t.bestCost next (some cost)

variable (t : Table α) (current next : α) (cost : Int)

@[simp] theorem enter_cameFrom_self : (t.enter current next cost).cameFrom next = some current :=
  Function.update_self ..

@[simp] theorem enter_bestCost_self : (t.enter current next cost).bestCost next = some cost :=
  Function.update_self ..

theorem enter_cameFrom_of_ne {a : α} (h : a ≠ next) :
    (t.enter current next cost).cameFrom a = t.cameFrom a := Function.update_of_ne h ..

theorem enter_bestCost_of_ne {a : α} (h : a ≠ next) :
    (t.enter current next cost).bestCost a = t.bestCost a := Function.update_of_ne h ..

end Table

/-- The cells were closed in the order of the list. -/
structure Tree (edge : α → α → Int → Prop) (start : α) (closed : List α) (t : Table α) : Prop where
  start_cost : t.bestCost start = some 0
  parent : ∀ a p, t.cameFrom a = some p → closed.idxOf p < closed.idxOf a ∧
    ∃ g c, t.bestCost p = some g ∧ edge p a c ∧ t.bestCost a = some (g + c)
  known : ∀ a g, t.bestCost a = some g → a = start ∨ ∃ p, t.cameFrom a = some p
  settled : ∀ a ∈ closed, ∃ g, t.bestCost a = some g

namespace Tree
variable {edge : α → α → Int → Prop} {start : α} {closed : List α} {t : Table α}

theorem init (edge : α → α → Int → Prop) (start : α) : Tree edge start [] (.init start) where
  start_cost := Table.init_bestCost_self start
  parent _ _ h := nomatch h
  known _ _ h := .inl (Table.init_bestCost h).1
  settled _ h := nomatch h

theorem parent_closed (h : Tree edge start closed t) {a p : α} (hp : t.cameFrom a = some p) :
    p ∈ closed :=
  List.idxOf_lt_length_iff.mp ((h.parent a p hp).1.trans_le List.idxOf_le_length)

/-- One more cell is closed. -/
theorem close (h : Tree edge start closed t) {current : α} {g : Int} (hg : t.bestCost current = some g) :
    Tree edge start (closed ++ [current]) t where
  start_cost := h.start_cost
  parent a p hp := by
    obtain ⟨hlt, hedge⟩ := h.parent a p hp
    refine ⟨?_, hedge⟩
    rw [List.idxOf_append_of_mem (h.parent_closed hp)]
    by_cases ha : a ∈ closed
    · rwa [List.idxOf_append_of_mem ha]
    · rw [List.idxOf_append_of_notMem ha]
      rw [List.idxOf_eq_length ha] at hlt
      omega
  known := h.known
  settled a ha := by
    rcases List.mem_append.mp ha with ha | ha
    · exact h.settled a ha
    · rw [List.mem_singleton.mp ha]
      exact ⟨g, hg⟩

/-- An open cell is entered from a closed one. -/
theorem enter (h : Tree edge start closed t) {current next : α} {g c : Int}
    (hclosed : current ∈ closed) (hopen : next ∉ closed) (hstart : start ∈ closed)
    (hg : t.bestCost current = some g) (hedge : edge current next c) :
    Tree edge start closed (t.enter current next (g + c)) := by
  have hne {a : α} (ha : a ∈ closed) : a ≠ next := fun heq => hopen (heq ▸ ha)
  have hcost {a : α} (ha : a ∈ closed) : (t.enter current next (g + c)).bestCost a = t.bestCost a :=
    t.enter_bestCost_of_ne current next _ (hne ha)
  refine ⟨(hcost hstart).trans h.start_cost, fun a p hp => ?_, fun a g' ha => ?_, fun a ha => ?_⟩
  · by_cases ha : a = next
    · subst ha
      rw [t.enter_cameFrom_self] at hp
      cases hp
      refine ⟨?_, g, c, (hcost hclosed).trans hg, hedge, t.enter_bestCost_self ..⟩
      rw [List.idxOf_eq_length hopen]
      exact List.idxOf_lt_length_iff.mpr hclosed
    · rw [t.enter_cameFrom_of_ne _ _ _ ha] at hp
      obtain ⟨hlt, g', c', hg', hedge', hcost'⟩ := h.parent a p hp
      exact ⟨hlt, g', c', (hcost (h.parent_closed hp)).trans hg', hedge',
        (t.enter_bestCost_of_ne _ _ _ ha).trans hcost'⟩
  · by_cases hn : a = next
    · exact .inr ⟨current, hn ▸ t.enter_cameFrom_self ..⟩
    · rw [t.enter_bestCost_of_ne _ _ _ hn] at ha
      rw [t.enter_cameFrom_of_ne _ _ _ hn]
      exact h.known a g' ha
  · rw [hcost ha]
    exact h.settled a ha

end Tree

/-! ## The queue -/

/-- The open cells are queued by what is known of them, and the closed ones have
offered their edges, but for those that are pending. -/
structure Frontier (edge : α → α → Int → Prop) (start : α) (left : α → Int) (cap : Int)
    (closed : List α) (t : Table α) (queued : α → Int → Prop) (pending : α → α → Int → Prop) : Prop where
  tree : Tree edge start closed t
  started : start ∈ closed ∨ closed = []
  opened : ∀ a g, t.bestCost a = some g → a ∉ closed → queued a (min cap (g + left a))
  valid : ∀ a f, queued a f → ∃ g, t.bestCost a = some g ∧ min cap (g + left a) ≤ f
  offered : ∀ a b c g, a ∈ closed → edge a b c → ¬pending a b c → b ∉ closed → t.bestCost a = some g →
    g + c < cap → ∃ g', t.bestCost b = some g' ∧ g' ≤ g + c

/-- Nothing is pending. -/
abbrev Rested (edge : α → α → Int → Prop) (start : α) (left : α → Int) (cap : Int) (closed : List α)
    (t : Table α) (queued : α → Int → Prop) : Prop :=
  Frontier edge start left cap closed t queued fun _ _ _ => False

namespace Frontier
variable {edge : α → α → Int → Prop} {start : α} {left : α → Int} {cap : Int} {closed : List α}
  {t : Table α} {queued queued' : α → Int → Prop} {pending pending' : α → α → Int → Prop}

theorem init (edge : α → α → Int → Prop) (start : α) {left : α → Int} {cap : Int}
    (hcap : left start ≤ cap) : Rested edge start left cap [] (.init start)
      fun a f => a = start ∧ f = left start where
  tree := .init edge start
  started := .inr rfl
  opened a g h _ := by
    obtain ⟨rfl, rfl⟩ := Table.init_bestCost h
    exact ⟨rfl, by rw [zero_add, min_eq_right hcap]⟩
  valid a f h := by
    obtain ⟨rfl, rfl⟩ := h
    exact ⟨0, Table.init_bestCost_self a, by rw [zero_add]; exact min_le_right ..⟩
  offered _ _ _ _ h := nomatch h

/-- An entry of a closed cell is passed over. -/
theorem skip (h : Frontier edge start left cap closed t queued pending)
    (hkeep : ∀ a f, queued a f → a ∈ closed ∨ queued' a f) (hsub : ∀ a f, queued' a f → queued a f) :
    Frontier edge start left cap closed t queued' pending :=
  { h with
    opened := fun a g ha hopen => (hkeep a _ (h.opened a g ha hopen)).resolve_left hopen
    valid := fun a f hf => h.valid a f (hsub a f hf) }

/-- A queued cell is closed, and its edges become pending. -/
theorem close (h : Rested edge start left cap closed t queued) {current : α} {f : Int}
    (hpop : queued current f) (hopen : current ∉ closed)
    (hkeep : ∀ a f, queued a f → a = current ∨ queued' a f) (hsub : ∀ a f, queued' a f → queued a f) :
    Frontier edge start left cap (closed ++ [current]) t queued' fun a _ _ => a = current := by
  obtain ⟨g, hg, -⟩ := h.valid current f hpop
  have hmem {a : α} (ha : a ∉ closed ++ [current]) : a ∉ closed ∧ a ≠ current := by
    simpa [not_or] using ha
  refine ⟨h.tree.close hg, .inl ?_, fun a g' ha hout => ?_, fun a f hf => h.valid a f (hsub a f hf),
    fun a b c g' ha hedge hpend hb hcost hcap => ?_⟩
  · rcases h.started with hs | rfl
    · exact List.mem_append_left _ hs
    · rcases h.tree.known current g hg with heq | ⟨p, hp⟩
      · exact List.mem_append_right _ (heq ▸ List.mem_singleton_self _)
      · exact nomatch h.tree.parent_closed hp
  · exact (hkeep a _ (h.opened a g' ha (hmem hout).1)).resolve_left (hmem hout).2
  · have ha : a ∈ closed := by simpa [hpend] using ha
    exact h.offered a b c g' ha hedge not_false (hmem hb).1 hcost hcap

/-- Only edges can be pending. -/
theorem repend (h : Frontier edge start left cap closed t queued pending)
    (himp : ∀ a b c, edge a b c → pending a b c → pending' a b c) :
    Frontier edge start left cap closed t queued pending' :=
  { h with
    offered := fun a b c g ha hedge hnot => h.offered a b c g ha hedge fun hp => hnot (himp a b c hedge hp) }

/-- A closed cell has nothing to offer to another. -/
theorem offer_closed (h : Frontier edge start left cap closed t queued pending) {current next : α}
    {c : Int} (hnext : next ∈ closed)
    (hpend : ∀ a b d, pending a b d → pending' a b d ∨ (a = current ∧ b = next ∧ d = c)) :
    Frontier edge start left cap closed t queued pending' :=
  { h with
    offered := fun a b d g ha hedge hnot hb hg hcap =>
      h.offered a b d g ha hedge (fun hp => (hpend a b d hp).elim hnot fun heq => hb (heq.2.1 ▸ hnext))
        hb hg hcap }

/-- The offer is no better than what is known. -/
theorem offer_worse (h : Frontier edge start left cap closed t queued pending) {current next : α}
    {g c : Int} (hg : t.bestCost current = some g) (hworse : ¬g + c < (t.bestCost next).getD cap)
    (hpend : ∀ a b d, pending a b d → pending' a b d ∨ (a = current ∧ b = next ∧ d = c)) :
    Frontier edge start left cap closed t queued pending' :=
  { h with
    offered := fun a b d g' ha hedge hnot hb hg' hcap => by
      by_cases hp : pending a b d
      · obtain ⟨rfl, rfl, rfl⟩ := (hpend a b d hp).resolve_left hnot
        rw [hg] at hg'
        cases hg'
        cases hn : t.bestCost b with
        | none => rw [hn] at hworse; exact absurd hcap hworse
        | some g'' => rw [hn] at hworse; exact ⟨g'', rfl, not_lt.mp hworse⟩
      · exact h.offered a b d g' ha hedge hp hb hg' hcap }

/-- The offer is better: the cell is entered and queued. -/
theorem offer_better (h : Frontier edge start left cap closed t queued pending) {current next : α}
    {g c : Int} (hclosed : current ∈ closed) (hnext : next ∉ closed) (hstart : start ∈ closed)
    (hg : t.bestCost current = some g) (hedge : edge current next c)
    (hbetter : g + c < (t.bestCost next).getD cap)
    (hpend : ∀ a b d, pending a b d → pending' a b d ∨ (a = current ∧ b = next ∧ d = c))
    (hqueued : ∀ a f, queued' a f ↔ queued a f ∨ (a = next ∧ f = min cap (g + c + left next))) :
    Frontier edge start left cap closed (t.enter current next (g + c)) queued' pending' := by
  have hne {a : α} (ha : a ∈ closed) : a ≠ next := fun heq => hnext (heq ▸ ha)
  refine ⟨h.tree.enter hclosed hnext hstart hg hedge, h.started, fun a g' ha hout => ?_,
    fun a f hf => ?_, fun a b d g' ha hedge' hnot hb hg' hcap => ?_⟩
  · rw [hqueued]
    by_cases hn : a = next
    · subst hn
      rw [t.enter_bestCost_self] at ha
      cases ha
      exact .inr ⟨rfl, rfl⟩
    · rw [t.enter_bestCost_of_ne _ _ _ hn] at ha
      exact .inl (h.opened a g' ha hout)
  · by_cases hn : a = next
    · subst hn
      refine ⟨g + c, t.enter_bestCost_self .., ?_⟩
      rcases (hqueued a f).mp hf with hf | ⟨-, rfl⟩
      · obtain ⟨g', hg', hle⟩ := h.valid a f hf
        rw [hg', Option.getD_some] at hbetter
        exact (min_le_min_left cap (by omega)).trans hle
      · exact le_rfl
    · rw [t.enter_bestCost_of_ne _ _ _ hn]
      exact h.valid a f (((hqueued a f).mp hf).resolve_right fun heq => hn heq.1)
  · rw [t.enter_bestCost_of_ne _ _ _ (hne ha)] at hg'
    by_cases hn : b = next
    · subst hn
      refine ⟨g + c, t.enter_bestCost_self .., ?_⟩
      by_cases hp : pending a b d
      · obtain ⟨rfl, -, rfl⟩ := (hpend a b d hp).resolve_left hnot
        rw [hg] at hg'
        cases hg'
        exact le_rfl
      · obtain ⟨g'', hg'', hle⟩ := h.offered a b d g' ha hedge' hp hb hg' hcap
        rw [hg'', Option.getD_some] at hbetter
        omega
    · rw [t.enter_bestCost_of_ne _ _ _ hn]
      refine h.offered a b d g' ha hedge' (fun hp => ?_) hb hg' hcap
      exact (hpend a b d hp).elim hnot fun heq => hn heq.2.1

end Frontier

/-! ## The least cost -/

/-- The closed cells have their least cost, as far as the cap does not cut. -/
def Exact (edge : α → α → Int → Prop) (start : α) (left : α → Int) (cap : Int) (closed : List α)
    (t : Table α) : Prop :=
  ∀ a ∈ closed, ∀ path c g, Walk edge start path a c → c + left a < cap → t.bestCost a = some g → g ≤ c

section
variable {edge : α → α → Int → Prop} {start : α} {left : α → Int} {cap : Int} {closed : List α}
  {t : Table α} {queued : α → Int → Prop}

theorem Exact.enter (h : Exact edge start left cap closed t) {current next : α} {cost : Int}
    (hnext : next ∉ closed) : Exact edge start left cap closed (t.enter current next cost) := by
  intro a ha path c g hwalk hcap hg
  have hne : a ≠ next := fun heq => hnext (heq ▸ ha)
  rw [t.enter_bestCost_of_ne _ _ _ hne] at hg
  exact h a ha path c g hwalk hcap hg

variable (hleft : ∀ a, 0 ≤ left a) (hpos : ∀ a b c, edge a b c → 0 ≤ c)
  (hcons : Consistent edge start left)
include hleft hpos hcons

/-- A walk that goes on from a closed cell to an open one passes one that is queued. -/
theorem Frontier.first_open_from (h : Rested edge start left cap closed t queued)
    (hexact : Exact edge start left cap closed t) {path path' : List α} {a d : α} {w c : Int}
    (hwalk : Walk edge start path a w) (hon : Walk edge a path' d c) (ha : a ∈ closed) (hd : d ∉ closed)
    (hcap : w + c + left d < cap) :
    ∃ b g, b ∉ closed ∧ queued b (min cap (g + left b)) ∧ g + left b ≤ w + c + left d := by
  induction hon generalizing path w with
  | nil a => exact absurd ha hd
  | @cons a b d path'' c₁ c₂ hedge hon ih =>
    have hwalk' := hwalk.snoc hedge
    have hest := hcons.walk hwalk' hon
    have hest' := hcons _ _ _ _ _ hwalk hedge
    have hcost := hpos _ _ _ hedge
    by_cases hb : b ∈ closed
    · obtain ⟨b', g, hout, hq, hle⟩ := ih hwalk' hb hd (by omega)
      exact ⟨b', g, hout, hq, by omega⟩
    · obtain ⟨ga, hga⟩ := h.tree.settled a ha
      have hle := hexact a ha path w ga hwalk (by omega) hga
      have hb0 := hleft b
      obtain ⟨gb, hgb, hle'⟩ := h.offered a b c₁ ga ha hedge not_false hb hga (by omega)
      exact ⟨b, gb, hb, h.opened b gb hgb hb, by omega⟩

theorem Frontier.first_open (h : Rested edge start left cap closed t queued)
    (hexact : Exact edge start left cap closed t) {path : List α} {a : α} {c : Int}
    (hwalk : Walk edge start path a c) (ha : a ∉ closed) (hcap : c + left a < cap) :
    ∃ b g, b ∉ closed ∧ queued b (min cap (g + left b)) ∧ g + left b ≤ c + left a := by
  by_cases hs : start ∈ closed
  · obtain ⟨b, g, hb, hq, hle⟩ :=
      h.first_open_from hleft hpos hcons hexact (.nil start) hwalk hs ha (by omega)
    exact ⟨b, g, hb, hq, by omega⟩
  · have hest := hcons.walk (.nil start) hwalk
    exact ⟨start, 0, hs, h.opened start 0 h.tree.start_cost hs, by omega⟩

/-- An open cell at the front of the queue has its least cost. -/
theorem Frontier.front_le (h : Rested edge start left cap closed t queued)
    (hexact : Exact edge start left cap closed t) {path : List α} {a : α} {c f g : Int}
    (hpop : queued a f) (hfront : ∀ b f', queued b f' → f ≤ f') (hopen : a ∉ closed)
    (hwalk : Walk edge start path a c) (hcap : c + left a < cap) (hg : t.bestCost a = some g) :
    g ≤ c := by
  obtain ⟨b, gb, -, hq, hle⟩ := h.first_open hleft hpos hcons hexact hwalk hopen hcap
  obtain ⟨g', hg', hvalid⟩ := h.valid a f hpop
  rw [hg] at hg'
  cases hg'
  have := hfront b _ hq
  omega

theorem Exact.close (hexact : Exact edge start left cap closed t)
    (h : Rested edge start left cap closed t queued) {current : α} {f : Int} (hpop : queued current f)
    (hfront : ∀ b f', queued b f' → f ≤ f') (hopen : current ∉ closed) :
    Exact edge start left cap (closed ++ [current]) t := by
  intro a ha path c g hwalk hcap hg
  rcases List.mem_append.mp ha with ha | ha
  · exact hexact a ha path c g hwalk hcap hg
  · rw [List.mem_singleton.mp ha] at hwalk hcap hg
    exact h.front_le hleft hpos hcons hexact hpop hfront hopen hwalk hcap hg

/-- With nothing queued, what can be reached is closed. -/
theorem Frontier.exhausted (h : Rested edge start left cap closed t queued)
    (hexact : Exact edge start left cap closed t) (hempty : ∀ a f, ¬queued a f) {path : List α} {a : α}
    {c : Int} (hwalk : Walk edge start path a c) (hcap : c + left a < cap) : a ∈ closed := by
  by_contra hopen
  obtain ⟨b, g, -, hq, -⟩ := h.first_open hleft hpos hcons hexact hwalk hopen hcap
  exact hempty b _ hq

end

end Apoptosis.Core.BestFirst
