import Mathlib.Order.Bounds.Basic
import Mathlib.Tactic
/-!
# Levels that spread along paths

A cell at a level gives each neighbour what is left of it, and a neighbour that
is lower rises. Cells whose neighbours may still rise are pending; with none of
them left, each cell is at the greatest level a path brings from a source.

* `Flooding.raise`, `Flooding.settle`: the two steps of a worklist.
* `Flooding.isGreatest`: what it ends with.
-/
namespace Apoptosis.Core.Flood

variable {α L : Type*}

/-- A path between two cells, as the list of the cells that are entered. -/
inductive Path (next : α → α → Prop) : α → List α → α → Prop
  | nil (a : α) : Path next a [] a
  | cons {a b c : α} {path : List α} : next a b → Path next b path c → Path next a (b :: path) c

theorem Path.snoc {next : α → α → Prop} {a b c : α} {path : List α} (h : Path next a path b)
    (hnext : next b c) : Path next a (path ++ [c]) c := by
  induction h with
  | nil a => exact .cons hnext (.nil c)
  | cons hstep _ ih => exact .cons hstep (ih hnext)

/-- What is left of a level at the end of a path. -/
def arrive (give : L → α → α → L) : L → α → List α → L
  | level, _, [] => level
  | level, a, b :: path => arrive give (give level a b) b path

theorem arrive_snoc {next : α → α → Prop} {give : L → α → α → L} {a b : α} {path : List α}
    (h : Path next a path b) (level : L) (c : α) :
    arrive give level a (path ++ [c]) = give (arrive give level a path) b c := by
  induction h generalizing level with
  | nil a => rfl
  | cons _ _ ih => exact ih _

theorem arrive_le_start [Preorder L] {give : L → α → α → L} (hle : ∀ level a b, give level a b ≤ level)
    (level : L) (a : α) (path : List α) : arrive give level a path ≤ level := by
  induction path generalizing level a with
  | nil => exact le_rfl
  | cons b path ih => exact (ih _ _).trans (hle _ _ _)

/-- Where every cell entered costs the same from everywhere, the costs add up. -/
theorem arrive_sub (cost : α → Nat) (level : Nat) (a : α) (path : List α) :
    arrive (fun level _ b => level - cost b) level a path = level - (path.map cost).sum := by
  induction path generalizing level a with
  | nil => rfl
  | cons b path ih =>
    rw [arrive, ih, List.map_cons, List.sum_cons]
    omega

section
variable (cells : α → Prop) (next : α → α → Prop) (give : L → α → α → L) (source : α → L)

/-- A path from some source brings this level. -/
def Brings (c : α) (level : L) : Prop :=
  ∃ e path, cells e ∧ Path next e path c ∧ arrive give (source e) e path = level

/-- No cell is below its source or above what a path brings, and none that is not pending could
raise a neighbour. -/
structure Flooding [LinearOrder L] (light : α → L) (pending : α → Prop) : Prop where
  source_le : ∀ c, cells c → source c ≤ light c
  brought : ∀ c, cells c → Brings cells next give source c (light c)
  settled : ∀ a b, next a b → pending a ∨ give (light a) a b ≤ light b

variable {cells next give source}

theorem Brings.le [Preorder L] (hle : ∀ level a b, give level a b ≤ level) {top : L}
    (hsource : ∀ c, cells c → source c ≤ top) {c : α} {level : L}
    (h : Brings cells next give source c level) : level ≤ top := by
  obtain ⟨e, path, he, -, rfl⟩ := h
  exact (arrive_le_start hle _ _ _).trans (hsource e he)

theorem Brings.snoc {a b : α} {level : L} (h : Brings cells next give source a level)
    (hnext : next a b) : Brings cells next give source b (give level a b) := by
  obtain ⟨e, path, he, hpath, rfl⟩ := h
  exact ⟨e, path ++ [b], he, hpath.snoc hnext, arrive_snoc hpath _ _⟩

namespace Flooding
variable [LinearOrder L] {light light' : α → L} {pending pending' : α → Prop}

theorem congr (h : Flooding cells next give source light pending)
    (hcells : ∀ a b, next a b → cells a ∧ cells b) (hlight : ∀ c, cells c → light' c = light c) :
    Flooding cells next give source light' pending where
  source_le c hc := by
    rw [hlight c hc]
    exact h.source_le c hc
  brought c hc := by
    rw [hlight c hc]
    exact h.brought c hc
  settled a b hab := by
    rw [hlight a (hcells a b hab).1, hlight b (hcells a b hab).2]
    exact h.settled a b hab

theorem mono (h : Flooding cells next give source light pending)
    (hpending : ∀ c, pending c → pending' c) : Flooding cells next give source light pending' where
  source_le := h.source_le
  brought := h.brought
  settled a b hab := (h.settled a b hab).imp_left (hpending a)

/-- A neighbour rises and becomes pending. -/
theorem raise [DecidableEq α] (h : Flooding cells next give source light pending)
    {a b : α} (ha : cells a) (hnext : next a b)
    (hlt : light b < give (light a) a b) (hpending : ∀ c, pending c ∨ c = b → pending' c) :
    Flooding cells next give source (Function.update light b (give (light a) a b)) pending' where
  source_le c hc := by
    by_cases hcb : c = b
    · subst hcb
      rw [Function.update_self]
      exact (h.source_le c hc).trans hlt.le
    · rw [Function.update_of_ne hcb]
      exact h.source_le c hc
  brought c hc := by
    by_cases hcb : c = b
    · subst hcb
      rw [Function.update_self]
      exact (h.brought a ha).snoc hnext
    · rw [Function.update_of_ne hcb]
      exact h.brought c hc
  settled c d hcd := by
    by_cases hcb : c = b
    · exact .inl (hpending c (.inr hcb))
    rw [Function.update_of_ne hcb]
    rcases h.settled c d hcd with hc | hle
    · exact .inl (hpending c (.inl hc))
    by_cases hdb : d = b
    · subst hdb
      rw [Function.update_self]
      exact .inr (hle.trans hlt.le)
    · rw [Function.update_of_ne hdb]
      exact .inr hle

/-- A cell that can raise no neighbour need not be pending. -/
theorem settle (h : Flooding cells next give source light pending) {a : α}
    (ha : ∀ b, next a b → give (light a) a b ≤ light b)
    (hpending : ∀ c, pending c → c = a ∨ pending' c) :
    Flooding cells next give source light pending' where
  source_le := h.source_le
  brought := h.brought
  settled c d hcd := by
    rcases h.settled c d hcd with hc | hle
    · rcases hpending c hc with rfl | hc'
      · exact .inr (ha d hcd)
      · exact .inl hc'
    · exact .inr hle

theorem arrive_le (h : Flooding cells next give source light fun _ => False)
    (hmono : ∀ a b level, next a b → level ≤ light a → give level a b ≤ give (light a) a b) {a c : α} {path : List α}
    (hpath : Path next a path c) {level : L} (hlevel : level ≤ light a) :
    arrive give level a path ≤ light c := by
  induction hpath generalizing level with
  | nil a => exact hlevel
  | cons hnext _ ih =>
    refine ih ((hmono _ _ _ hnext hlevel).trans ?_)
    exact (h.settled _ _ hnext).resolve_left id

/-- Where no cell gives less for being brighter, its level is the greatest that a path brings. -/
theorem isGreatest (h : Flooding cells next give source light fun _ => False)
    (hmono : ∀ a b level, next a b → level ≤ light a → give level a b ≤ give (light a) a b)
    {c : α} (hc : cells c) :
    IsGreatest {level | Brings cells next give source c level} (light c) := by
  refine ⟨h.brought c hc, ?_⟩
  rintro _ ⟨e, path, he, hpath, rfl⟩
  exact h.arrive_le hmono hpath (h.source_le e he)

end Flooding
end
end Apoptosis.Core.Flood
