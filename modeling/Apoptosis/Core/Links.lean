import Mathlib.Data.List.Chain
import Mathlib.Logic.Relation
import Mathlib.Tactic
/-!
# Links

Each thing links to one other thing at most. Who follows the links comes to an
end, or goes round a cycle for ever.

* `OnCycle.back`: what a cycle links to is on the cycle.
* `ClosedPath.ext`: a cycle has one path round it from each of its places.
* `entry_of_path`: a path that comes back to itself enters its cycle where it
  does so.
* `no_entry_of_path`: a path that ends, or runs into a closed set, meets no new
  cycle.
-/
namespace Apoptosis.Core

open Relation

variable {α : Type*} (next : α → Option α)

def Link (a b : α) : Prop := next a = some b

def OnCycle (a : α) : Prop := TransGen (Link next) a a

/-- The links lead from the start to the cycle that holds `c`, and meet it at `c`. -/
def Entry (s c : α) : Prop :=
  OnCycle next c ∧ ReflTransGen (fun a b => Link next a b ∧ ¬OnCycle next a) s c

/-- Once round a cycle, from one of its places back to it. -/
def ClosedPath (p : List α) : Prop :=
  ∃ c mid, p = c :: mid ++ [c] ∧ (c :: mid).Nodup ∧ p.IsChain (Link next)

variable {next} {a b c s : α}

theorem Link.eq (h : Link next a b) (h' : Link next a c) : b = c :=
  Option.some.inj (h.symm.trans h')

theorem Entry.reaches (h : Entry next s c) : ReflTransGen (Link next) s c :=
  h.2.lift id fun _ _ hstep => hstep.1

theorem OnCycle.step (h : OnCycle next a) (hstep : Link next a b) :
    OnCycle next b ∧ ReflTransGen (Link next) b a := by
  obtain ⟨c, hac, hca⟩ := TransGen.head'_iff.mp h
  obtain rfl := hstep.eq hac
  exact ⟨.tail' hca hstep, hca⟩

/-- What a cycle leads to leads back. -/
theorem OnCycle.back (h : OnCycle next a) (hreach : ReflTransGen (Link next) a b) :
    OnCycle next b ∧ ReflTransGen (Link next) b a := by
  induction hreach with
  | refl => exact ⟨h, .refl⟩
  | tail _ hstep ih =>
    obtain ⟨hcycle, hback⟩ := ih.1.step hstep
    exact ⟨hcycle, hback.trans ih.2⟩

/-- From a start, a cycle is entered at one place. -/
theorem Entry.eq {c' : α} (h : Entry next s c) (h' : Entry next s c') : c = c' := by
  obtain ⟨hc, hreach⟩ := h
  obtain ⟨hc', hreach'⟩ := h'
  induction hreach using ReflTransGen.head_induction_on with
  | refl =>
    rcases ReflTransGen.cases_head hreach' with heq | ⟨b, hstep, -⟩
    · exact heq
    · exact absurd hc hstep.2
  | head hstep _ ih =>
    rcases ReflTransGen.cases_head hreach' with heq | ⟨b, hstep', hrest⟩
    · exact absurd (heq ▸ hc') hstep.2
    · obtain rfl := hstep.1.eq hstep'.1
      exact ih hrest

/-- Who reaches a cycle enters it. -/
theorem exists_entry (hc : OnCycle next c) (h : ReflTransGen (Link next) s c) :
    ∃ e, Entry next s e ∧ ReflTransGen (Link next) c e := by
  induction h using ReflTransGen.head_induction_on with
  | refl => exact ⟨c, ⟨hc, .refl⟩, .refl⟩
  | @head a b hstep hrest ih =>
    by_cases ha : OnCycle next a
    · exact ⟨a, ⟨ha, .refl⟩, (ha.back (.head hstep hrest)).2⟩
    · obtain ⟨e, ⟨he, hreach⟩, hce⟩ := ih
      exact ⟨e, ⟨he, .head ⟨hstep, ha⟩ hreach⟩, hce⟩

/-! ## Paths -/

/-- A path along links leads from its first place to all of it. -/
theorem reaches_of_chain {p : List α} (h : (a :: p).IsChain (Link next)) (hb : b ∈ a :: p) :
    ReflTransGen (Link next) a b := by
  induction p generalizing a with
  | nil => rw [List.mem_singleton.mp hb]
  | cons d p ih =>
    obtain ⟨hstep, hrest⟩ := List.isChain_cons_cons.mp h
    rcases List.mem_cons.mp hb with rfl | hb
    · exact .refl
    · exact .head hstep (ih hrest hb)

/-- Paths from one place agree as far as both go. -/
theorem prefix_of_chain {p q : List α} (hp : (a :: p).IsChain (Link next))
    (hq : (a :: q).IsChain (Link next)) : a :: p <+: a :: q ∨ a :: q <+: a :: p := by
  induction p generalizing a q with
  | nil => exact .inl (by simp)
  | cons d p ih =>
    cases q with
    | nil => exact .inr (by simp)
    | cons e q =>
      obtain ⟨hstep, hp⟩ := List.isChain_cons_cons.mp hp
      obtain ⟨hstep', hq⟩ := List.isChain_cons_cons.mp hq
      obtain rfl := hstep.eq hstep'
      rcases ih hp hq with h | h
      · exact .inl (List.cons_prefix_cons.mpr ⟨rfl, h⟩)
      · exact .inr (List.cons_prefix_cons.mpr ⟨rfl, h⟩)

/-- What is reached from a closed set is in it. -/
theorem closed_reaches {F : α → Prop} (hF : ∀ a, F a → ∀ b, Link next a b → F b) (ha : F a)
    (h : ReflTransGen (Link next) a b) : F b := by
  induction h with
  | refl => exact ha
  | tail _ hstep ih => exact hF _ ih _ hstep

/-- A path is closed under the links as far as its last place is. -/
theorem closed_of_path {p : List α} {T : α → Prop} (hchain : p.IsChain (Link next))
    (hp : ∀ a ∈ p, T a) (hlast : ∀ l ∈ p.getLast?, ∀ b, Link next l b → T b) :
    ∀ a ∈ p, ∀ b, Link next a b → T b := by
  induction p with
  | nil => simp
  | cons a p ih =>
    intro x hx b hb
    cases p with
    | nil =>
      rw [List.mem_singleton.mp hx] at hb
      exact hlast a (by simp) b hb
    | cons d p =>
      obtain ⟨hstep, hrest⟩ := List.isChain_cons_cons.mp hchain
      rcases List.mem_cons.mp hx with rfl | hx
      · obtain rfl := hstep.eq hb
        exact hp d (by simp)
      · exact ih hrest (fun y hy => hp y (.tail _ hy)) (by simpa using hlast) x hx b hb

/-- Once round, the links stay among the places. -/
theorem round_closed {mid : List α} (h : (c :: mid ++ [c]).IsChain (Link next)) :
    ∀ a ∈ c :: mid, ∀ b, Link next a b → b ∈ c :: mid := by
  obtain ⟨hmid, -, hlast⟩ := List.isChain_append.mp h
  refine closed_of_path hmid (fun a ha => ha) fun l hl b hb => ?_
  rw [hb.eq (hlast l hl c rfl)]
  exact List.mem_cons_self

/-- A list with a thing in it twice. -/
theorem exists_twice {l : List α} (h : ¬l.Nodup) : ∃ x l₁ l₂ l₃, l = l₁ ++ x :: l₂ ++ x :: l₃ := by
  induction l with
  | nil => simp at h
  | cons a l ih =>
    by_cases ha : a ∈ l
    · obtain ⟨l₂, l₃, rfl⟩ := List.append_of_mem ha
      exact ⟨a, [], l₂, l₃, rfl⟩
    · obtain ⟨x, l₁, l₂, l₃, rfl⟩ := ih fun hl => h (List.nodup_cons.mpr ⟨ha, hl⟩)
      exact ⟨x, a :: l₁, l₂, l₃, rfl⟩

namespace ClosedPath

theorem onCycle {p : List α} (h : ClosedPath next p) (hhead : p.head? = some c) :
    OnCycle next c := by
  obtain ⟨c', mid, rfl, -, hchain⟩ := h
  obtain rfl : c' = c := by simpa using hhead
  cases mid with
  | nil => exact .single (List.isChain_cons_cons.mp hchain).1
  | cons d mid =>
    obtain ⟨hstep, hrest⟩ := List.isChain_cons_cons.mp hchain
    exact .head' hstep (reaches_of_chain hrest (by simp))

theorem not_isPrefix {mid mid' : List α} (hnodup : (c :: mid').Nodup)
    (h : c :: mid ++ [c] <+: c :: mid' ++ [c]) : mid = mid' := by
  obtain ⟨rest, hrest⟩ := h
  rw [List.cons_append, List.cons_append, List.cons_append, List.cons.injEq] at hrest
  have htail := hrest.2
  rcases List.eq_nil_or_concat rest with rfl | ⟨rest, d, rfl⟩
  · simpa using htail
  · have hmid : mid' = mid ++ c :: rest := by
      have h := congrArg List.dropLast htail
      rw [List.concat_eq_append, ← List.append_assoc, List.dropLast_concat, List.dropLast_concat,
        List.append_assoc] at h
      exact h.symm
    rw [hmid] at hnodup
    simp at hnodup

/-- From a place of a cycle there is one way once round. -/
theorem ext {p q : List α} (hp : ClosedPath next p) (hq : ClosedPath next q)
    (h : p.head? = q.head?) : p = q := by
  obtain ⟨c, mid, rfl, hnodup, hchain⟩ := hp
  obtain ⟨c', mid', rfl, hnodup', hchain'⟩ := hq
  obtain rfl : c = c' := by simpa using h
  rcases prefix_of_chain hchain hchain' with h | h
  · rw [not_isPrefix hnodup' h]
  · rw [not_isPrefix hnodup h]

/-- The places of the path are those of the cycle. -/
theorem mem_iff {p : List α} (h : ClosedPath next p) (hhead : p.head? = some c) :
    a ∈ p ↔ ReflTransGen (Link next) c a := by
  obtain ⟨c', mid, rfl, -, hchain⟩ := h
  obtain rfl : c' = c := by simpa using hhead
  constructor
  · exact reaches_of_chain hchain
  · intro hreach
    have hmem : a ∈ c' :: mid := closed_reaches (F := (· ∈ c' :: mid)) (round_closed hchain)
      List.mem_cons_self hreach
    exact List.mem_append_left _ hmem

/-- A way round that meets a place twice can leave out what lies between. -/
theorem exists_of_chain {mid : List α} (h : (c :: mid ++ [c]).IsChain (Link next)) :
    ∃ p, ClosedPath next p ∧ p.head? = some c := by
  induction hn : mid.length using Nat.strong_induction_on generalizing mid with
  | _ n ih =>
    by_cases hnodup : (c :: mid).Nodup
    · exact ⟨c :: mid ++ [c], ⟨c, mid, rfl, hnodup, h⟩, rfl⟩
    obtain ⟨x, l₁, l₂, l₃, htwice⟩ := exists_twice hnodup
    obtain ⟨mid', hmid'⟩ : ∃ mid', l₁ ++ x :: l₃ = c :: mid' := by
      cases l₁ with
      | nil =>
        obtain rfl : c = x := by simpa using (List.cons.inj htwice).1
        exact ⟨l₃, rfl⟩
      | cons d l₁ =>
        obtain rfl : c = d := by simpa using (List.cons.inj htwice).1
        exact ⟨l₁ ++ x :: l₃, rfl⟩
    have hshort : mid'.length < n := by
      have h₁ := congrArg List.length htwice
      have h₂ := congrArg List.length hmid'
      simp only [List.length_append, List.length_cons] at h₁ h₂
      omega
    refine ih mid'.length hshort ?_ rfl
    rw [← hmid', List.append_assoc]
    rw [htwice, List.append_assoc, List.append_assoc] at h
    obtain ⟨hleft, hmiddle, -⟩ := List.isChain_append.mp h
    obtain ⟨-, hright, -⟩ := List.isChain_append.mp hmiddle
    refine List.isChain_append.mpr ⟨hleft, hright, fun l hl b hb => ?_⟩
    obtain rfl : x = b := by simpa using hb
    exact (List.isChain_append.mp h).2.2 l hl x rfl

end ClosedPath

theorem exists_closedPath (h : OnCycle next c) : ∃ p, ClosedPath next p ∧ p.head? = some c := by
  obtain ⟨b, hcb, hbc⟩ := TransGen.head'_iff.mp h
  obtain ⟨l, hchain, hlast⟩ := List.exists_isChain_cons_of_relationReflTransGen hbc
  have hround : (c :: b :: l).dropLast ++ [c] = c :: b :: l := by
    rw [← hlast]
    exact List.dropLast_append_getLast (by simp)
  refine @ClosedPath.exists_of_chain _ _ _ ((b :: l).dropLast) ?_
  have hcons : c :: (b :: l).dropLast = (c :: b :: l).dropLast := rfl
  rw [hcons, hround]
  exact List.isChain_cons_cons.mpr ⟨hcb, hchain⟩

/-- The places of a path lead to its last one. -/
theorem reaches_last {p : List α} {l : α} (hchain : p.IsChain (Link next)) (hl : p.getLast? = some l)
    (ha : a ∈ p) : ReflTransGen (Link next) a l := by
  induction p generalizing a with
  | nil => cases ha
  | cons d p ih =>
    cases p with
    | nil =>
      rw [List.mem_singleton.mp ha]
      obtain rfl : d = l := by simpa using hl
      exact .refl
    | cons e p =>
      obtain ⟨hstep, hrest⟩ := List.isChain_cons_cons.mp hchain
      rw [List.getLast?_cons_cons] at hl
      rcases List.mem_cons.mp ha with rfl | ha
      · exact .head hstep (ih hrest hl (.head _))
      · exact ih hrest hl ha

theorem reaches_of_all {p : List α} {P : α → Prop} (hchain : (p ++ [c]).IsChain (Link next))
    (hp : ∀ a ∈ p, P a) (hs : (p ++ [c]).head? = some s) :
    ReflTransGen (fun a b => Link next a b ∧ P a) s c := by
  induction p generalizing s with
  | nil =>
    obtain rfl : c = s := by simpa using hs
    exact .refl
  | cons a p ih =>
    obtain rfl : a = s := by simpa using hs
    obtain ⟨e, he⟩ : ∃ e, (p ++ [c]).head? = some e := by
      cases p <;> simp
    obtain ⟨rest, hrest⟩ := List.head?_eq_some_iff.mp he
    rw [List.cons_append, hrest] at hchain
    obtain ⟨hstep, hchain⟩ := List.isChain_cons_cons.mp hchain
    exact .head ⟨hstep, hp a (.head _)⟩ (ih (hrest ▸ hchain) (fun x hx => hp x (.tail _ hx)) he)

/-- A path that comes back to one of its places enters a cycle there. -/
theorem entry_of_path {pre mid : List α} (hchain : (pre ++ (c :: mid ++ [c])).IsChain (Link next))
    (hnodup : (pre ++ c :: mid).Nodup) (hs : (pre ++ [c]).head? = some s) :
    ClosedPath next (c :: mid ++ [c]) ∧ Entry next s c := by
  have hround := hchain.right_of_append
  have hclosed : ClosedPath next (c :: mid ++ [c]) := ⟨c, mid, rfl, hnodup.of_append_right, hround⟩
  have hcycle : OnCycle next c := hclosed.onCycle rfl
  have hpre : (pre ++ [c]).IsChain (Link next) := by
    rw [List.cons_append, List.append_cons] at hchain
    exact hchain.left_of_append
  refine ⟨hclosed, hcycle, reaches_of_all hpre (fun a ha hon => ?_) hs⟩
  -- A place before `c` that lay on a cycle would be one of the places after `c`.
  have hreach : ReflTransGen (Link next) a c := reaches_last hpre (by simp) (by simp [ha])
  have hmem : a ∈ c :: mid := closed_reaches (F := (· ∈ c :: mid)) (round_closed hround) List.mem_cons_self (hon.back hreach).2
  exact List.disjoint_of_nodup_append hnodup ha hmem

/-- A path that ends, or runs into a closed set, comes to no cycle outside it. -/
theorem no_entry_of_path {p : List α} {F : α → Prop} (hchain : p.IsChain (Link next))
    (hF : ∀ a, F a → ∀ b, Link next a b → F b) (hlast : ∀ l ∈ p.getLast?, ∀ b, Link next l b → F b)
    (ha : a ∈ p) (hreach : ReflTransGen (Link next) a c) (hc : OnCycle next c) : F c := by
  have hkeeps : ∀ a, a ∈ p ∨ F a → ∀ b, Link next a b → b ∈ p ∨ F b := by
    intro a ha b hab
    rcases ha with ha | ha
    · exact closed_of_path (T := fun b => b ∈ p ∨ F b) hchain (fun _ h => .inl h)
        (fun l hl b hb => .inr (hlast l hl b hb)) a ha b hab
    · exact .inr (hF a ha b hab)
  rcases closed_reaches (F := fun b => b ∈ p ∨ F b) hkeeps (.inl ha) hreach with hmem | hmem
  · obtain ⟨l, hl⟩ : ∃ l, p.getLast? = some l := by
      cases p with
      | nil => cases ha
      | cons d p => exact ⟨_, List.getLast?_cons⟩
    have htail := reaches_last hchain hl hmem
    obtain ⟨hon, hback⟩ := hc.back htail
    obtain ⟨b, hstep, -⟩ := TransGen.head'_iff.mp hon
    have hbc := (hon.step hstep).2.trans hback
    exact closed_reaches hF (hlast l hl b hstep) hbc
  · exact hmem

end Apoptosis.Core
