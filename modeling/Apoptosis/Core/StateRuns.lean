import Mathlib.Tactic
/-!
# Computations over a state

`Keeps P x`: the computation `x` ends in a `P` state when it starts in one.
`Follows embed x y`: where the specification `y` says what happens to its part of
the state, `x` does that and leaves the rest alone. Each comes with a rule for
every way to put computations together.
-/
namespace Apoptosis.Core

universe u
variable {σ τ α β : Type u}

/-! ## What a computation keeps -/

def Keeps (P : τ → Prop) (x : StateM τ α) : Prop := ∀ s, P s → P (x s).2

namespace Keeps
variable {P : τ → Prop}

theorem pure (a : α) : Keeps P (Pure.pure a) := fun _ h => h

theorem bind {x : StateM τ α} {f : α → StateM τ β} (hx : Keeps P x) (hf : ∀ a, Keeps P (f a)) :
    Keeps P (x >>= f) := fun s h => hf _ _ (hx s h)

theorem ite {c : Prop} [Decidable c] {x y : StateM τ α} (hx : c → Keeps P x) (hy : ¬c → Keeps P y) :
    Keeps P (if c then x else y) := by
  split
  · exact hx ‹_›
  · exact hy ‹_›

theorem foldlM {f : β → α → StateM τ β} {l : List α} (h : ∀ b, ∀ a ∈ l, Keeps P (f b a)) (b : β) :
    Keeps P (l.foldlM f b) := by
  induction l generalizing b with
  | nil => exact pure b
  | cons a l ih =>
    rw [List.foldlM_cons]
    exact (h b a (List.mem_cons_self ..)).bind
      fun b => ih (fun b a ha => h b a (List.mem_cons_of_mem _ ha)) b

theorem mapM {f : α → StateM τ β} {l : List α} (h : ∀ a ∈ l, Keeps P (f a)) :
    Keeps P (l.mapM f) := by
  induction l with
  | nil => exact pure []
  | cons a l ih =>
    rw [List.mapM_cons]
    exact (h a (List.mem_cons_self ..)).bind fun b =>
      (ih fun a ha => h a (List.mem_cons_of_mem _ ha)).bind fun _ => pure _

end Keeps

/-! ## What a computation follows -/

/-- The specification may leave a run out. -/
def Follows (embed : σ → τ) (x : StateM τ α) (y : StateT σ Option α) : Prop :=
  ∀ s a s', y s = some (a, s') → x (embed s) = (a, embed s')

namespace Follows
variable {embed : σ → τ}

theorem pure (a : α) : Follows embed (Pure.pure a) (Pure.pure a) := by
  intro s b s' h
  cases h
  rfl

theorem bind {x : StateM τ α} {y : StateT σ Option α} {f : α → StateM τ β}
    {g : α → StateT σ Option β} (hx : Follows embed x y) (hf : ∀ a, Follows embed (f a) (g a)) :
    Follows embed (x >>= f) (y >>= g) := by
  intro s b s' h
  obtain ⟨⟨a, mid⟩, hy, hg⟩ := Option.bind_eq_some_iff.mp h
  show f (x (embed s)).1 (x (embed s)).2 = _
  rw [hx s a mid hy]
  exact hf a mid b s' hg

/-- A computation that gives the specified result in another form. -/
theorem bind_map {γ : Type u} {x : StateM τ γ} {y : StateT σ Option α} {k : α → γ}
    {f : γ → StateM τ β} {g : α → StateT σ Option β} (hx : Follows embed x (do return k (← y)))
    (hf : ∀ a, Follows embed (f (k a)) (g a)) : Follows embed (x >>= f) (y >>= g) := by
  intro s b s' h
  obtain ⟨⟨a, mid⟩, hy, hg⟩ := Option.bind_eq_some_iff.mp h
  have hmap : (do return k (← y) : StateT σ Option γ) s = some (k a, mid) :=
    Option.bind_eq_some_iff.mpr ⟨(a, mid), hy, rfl⟩
  show f (x (embed s)).1 (x (embed s)).2 = _
  rw [hx s (k a) mid hmap]
  exact hf a mid b s' hg

theorem ite {c : Prop} [Decidable c] {x x' : StateM τ α} {y y' : StateT σ Option α}
    (hx : c → Follows embed x y) (hy : ¬c → Follows embed x' y') :
    Follows embed (if c then x else x') (if c then y else y') := by
  split
  · exact hx ‹_›
  · exact hy ‹_›

theorem mapM {f : α → StateM τ β} {g : α → StateT σ Option β} {l : List α}
    (h : ∀ a ∈ l, Follows embed (f a) (g a)) : Follows embed (l.mapM f) (l.mapM g) := by
  induction l with
  | nil => exact pure []
  | cons a l ih =>
    rw [List.mapM_cons, List.mapM_cons]
    exact (h a (List.mem_cons_self ..)).bind fun b =>
      (ih fun a ha => h a (List.mem_cons_of_mem _ ha)).bind fun _ => pure _

end Follows

end Apoptosis.Core
