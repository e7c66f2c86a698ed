import Mathlib.Tactic
/-!
# Triples of computations that may fail

`Triple P x Q E`: from a state with `P`, the computation `x` ends with a result
and a state that satisfy `Q`, or with an error and a state that satisfy `E`.
Each way to put computations together has its rule; `Triple.conseq` weakens and
`Triple.pre` rests a triple on what holds of its start.
-/
namespace Apoptosis.Core

universe u
variable {ε σ α β : Type u}

/-- `x` run from `s`. -/
def outcome (x : ExceptT ε (StateM σ) α) (s : σ) : Except ε α × σ := x s

theorem outcome_bind (x : ExceptT ε (StateM σ) α) (f : α → ExceptT ε (StateM σ) β) (s : σ) :
    outcome (x >>= f) s = match outcome x s with
      | (.ok a, s') => outcome (f a) s'
      | (.error e, s') => (.error e, s') := by
  show (match x s with | (a, s') => ExceptT.bindCont f a s') = _
  unfold outcome
  rcases x s with ⟨_ | _, _⟩ <;> rfl

def Triple (P : σ → Prop) (x : ExceptT ε (StateM σ) α) (Q : α → σ → Prop) (E : ε → σ → Prop) : Prop :=
  ∀ s, P s → (∀ a s', outcome x s = (.ok a, s') → Q a s') ∧ ∀ e s', outcome x s = (.error e, s') → E e s'

namespace Triple
variable {P P' : σ → Prop} {Q Q' : α → σ → Prop} {E E' : ε → σ → Prop}
  {x : ExceptT ε (StateM σ) α} {f : α → ExceptT ε (StateM σ) β} {R : β → σ → Prop}

theorem pure (a : α) (h : ∀ s, P s → Q a s) : Triple P (Pure.pure a) Q E := by
  intro s hs
  refine ⟨fun a' s' heq => ?_, fun e s' heq => (by cases heq)⟩
  cases heq
  exact h s hs

theorem throw (e : ε) (h : ∀ s, P s → E e s) : Triple P (throw e : ExceptT ε (StateM σ) α) Q E := by
  intro s hs
  refine ⟨fun a' s' heq => (by cases heq), fun e s' heq => ?_⟩
  cases heq
  exact h s hs

theorem bind (hx : Triple P x Q E) (hf : ∀ a, Triple (Q a) (f a) R E) : Triple P (x >>= f) R E := by
  intro s hs
  obtain ⟨hok, herror⟩ := hx s hs
  rw [outcome_bind]
  rcases hrun : outcome x s with ⟨e | a, s'⟩
  · refine ⟨fun b s'' heq => (by cases heq), fun e' s'' heq => ?_⟩
    cases heq
    exact herror e s' hrun
  · exact hf a s' (hok a s' hrun)

theorem conseq (h : Triple P x Q E) (hP : ∀ s, P' s → P s) (hQ : ∀ a s, Q a s → Q' a s)
    (hE : ∀ e s, E e s → E' e s) : Triple P' x Q' E' := by
  intro s hs
  obtain ⟨hok, herror⟩ := h s (hP s hs)
  exact ⟨fun a s' heq => hQ a s' (hok a s' heq), fun e s' heq => hE e s' (herror e s' heq)⟩

/-- What is done with the state may rest on what it is. -/
theorem get {f : σ → ExceptT ε (StateM σ) α} (h : ∀ t, P t → Triple (fun s => s = t) (f t) Q E) :
    Triple P (MonadState.get >>= f) Q E := fun s hs => h s hs s rfl

theorem modify {f : σ → σ} {Q : PUnit → σ → Prop} (h : ∀ s, P s → Q ⟨⟩ (f s)) :
    Triple P (modify f : ExceptT ε (StateM σ) PUnit) Q E := by
  intro s hs
  refine ⟨fun a s' heq => ?_, fun e s' heq => (by cases heq)⟩
  cases heq
  exact h s hs

theorem start {s : σ} (h : P s) (hx : Triple P x Q E) : Triple (fun t => t = s) x Q E :=
  hx.conseq (fun _ heq => heq ▸ h) (fun _ _ hQ => hQ) fun _ _ hE => hE

/-- A loop keeps `I` of what is left to do. -/
theorem forM {I : List β → σ → Prop} {f : β → ExceptT ε (StateM σ) PUnit}
    (h : ∀ b rest, Triple (I (b :: rest)) (f b) (fun _ => I rest) E) (l : List β) :
    Triple (I l) (l.forM f) (fun _ => I []) E := by
  induction l with
  | nil => exact pure PUnit.unit fun _ hs => hs
  | cons b l ih => exact (h b l).bind fun _ => ih

theorem and (h : Triple P x Q E) (h' : Triple P' x Q' E') :
    Triple (fun s => P s ∧ P' s) x (fun a s => Q a s ∧ Q' a s) (fun e s => E e s ∧ E' e s) :=
  fun s hs => ⟨fun a s' heq => ⟨(h s hs.1).1 a s' heq, (h' s hs.2).1 a s' heq⟩,
    fun e s' heq => ⟨(h s hs.1).2 e s' heq, (h' s hs.2).2 e s' heq⟩⟩

/-- What holds at the start may be used to find the triple. -/
theorem pre {p : Prop} (h : p → Triple P x Q E) : Triple (fun s => p ∧ P s) x Q E :=
  fun s hs => h hs.1 s hs.2

theorem ite {c : Prop} [Decidable c] {y : ExceptT ε (StateM σ) α} (hx : c → Triple P x Q E)
    (hy : ¬c → Triple P y Q E) : Triple P (if c then x else y) Q E := by
  split
  · exact hx ‹_›
  · exact hy ‹_›

end Triple

end Apoptosis.Core
