import Apoptosis.Core.Paths
/-!
# Depth-first tours with a depth limit

`tour key next room a seen` enters `a` unless something with its key was entered
before or no room is left, then its successors with one less. The tour is the
list of what it entered, each with the room left below it.

* `nodup_tour`: no key is entered twice.
* `mem_tour_iff`: a successor is left out exactly when the tour cuts the step to it.
-/
namespace Apoptosis.Core

variable {α κ : Type*} (key : α → κ)

/-- The keys of what a tour entered. -/
abbrev entered (tour : List (α × Nat)) : List κ := tour.map fun e => key e.1

/-- Entered with no room left, before the successor was. -/
def Cut (tour : List (α × Nat)) (a b : α) : Prop :=
  ∃ before after, tour = before ++ (a, 0) :: after ∧ key b ∉ entered key before

variable {key}

theorem nodup_split {tour before after before' after' : List (α × Nat)} {a : α} {m n : Nat}
    (h : (entered key tour).Nodup) (heq : tour = before ++ (a, m) :: after)
    (heq' : tour = before' ++ (a, n) :: after') : before = before' ∧ m = n := by
  subst heq
  induction before generalizing before' with
  | nil =>
    cases before' with
    | nil => simpa using (List.cons.inj heq').1
    | cons e before' =>
      obtain ⟨rfl, rfl⟩ := List.cons.inj heq'
      simp at h
  | cons e before ih =>
    cases before' with
    | nil =>
      obtain ⟨rfl, -⟩ := List.cons.inj heq'
      simp at h
    | cons e' before' =>
      obtain ⟨rfl, htail⟩ := List.cons.inj heq'
      obtain ⟨rfl, rfl⟩ := ih (List.nodup_cons.mp h).2 htail
      exact ⟨rfl, rfl⟩

theorem cut_iff {tour before : List (α × Nat)} {a b : α} {room : Nat}
    (h : (entered key tour).Nodup) (hpre : before ++ [(a, room)] <+: tour) :
    Cut key tour a b ↔ room = 0 ∧ key b ∉ entered key before := by
  obtain ⟨after, hafter⟩ := hpre
  have heq : tour = before ++ (a, room) :: after := by simpa using hafter.symm
  constructor
  · intro hcut
    obtain ⟨before', after', heq', hb⟩ := hcut
    obtain ⟨rfl, rfl⟩ := nodup_split h heq heq'
    exact ⟨rfl, hb⟩
  · intro hcut
    obtain ⟨rfl, hb⟩ := hcut
    exact ⟨before, after, heq, hb⟩

variable [DecidableEq κ] (key) (next : α → List α)

def tour : Nat → α → List (α × Nat) → List (α × Nat)
  | room, a, seen =>
    if key a ∈ entered key seen then seen
    else
      match room with
      | 0 => seen
      | room + 1 => (next a).foldl (fun seen b => tour room b seen) (seen ++ [(a, room)])

/-- The tour from each start in turn. -/
def tourAll (room : Nat) (starts : List α) : List (α × Nat) :=
  starts.foldl (fun seen a => tour key next room a seen) []

variable {key next} {room : Nat} {a b : α} {seen : List (α × Nat)}

theorem tour_of_mem (h : key a ∈ entered key seen) : tour key next room a seen = seen := by
  unfold tour
  rw [if_pos h]

@[simp] theorem tour_zero : tour key next 0 a seen = seen := by
  unfold tour
  exact ite_self seen

theorem tour_succ (h : key a ∉ entered key seen) : tour key next (room + 1) a seen =
    (next a).foldl (fun seen b => tour key next room b seen) (seen ++ [(a, room)]) := by
  conv_lhs => unfold tour
  rw [if_neg h]

/-- What holds of the tour so far and survives one entry holds of the longer tour. -/
theorem tour_induction {P : List (α × Nat) → Prop}
    (hstep : ∀ seen a room, key a ∉ entered key seen → P seen → P (seen ++ [(a, room)])) :
    ∀ room a seen, P seen → P (tour key next room a seen) := by
  intro room
  induction room with
  | zero =>
    intro a seen h
    simpa using h
  | succ room ih =>
    intro a seen h
    by_cases ha : key a ∈ entered key seen
    · rwa [tour_of_mem ha]
    · rw [tour_succ ha]
      exact List.foldlRecOn _ _ (hstep seen a room ha h) fun seen h b _ => ih b seen h

theorem prefix_tour : seen <+: tour key next room a seen :=
  tour_induction (fun _ _ _ _ h => h.trans (List.prefix_append ..)) room a seen (List.prefix_refl _)

theorem prefix_foldl_tour (l : List α) :
    seen <+: l.foldl (fun seen b => tour key next room b seen) seen :=
  List.foldlRecOn l _ (List.prefix_refl _) fun _ h _ _ => h.trans prefix_tour

theorem nodup_tour (h : (entered key seen).Nodup) :
    (entered key (tour key next room a seen)).Nodup := by
  refine tour_induction (P := fun seen => (entered key seen).Nodup) ?_ room a seen h
  intro seen a room ha h
  rw [entered, List.map_append, List.nodup_append]
  refine ⟨h, List.nodup_singleton _, ?_⟩
  intro b hb c hc hbc
  simp only [List.map_cons, List.map_nil, List.mem_singleton] at hc
  exact ha (hc ▸ hbc ▸ hb)

theorem tourAll_cons (a : α) (starts : List α) : tourAll key next room (a :: starts) =
    starts.foldl (fun seen a => tour key next room a seen) (tour key next room a []) := rfl

theorem nodup_tourAll (starts : List α) : (entered key (tourAll key next room starts)).Nodup :=
  List.foldlRecOn (motive := fun seen => (entered key seen).Nodup) starts _ List.nodup_nil
    fun _ h _ _ => nodup_tour h

omit [DecidableEq κ] in
theorem mem_entered_of_prefix {k : κ} {seen' : List (α × Nat)} (hpre : seen <+: seen')
    (h : k ∈ entered key seen) : k ∈ entered key seen' :=
  (hpre.map fun e => key e.1).subset h

theorem mem_tour (h : 0 < room) : key a ∈ entered key (tour key next room a seen) := by
  obtain ⟨room, rfl⟩ := Nat.exists_eq_add_of_lt h
  by_cases ha : key a ∈ entered key seen
  · exact mem_entered_of_prefix prefix_tour ha
  · rw [Nat.zero_add, tour_succ ha]
    exact mem_entered_of_prefix (prefix_foldl_tour _) (by simp)

theorem mem_tourAll {starts : List α} (hroom : 0 < room) (h : a ∈ starts) :
    key a ∈ entered key (tourAll key next room starts) := by
  obtain ⟨before, after, rfl⟩ := List.append_of_mem h
  rw [tourAll, List.foldl_append, List.foldl_cons]
  exact mem_entered_of_prefix (prefix_foldl_tour after) (mem_tour hroom)

/-- The room left at an entry counts the steps that led to it. -/
theorem steps_of_mem_tour {P : α × Nat → Prop} {start : α} {limit depth : Nat}
    (hP : ∀ a n room, Steps (fun a b => b ∈ next a) n start a → n + room + 1 = limit → P (a, room))
    (hsteps : Steps (fun a b => b ∈ next a) depth start a) (hroom : depth + room = limit)
    (h : ∀ e ∈ seen, P e) : ∀ e ∈ tour key next room a seen, P e := by
  induction room generalizing depth a seen with
  | zero => simpa using h
  | succ room ih =>
    by_cases ha : key a ∈ entered key seen
    · rwa [tour_of_mem ha]
    · rw [tour_succ ha]
      apply List.foldlRecOn (motive := fun seen => ∀ e ∈ seen, P e)
      · intro e he
        obtain he | he := List.mem_append.mp he
        · exact h e he
        · rw [List.mem_singleton.mp he]
          exact hP a depth room hsteps (by omega)
      · intro seen h b hb
        exact ih (hsteps.append (.cons hb (.nil b))) (by omega) h

theorem steps_of_mem_tourAll {starts : List α} :
    ∀ e ∈ tourAll key next (room + 1) starts, ∃ start ∈ starts, ∃ n,
      Steps (fun a b => b ∈ next a) n start e.1 ∧ n + e.2 + 1 = room + 1 := by
  unfold tourAll
  apply List.foldlRecOn (motive := fun seen : List (α × Nat) => ∀ e ∈ seen, ∃ start ∈ starts,
    ∃ n, Steps (fun a b => b ∈ next a) n start e.1 ∧ n + e.2 + 1 = room + 1)
  · simp
  · intro seen hseen start hstart
    exact steps_of_mem_tour (fun a n room hsteps hroom => ⟨start, hstart, n, hsteps, hroom⟩)
      (.nil start) (Nat.zero_add _) hseen

/-- A step that is cut ends a walk as long as the room. -/
theorem Cut.steps {starts : List α} (h : Cut key (tourAll key next (room + 1) starts) a b)
    (hb : b ∈ next a) : ∃ start ∈ starts, Steps (fun a b => b ∈ next a) (room + 1) start b := by
  obtain ⟨before, after, heq, -⟩ := h
  have hmem : (a, 0) ∈ tourAll key next (room + 1) starts := by simp [heq]
  obtain ⟨start, hstart, n, hsteps, hn⟩ := steps_of_mem_tourAll _ hmem
  obtain rfl : n = room := by simpa using hn
  exact ⟨start, hstart, by simpa [Nat.add_comm] using hsteps.append (.cons hb (.nil b))⟩

/-- A successor with a key of its own, when the tour comes to it: it is left out exactly when the
step to it is cut. -/
theorem mem_tour_iff {whole : List (α × Nat)} {scanned : List α}
    (hnodup : (entered key whole).Nodup)
    (hpre : tour key next room b
        (scanned.foldl (fun seen b => tour key next room b seen) (seen ++ [(a, room)])) <+: whole)
    (hne : key b ≠ key a) :
    key b ∈ entered key (tour key next room b
        (scanned.foldl (fun seen b => tour key next room b seen) (seen ++ [(a, room)]))) ↔
      ¬ Cut key whole a b := by
  have hpre' : seen ++ [(a, room)] <+: whole :=
    ((prefix_foldl_tour scanned).trans prefix_tour).trans hpre
  rw [cut_iff hnodup hpre']
  cases room with
  | zero => simp [hne]
  | succ room => simp [mem_tour]

end Apoptosis.Core
