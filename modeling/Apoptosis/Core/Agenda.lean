import Apoptosis.Core.Instances
import Apoptosis.Core.OrdMap
/-!
# Agendas

A map from keys to finite sets, read as one list: ascending by key, and by
element under one key. The part up to a key is a prefix of that list.

* `agenda_sorted`: the list is in ascending order.
* `mem_agenda`: it lists what the map holds.
* `agenda_split`: what is due by a key comes before what is not.
* `length_agenda_insert`: one element more under its key is one entry more.
-/
namespace Apoptosis.Core

variable {κ α : Type*} [LinearOrder κ] [LinearOrder α]

/-- The order of the entries: by key, then by element. -/
def Before (a b : κ × α) : Prop := a.1 < b.1 ∨ (a.1 = b.1 ∧ a.2 < b.2)

theorem Before.irrefl (a : κ × α) : ¬Before a a := by
  intro h
  rcases h with h | ⟨-, h⟩
  · exact lt_irrefl _ h
  · exact lt_irrefl _ h

theorem Before.key_le {a b : κ × α} (h : Before a b) : a.1 ≤ b.1 := by
  rcases h with h | ⟨h, -⟩
  · exact h.le
  · exact h.le

section
attribute [local instance] Apoptosis.Core.sortsTrans Apoptosis.Core.sortsAntisymm

/-- The entries under one key. -/
def listed (k : κ) (s : Finset α) : List (κ × α) := s.sort.map (k, ·)

end

def agendaOf (l : List (κ × Finset α)) : List (κ × α) := l.flatMap fun e => listed e.1 e.2

def agenda (m : OrdMap κ (Finset α)) : List (κ × α) := agendaOf m.entries

/-- What the map holds under a key, empty where it has none. -/
def heldAt (m : OrdMap κ (Finset α)) (k : κ) : Finset α := (m.get? k).getD ∅

omit [LinearOrder κ] in
@[simp] theorem agendaOf_nil : agendaOf ([] : List (κ × Finset α)) = [] := rfl

omit [LinearOrder κ] in
@[simp] theorem agendaOf_cons (k : κ) (s : Finset α) (l : List (κ × Finset α)) :
    agendaOf ((k, s) :: l) = listed k s ++ agendaOf l := rfl

omit [LinearOrder κ] in
@[simp] theorem mem_listed {k : κ} {s : Finset α} {e : κ × α} :
    e ∈ listed k s ↔ e.1 = k ∧ e.2 ∈ s := by
  obtain ⟨k', a⟩ := e
  simp [listed, and_comm, eq_comm]

omit [LinearOrder κ] in
@[simp] theorem length_listed (k : κ) (s : Finset α) : (listed k s).length = s.card := by
  simp [listed]

theorem listed_sorted (k : κ) (s : Finset α) : (listed k s).Pairwise Before := by
  have hsort : s.sort.Pairwise (· < ·) := s.sortedLT_sort.pairwise
  exact List.pairwise_map.mpr (hsort.imp fun h => .inr ⟨rfl, h⟩)

omit [LinearOrder κ] in
theorem mem_agendaOf {l : List (κ × Finset α)} {e : κ × α} :
    e ∈ agendaOf l ↔ ∃ s, (e.1, s) ∈ l ∧ e.2 ∈ s := by
  rw [agendaOf, List.mem_flatMap]
  constructor
  · intro h
    obtain ⟨⟨k, s⟩, hmem, he⟩ := h
    obtain ⟨rfl, he⟩ := mem_listed.mp he
    exact ⟨s, hmem, he⟩
  · intro h
    obtain ⟨s, hmem, he⟩ := h
    exact ⟨(e.1, s), hmem, mem_listed.mpr ⟨rfl, he⟩⟩

theorem agendaOf_sorted {l : List (κ × Finset α)} (h : Ascending l) :
    (agendaOf l).Pairwise Before := by
  induction l with
  | nil => exact List.Pairwise.nil
  | cons e l ih =>
    obtain ⟨k, s⟩ := e
    obtain ⟨hhead, htail⟩ := List.pairwise_cons.mp h
    rw [agendaOf_cons, List.pairwise_append]
    refine ⟨listed_sorted k s, ih htail, fun a ha b hb => ?_⟩
    obtain ⟨hk, -⟩ := mem_listed.mp ha
    obtain ⟨s', hmem, -⟩ := mem_agendaOf.mp hb
    exact .inl (hk.trans_lt (hhead _ hmem))

theorem agenda_sorted (m : OrdMap κ (Finset α)) : (agenda m).Pairwise Before :=
  agendaOf_sorted m.sorted

theorem agenda_nodup (m : OrdMap κ (Finset α)) : (agenda m).Nodup :=
  (agenda_sorted m).imp fun {a b} h heq => by
    subst heq
    exact Before.irrefl a h

theorem mem_agenda {m : OrdMap κ (Finset α)} {e : κ × α} : e ∈ agenda m ↔ e.2 ∈ heldAt m e.1 := by
  rw [agenda, mem_agendaOf, heldAt]
  constructor
  · intro h
    obtain ⟨s, hmem, he⟩ := h
    rw [OrdMap.mem_entries.mp hmem]
    exact he
  · intro h
    cases hget : m.get? e.1 with
    | none =>
      rw [hget] at h
      simp at h
    | some s =>
      rw [hget] at h
      exact ⟨s, OrdMap.mem_entries.mpr hget, h⟩

/-! ## The first key -/

omit [LinearOrder α] in
theorem erase_head {m : OrdMap κ (Finset α)} {k : κ} {s : Finset α}
    {l : List (κ × Finset α)} (h : m.entries = (k, s) :: l) : (m.erase k).entries = l := by
  have hsorted := m.sorted
  rw [h] at hsorted
  obtain ⟨hhead, -⟩ := List.pairwise_cons.mp hsorted
  have hall : l.filter (·.1 ≠ k) = l :=
    List.filter_eq_self.mpr fun e he => by simpa using (hhead e he).ne'
  change m.entries.filter (·.1 ≠ k) = l
  rw [h, List.filter_cons_of_neg (by simp), hall]

omit [LinearOrder α] in
theorem insert_head {m : OrdMap κ (Finset α)} {k : κ} {s s' : Finset α}
    {l : List (κ × Finset α)} (h : m.entries = (k, s) :: l) :
    ((m.erase k).insert k s').entries = (k, s') :: l := by
  have hsorted := m.sorted
  rw [h] at hsorted
  obtain ⟨hhead, -⟩ := List.pairwise_cons.mp hsorted
  change insertEntry k s' (m.erase k).entries = _
  rw [erase_head h]
  cases l with
  | nil => rfl
  | cons e l => rw [insertEntry, if_pos (hhead e (List.mem_cons_self ..))]

omit [LinearOrder α] in
theorem heldAt_head {m : OrdMap κ (Finset α)} {k : κ} {s : Finset α}
    {l : List (κ × Finset α)} (h : m.entries = (k, s) :: l) : heldAt m k = s := by
  rw [heldAt, OrdMap.get?, h, lookupEntry, if_pos rfl]
  rfl

omit [LinearOrder α] in
theorem heldAt_erase (m : OrdMap κ (Finset α)) (k : κ) :
    heldAt (m.erase k) k = ∅ := by
  rw [heldAt, OrdMap.get?_erase, if_pos rfl]
  rfl

/-! ## A cut by key -/

/-- What is due by a key, and what is not, in the order of the list. -/
theorem split_of_sorted {l : List (κ × α)} (h : l.Pairwise Before) (k : κ) :
    l = l.filter (·.1 ≤ k) ++ l.filter (k < ·.1) := by
  induction l with
  | nil => rfl
  | cons e l ih =>
    obtain ⟨hhead, htail⟩ := List.pairwise_cons.mp h
    by_cases hdue : e.1 ≤ k
    · rw [List.filter_cons_of_pos (by simpa using hdue),
        List.filter_cons_of_neg (by simpa using hdue), List.cons_append, ← ih htail]
    · have hlate : k < e.1 := not_le.mp hdue
      have hlater : ∀ b ∈ l, k < b.1 := fun b hb => hlate.trans_le (hhead b hb).key_le
      have hnone : l.filter (·.1 ≤ k) = [] :=
        List.filter_eq_nil_iff.mpr fun b hb => by simpa using hlater b hb
      have hall : l.filter (k < ·.1) = l :=
        List.filter_eq_self.mpr fun b hb => by simpa using hlater b hb
      rw [List.filter_cons_of_neg (by simpa using hlate),
        List.filter_cons_of_pos (by simpa using hlate), hnone, hall, List.nil_append]

theorem agenda_split (m : OrdMap κ (Finset α)) (k : κ) :
    agenda m = (agenda m).filter (·.1 ≤ k) ++ (agenda m).filter (k < ·.1) :=
  split_of_sorted (agenda_sorted m) k

omit [LinearOrder κ] in
theorem length_agendaOf (l : List (κ × Finset α)) :
    (agendaOf l).length = tally (fun e => e.2.card) l := by
  induction l with
  | nil => rfl
  | cons e l ih =>
    obtain ⟨k, s⟩ := e
    simp [ih]

theorem mem_heldAt_insert {m : OrdMap κ (Finset α)} {k : κ} {a : α} {e : κ × α} :
    e.2 ∈ heldAt (m.insert k (insert a (heldAt m k))) e.1 ↔ e.2 ∈ heldAt m e.1 ∨ e = (k, a) := by
  obtain ⟨k', a'⟩ := e
  simp only [heldAt, OrdMap.get?_insert, Prod.mk.injEq]
  by_cases hk : k = k'
  · subst hk
    simp [or_comm]
  · simp [hk, Ne.symm hk]

theorem length_agenda_insert {m : OrdMap κ (Finset α)} {k : κ} {a : α} (h : a ∉ heldAt m k) :
    (agenda (m.insert k (insert a (heldAt m k)))).length = (agenda m).length + 1 := by
  have hperm : (agenda (m.insert k (insert a (heldAt m k)))).Perm ((k, a) :: agenda m) := by
    refine (List.perm_ext_iff_of_nodup (agenda_nodup _) ?_).mpr fun e => ?_
    · exact List.nodup_cons.mpr ⟨fun hmem => h (mem_agenda.mp hmem), agenda_nodup m⟩
    · rw [mem_agenda, mem_heldAt_insert, List.mem_cons, mem_agenda, or_comm]
  rw [hperm.length_eq, List.length_cons]

end Apoptosis.Core
