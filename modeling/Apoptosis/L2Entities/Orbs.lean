import Apoptosis.Core.Copies
import Apoptosis.L2Entities.EntityStore
/-!
# Experience orbs that merge (`server/src/game/tick.rs`)

The pairs come from a list taken before the first merge. An orb that an earlier
pair removed keeps its value and goes on merging, so a value arrives once for
each chain of merges to an orb that is left: twice, or never, where three orbs
are near each other.

* `mergeOrbs_run`: the pass is a run of transfers that copy.
* `merge_orbs_iff`: when the experience is conserved.
-/
namespace Apoptosis.L2.Entities
open Apoptosis.Core

variable {P : Type} (near : P → P → Bool)

/-- The tuple collected for each orb. -/
structure OrbSeen (P : Type) where
  id : Nat
  value : I32
  position : P
  age : Nat

/-- The list collected before the loops. -/
def orbsSeen (s : EntityStore P) : List (OrbSeen P) :=
  s.entries.filterMap fun (id, entity) => entity.orb?.map fun orb => ⟨id, orb.value, entity.position, orb.age⟩

/-- The orb that is kept and the orb that is dropped. -/
def keepDrop (first second : OrbSeen P) : Nat × Nat :=
  if first.age ≤ second.age then (first.id, second.id) else (second.id, first.id)

/-- The body of the loops from the choice of `keep` and `drop` on. -/
def absorbOrb (s : EntityStore P) (t : Nat × Nat) : EntityStore P :=
  match (s.get? t.2).bind Entity.orb? with
  | none => s
  | some dropOrb =>
    match s.get? t.1 with
    | none => s
    | some keepEntity =>
      match keepEntity.orb? with
      | none => s
      | some keepOrb =>
        (s.insert t.1 (keepEntity.setOrb { keepOrb with value := keepOrb.value.saturatingAdd dropOrb.value })).modify
          t.2 Entity.remove

/-- mirrors crates/server/src/game/tick.rs:1827-1870 (`merge_orbs`) -/
def mergeOrbs (s : EntityStore P) : EntityStore P :=
  (pairs (orbsSeen s)).foldl (fun s (first, second) =>
    if !near first.position second.position then s else absorbOrb s (keepDrop first second)) s

/-! ## What an orb holds -/

def orbAt (s : EntityStore P) (id : Nat) : Option Orb := (s.get? id).bind Entity.orb?

/-- Experience points in the entity of an id. -/
def valueAt (s : EntityStore P) (id : Nat) : Int := (orbAt s id).elim 0 (·.value.val)

/-- The experience in the orbs that are not marked removed. -/
def liveExperience (s : EntityStore P) : Int :=
  tally (fun e => if e.2.removed then 0 else e.2.orb?.elim 0 (·.value.val)) s.entries

/-- The merges that the pass makes, as the positions and the ages before it have them. -/
def merges (s : EntityStore P) : List (Nat × Nat) :=
  (pairs (orbsSeen s)).filterMap fun (first, second) =>
    if near first.position second.position then some (keepDrop first second) else none

/-- Whether the pass leaves an entity removed. -/
def goneAt (s : EntityStore P) (id : Nat) : Bool := removedAt s id || (merges near s).any fun t => t.2 = id

/-- In how many ways an orb's value reaches an orb that is left. -/
def ways (s : EntityStore P) (id : Nat) : Nat := (Copies.chains (goneAt near s) (merges near s) id).length

/-- No sum of two values on the way leaves the `i32` range. -/
def NoSaturation (s : EntityStore P) : Prop :=
  Along absorbOrb (fun s t => -2 ^ 31 ≤ valueAt s t.1 + valueAt s t.2 ∧ valueAt s t.1 + valueAt s t.2 < 2 ^ 31) s
    (merges near s)

/-! ## The pass as a run -/

theorem mergeOrbs_run (s : EntityStore P) : mergeOrbs near s = run absorbOrb s (merges near s) := by
  rw [run_eq_foldl, merges, List.foldl_filterMap, mergeOrbs]
  congr 1
  funext s ⟨first, second⟩
  by_cases h : near first.position second.position <;> simp [h]

theorem mem_orbsSeen {s : EntityStore P} {o : OrbSeen P} (h : o ∈ orbsSeen s) : (orbAt s o.id).isSome := by
  obtain ⟨⟨id, entity⟩, hmem, hseen⟩ := List.mem_filterMap.mp h
  obtain ⟨orb, horb, rfl⟩ := Option.map_eq_some_iff.mp hseen
  have hget := OrdMap.mem_entries.mp hmem
  rw [orbAt, hget, Option.bind_some, horb]
  rfl

/-- Merges are among orbs. -/
theorem merges_orbs {s : EntityStore P} {t : Nat × Nat} (h : t ∈ merges near s) :
    (orbAt s t.1).isSome ∧ (orbAt s t.2).isSome := by
  obtain ⟨⟨first, second⟩, hmem, hmerge⟩ := List.mem_filterMap.mp h
  obtain ⟨hfirst, hsecond⟩ := mem_of_mem_pairs hmem
  have hfirst := mem_orbsSeen hfirst
  have hsecond := mem_orbsSeen hsecond
  dsimp only at hmerge
  split at hmerge
  · cases hmerge
    unfold keepDrop
    split
    · exact ⟨hfirst, hsecond⟩
    · exact ⟨hsecond, hfirst⟩
  · exact nomatch hmerge

/-- The store as holders of experience. -/
def holders (s : EntityStore P) : Copies.Holders Nat Int := ⟨valueAt s, removedAt s⟩

theorem mem_keys_of_orb {s : EntityStore P} {id : Nat} (h : (orbAt s id).isSome) : id ∈ s.keys := by
  obtain ⟨orb, horb⟩ := Option.isSome_iff_exists.mp h
  obtain ⟨entity, hentity, -⟩ := Option.bind_eq_some_iff.mp horb
  exact OrdMap.mem_keys.mpr ⟨entity, hentity⟩

theorem liveExperience_eq (s : EntityStore P) : liveExperience s = Copies.remaining s.keys (holders s) := by
  rw [liveExperience, OrdMap.tally_eq_sum]
  refine Finset.sum_congr rfl fun id _ => ?_
  rcases (s.get? id).eq_none_or_eq_some with hget | ⟨entity, hget⟩
  · simp [holders, removedAt, valueAt, orbAt, hget]
  · simp [holders, removedAt, valueAt, orbAt, hget]

/-- What a merge of two orbs does. -/
theorem absorbOrb_get? {s : EntityStore P} {t : Nat × Nat} {dropOrb : Orb} (hkeep : (orbAt s t.1).isSome)
    (hdrop : orbAt s t.2 = some dropOrb) (id : Nat) :
    orbAt (absorbOrb s t) id = (orbAt s id).map (fun orb =>
      if id = t.1 then { orb with value := orb.value.saturatingAdd dropOrb.value } else orb) ∧
    removedAt (absorbOrb s t) id = (removedAt s id || decide (id = t.2)) := by
  obtain ⟨keep, drop⟩ := t
  obtain ⟨keepOrb, horb⟩ := Option.isSome_iff_exists.mp hkeep
  obtain ⟨keepEntity, hentity, hkeepOrb⟩ := Option.bind_eq_some_iff.mp horb
  obtain ⟨dropEntity, hdropEntity, hdropOrb⟩ := Option.bind_eq_some_iff.mp hdrop
  dsimp only at hentity hdropEntity
  simp only [orbAt, removedAt, absorbOrb, hdropEntity, hdropOrb, hentity, hkeepOrb, Option.bind_some,
    OrdMap.get?_modify, OrdMap.get?_insert]
  by_cases hk : keep = id
  · subst hk
    by_cases hd : drop = keep
    · subst hd
      simp [hentity, hkeepOrb]
    · simp [hentity, hkeepOrb, hd, Ne.symm hd]
  · by_cases hd : drop = id
    · subst hd
      simp [hk, Ne.symm hk, hdropEntity, hdropOrb]
    · simp [hk, hd, Ne.symm hk, Ne.symm hd]

/-- A merge keeps the entities and which of them are orbs. -/
theorem absorbOrb_frame (s : EntityStore P) (t : Nat × Nat) :
    (absorbOrb s t).keys = s.keys ∧ ∀ id, (orbAt (absorbOrb s t) id).isSome = (orbAt s id).isSome := by
  have hkeys : (absorbOrb s t).keys = s.keys := by
    unfold absorbOrb
    split
    · rfl
    split
    · rfl
    next entity hentity =>
    split
    · rfl
    · rw [OrdMap.keys_modify, OrdMap.keys_insert, Finset.insert_eq_of_mem (OrdMap.mem_keys.mpr ⟨_, hentity⟩)]
  refine ⟨hkeys, fun id => ?_⟩
  by_cases horbs : (orbAt s t.1).isSome ∧ (orbAt s t.2).isSome
  · obtain ⟨dropOrb, hdrop⟩ := Option.isSome_iff_exists.mp horbs.2
    rw [(absorbOrb_get? horbs.1 hdrop id).1, Option.isSome_map]
  · have hself : absorbOrb s t = s := by
      unfold absorbOrb
      split
      · rfl
      next dropOrb hdrop =>
      split
      · rfl
      next entity hentity =>
      split
      · rfl
      next keepOrb hkeep =>
      refine absurd ⟨?_, ?_⟩ horbs
      · rw [orbAt, hentity, Option.bind_some, hkeep]
        rfl
      · rw [orbAt, hdrop]
        rfl
    rw [hself]

/-- A merge within the `i32` range is a transfer that copies. -/
theorem holders_absorbOrb {s : EntityStore P} {t : Nat × Nat} (hkeep : (orbAt s t.1).isSome)
    (hdrop : (orbAt s t.2).isSome)
    (hrange : -2 ^ 31 ≤ valueAt s t.1 + valueAt s t.2 ∧ valueAt s t.1 + valueAt s t.2 < 2 ^ 31) :
    holders (absorbOrb s t) = Copies.copy (holders s) t := by
  obtain ⟨dropOrb, hdropOrb⟩ := Option.isSome_iff_exists.mp hdrop
  obtain ⟨keepOrb, hkeepOrb⟩ := Option.isSome_iff_exists.mp hkeep
  refine Copies.Holders.ext (funext fun id => ?_) (funext fun id => ?_)
  · have horb := (absorbOrb_get? hkeep hdropOrb id).1
    show valueAt (absorbOrb s t) id = Function.update (valueAt s) t.1 (valueAt s t.1 + valueAt s t.2) id
    have hvalue (s' : EntityStore P) (i : Nat) : valueAt s' i = (orbAt s' i).elim 0 (·.value.val) := rfl
    by_cases heq : id = t.1
    · rw [heq, Function.update_self, hvalue (absorbOrb s t), ← heq, horb, heq, hkeepOrb]
      rw [hvalue, hvalue, hkeepOrb, hdropOrb] at hrange ⊢
      simp only [Option.elim_some] at hrange
      simp only [Option.map_some, Option.elim_some, if_true, I32.saturatingAdd_val]
      omega
    · rw [Function.update_of_ne heq, hvalue, hvalue, horb]
      simp only [heq, if_false, Option.map_id']
  · have hgone := (absorbOrb_get? hkeep hdropOrb id).2
    show removedAt (absorbOrb s t) id = Function.update (removedAt s) t.2 true id
    rw [hgone]
    by_cases heq : id = t.2
    · simp [heq]
    · simp [heq]

theorem holders_run {s : EntityStore P} {ts : List (Nat × Nat)}
    (hts : ∀ t ∈ ts, (orbAt s t.1).isSome ∧ (orbAt s t.2).isSome)
    (hrange : Along absorbOrb
      (fun s t => -2 ^ 31 ≤ valueAt s t.1 + valueAt s t.2 ∧ valueAt s t.1 + valueAt s t.2 < 2 ^ 31) s ts) :
    (run absorbOrb s ts).keys = s.keys ∧ holders (run absorbOrb s ts) = run Copies.copy (holders s) ts := by
  induction ts generalizing s with
  | nil => exact ⟨rfl, rfl⟩
  | cons t ts ih =>
    obtain ⟨hhead, htail⟩ := hrange
    obtain ⟨hkeys, horbs⟩ := absorbOrb_frame s t
    have horb := hts t (.head _)
    obtain ⟨hkeys', hholders⟩ := ih (s := absorbOrb s t)
      (fun t' ht' => by rw [horbs, horbs]; exact hts t' (.tail _ ht')) htail
    refine ⟨hkeys'.trans hkeys, ?_⟩
    rw [run, hholders, holders_absorbOrb horb.1 horb.2 hhead]
    rfl

/-- Experience is conserved exactly when the values, each as often as it has a way to an orb that is
left, add up to what was there. -/
theorem merge_orbs_iff {s : EntityStore P} (h : NoSaturation near s) :
    liveExperience (mergeOrbs near s) = liveExperience s ↔
      ∑ id ∈ s.keys, ways near s id * valueAt s id = liveExperience s := by
  obtain ⟨hkeys, hholders⟩ := holders_run (fun t ht => merges_orbs near ht) h
  have hleft : liveExperience (mergeOrbs near s) = ∑ id ∈ s.keys, ways near s id * valueAt s id := by
    rw [mergeOrbs_run, liveExperience_eq, hkeys, hholders, Copies.remaining_run fun t ht => ?_]
    · refine Finset.sum_congr rfl fun id _ => ?_
      rw [nsmul_eq_mul]
      rfl
    · obtain ⟨hkeep, hdrop⟩ := merges_orbs near ht
      exact ⟨mem_keys_of_orb hkeep, mem_keys_of_orb hdrop⟩
  rw [hleft]

/-- One way for every orb that is there, and none for one that is marked removed already, is enough. -/
theorem ways_single {s : EntityStore P} (h : ∀ id ∈ s.keys, ways near s id = if removedAt s id then 0 else 1) :
    ∑ id ∈ s.keys, ways near s id * valueAt s id = liveExperience s := by
  rw [liveExperience_eq]
  refine Finset.sum_congr rfl fun id hid => ?_
  rw [h id hid]
  show _ = if removedAt s id then 0 else valueAt s id
  split
  · exact Int.zero_mul _
  · exact Int.one_mul _

/-- An orb of one point. -/
def point (age : Nat) : Entity Unit := ⟨.orb ⟨I32.one, age⟩, (), 0, false⟩

/-- Two orbs in one place, the elder first. -/
def twoOrbs : EntityStore Unit := ⟨[(1, point 1), (2, point 0)], by simp [Ascending]⟩

theorem twoOrbs_conserved : liveExperience (mergeOrbs (fun _ _ => true) twoOrbs) = liveExperience twoOrbs :=
  (merge_orbs_iff (fun _ _ => true) (s := twoOrbs) ⟨by decide, trivial⟩).mpr (ways_single _ (by decide))

/-- Three orbs in one place, the eldest first. -/
def threeOrbs : EntityStore Unit := ⟨[(1, point 2), (2, point 1), (3, point 0)], by simp [Ascending]⟩

/-- The eldest is added to both others, and then the second to the third. -/
theorem threeOrbs_not_conserved :
    ¬ ∀ (P : Type) (near : P → P → Bool) (s : EntityStore P), (∀ a b, near a b = near b a) → NoSaturation near s →
      liveExperience (mergeOrbs near s) = liveExperience s := by
  intro h
  have hthree := h Unit (fun _ _ => true) threeOrbs (fun _ _ => rfl) ⟨by decide, by decide, by decide, trivial⟩
  exact absurd hthree (by decide)

end Apoptosis.L2.Entities
