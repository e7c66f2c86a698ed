import Apoptosis.Core.OrdMap
import Apoptosis.Core.Runs
import Apoptosis.L2Storage.Keys
import Apoptosis.ServerError
/-!
# The region-handle cache (`persistence/src/world.rs`)

`WorldStorage` keeps open region files in a map bounded by a cap, with a second
map of use stamps that picks the victim. Keys are `(Dimension, RegionCoord)` in
their derived order, any linear order here; a handle is what `RegionFile::open`
returns.

A handle is stamped on insertion with the counter of the use before it, so it
can tie with the handle used last, and ties go to the lower key: with the cache
full of such handles the one just opened is the victim (`EvictsItself`).

* `serves_iff`: from a consistent cache, that is the only failure.
* `run_serves_iff`: over any sequence of uses and cap changes.
-/
namespace Apoptosis.L2.Storage
open Apoptosis.Core

def DEFAULT_MAX_OPEN_REGIONS : Nat := 64

variable {κ : Type} [LinearOrder κ] {H : Type}

/-- mirrors crates/persistence/src/world.rs:57-69 (`WorldStorage`, the handle cache) -/
structure RegionCache (κ : Type) [LinearOrder κ] (H : Type) where
  regions : OrdMap κ H
  regionUse : OrdMap κ Nat
  useCounter : Nat
  maxOpenRegions : Nat

namespace RegionCache

/-- mirrors crates/persistence/src/world.rs:80-99 (`WorldStorage::open`, the handle cache) -/
def fresh : RegionCache κ H := ⟨.empty, .empty, 0, DEFAULT_MAX_OPEN_REGIONS⟩

/-- `u64::saturating_add(1)` -/
def succCounter (n : Nat) : Nat := min (n + 1) (2 ^ 64 - 1)

def drop (c : RegionCache κ H) (victim : κ) : RegionCache κ H :=
  { c with regionUse := c.regionUse.erase victim, regions := c.regions.erase victim }

/-- The loop of `evict_regions`; every turn takes a stamp, so there are at most as many turns. -/
def evictLoop : Nat → RegionCache κ H → RegionCache κ H
  | 0, c => c
  | turns + 1, c =>
    if c.regions.size > c.maxOpenRegions then
      match firstMin c.regionUse.entries with
      | none => c
      | some (victim, _) => evictLoop turns (c.drop victim)
    else c

/-- mirrors crates/persistence/src/world.rs:625-643 (`WorldStorage::evict_regions`); a handle is
dropped whether or not its sync succeeds -/
def evictRegions (c : RegionCache κ H) : RegionCache κ H := evictLoop c.regionUse.size c

/-- mirrors crates/persistence/src/world.rs:211-214 (`WorldStorage::set_max_open_regions`) -/
def setMaxOpenRegions (c : RegionCache κ H) (limit : Nat) : RegionCache κ H :=
  evictRegions { c with maxOpenRegions := max limit 1 }

/-- The first part of `with_region`: the handle is in the cache, or opened into it. -/
def ensure (c : RegionCache κ H) (key : κ) (opened : ServerResult H) :
    ServerResult (RegionCache κ H) :=
  if key ∈ c.regions.keys then .ok c
  else do
    let handle ← opened
    return evictRegions { c with
      regions := c.regions.insert key handle
      regionUse := c.regionUse.insert key c.useCounter }

def stamp (c : RegionCache κ H) (key : κ) : RegionCache κ H :=
  { c with
    useCounter := succCounter c.useCounter
    regionUse := c.regionUse.insert key (succCounter c.useCounter) }

def vanished : ServerError := .invariant "region handle vanished from the cache"

/-- `with_region` up to the handle taken out of the cache; `opened` is what opening the file
returns -/
def take (c : RegionCache κ H) (key : κ) (opened : ServerResult H) :
    ServerResult H × RegionCache κ H :=
  match c.ensure key opened with
  | .error e => (.error e, c)
  | .ok c =>
    let c := c.stamp key
    match c.regions.get? key with
    | none => (.error vanished, c)
    | some handle => (.ok handle, { c with regions := c.regions.erase key })

/-- mirrors crates/persistence/src/world.rs:589-622 (`WorldStorage::with_region`); `f` is the
closure, with the handle it leaves -/
def withRegion {T : Type} (c : RegionCache κ H) (key : κ) (opened : ServerResult H)
    (f : H → ServerResult T × H) : ServerResult T × RegionCache κ H :=
  match c.take key opened with
  | (.error e, c) => (.error e, c)
  | (.ok handle, c) =>
    let (result, handle) := f handle
    (result, evictRegions { c with regions := c.regions.insert key handle })

/-! ## Eviction -/

/-- The two maps agree, the cap holds, and no stamp is ahead of the counter. -/
structure Consistent (c : RegionCache κ H) : Prop where
  keys : c.regionUse.keys = c.regions.keys
  bounded : c.regions.size ≤ c.maxOpenRegions
  cap : 1 ≤ c.maxOpenRegions
  stamps : ∀ k u, c.regionUse.get? k = some u → u ≤ c.useCounter
  counter : c.useCounter ≤ 2 ^ 64 - 1

theorem fresh_consistent : Consistent (fresh : RegionCache κ H) :=
  ⟨rfl, Nat.zero_le _, (by decide : 1 ≤ DEFAULT_MAX_OPEN_REGIONS), fun _ _ h => by
    simp [fresh] at h, Nat.zero_le _⟩

theorem evictLoop_within (turns : Nat) {c : RegionCache κ H}
    (h : c.regions.size ≤ c.maxOpenRegions) : evictLoop turns c = c := by
  cases turns with
  | zero => rfl
  | succ turns => rw [evictLoop, if_neg (by omega)]

theorem evictRegions_within {c : RegionCache κ H} (h : c.regions.size ≤ c.maxOpenRegions) :
    c.evictRegions = c := evictLoop_within _ h

theorem drop_keys {c : RegionCache κ H} (h : c.regionUse.keys = c.regions.keys) (victim : κ) :
    (c.drop victim).regionUse.keys = (c.drop victim).regions.keys := by
  simp only [drop, OrdMap.keys_erase, h]

/-- Eviction only drops handles. -/
theorem evictLoop_sub (turns : Nat) {c : RegionCache κ H} {k : κ} {handle : H}
    (h : (evictLoop turns c).regions.get? k = some handle) : c.regions.get? k = some handle := by
  induction turns generalizing c with
  | zero => exact h
  | succ turns ih =>
    unfold evictLoop at h
    split at h
    · split at h
      · exact h
      next victim used _ =>
        have hdrop := ih h
        rw [drop, OrdMap.get?_erase] at hdrop
        split at hdrop
        · cases hdrop
        · exact hdrop
    · exact h

theorem evictRegions_sub {c : RegionCache κ H} {k : κ} {handle : H}
    (h : c.evictRegions.regions.get? k = some handle) : c.regions.get? k = some handle :=
  evictLoop_sub _ h

/-- What `take` leaves in the cache was there, and the handle it gives was there or is the one
just opened. -/
theorem take_spec (c : RegionCache κ H) (key : κ) (opened : ServerResult H) :
    (∀ k handle, (c.take key opened).2.regions.get? k = some handle → c.regions.get? k = some handle) ∧
      ∀ handle, (c.take key opened).1 = .ok handle →
        (c.regions.get? key = some handle ∨ (key ∉ c.regions.keys ∧ opened = .ok handle)) ∧
          (c.take key opened).2.regions.get? key = none := by
  by_cases hin : key ∈ c.regions.keys
  · obtain ⟨handle, hhandle⟩ := OrdMap.mem_keys.mp hin
    have htake : c.take key opened =
        (.ok handle, { c.stamp key with regions := c.regions.erase key }) := by
      rw [take, ensure, if_pos hin]
      simp only [stamp, hhandle]
    rw [htake]
    refine ⟨fun k other h => ?_, fun other h => ?_⟩
    · rw [OrdMap.get?_erase] at h
      split at h
      · cases h
      · exact h
    · cases h
      exact ⟨.inl hhandle, by rw [OrdMap.get?_erase, if_pos rfl]⟩
  · cases opened with
    | error e =>
      have htake : c.take key (.error e) = (.error e, c) := by
        rw [take, ensure, if_neg hin]
        rfl
      rw [htake]
      exact ⟨fun k handle h => h, fun handle h => nomatch h⟩
    | ok opened =>
      set c₁ : RegionCache κ H := evictRegions { c with
        regions := c.regions.insert key opened
        regionUse := c.regionUse.insert key c.useCounter } with hc₁
      have hsub : ∀ k handle, c₁.regions.get? k = some handle →
          (k = key ∧ handle = opened) ∨ c.regions.get? k = some handle := by
        intro k handle h
        have h' := evictRegions_sub h
        rw [OrdMap.get?_insert] at h'
        split at h'
        · cases h'
          exact .inl ⟨Eq.symm ‹_›, rfl⟩
        · exact .inr h'
      have htake : c.take key (.ok opened) = match c₁.regions.get? key with
          | none => (.error vanished, c₁.stamp key)
          | some handle => (.ok handle, { c₁.stamp key with regions := c₁.regions.erase key }) := by
        rw [take, ensure, if_neg hin]
        rfl
      rw [htake]
      cases hget : c₁.regions.get? key with
      | none =>
        refine ⟨fun k handle h => ?_, fun handle h => nomatch h⟩
        obtain ⟨rfl, -⟩ | h' := hsub k handle h
        · rw [stamp] at h
          rw [hget] at h
          cases h
        · exact h'
      | some handle =>
        refine ⟨fun k other h => ?_, fun other h => ?_⟩
        · dsimp only at h
          rw [OrdMap.get?_erase] at h
          split at h
          · cases h
          next hne =>
            obtain ⟨rfl, -⟩ | h' := hsub k other h
            · exact absurd rfl hne
            · exact h'
        · cases h
          refine ⟨.inr ⟨hin, ?_⟩, by dsimp only; rw [OrdMap.get?_erase, if_pos rfl]⟩
          obtain ⟨-, rfl⟩ | h' := hsub key handle hget
          · rfl
          · exact absurd (OrdMap.mem_keys.mpr ⟨_, h'⟩) hin

/-- What eviction may change: it drops handles with their stamps. -/
theorem evictLoop_spec (turns : Nat) {c : RegionCache κ H}
    (hkeys : c.regionUse.keys = c.regions.keys) (hturns : c.regionUse.size ≤ turns) :
    (evictLoop turns c).regionUse.keys = (evictLoop turns c).regions.keys ∧
      (evictLoop turns c).regions.size ≤ c.maxOpenRegions ∧
      (evictLoop turns c).useCounter = c.useCounter ∧
      (evictLoop turns c).maxOpenRegions = c.maxOpenRegions ∧
      ∀ k u, (evictLoop turns c).regionUse.get? k = some u → c.regionUse.get? k = some u := by
  have hsizes : c.regionUse.size = c.regions.size := by
    rw [OrdMap.size_eq_card, OrdMap.size_eq_card, hkeys]
  induction turns generalizing c with
  | zero =>
    refine ⟨hkeys, ?_, rfl, rfl, fun _ _ h => h⟩
    show c.regions.size ≤ c.maxOpenRegions
    omega
  | succ turns ih =>
    unfold evictLoop
    split
    · next hover =>
      have hne : c.regionUse.entries ≠ [] := by
        intro hnil
        have : c.regionUse.size = 0 := by rw [OrdMap.size, hnil]; rfl
        omega
      obtain ⟨⟨victim, used⟩, hvictim⟩ := firstMin_isSome hne
      rw [hvictim]
      dsimp only
      have hmem : victim ∈ c.regionUse.keys := OrdMap.mem_keys.mpr
        ⟨used, OrdMap.mem_entries.mp (firstMin_spec hvictim c.regionUse.sorted).1⟩
      have hsize : (c.drop victim).regionUse.size = c.regionUse.size - 1 := by
        rw [OrdMap.size_eq_card, OrdMap.size_eq_card, drop, OrdMap.keys_erase,
          Finset.card_erase_of_mem hmem]
      have hkeys' := drop_keys hkeys victim
      obtain ⟨h1, h2, h3, h4, h5⟩ := ih hkeys' (by omega) (by
        rw [OrdMap.size_eq_card, OrdMap.size_eq_card, hkeys'])
      refine ⟨h1, h2, h3, h4, fun k u h => ?_⟩
      have h' := h5 k u h
      rw [drop, OrdMap.get?_erase] at h'
      split at h'
      · cases h'
      · exact h'
    · exact ⟨hkeys, by omega, rfl, rfl, fun _ _ h => h⟩

theorem evictRegions_spec {c : RegionCache κ H} (hkeys : c.regionUse.keys = c.regions.keys) :
    c.evictRegions.regionUse.keys = c.evictRegions.regions.keys ∧
      c.evictRegions.regions.size ≤ c.maxOpenRegions ∧
      c.evictRegions.useCounter = c.useCounter ∧
      c.evictRegions.maxOpenRegions = c.maxOpenRegions ∧
      ∀ k u, c.evictRegions.regionUse.get? k = some u → c.regionUse.get? k = some u :=
  evictLoop_spec _ hkeys (le_refl _)

/-- One handle over the cap: one victim. -/
theorem evictRegions_one {c : RegionCache κ H} (hkeys : c.regionUse.keys = c.regions.keys)
    (hover : c.regions.size = c.maxOpenRegions + 1) :
    ∃ victim used, firstMin c.regionUse.entries = some (victim, used) ∧
      c.evictRegions = c.drop victim := by
  have hsizes : c.regionUse.size = c.regions.size := by
    rw [OrdMap.size_eq_card, OrdMap.size_eq_card, hkeys]
  have hne : c.regionUse.entries ≠ [] := by
    intro hnil
    have : c.regionUse.size = 0 := by rw [OrdMap.size, hnil]; rfl
    omega
  obtain ⟨⟨victim, used⟩, hvictim⟩ := firstMin_isSome hne
  refine ⟨victim, used, hvictim, ?_⟩
  have hmem : victim ∈ c.regions.keys := by
    rw [← hkeys]
    exact OrdMap.mem_keys.mpr
      ⟨used, OrdMap.mem_entries.mp (firstMin_spec hvictim c.regionUse.sorted).1⟩
  have hdrop : (c.drop victim).regions.size ≤ (c.drop victim).maxOpenRegions := by
    rw [OrdMap.size_eq_card] at hover ⊢
    simp only [drop, OrdMap.keys_erase, Finset.card_erase_of_mem hmem]
    omega
  rw [evictRegions, hsizes, hover, evictLoop, if_pos (by omega), hvictim]
  exact evictLoop_within _ hdrop

/-! ## Uses -/

/-- Opening `key` evicts it again: the cache is full of handles that carry the stamp it gets, and
its key is the lowest. -/
def EvictsItself (c : RegionCache κ H) (key : κ) : Prop :=
  key ∉ c.regions.keys ∧ c.regions.size = c.maxOpenRegions ∧
    ∀ k u, c.regionUse.get? k = some u → u = c.useCounter ∧ key < k

theorem firstMin_insert {c : RegionCache κ H} (hc : Consistent c) {key victim : κ} {used : Nat}
    (hkey : key ∉ c.regions.keys)
    (h : firstMin (c.regionUse.insert key c.useCounter).entries = some (victim, used)) :
    victim = key ↔ ∀ k u, c.regionUse.get? k = some u → u = c.useCounter ∧ key < k := by
  obtain ⟨hmem, hle⟩ := firstMin_spec h (c.regionUse.insert key c.useCounter).sorted
  have hget := OrdMap.mem_entries.mp hmem
  rw [OrdMap.get?_insert] at hget
  constructor
  · rintro rfl k u hk
    have hne : victim ≠ k := by
      rintro rfl
      rw [← hc.keys] at hkey
      exact hkey (OrdMap.mem_keys.mpr ⟨u, hk⟩)
    rw [if_pos rfl] at hget
    cases hget
    have hentry : (k, u) ∈ (c.regionUse.insert victim c.useCounter).entries := by
      rw [OrdMap.mem_entries, OrdMap.get?_insert, if_neg hne]
      exact hk
    have hstamp := hc.stamps k u hk
    rcases hle _ hentry with hlt | ⟨heq, hkle⟩
    · dsimp only at hlt
      omega
    · exact ⟨heq.symm, lt_of_le_of_ne hkle hne⟩
  · intro hall
    by_contra hne
    rw [if_neg (Ne.symm hne)] at hget
    obtain ⟨hused, hlt⟩ := hall victim used hget
    have hentry : (key, c.useCounter) ∈ (c.regionUse.insert key c.useCounter).entries := by
      rw [OrdMap.mem_entries, OrdMap.get?_insert, if_pos rfl]
    rcases hle _ hentry with hlt' | ⟨-, hkle⟩
    · dsimp only at hlt'
      omega
    · exact absurd hlt (not_lt.mpr hkle)

/-- The cache once the handle is in it. -/
theorem ensure_spec {c : RegionCache κ H} (hc : Consistent c) (key : κ) (opened : ServerResult H) :
    (∃ e, key ∉ c.regions.keys ∧ opened = .error e ∧ c.ensure key opened = .error e) ∨
    ∃ c', c.ensure key opened = .ok c' ∧ Consistent c' ∧
      c'.maxOpenRegions = c.maxOpenRegions ∧
      (key ∈ c'.regions.keys ↔ ¬((∃ handle, opened = .ok handle) ∧ EvictsItself c key)) := by
  by_cases hin : key ∈ c.regions.keys
  · refine .inr ⟨c, by rw [ensure, if_pos hin], hc, rfl, iff_of_true hin fun h => h.2.1 hin⟩
  cases opened with
  | error e => exact .inl ⟨e, hin, rfl, by rw [ensure, if_neg hin]; rfl⟩
  | ok handle =>
    have hin' : key ∉ c.regionUse.keys := by rw [hc.keys]; exact hin
    set c₁ : RegionCache κ H := { c with
      regions := c.regions.insert key handle
      regionUse := c.regionUse.insert key c.useCounter } with hc₁
    have hensure : c.ensure key (.ok handle) = .ok c₁.evictRegions := by
      rw [ensure, if_neg hin]
      rfl
    have hkeys₁ : c₁.regionUse.keys = c₁.regions.keys := by
      simp only [hc₁, OrdMap.keys_insert, hc.keys]
    have hsize₁ : c₁.regions.size = c.regions.size + 1 := by
      rw [OrdMap.size_eq_card, OrdMap.size_eq_card, hc₁, OrdMap.keys_insert,
        Finset.card_insert_of_notMem hin]
    obtain ⟨hkeys, hbound, hcounter, hcap, hstamps⟩ := evictRegions_spec hkeys₁
    refine .inr ⟨c₁.evictRegions, hensure, ⟨hkeys, by rw [hcap]; exact hbound, ?_, ?_, ?_⟩, hcap, ?_⟩
    · rw [hcap]
      exact hc.cap
    · intro k u hk
      have hk' := hstamps k u hk
      rw [hcounter]
      simp only [hc₁, OrdMap.get?_insert] at hk' ⊢
      split at hk'
      · cases hk'
        exact le_refl _
      · exact hc.stamps k u hk'
    · rw [hcounter]
      exact hc.counter
    · have hkey₁ : key ∈ c₁.regions.keys := by
        rw [hc₁, OrdMap.keys_insert]
        exact Finset.mem_insert_self ..
      by_cases hfull : c.regions.size = c.maxOpenRegions
      · obtain ⟨victim, used, hvictim, hdrop⟩ := evictRegions_one hkeys₁ (by rw [hsize₁, hfull])
        have hself := firstMin_insert hc hin hvictim
        rw [hdrop, drop, OrdMap.keys_erase, Finset.mem_erase, ne_comm, ne_eq, hself]
        constructor
        · exact fun h hself => h.1 hself.2.2.2
        · exact fun h => ⟨fun hall => h ⟨⟨handle, rfl⟩, hin, hfull, hall⟩, hkey₁⟩
      · have hroom := hc.bounded
        rw [evictRegions_within (c := c₁) (by rw [hsize₁]; show _ ≤ c.maxOpenRegions; omega)]
        exact iff_of_true hkey₁ fun h => hfull h.2.2.1

/-- A use of the cache, or a new cap. -/
inductive Op (κ H : Type) where
  | use (key : κ) (opened : ServerResult H) (f : H → ServerResult Unit × H)
  | setCap (limit : Nat)

def step (c : RegionCache κ H) : Op κ H → RegionCache κ H
  | .use key opened f => (c.withRegion key opened f).2
  | .setCap limit => c.setMaxOpenRegions limit

/-- The closure is reached, but for a file that does not open. -/
def Reaches (c : RegionCache κ H) : Op κ H → Prop
  | .use key opened _ => ∀ e, (c.take key opened).1 = .error e →
      key ∉ c.regions.keys ∧ opened = .error e
  | .setCap _ => True

/-- What one operation must do. -/
def Serves (c : RegionCache κ H) (op : Op κ H) : Prop :=
  c.Reaches op ∧ (c.step op).regions.size ≤ (c.step op).maxOpenRegions ∧
    (c.step op).regionUse.keys = (c.step op).regions.keys

/-- The operation opens a file whose handle it evicts. -/
def SelfEvicting (c : RegionCache κ H) : Op κ H → Prop
  | .use key opened _ => (∃ handle, opened = .ok handle) ∧ EvictsItself c key
  | .setCap _ => False

theorem setMaxOpenRegions_consistent {c : RegionCache κ H} (hc : Consistent c) (limit : Nat) :
    Consistent (c.setMaxOpenRegions limit) := by
  obtain ⟨hkeys, hbound, hcounter, hcap, hstamps⟩ :=
    evictRegions_spec (c := { c with maxOpenRegions := max limit 1 }) hc.keys
  refine ⟨hkeys, ?_, ?_, fun k u h => ?_, ?_⟩
  · rw [setMaxOpenRegions, hcap]
    exact hbound
  · rw [setMaxOpenRegions, hcap]
    exact le_max_right _ _
  · rw [setMaxOpenRegions, hcounter]
    exact hc.stamps k u (hstamps k u h)
  · rw [setMaxOpenRegions, hcounter]
    exact hc.counter

theorem le_succCounter {n : Nat} (h : n ≤ 2 ^ 64 - 1) : n ≤ succCounter n := by
  unfold succCounter
  omega

theorem stamp_consistent {c : RegionCache κ H} (hc : Consistent c) {key : κ}
    (hkey : key ∈ c.regions.keys) : Consistent (c.stamp key) := by
  refine ⟨?_, hc.bounded, hc.cap, fun k u h => ?_, Nat.min_le_right _ _⟩
  · rw [stamp, OrdMap.keys_insert, hc.keys]
    exact Finset.insert_eq_of_mem hkey
  · simp only [stamp, OrdMap.get?_insert] at h ⊢
    split at h
    · cases h
      exact le_refl _
    · exact (hc.stamps k u h).trans (le_succCounter hc.counter)

/-- The handle goes back where it was taken. -/
theorem putBack_consistent {c : RegionCache κ H} (hc : Consistent c) {key : κ}
    (hkey : key ∈ c.regions.keys) (handle : H) :
    Consistent { c with regions := (c.regions.erase key).insert key handle } := by
  have hkeys : ((c.regions.erase key).insert key handle).keys = c.regions.keys := by
    rw [OrdMap.keys_insert, OrdMap.keys_erase, Finset.insert_erase hkey]
  refine ⟨?_, ?_, hc.cap, hc.stamps, hc.counter⟩
  · rw [hc.keys, hkeys]
  · have := hc.bounded
    rw [OrdMap.size_eq_card] at this ⊢
    rw [hkeys]
    exact this

/-- A use that does not evict its own handle reaches the closure and keeps the cache. -/
theorem use_served {c : RegionCache κ H} (hc : Consistent c) {key : κ} {opened : ServerResult H}
    (hself : ¬((∃ handle, opened = .ok handle) ∧ EvictsItself c key))
    (f : H → ServerResult Unit × H) :
    c.Reaches (.use key opened f) ∧ Consistent (c.step (.use key opened f)) := by
  rcases ensure_spec hc key opened with ⟨e, hin, hopened, hensure⟩ | ⟨c', hensure, hc', -, hkey⟩
  · simp only [Reaches, step, withRegion, take, hensure]
    refine ⟨fun e' he' => ?_, hc⟩
    cases he'
    exact ⟨hin, hopened⟩
  · have hmem := hkey.mpr hself
    have hc'' := stamp_consistent hc' hmem
    obtain ⟨handle, hget⟩ := OrdMap.mem_keys.mp hmem
    have hget' : (c'.stamp key).regions.get? key = some handle := hget
    have hback := putBack_consistent hc'' hmem (f handle).2
    simp only [Reaches, step, withRegion, take, hensure, hget']
    refine ⟨fun e he => (nomatch he), ?_⟩
    rw [evictRegions_within hback.bounded]
    exact hback

/-- A use that evicts its own handle fails. -/
theorem use_vanishes {c : RegionCache κ H} (hc : Consistent c) {key : κ} {opened : ServerResult H}
    (hself : (∃ handle, opened = .ok handle) ∧ EvictsItself c key) :
    (c.take key opened).1 = .error vanished := by
  obtain ⟨⟨handle, rfl⟩, hself⟩ := hself
  rcases ensure_spec hc key (.ok handle) with ⟨e, -, hopened, -⟩ | ⟨c', hensure, -, -, hkey⟩
  · cases hopened
  · have hnone : (c'.stamp key).regions.get? key = none :=
      OrdMap.get?_eq_none.mpr fun h => hkey.mp h ⟨⟨handle, rfl⟩, hself⟩
    simp only [take, hensure, hnone]

theorem serves_iff {c : RegionCache κ H} (hc : Consistent c) (op : Op κ H) :
    c.Serves op ↔ ¬c.SelfEvicting op := by
  cases op with
  | setCap limit =>
    have h := setMaxOpenRegions_consistent hc limit
    exact iff_of_true ⟨trivial, h.bounded, h.keys⟩ id
  | use key opened f =>
    constructor
    · rintro ⟨hreach, -, -⟩ hself
      obtain ⟨-, hopened⟩ := hreach _ (use_vanishes hc hself)
      obtain ⟨⟨handle, hok⟩, -⟩ := hself
      rw [hok] at hopened
      cases hopened
    · intro hself
      obtain ⟨hreach, h⟩ := use_served hc hself f
      exact ⟨hreach, h.bounded, h.keys⟩

theorem step_consistent {c : RegionCache κ H} {op : Op κ H} (hc : Consistent c)
    (hself : ¬c.SelfEvicting op) : Consistent (c.step op) := by
  cases op with
  | setCap limit => exact setMaxOpenRegions_consistent hc limit
  | use key opened f => exact (use_served hc hself f).2

/-- From a fresh cache every operation is served exactly when none evicts the handle it opens. -/
theorem run_serves_iff (ops : List (Op κ H)) :
    Along step Serves (fresh : RegionCache κ H) ops ↔
      Along step (fun c op => ¬c.SelfEvicting op) fresh ops :=
  along_iff_of (fun _ _ hc h => step_consistent hc h) (fun _ op hc => serves_iff hc op) ops
    fresh_consistent

def overworldRegion (x z : Int) : RegionKey := toLex (.overworld, toLex (x, z))

/-- With a cap of 1, opening region (5, 0) and then region (3, 0) loses the second handle. -/
theorem cap_one_vanishes : ¬Along step Serves (fresh : RegionCache RegionKey Unit)
    [.setCap 1, .use (overworldRegion 5 0) (.ok ()) fun h => (.ok (), h),
      .use (overworldRegion 3 0) (.ok ()) fun h => (.ok (), h)] := by
  rintro ⟨-, -, ⟨h, -⟩, -⟩
  have hvanished := h vanished (by decide)
  cases hvanished.2

end RegionCache
end Apoptosis.L2.Storage
