import Mathlib.Tactic
/-!
# The sector bitmap of a region file (`persistence/src/region.rs`)

Which 4096-byte sectors of a region file are in use: marking and freeing runs,
which pass over what lies beyond the bitmap, and the allocation of a run,
first-fit with growth at the end.

`allocate_fresh` is the whole of an allocation: the run is new, its sectors are
the only ones that change, and every window of its size before it is blocked.
-/
namespace Apoptosis.L2.Storage

/-- The first sector a chunk may use; 0 and 1 are the header. -/
def FIRST_CHUNK_SECTOR : Nat := 2

/-- mirrors crates/persistence/src/region.rs:188-190 (`SectorBitmap`) -/
@[ext] structure SectorBitmap where
  used : List Bool
  deriving DecidableEq, Repr

namespace SectorBitmap

/-- The loop of `mark` and of `free`. -/
def setRun (b : SectorBitmap) (value : Bool) (sector count : Nat) : SectorBitmap :=
  -- `sector..sector.saturating_add(count)`, in `u32`
  let past := min (sector + count) (2 ^ 32 - 1)
  ⟨(List.range' sector (past - sector)).foldl (fun used index => used.set index value) b.used⟩

/-- mirrors crates/persistence/src/region.rs:210-216 (`SectorBitmap::mark`) -/
def mark (b : SectorBitmap) (sector count : Nat) : SectorBitmap := b.setRun true sector count

/-- mirrors crates/persistence/src/region.rs:218-224 (`SectorBitmap::free`) -/
def free (b : SectorBitmap) (sector count : Nat) : SectorBitmap := b.setRun false sector count

/-- `Vec::resize(len, false)` -/
def resize (b : SectorBitmap) (len : Nat) : SectorBitmap :=
  ⟨b.used.take len ++ List.replicate (len - b.used.length) false⟩

/-- The search of `allocate`, at `index` with `runLen` free sectors from `runStart` on. -/
def findRun (needed : Nat) : List Bool → (index runStart runLen : Nat) → Option Nat
  | [], _, _, _ => none
  | true :: rest, index, _, _ => findRun needed rest (index + 1) (index + 1) 0
  | false :: rest, index, runStart, runLen =>
    if runLen + 1 = needed then some runStart
    else findRun needed rest (index + 1) runStart (runLen + 1)

def search (b : SectorBitmap) (count : Nat) : Option Nat :=
  findRun count (b.used.drop FIRST_CHUNK_SECTOR) FIRST_CHUNK_SECTOR FIRST_CHUNK_SECTOR 0

/-- mirrors crates/persistence/src/region.rs:227-248 (`SectorBitmap::allocate`) -/
def allocate (b : SectorBitmap) (count : Nat) : Nat × SectorBitmap :=
  match b.search count with
  | some runStart => (runStart % 2 ^ 32, b.mark (runStart % 2 ^ 32) count)
  | none =>
    -- no run big enough: append at the end of the file
    let sector := max b.used.length FIRST_CHUNK_SECTOR % 2 ^ 32
    (sector, (b.resize (sector + count)).mark sector count)

/-- mirrors crates/persistence/src/region.rs:250-252 (`SectorBitmap::sectors`) -/
def sectors (b : SectorBitmap) : Nat := b.used.length % 2 ^ 32

/-- Sector `i` is in the bitmap and marked. -/
def Used (b : SectorBitmap) (i : Nat) : Prop := b.used[i]? = some true

instance (b : SectorBitmap) (i : Nat) : Decidable (b.Used i) := inferInstanceAs (Decidable (_ = _))

theorem Used.lt {b : SectorBitmap} {i : Nat} (h : b.Used i) : i < b.used.length :=
  (List.getElem?_eq_some_iff.mp h).1

/-- A bitmap is its length and its marks. -/
theorem ext_used {b b' : SectorBitmap} (hlen : b.used.length = b'.used.length)
    (h : ∀ i, b.Used i ↔ b'.Used i) : b = b' := by
  refine SectorBitmap.ext (List.ext_getElem hlen fun i hi hi' => ?_)
  have hused := h i
  simp only [Used, List.getElem?_eq_getElem hi, List.getElem?_eq_getElem hi', Option.some.injEq] at hused
  exact Bool.eq_iff_iff.mpr hused

/-! ## Marking and freeing -/

theorem foldl_set_length (value : Bool) (is : List Nat) (used : List Bool) :
    (is.foldl (fun used index => used.set index value) used).length = used.length := by
  induction is generalizing used with
  | nil => rfl
  | cons i is ih => rw [List.foldl_cons, ih, List.length_set]

theorem foldl_set_getElem? (value : Bool) (is : List Nat) (used : List Bool) (j : Nat) :
    (is.foldl (fun used index => used.set index value) used)[j]? =
      if j ∈ is ∧ j < used.length then some value else used[j]? := by
  induction is generalizing used with
  | nil => simp
  | cons i is ih =>
    rw [List.foldl_cons, ih, List.length_set, List.getElem?_set]
    by_cases hj : j ∈ is <;> by_cases hij : i = j <;> by_cases hlt : j < used.length <;>
      simp_all [eq_comm]

variable {b : SectorBitmap} {value : Bool} {sector count : Nat}

@[simp] theorem setRun_length : (b.setRun value sector count).used.length = b.used.length :=
  foldl_set_length value _ _

@[simp] theorem mark_length : (b.mark sector count).used.length = b.used.length := setRun_length

@[simp] theorem free_length : (b.free sector count).used.length = b.used.length := setRun_length

theorem setRun_getElem? (h : sector + count < 2 ^ 32) (i : Nat) :
    (b.setRun value sector count).used[i]? =
      if (sector ≤ i ∧ i < sector + count) ∧ i < b.used.length then some value else b.used[i]? := by
  have hpast : min (sector + count) (2 ^ 32 - 1) = sector + count := by omega
  unfold setRun
  dsimp only
  rw [hpast, Nat.add_sub_cancel_left, foldl_set_getElem?]
  simp only [List.mem_range'_1]

theorem mark_used (h : sector + count < 2 ^ 32) (i : Nat) : (b.mark sector count).Used i ↔
    b.Used i ∨ ((sector ≤ i ∧ i < sector + count) ∧ i < b.used.length) := by
  unfold Used mark
  rw [setRun_getElem? h]
  by_cases hin : (sector ≤ i ∧ i < sector + count) ∧ i < b.used.length <;> simp [hin]

theorem free_used (h : sector + count < 2 ^ 32) (i : Nat) : (b.free sector count).Used i ↔
    b.Used i ∧ ¬(sector ≤ i ∧ i < sector + count) := by
  by_cases hin : sector ≤ i ∧ i < sector + count
  · refine ⟨fun hused => ?_, fun hused => absurd hin hused.2⟩
    have hlt := hused.lt
    rw [free_length] at hlt
    unfold Used free at hused
    rw [setRun_getElem? h, if_pos ⟨hin, hlt⟩] at hused
    exact nomatch hused
  · unfold Used free
    rw [setRun_getElem? h, if_neg fun hc => hin hc.1]
    exact ⟨fun hused => ⟨hused, hin⟩, And.left⟩

theorem resize_length {len : Nat} (h : b.used.length ≤ len) : (b.resize len).used.length = len := by
  simp only [resize, List.length_append, List.length_take, List.length_replicate]
  omega

theorem resize_used {len : Nat} (h : b.used.length ≤ len) (i : Nat) : (b.resize len).Used i ↔ b.Used i := by
  unfold Used resize
  dsimp only
  rw [List.take_of_length_le h]
  by_cases hi : i < b.used.length
  · rw [List.getElem?_append_left hi]
  · rw [List.getElem?_append_right (by omega), List.getElem?_replicate, List.getElem?_eq_none (by omega)]
    split <;> simp

/-! ## Allocation -/

/-- Every window of `count` sectors that starts at sector 2 or later and ends by `past` is blocked. -/
def Blocked (b : SectorBitmap) (count past : Nat) : Prop :=
  ∀ j, FIRST_CHUNK_SECTOR ≤ j → j + count ≤ past → ∃ i, j ≤ i ∧ i < j + count ∧ b.Used i

/-- What the search has found when it stands at `index`. -/
structure Searched (b : SectorBitmap) (needed index runStart runLen : Nat) : Prop where
  low : FIRST_CHUNK_SECTOR ≤ runStart
  at_index : runStart + runLen = index
  short : runLen < needed
  unused : ∀ i, runStart ≤ i → i < index → ¬b.Used i
  blocked : ∀ j, FIRST_CHUNK_SECTOR ≤ j → j < runStart → ∃ i, j ≤ i ∧ i < j + needed ∧ b.Used i

/-- Induction on what is left to search. -/
theorem findRun_spec {needed : Nat} (rest : List Bool) {index runStart runLen : Nat}
    (hrest : b.used.drop index = rest) (h : Searched b needed index runStart runLen) :
    match findRun needed rest index runStart runLen with
    | some sector => FIRST_CHUNK_SECTOR ≤ sector ∧ sector + needed ≤ b.used.length ∧
        (∀ i, sector ≤ i → i < sector + needed → ¬b.Used i) ∧ b.Blocked needed sector
    | none => b.Blocked needed (max b.used.length index) := by
  obtain ⟨hlow, hat, hshort, hunused, hblocked⟩ := h
  induction rest generalizing index runStart runLen with
  | nil =>
    have hend := List.drop_eq_nil_iff.mp hrest
    intro j hj hpast
    by_cases hlt : j < runStart
    · exact hblocked j hj hlt
    · omega
  | cons sector rest ih =>
    have hnext : b.used.drop (index + 1) = rest := by
      rw [← List.drop_drop, hrest, List.drop_one, List.tail_cons]
    have hlt : index < b.used.length := by
      by_contra hge
      rw [List.drop_of_length_le (by omega)] at hrest
      exact nomatch hrest
    have hindex : b.used[index]? = some sector := by
      rw [← Nat.add_zero index, ← List.getElem?_drop, hrest]
      rfl
    have hmax : max b.used.length index = max b.used.length (index + 1) := by omega
    rw [hmax]
    cases sector with
    | true =>
      -- the windows that start in the run just broken off hold `index`
      refine ih hnext (by omega) rfl (by omega) (fun i hi hi' => absurd hi (by omega)) fun j hj hjlt => ?_
      by_cases hold : j < runStart
      · exact hblocked j hj hold
      · exact ⟨index, by omega, by omega, hindex⟩
    | false =>
      have hfree : ¬b.Used index := by
        intro hused
        rw [Used, hindex] at hused
        exact nomatch hused
      have hunused' : ∀ i, runStart ≤ i → i < index + 1 → ¬b.Used i := by
        intro i hi hi'
        by_cases heq : i = index
        · exact heq ▸ hfree
        · exact hunused i hi (by omega)
      unfold findRun
      by_cases hfull : runLen + 1 = needed
      · rw [if_pos hfull]
        refine ⟨hlow, by omega, fun i hi hi' => hunused' i hi (by omega), fun j hj hpast => ?_⟩
        exact hblocked j hj (by omega)
      · rw [if_neg hfull]
        exact ih hnext hlow (by omega) (by omega) hunused' hblocked

/-- Where the run goes, before the sector number is cut to 32 bits. -/
def place (b : SectorBitmap) (count : Nat) : Nat :=
  (b.search count).getD (max b.used.length FIRST_CHUNK_SECTOR)

/-- A new run of `count` sectors from `sector` on, which turns `b` into `b'`. -/
structure Fresh (b : SectorBitmap) (count sector : Nat) (b' : SectorBitmap) : Prop where
  low : FIRST_CHUNK_SECTOR ≤ sector
  unused : ∀ i, sector ≤ i → i < sector + count → ¬b.Used i
  length : b'.used.length = max b.used.length (sector + count)
  marks : ∀ i, b'.Used i ↔ b.Used i ∨ (sector ≤ i ∧ i < sector + count)

theorem search_spec (hcount : 0 < count) :
    match b.search count with
    | some sector => FIRST_CHUNK_SECTOR ≤ sector ∧ sector + count ≤ b.used.length ∧
        (∀ i, sector ≤ i → i < sector + count → ¬b.Used i) ∧ b.Blocked count sector
    | none => b.Blocked count (max b.used.length FIRST_CHUNK_SECTOR) :=
  findRun_spec _ rfl ⟨le_rfl, rfl, hcount, fun _ hi hi' => absurd hi (by omega),
    fun _ hj hj' => absurd hj (by omega)⟩

theorem place_blocked (hcount : 0 < count) : b.Blocked count (b.place count) := by
  have hspec := search_spec (b := b) hcount
  unfold place
  cases hsearch : b.search count with
  | none =>
    rw [hsearch] at hspec
    exact hspec
  | some sector =>
    rw [hsearch] at hspec
    exact hspec.2.2.2

theorem allocate_fresh (hcount : 0 < count) (h : b.place count + count < 2 ^ 32) :
    Fresh b count (b.place count) (b.allocate count).2 ∧ (b.allocate count).1 = b.place count := by
  have hspec := search_spec (b := b) hcount
  unfold place at h ⊢
  unfold allocate
  cases hsearch : b.search count with
  | some sector =>
    rw [hsearch] at hspec h
    simp only [Option.getD_some] at h ⊢
    obtain ⟨hlow, hend, hunused, -⟩ := hspec
    rw [Nat.mod_eq_of_lt (by omega)]
    refine ⟨⟨hlow, hunused, ?_, fun i => ?_⟩, rfl⟩
    · rw [mark_length]
      omega
    · rw [mark_used h]
      exact or_congr_right ⟨And.left, fun hi => ⟨hi, by omega⟩⟩
  | none =>
    rw [hsearch] at h
    simp only [Option.getD_none] at h ⊢
    generalize hsector : max b.used.length FIRST_CHUNK_SECTOR = sector at h ⊢
    have hlen : b.used.length ≤ sector + count := by omega
    rw [Nat.mod_eq_of_lt (by omega)]
    refine ⟨⟨by omega, fun i hi _ hused => ?_, ?_, fun i => ?_⟩, rfl⟩
    · have := hused.lt
      omega
    · rw [mark_length, resize_length hlen]
      omega
    · rw [mark_used h, resize_used hlen, resize_length hlen]
      exact or_congr_right ⟨And.left, fun hi => ⟨hi, hi.2⟩⟩

end SectorBitmap
end Apoptosis.L2.Storage
