import Apoptosis.ServerError
import Mathlib.Tactic
/-!
# Bit packing (`core/src/packing.rs`)

Values of one width in 64-bit words, the first in the lowest bits. No value
crosses the end of a word; what is left there is zero.

* `Packed`: a list of values is in an array of words, bit by bit.
* `unpack_pack`: what is packed at a width that holds it is unpacked again.
* `unpack_lt`: what is unpacked fits the width.
* `unpack_overwrite`: one value replaced, and no other.
* `le_bitsFor`: the width of a palette holds its indices.
-/
namespace Apoptosis.L1.Packing

def BLOCK_ENTRIES : Nat := 4096
def BIOME_ENTRIES : Nat := 64
def BLOCK_MIN_BITS : Nat := 4
def BIOME_MIN_BITS : Nat := 1
def MAX_BITS : Nat := 32

/-- How many bits a number takes. -/
def bitWidth (n : Nat) : Nat := if n = 0 then 0 else n.log2 + 1

def bitsNeeded (paletteLen : Nat) : Nat := if paletteLen ≤ 1 then 0 else bitWidth (paletteLen - 1)

/-- mirrors crates/core/src/packing.rs:45-52 (`bits_for`) -/
def bitsFor (paletteLen minBits : Nat) : Nat :=
  if bitsNeeded paletteLen < minBits then minBits else bitsNeeded paletteLen

/-- mirrors crates/core/src/packing.rs:56-58 (`values_per_long`) -/
def valuesPerLong (bits : Nat) : Nat := 64 / bits

/-- mirrors crates/core/src/packing.rs:62-65 (`longs_needed`) -/
def longsNeeded (entries bits : Nat) : Nat := (entries + valuesPerLong bits - 1) / valuesPerLong bits

def mask (bits : Nat) : BitVec 64 := BitVec.ofNat 64 (2 ^ bits - 1)

/-- A value shifted to the place of its index in its word. -/
def field (bits index value : Nat) : BitVec 64 :=
  (BitVec.ofNat 64 value &&& mask bits) <<< (index % valuesPerLong bits * bits)

/-- The loop of `pack`, from the value at `index`. -/
def packLoop (bits : Nat) : List Nat → Nat → List (BitVec 64) → List (BitVec 64)
  | [], _, out => out
  | value :: values, index, out =>
    packLoop bits values (index + 1) (out.modify (index / valuesPerLong bits) (· ||| field bits index value))

/-- mirrors crates/core/src/packing.rs:74-89 (`pack`) -/
def pack (values : List Nat) (bits : Nat) : ServerResult (List (BitVec 64)) :=
  if ¬ (1 ≤ bits ∧ bits ≤ MAX_BITS) then
    .error (.invariant ("packing bit width " ++ toString bits ++ " is outside 1..=32"))
  else .ok (packLoop bits values 0 (List.replicate (longsNeeded values.length bits) 0))

/-- The value at an index. -/
def valueAt (data : List (BitVec 64)) (bits index : Nat) : Nat :=
  ((data.getD (index / valuesPerLong bits) 0 >>> (index % valuesPerLong bits * bits)) &&& mask bits).toNat

/-- mirrors crates/core/src/packing.rs:98-120 (`unpack`) -/
def unpack (data : List (BitVec 64)) (bits entries : Nat) : ServerResult (List Nat) :=
  if ¬ (1 ≤ bits ∧ bits ≤ MAX_BITS) then
    .error (.corruptData ("packed container declares an invalid " ++ toString bits ++ "-bit width"))
  else if data.length < longsNeeded entries bits then
    .error (.corruptData ("packed container needs " ++ toString (longsNeeded entries bits) ++
      " longs for " ++ toString entries ++ " entries at " ++ toString bits ++ " bits, has " ++
      toString data.length))
  else .ok ((List.range entries).map (valueAt data bits))

/-- The value at an index replaced: its place cleared, then the new value put in. -/
def overwrite (bits index value : Nat) (data : List (BitVec 64)) : List (BitVec 64) :=
  data.modify (index / valuesPerLong bits) fun word =>
    (word &&& ~~~(mask bits <<< (index % valuesPerLong bits * bits))) ||| field bits index value

/-! ## Widths -/

theorem min_le_bitsFor (n minBits : Nat) : minBits ≤ bitsFor n minBits := by
  unfold bitsFor
  split <;> omega

theorem bitsNeeded_le_bitsFor (n minBits : Nat) : bitsNeeded n ≤ bitsFor n minBits := by
  unfold bitsFor
  split <;> omega

theorem le_bitsFor {n minBits i : Nat} (h : i < n) : i < 2 ^ bitsFor n minBits := by
  have hneeded : i < 2 ^ bitsNeeded n := by
    unfold bitsNeeded
    split
    · rw [pow_zero]
      omega
    · rw [bitWidth, if_neg (by omega)]
      exact lt_of_le_of_lt (by omega : i ≤ n - 1) Nat.lt_log2_self
  exact hneeded.trans_le (Nat.pow_le_pow_right (by omega) (bitsNeeded_le_bitsFor n minBits))

theorem bitsFor_le {n minBits w : Nat} (hmin : minBits ≤ w) (hn : n ≤ 2 ^ w) : bitsFor n minBits ≤ w := by
  have hneeded : bitsNeeded n ≤ w := by
    unfold bitsNeeded
    split
    · omega
    · rw [bitWidth, if_neg (by omega)]
      exact (Nat.log2_lt (by omega)).mpr (by omega)
  unfold bitsFor
  split
  · exact hmin
  · exact hneeded

variable {bits : Nat}

theorem valuesPerLong_pos (hlo : 1 ≤ bits) (hhi : bits ≤ 64) : 0 < valuesPerLong bits :=
  Nat.div_pos hhi hlo

theorem valuesPerLong_mul_le (bits : Nat) : valuesPerLong bits * bits ≤ 64 := Nat.div_mul_le_self 64 bits

theorem le_longsNeeded_mul (hp : 0 < valuesPerLong bits) (entries : Nat) :
    entries ≤ longsNeeded entries bits * valuesPerLong bits := by
  unfold longsNeeded
  have hdiv := Nat.div_add_mod (entries + valuesPerLong bits - 1) (valuesPerLong bits)
  have hmod := Nat.mod_lt (entries + valuesPerLong bits - 1) hp
  rw [Nat.mul_comm] at hdiv
  omega

/-! ## Bits -/

theorem getLsbD_mask (i : Nat) (hi : i < 64) : (mask bits).getLsbD i = decide (i < bits) := by
  rw [mask, BitVec.getLsbD_ofNat, Nat.testBit_two_pow_sub_one]
  simp [hi]

theorem getLsbD_field (index value k : Nat) (hk : k < 64) : (field bits index value).getLsbD k =
    (decide (k / bits = index % valuesPerLong bits ∧ 0 < bits) && value.testBit (k % bits)) := by
  set place := index % valuesPerLong bits with hplace
  rw [field, BitVec.getLsbD_shiftLeft, ← hplace]
  by_cases hin : k / bits = place ∧ 0 < bits
  · obtain ⟨hdiv, hpos⟩ := hin
    have hsplit := Nat.div_add_mod k bits
    rw [hdiv, Nat.mul_comm] at hsplit
    have hmod := Nat.mod_lt k hpos
    have hsub : k - place * bits = k % bits := by omega
    rw [hsub, BitVec.getLsbD_and, BitVec.getLsbD_ofNat, getLsbD_mask _ (by omega)]
    simp [hdiv, hpos, hmod, show k % bits < 64 by omega, show ¬ k < place * bits by omega, hk]
  · rw [decide_eq_false hin, Bool.false_and]
    by_cases hlow : k < place * bits
    · simp [hlow]
    · rw [BitVec.getLsbD_and, getLsbD_mask _ (by omega)]
      have hnot : ¬ k - place * bits < bits := by
        intro hlt
        refine hin ⟨?_, by omega⟩
        refine (Nat.div_eq_iff (by omega)).mpr ?_
        constructor <;> omega
      simp [hnot]

theorem div_mod_place {n slot place : Nat} (h : place < n) :
    (slot * n + place) / n = slot ∧ (slot * n + place) % n = place := by
  rw [Nat.mul_comm, Nat.mul_add_div (by omega), Nat.mul_add_mod, Nat.div_eq_of_lt h, Nat.mod_eq_of_lt h]
  exact ⟨Nat.add_zero slot, rfl⟩

/-- The values lie in the words at their places, and the other bits are zero. -/
def Packed (bits : Nat) (values : List Nat) (out : List (BitVec 64)) : Prop :=
  ∀ slot word, out[slot]? = some word → ∀ k < 64, word.getLsbD k =
    (decide (k / bits < valuesPerLong bits) &&
      (values[slot * valuesPerLong bits + k / bits]?.getD 0).testBit (k % bits))

theorem Packed.push {values : List Nat} {out : List (BitVec 64)} (hlo : 1 ≤ bits) (hhi : bits ≤ 64)
    (h : Packed bits values out) (value : Nat) :
    Packed bits (values ++ [value])
      (out.modify (values.length / valuesPerLong bits) (· ||| field bits values.length value)) := by
  have hp := valuesPerLong_pos hlo hhi
  intro slot word' hword' k hk
  rw [List.getElem?_modify, Option.map_eq_map, Option.map_eq_some_iff] at hword'
  obtain ⟨word, hword, hword'⟩ := hword'
  have hold := h slot word hword k hk
  have hsplit := Nat.div_add_mod values.length (valuesPerLong bits)
  rw [Nat.mul_comm] at hsplit
  by_cases hin : k / bits < valuesPerLong bits
  · by_cases hplace : slot * valuesPerLong bits + k / bits = values.length
    · obtain ⟨hdiv, hmod⟩ := div_mod_place hin
      rw [hplace] at hdiv hmod
      rw [if_pos hdiv] at hword'
      rw [hplace, List.getElem?_eq_none le_rfl] at hold
      rw [← hword', BitVec.getLsbD_or, hold, getLsbD_field _ _ _ hk, hmod, hplace,
        List.getElem?_concat_length]
      simp [hin, show 0 < bits by omega]
    · have hsame : (values ++ [value])[slot * valuesPerLong bits + k / bits]? =
          values[slot * valuesPerLong bits + k / bits]? := by
        by_cases hlt : slot * valuesPerLong bits + k / bits < values.length
        · exact List.getElem?_append_left hlt
        · have hlen : (values ++ [value]).length ≤ slot * valuesPerLong bits + k / bits := by
            rw [List.length_append, List.length_singleton]
            omega
          rw [List.getElem?_eq_none hlen, List.getElem?_eq_none (by omega)]
      rw [hsame, ← hword']
      split
      · rename_i hdiv
        rw [BitVec.getLsbD_or, hold, getLsbD_field _ _ _ hk]
        rw [hdiv] at hsplit
        have hne : ¬ (k / bits = values.length % valuesPerLong bits ∧ 0 < bits) := fun heq =>
          hplace (by omega)
        rw [decide_eq_false hne, Bool.false_and, Bool.or_false]
      · exact hold
  · rw [decide_eq_false hin, Bool.false_and] at hold ⊢
    rw [← hword']
    split
    · rw [BitVec.getLsbD_or, hold, getLsbD_field _ _ _ hk]
      have hmod := Nat.mod_lt values.length hp
      have hne : ¬ (k / bits = values.length % valuesPerLong bits ∧ 0 < bits) := fun heq => by omega
      rw [decide_eq_false hne, Bool.false_and, Bool.or_false]
    · exact hold

theorem packLoop_packed (hlo : 1 ≤ bits) (hhi : bits ≤ 64) (values : List Nat) {before : List Nat}
    {out : List (BitVec 64)} (h : Packed bits before out) :
    Packed bits (before ++ values) (packLoop bits values before.length out) ∧
      (packLoop bits values before.length out).length = out.length := by
  induction values generalizing before out with
  | nil =>
    rw [List.append_nil]
    exact ⟨h, rfl⟩
  | cons value values ih =>
    have hnext := ih (h.push hlo hhi value)
    rw [List.append_assoc, List.length_append, List.length_modify] at hnext
    exact hnext

theorem pack_packed (hlo : 1 ≤ bits) (hhi : bits ≤ MAX_BITS) (values : List Nat) :
    ∃ out, pack values bits = .ok out ∧ out.length = longsNeeded values.length bits ∧
      Packed bits values out := by
  have hempty : Packed bits [] (List.replicate (longsNeeded values.length bits) 0) := by
    intro slot word hword k _
    obtain ⟨_, hzero⟩ := List.getElem?_eq_some_iff.mp hword
    rw [List.getElem_replicate] at hzero
    rw [← hzero]
    simp
  obtain ⟨hpacked, hlength⟩ := packLoop_packed hlo (by unfold MAX_BITS at hhi; omega) values hempty
  rw [List.length_replicate] at hlength
  exact ⟨_, by rw [pack, if_neg (not_not.mpr ⟨hlo, hhi⟩)]; rfl, hlength, hpacked⟩

theorem testBit_valueAt (data : List (BitVec 64)) (index j : Nat) : (valueAt data bits index).testBit j =
    (decide (j < bits) && decide (j < 64) && (data.getD (index / valuesPerLong bits) 0).getLsbD
      (index % valuesPerLong bits * bits + j)) := by
  rw [valueAt, BitVec.testBit_toNat, BitVec.getLsbD_and, BitVec.getLsbD_ushiftRight]
  by_cases hj : j < 64
  · rw [getLsbD_mask j hj]
    simp [hj, Bool.and_comm]
  · rw [BitVec.getLsbD_of_ge (mask bits) j (by omega)]
    simp [hj]

theorem valueAt_lt (data : List (BitVec 64)) (index : Nat) : valueAt data bits index < 2 ^ bits := by
  refine Nat.lt_pow_two_of_testBit _ fun j hj => ?_
  rw [testBit_valueAt, decide_eq_false (by omega), Bool.false_and, Bool.false_and]

theorem Packed.valueAt {values : List Nat} {out : List (BitVec 64)} (hlo : 1 ≤ bits) (hhi : bits ≤ 64)
    (h : Packed bits values out) {index value : Nat} (hindex : index < out.length * valuesPerLong bits)
    (hvalue : values[index]? = some value) (hlt : value < 2 ^ bits) : valueAt out bits index = value := by
  have hp := valuesPerLong_pos hlo hhi
  have hmul := valuesPerLong_mul_le bits
  have hslot : index / valuesPerLong bits < out.length := (Nat.div_lt_iff_lt_mul hp).mpr hindex
  have hplace := Nat.mod_lt index hp
  have hsplit := Nat.div_add_mod index (valuesPerLong bits)
  rw [Nat.mul_comm] at hsplit
  refine Nat.eq_of_testBit_eq fun j => ?_
  rw [testBit_valueAt]
  by_cases hj : j < bits
  · have hstart : (index % valuesPerLong bits + 1) * bits ≤ valuesPerLong bits * bits :=
      Nat.mul_le_mul_right bits hplace
    rw [Nat.add_mul, Nat.one_mul] at hstart
    obtain ⟨hdiv, hmod⟩ := @div_mod_place bits (index % valuesPerLong bits) j hj
    rw [List.getD_eq_getElem?_getD, List.getElem?_eq_getElem hslot, Option.getD_some,
      h _ _ (List.getElem?_eq_getElem hslot) _ (by omega), hdiv, hmod, hsplit, hvalue]
    simp [hj, hplace, show j < 64 by omega]
  · rw [decide_eq_false hj, Bool.false_and, Bool.false_and]
    exact (Nat.testBit_lt_two_pow (hlt.trans_le (Nat.pow_le_pow_right (by omega) (by omega)))).symm

/-! ## Round trip -/

theorem unpack_pack {values : List Nat} (hlo : 1 ≤ bits) (hhi : bits ≤ MAX_BITS)
    (hlt : ∀ v ∈ values, v < 2 ^ bits) :
    ∃ out, pack values bits = .ok out ∧ unpack out bits values.length = .ok values := by
  obtain ⟨out, hpack, hlength, hpacked⟩ := pack_packed hlo hhi values
  have hhi' : bits ≤ 64 := by
    unfold MAX_BITS at hhi
    omega
  refine ⟨out, hpack, ?_⟩
  rw [unpack, if_neg (not_not.mpr ⟨hlo, hhi⟩), if_neg (by omega)]
  congr 1
  refine List.ext_getElem (by simp) fun i hi hi' => ?_
  have hbound := le_longsNeeded_mul (valuesPerLong_pos hlo hhi') values.length
  rw [List.getElem_map, List.getElem_range]
  exact hpacked.valueAt hlo hhi' (by rw [hlength]; omega) (List.getElem?_eq_getElem hi')
    (hlt _ (List.getElem_mem hi'))

theorem unpack_lt {data : List (BitVec 64)} {entries : Nat} {values : List Nat}
    (h : unpack data bits entries = .ok values) :
    values.length = entries ∧ ∀ v ∈ values, v < 2 ^ bits := by
  unfold unpack at h
  split at h
  · exact nomatch h
  split at h
  · exact nomatch h
  cases h
  refine ⟨by simp, fun v hv => ?_⟩
  obtain ⟨index, -, rfl⟩ := List.mem_map.mp hv
  exact valueAt_lt data index

theorem unpack_zeros (hlo : 1 ≤ bits) (hhi : bits ≤ MAX_BITS) (entries : Nat) :
    unpack (List.replicate (longsNeeded entries bits) 0) bits entries = .ok (List.replicate entries 0) := by
  rw [unpack, if_neg (not_not.mpr ⟨hlo, hhi⟩), if_neg (by simp)]
  congr 1
  refine List.eq_replicate_iff.mpr ⟨by simp, fun v hv => ?_⟩
  obtain ⟨index, -, rfl⟩ := List.mem_map.mp hv
  refine Nat.eq_of_testBit_eq fun j => ?_
  rw [testBit_valueAt, List.getD_eq_getElem?_getD, List.getElem?_replicate]
  split <;> simp

/-! ## One value replaced -/

theorem getLsbD_hole (index k : Nat) (hk : k < 64) : (mask bits <<< (index % valuesPerLong bits * bits)).getLsbD k =
    decide (k / bits = index % valuesPerLong bits ∧ 0 < bits) := by
  have hfull : mask bits <<< (index % valuesPerLong bits * bits) = field bits index (2 ^ bits - 1) := by
    rw [field, ← mask, BitVec.and_self]
  rw [hfull, getLsbD_field _ _ _ hk, Nat.testBit_two_pow_sub_one]
  by_cases hpos : 0 < bits
  · simp [Nat.mod_lt k hpos]
  · simp [hpos]

theorem valueAt_overwrite {data : List (BitVec 64)} {index value : Nat} (hlo : 1 ≤ bits) (hhi : bits ≤ 64)
    (hslot : index / valuesPerLong bits < data.length) (hvalue : value < 2 ^ bits) (i : Nat) :
    valueAt (overwrite bits index value data) bits i = if i = index then value else valueAt data bits i := by
  have hp := valuesPerLong_pos hlo hhi
  have hmul := valuesPerLong_mul_le bits
  have hplace := Nat.mod_lt i hp
  refine Nat.eq_of_testBit_eq fun j => ?_
  by_cases hj : j < bits
  · have hstart : (i % valuesPerLong bits + 1) * bits ≤ valuesPerLong bits * bits :=
      Nat.mul_le_mul_right bits hplace
    rw [Nat.add_mul, Nat.one_mul] at hstart
    obtain ⟨hdiv, hmod⟩ := @div_mod_place bits (i % valuesPerLong bits) j hj
    rw [testBit_valueAt, List.getD_eq_getElem?_getD, overwrite, List.getElem?_modify]
    by_cases hsame : index / valuesPerLong bits = i / valuesPerLong bits
    · simp only [hsame, if_true]
      rw [← hsame, List.getElem?_eq_getElem hslot]
      simp only [Option.map_eq_map, Option.map_some, Option.getD_some, BitVec.getLsbD_or, BitVec.getLsbD_and,
        BitVec.getLsbD_not]
      rw [getLsbD_field _ _ _ (by omega), getLsbD_hole _ _ (by omega), hdiv, hmod]
      by_cases heq : i = index
      · simp [heq, hj, show 0 < bits by omega, show j < 64 by omega]
      · -- the same word, another place
        have hne : ¬ i % valuesPerLong bits = index % valuesPerLong bits := by
          intro hrest
          have hi := Nat.div_add_mod i (valuesPerLong bits)
          have hindex := Nat.div_add_mod index (valuesPerLong bits)
          rw [hsame, ← hrest] at hindex
          omega
        rw [if_neg heq, testBit_valueAt, List.getD_eq_getElem?_getD, ← hsame, List.getElem?_eq_getElem hslot]
        simp [hne, hj, show j < 64 by omega, show i % valuesPerLong bits * bits + j < 64 by omega]
    · have hne : i ≠ index := fun heq => hsame (heq ▸ rfl)
      simp only [hsame, if_false]
      rw [if_neg hne, testBit_valueAt, List.getD_eq_getElem?_getD]
      simp
  · have hlt : (if i = index then value else valueAt data bits i) < 2 ^ bits := by
      split
      · exact hvalue
      · exact valueAt_lt data i
    rw [testBit_valueAt, decide_eq_false hj, Bool.false_and, Bool.false_and]
    exact (Nat.testBit_lt_two_pow (hlt.trans_le (Nat.pow_le_pow_right (by omega) (by omega)))).symm

theorem unpack_overwrite {data : List (BitVec 64)} {entries index value : Nat} {values : List Nat}
    (h : unpack data bits entries = .ok values) (hindex : index < entries) (hvalue : value < 2 ^ bits) :
    unpack (overwrite bits index value data) bits entries = .ok (values.set index value) := by
  unfold unpack at h
  split at h
  · exact nomatch h
  split at h
  · exact nomatch h
  rename_i hbits hlong
  obtain ⟨hlo, hhi⟩ := not_not.mp hbits
  cases h
  have hhi' : bits ≤ 64 := by
    unfold MAX_BITS at hhi
    omega
  have hp := valuesPerLong_pos hlo hhi'
  have hslot : index / valuesPerLong bits < data.length := by
    have hbound := le_longsNeeded_mul hp entries
    have hwords := Nat.mul_le_mul_right (valuesPerLong bits) (Nat.le_of_not_lt hlong)
    exact (Nat.div_lt_iff_lt_mul hp).mpr (by omega)
  have hlength : (overwrite bits index value data).length = data.length := by
    rw [overwrite, List.length_modify]
  rw [unpack, if_neg hbits, if_neg (by omega)]
  congr 1
  refine List.ext_getElem (by simp) fun i hi _ => ?_
  rw [List.getElem_set, List.getElem_map, List.getElem_map, List.getElem_range,
    valueAt_overwrite hlo hhi' hslot hvalue i]
  by_cases heq : i = index
  · rw [if_pos heq, if_pos heq.symm]
  · rw [if_neg heq, if_neg (Ne.symm heq)]

end Apoptosis.L1.Packing
