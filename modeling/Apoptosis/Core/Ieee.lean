import Mathlib.Tactic
/-!
# Binary32 and binary64 as bit patterns

Comparison and conversion of IEEE 754 floats on their bits: the sign bit over
a magnitude, the magnitude an exponent over a fraction. `widen` is the exact
conversion to binary64; `narrow` rounds to nearest, ties to even. Both quiet a
signaling NaN and keep the payload bits that fit, as processors do.

* `f32Eq_symm`, `f32Eq_trans` (and `f64Eq_*`): numeric equality is a partial
  equivalence; it is not reflexive (NaN) and identifies the two zeros.
* `narrow_widen_iff`: a binary32 survives the trip through binary64 exactly
  when it is not a signaling NaN.
* `narrow_quiet`: `narrow` never gives a signaling NaN.
-/
namespace Apoptosis.Core.Ieee

/-! ## Comparison -/

/-- Numeric equality of two magnitudes with signs: `top` is the magnitude of infinity. -/
def numEq (top a b : Nat) (sa sb : Bool) : Bool :=
  decide (a ≤ top) && decide (b ≤ top) && decide (a = b) && (sa == sb || decide (a = 0))

def f32Eq (a b : BitVec 32) : Bool :=
  numEq 0x7F800000 (a.toNat % 2 ^ 31) (b.toNat % 2 ^ 31) a.msb b.msb

def f64Eq (a b : BitVec 64) : Bool :=
  numEq 0x7FF0000000000000 (a.toNat % 2 ^ 63) (b.toNat % 2 ^ 63) a.msb b.msb

theorem numEq_symm {top a b : Nat} {sa sb : Bool} (h : numEq top a b sa sb) :
    numEq top b a sb sa := by
  simp only [numEq, Bool.and_eq_true, decide_eq_true_eq, Bool.or_eq_true, beq_iff_eq] at h ⊢
  obtain ⟨⟨⟨ha, hb⟩, rfl⟩, hs⟩ := h
  exact ⟨⟨⟨hb, ha⟩, rfl⟩, hs.imp Eq.symm id⟩

theorem numEq_trans {top a b c : Nat} {sa sb sc : Bool} (h : numEq top a b sa sb)
    (h' : numEq top b c sb sc) : numEq top a c sa sc := by
  simp only [numEq, Bool.and_eq_true, decide_eq_true_eq, Bool.or_eq_true, beq_iff_eq] at h h' ⊢
  obtain ⟨⟨⟨ha, -⟩, rfl⟩, hs⟩ := h
  obtain ⟨⟨⟨-, hc⟩, rfl⟩, hs'⟩ := h'
  refine ⟨⟨⟨ha, hc⟩, rfl⟩, ?_⟩
  rcases hs with hs | hs
  · exact hs'.imp (fun h => hs.trans h) id
  · exact .inr hs

theorem f32Eq_symm (a b : BitVec 32) (h : f32Eq a b) : f32Eq b a := numEq_symm h

theorem f64Eq_symm (a b : BitVec 64) (h : f64Eq a b) : f64Eq b a := numEq_symm h

theorem f32Eq_trans (a b c : BitVec 32) (h : f32Eq a b) (h' : f32Eq b c) : f32Eq a c :=
  numEq_trans h h'

theorem f64Eq_trans (a b c : BitVec 64) (h : f64Eq a b) (h' : f64Eq b c) : f64Eq a c :=
  numEq_trans h h'

/-! ## Conversion, on magnitudes -/

/-- `m / 2 ^ k` rounded to nearest, ties to even. -/
def roundShift (m k : Nat) : Nat :=
  let q := m / 2 ^ k
  let r := m % 2 ^ k
  if 2 * r > 2 ^ k ∨ (2 * r = 2 ^ k ∧ q % 2 = 1) then q + 1 else q

theorem roundShift_mul (q k : Nat) : roundShift (q * 2 ^ k) k = q := by
  have hpos : 0 < 2 ^ k := Nat.two_pow_pos k
  have hq : q * 2 ^ k / 2 ^ k = q := Nat.mul_div_cancel _ hpos
  have hr : q * 2 ^ k % 2 ^ k = 0 := Nat.mul_mod_left _ _
  simp only [roundShift, hq, hr]
  rw [if_neg (by omega)]

def widenMag (x : Nat) : Nat :=
  let e := x / 2 ^ 23
  let f := x % 2 ^ 23
  if e = 255 then
    if f = 0 then 2047 * 2 ^ 52 else 2047 * 2 ^ 52 + (f * 2 ^ 29 ||| 2 ^ 51)
  else if e = 0 then
    if f = 0 then 0
    else
      -- a subnormal gets a leading bit in binary64
      (f.log2 + 874) * 2 ^ 52 + (f - 2 ^ f.log2) * 2 ^ (52 - f.log2)
  else (e + 896) * 2 ^ 52 + f * 2 ^ 29

def narrowMag (x : Nat) : Nat :=
  let e := x / 2 ^ 52
  let f := x % 2 ^ 52
  if e = 2047 then
    if f = 0 then 255 * 2 ^ 23 else 255 * 2 ^ 23 + (f / 2 ^ 29 ||| 2 ^ 22)
  else if e = 0 then 0
  else if e ≥ 897 then min ((e - 897) * 2 ^ 23 + roundShift (2 ^ 52 + f) 29) (255 * 2 ^ 23)
  else roundShift (2 ^ 52 + f) (926 - e)

/-- A NaN whose quiet bit is clear. -/
def Signaling (x : Nat) : Prop := 255 * 2 ^ 23 < x ∧ x % 2 ^ 23 < 2 ^ 22

instance (x : Nat) : Decidable (Signaling x) := inferInstanceAs (Decidable (_ ∧ _))

theorem or_quiet (k x : Nat) (hx : x < 2 ^ (k + 1)) :
    x ||| 2 ^ k = if x < 2 ^ k then x + 2 ^ k else x := by
  by_cases h : x < 2 ^ k
  · rw [if_pos h, Nat.or_comm, show 2 ^ k = 2 ^ k * 1 by omega, ← Nat.two_pow_add_eq_or_of_lt h]
    omega
  · have hsub : x - 2 ^ k < 2 ^ k := by rw [pow_succ] at hx; omega
    have hx' : x = 2 ^ k * 1 ||| (x - 2 ^ k) := by
      rw [← Nat.two_pow_add_eq_or_of_lt hsub]; omega
    have : x ||| 2 ^ k = x := by
      rw [hx', Nat.mul_one, Nat.or_comm, ← Nat.or_assoc, Nat.or_self]
    rw [if_neg h, this]

theorem field_div {a b k : Nat} (h : b < 2 ^ k) : (a * 2 ^ k + b) / 2 ^ k = a := by
  rw [Nat.mul_comm, Nat.mul_add_div (Nat.two_pow_pos k), Nat.div_eq_of_lt h, Nat.add_zero]

theorem field_mod {a b k : Nat} (h : b < 2 ^ k) : (a * 2 ^ k + b) % 2 ^ k = b := by
  rw [Nat.mul_comm, Nat.mul_add_mod, Nat.mod_eq_of_lt h]

/-- A 23-bit fraction moved up to 52 bits. -/
theorem shift_lt {f : Nat} (h : f < 2 ^ 23) : f * 2 ^ 29 < 2 ^ 52 :=
  calc f * 2 ^ 29 < 2 ^ 23 * 2 ^ 29 := Nat.mul_lt_mul_of_pos_right h (Nat.two_pow_pos 29)
    _ = 2 ^ 52 := by rw [← pow_add]

theorem narrowMag_widenMag_nan (f : Nat) (hf : f < 2 ^ 23) (h0 : f ≠ 0) :
    narrowMag (widenMag (255 * 2 ^ 23 + f)) = 255 * 2 ^ 23 + (f ||| 2 ^ 22) := by
  have hq : f * 2 ^ 29 ||| 2 ^ 51 = (f ||| 2 ^ 22) * 2 ^ 29 := by
    rw [or_quiet 51 _ (shift_lt hf), or_quiet 22 f hf]
    by_cases h : f < 2 ^ 22
    · rw [if_pos (by omega), if_pos h]; omega
    · rw [if_neg (by omega), if_neg h]
  have hlt : f ||| 2 ^ 22 < 2 ^ 23 := Nat.or_lt_two_pow hf (by decide)
  have hpos : 2 ^ 22 ≤ f ||| 2 ^ 22 := Nat.right_le_or
  have hw : widenMag (255 * 2 ^ 23 + f) = 2047 * 2 ^ 52 + (f ||| 2 ^ 22) * 2 ^ 29 := by
    simp only [widenMag, field_div hf, field_mod hf, if_neg h0, ↓reduceIte, hq]
  rw [hw]
  simp only [narrowMag, field_div (shift_lt hlt), field_mod (shift_lt hlt), ↓reduceIte,
    Nat.mul_div_cancel _ (Nat.two_pow_pos 29)]
  generalize hg : f ||| 2 ^ 22 = g at *
  have hg' : g ||| 2 ^ 22 = g := by rw [← hg, Nat.or_assoc, Nat.or_self]
  rw [if_neg (by omega), hg']

theorem narrowMag_widenMag_normal (e f : Nat) (he0 : 0 < e) (he : e < 255) (hf : f < 2 ^ 23) :
    narrowMag (widenMag (e * 2 ^ 23 + f)) = e * 2 ^ 23 + f := by
  have hw : widenMag (e * 2 ^ 23 + f) = (e + 896) * 2 ^ 52 + f * 2 ^ 29 := by
    simp only [widenMag, field_div hf, field_mod hf]
    rw [if_neg (by omega), if_neg (by omega)]
  have hr : roundShift (2 ^ 52 + f * 2 ^ 29) 29 = 2 ^ 23 + f := by
    rw [show 2 ^ 52 + f * 2 ^ 29 = (2 ^ 23 + f) * 2 ^ 29 by ring, roundShift_mul]
  rw [hw]
  simp only [narrowMag, field_div (shift_lt hf), field_mod (shift_lt hf), hr]
  rw [if_neg (by omega), if_neg (by omega), if_pos (by omega), min_eq_left (by omega)]
  omega

theorem narrowMag_widenMag_subnormal (f : Nat) (hf : f < 2 ^ 23) (h0 : f ≠ 0) :
    narrowMag (widenMag f) = f := by
  have hlog : f.log2 < 23 := (Nat.log2_lt h0).mpr hf
  have hle : 2 ^ f.log2 ≤ f := Nat.log2_self_le h0
  have hlt : f < 2 ^ (f.log2 + 1) := Nat.lt_log2_self
  have hw : widenMag f = (f.log2 + 874) * 2 ^ 52 + (f - 2 ^ f.log2) * 2 ^ (52 - f.log2) := by
    have h1 : f / 2 ^ 23 = 0 := Nat.div_eq_of_lt hf
    have h2 : f % 2 ^ 23 = f := Nat.mod_eq_of_lt hf
    simp only [widenMag, h1, h2]
    rw [if_neg (by omega), if_pos trivial, if_neg h0]
  generalize f.log2 = k at *
  have hpow : 2 ^ k * 2 ^ (52 - k) = 2 ^ 52 := by rw [← pow_add]; congr 1; omega
  have hfrac : (f - 2 ^ k) * 2 ^ (52 - k) < 2 ^ 52 := by
    rw [← hpow]
    exact Nat.mul_lt_mul_of_pos_right (by rw [pow_succ] at hlt; omega) (Nat.two_pow_pos _)
  have hsig : 2 ^ 52 + (f - 2 ^ k) * 2 ^ (52 - k) = f * 2 ^ (52 - k) := by
    rw [← hpow, ← add_mul]; congr 1; omega
  rw [hw]
  simp only [narrowMag, field_div hfrac, field_mod hfrac, hsig]
  rw [if_neg (by omega), if_neg (by omega), if_neg (by omega),
    show 926 - (k + 874) = 52 - k by omega, roundShift_mul]

theorem narrowMag_widenMag (x : Nat) (hx : x < 2 ^ 31) :
    narrowMag (widenMag x) = if Signaling x then x + 2 ^ 22 else x := by
  have hf : x % 2 ^ 23 < 2 ^ 23 := Nat.mod_lt _ (Nat.two_pow_pos 23)
  have hsplit : x / 2 ^ 23 * 2 ^ 23 + x % 2 ^ 23 = x := by omega
  by_cases hnan : 255 * 2 ^ 23 < x
  · have he : x / 2 ^ 23 = 255 := by omega
    have h := narrowMag_widenMag_nan (x % 2 ^ 23) hf (by omega)
    rw [he] at hsplit
    rw [hsplit, or_quiet 22 _ hf] at h
    rw [h]
    by_cases hs : x % 2 ^ 23 < 2 ^ 22
    · rw [if_pos hs, if_pos ⟨hnan, hs⟩]; omega
    · rw [if_neg hs, if_neg (fun h => hs h.2)]; omega
  · rw [if_neg (fun h => hnan h.1)]
    by_cases hinf : x = 255 * 2 ^ 23
    · subst hinf; decide +kernel
    · by_cases he : x / 2 ^ 23 = 0
      · have hlt : x < 2 ^ 23 := by omega
        by_cases h0 : x = 0
        · subst h0; decide +kernel
        · exact narrowMag_widenMag_subnormal x hlt h0
      · have h := narrowMag_widenMag_normal (x / 2 ^ 23) (x % 2 ^ 23) (by omega) (by omega) hf
        rwa [hsplit] at h

theorem field_lt {a b : Nat} (ha : a ≤ 2047) (hb : b < 2 ^ 52) : a * 2 ^ 52 + b < 2 ^ 63 := by
  have := Nat.mul_le_mul_right (2 ^ 52) ha
  have : (2047 + 1) * 2 ^ 52 = 2 ^ 63 := by norm_num
  omega

theorem widenMag_lt (x : Nat) (hx : x < 2 ^ 31) : widenMag x < 2 ^ 63 := by
  have hf : x % 2 ^ 23 < 2 ^ 23 := Nat.mod_lt _ (Nat.two_pow_pos 23)
  have he : x / 2 ^ 23 < 256 := by omega
  simp only [widenMag]
  split
  · split
    · exact Nat.lt_of_le_of_lt (Nat.le_add_right _ 0) (field_lt le_rfl (Nat.two_pow_pos 52))
    · exact field_lt le_rfl (Nat.or_lt_two_pow (shift_lt hf) (by decide))
  split
  · split
    · exact Nat.two_pow_pos 63
    · next h0 =>
      generalize x % 2 ^ 23 = f at *
      have hlog : f.log2 < 23 := (Nat.log2_lt h0).mpr hf
      have hle : 2 ^ f.log2 ≤ f := Nat.log2_self_le h0
      have hlt : f < 2 ^ (f.log2 + 1) := Nat.lt_log2_self
      have hpow : 2 ^ f.log2 * 2 ^ (52 - f.log2) = 2 ^ 52 := by
        rw [← pow_add]; congr 1; omega
      refine field_lt (by omega) ?_
      rw [← hpow]
      exact Nat.mul_lt_mul_of_pos_right (by rw [pow_succ] at hlt; omega) (Nat.two_pow_pos _)
  · exact field_lt (by omega) (shift_lt hf)

/-! ## Conversion, on bit patterns -/

def widen (b : BitVec 32) : BitVec 64 :=
  BitVec.ofNat 64 (b.toNat / 2 ^ 31 * 2 ^ 63 + widenMag (b.toNat % 2 ^ 31))

def narrow (b : BitVec 64) : BitVec 32 :=
  BitVec.ofNat 32 (b.toNat / 2 ^ 63 * 2 ^ 31 + narrowMag (b.toNat % 2 ^ 63))

/-- A signaling NaN. -/
def SignalingF32 (b : BitVec 32) : Prop := Signaling (b.toNat % 2 ^ 31)

instance (b : BitVec 32) : Decidable (SignalingF32 b) := inferInstanceAs (Decidable (Signaling _))

/-- A binary32 survives the trip through binary64 exactly when it is not a signaling NaN. -/
theorem narrow_widen_iff (b : BitVec 32) : narrow (widen b) = b ↔ ¬SignalingF32 b := by
  have hx : b.toNat % 2 ^ 31 < 2 ^ 31 := Nat.mod_lt _ (Nat.two_pow_pos 31)
  have hw := widenMag_lt _ hx
  have hs : b.toNat / 2 ^ 31 < 2 := by have := b.isLt; omega
  have hsum : b.toNat / 2 ^ 31 * 2 ^ 31 + b.toNat % 2 ^ 31 = b.toNat := by omega
  have hwn : (widen b).toNat = b.toNat / 2 ^ 31 * 2 ^ 63 + widenMag (b.toNat % 2 ^ 31) := by
    rw [widen, BitVec.toNat_ofNat]
    apply Nat.mod_eq_of_lt
    have := Nat.mul_le_mul_right (2 ^ 63) (show b.toNat / 2 ^ 31 ≤ 1 by omega)
    omega
  have hnarrow : narrow (widen b) = BitVec.ofNat 32 (b.toNat / 2 ^ 31 * 2 ^ 31 +
      if Signaling (b.toNat % 2 ^ 31) then b.toNat % 2 ^ 31 + 2 ^ 22 else b.toNat % 2 ^ 31) := by
    rw [narrow, hwn, field_div hw, field_mod hw, narrowMag_widenMag _ hx]
  rw [hnarrow]
  constructor
  · intro h hsig
    have hsig' : Signaling (b.toNat % 2 ^ 31) := hsig
    rw [if_pos hsig'] at h
    have := congrArg BitVec.toNat h
    rw [BitVec.toNat_ofNat] at this
    have := b.isLt
    omega
  · intro h
    have h' : ¬Signaling (b.toNat % 2 ^ 31) := h
    rw [if_neg h', hsum, BitVec.ofNat_toNat, BitVec.setWidth_eq]

/-! ## Narrowing quiets -/

/-- A magnitude that is no NaN, or a quiet one. -/
theorem narrowMag_quiet (x : Nat) : ¬Signaling (narrowMag x) ∧ narrowMag x < 2 ^ 31 := by
  have hf : x % 2 ^ 52 < 2 ^ 52 := Nat.mod_lt _ (Nat.two_pow_pos 52)
  unfold narrowMag Signaling
  dsimp only
  split
  · split
    · constructor <;> omega
    · have hdiv : x % 2 ^ 52 / 2 ^ 29 < 2 ^ 23 := by omega
      rw [or_quiet 22 _ hdiv]
      split <;> constructor <;> omega
  split
  · constructor <;> omega
  split
  · constructor <;> omega
  · next he =>
    -- the shift is at least 30, so the rounded fraction stays near 2 ^ 23
    obtain ⟨k, hk⟩ : ∃ k, 926 - x / 2 ^ 52 = 30 + k := ⟨896 - x / 2 ^ 52, by omega⟩
    have hround : roundShift (2 ^ 52 + x % 2 ^ 52) (926 - x / 2 ^ 52) ≤ 2 ^ 23 := by
      have hq : (2 ^ 52 + x % 2 ^ 52) / 2 ^ (30 + k) ≤ (2 ^ 52 + x % 2 ^ 52) / 2 ^ 30 :=
        Nat.div_le_div_left (Nat.pow_le_pow_right (by omega) (by omega)) (by positivity)
      rw [hk, roundShift]
      split <;> omega
    constructor <;> omega

theorem narrow_quiet (b : BitVec 64) : ¬SignalingF32 (narrow b) := by
  obtain ⟨hquiet, hlt⟩ := narrowMag_quiet (b.toNat % 2 ^ 63)
  have hs : b.toNat / 2 ^ 63 < 2 := by have := b.isLt; omega
  rw [SignalingF32, narrow, BitVec.toNat_ofNat]
  rwa [show (b.toNat / 2 ^ 63 * 2 ^ 31 + narrowMag (b.toNat % 2 ^ 63)) % 2 ^ 32 % 2 ^ 31 =
    narrowMag (b.toNat % 2 ^ 63) by omega]

end Apoptosis.Core.Ieee
