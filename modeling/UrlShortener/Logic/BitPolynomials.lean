import Mathlib.Algebra.Field.ZMod
import Mathlib.Algebra.Polynomial.Div
import Mathlib.Algebra.CharP.Two
import Mathlib.Tactic.LinearCombination

/-!
# Numbers as polynomials over two elements

The bits of a number are the coefficients of a polynomial over `ZMod 2`. Exclusive or adds
polynomials, a shift multiplies by a power of `X`, and a bound on the number is one on the
degree. `fold_high` is the reduction step: the bits from `w` on, multiplied by the tail of
a monic modulus of degree `w` and added to the low bits, are the remainder as soon as the
sum fits in `w` bits.
-/

namespace BitPolynomials
set_option autoImplicit false
open Polynomial

/-- The coefficient of a bit. -/
def bitCoeff (b : Bool) : ZMod 2 := if b then 1 else 0

theorem bitCoeff_xor (a b : Bool) : bitCoeff (a ^^ b) = bitCoeff a + bitCoeff b := by
  cases a <;> cases b <;> decide

/-- The polynomial whose coefficients are the number's bits. -/
noncomputable def ofBits (n : Nat) : (ZMod 2)[X] := ∑ i ∈ Finset.range n, monomial i (bitCoeff (n.testBit i))

theorem coeff_ofBits (n i : Nat) : (ofBits n).coeff i = bitCoeff (n.testBit i) := by
  simp only [ofBits, finsetSum_coeff, coeff_monomial, Finset.sum_ite_eq', Finset.mem_range]
  split
  · rfl
  · rename_i high
    have small : n < 2 ^ i := Nat.lt_of_le_of_lt (Nat.le_of_not_lt high) Nat.lt_two_pow_self
    rw [Nat.testBit_lt_two_pow small]
    rfl

theorem ofBits_xor (a b : Nat) : ofBits (a ^^^ b) = ofBits a + ofBits b := by
  ext i
  rw [coeff_add, coeff_ofBits, coeff_ofBits, coeff_ofBits, Nat.testBit_xor, bitCoeff_xor]

theorem ofBits_shiftLeft (a k : Nat) : ofBits (a <<< k) = ofBits a * X ^ k := by
  ext i
  rw [coeff_mul_X_pow', coeff_ofBits, Nat.testBit_shiftLeft]
  by_cases high : k ≤ i
  · rw [if_pos high, coeff_ofBits, decide_eq_true high, Bool.true_and]
  · rw [if_neg high, decide_eq_false high, Bool.false_and]
    rfl

theorem degree_ofBits_lt {n w : Nat} (small : n < 2 ^ w) : (ofBits n).degree < w := by
  rw [degree_lt_iff_coeff_zero]
  intro i high
  have below : n < 2 ^ i := Nat.lt_of_lt_of_le small (Nat.pow_le_pow_right (by decide) high)
  rw [coeff_ofBits, Nat.testBit_lt_two_pow below]
  rfl

/-- Bits put behind others. -/
theorem ofBits_or {high low w : Nat} (small : low < 2 ^ w) :
    ofBits ((high <<< w) ||| low) = ofBits high * X ^ w + ofBits low := by
  have disjoint : (high <<< w) ||| low = (high <<< w) ^^^ low := by
    apply Nat.eq_of_testBit_eq
    intro i
    rw [Nat.testBit_or, Nat.testBit_xor, Nat.testBit_shiftLeft]
    by_cases above : w ≤ i
    · have below : low < 2 ^ i := Nat.lt_of_lt_of_le small (Nat.pow_le_pow_right (by decide) above)
      rw [Nat.testBit_lt_two_pow below, Bool.or_false, Bool.xor_false]
    · rw [decide_eq_false above, Bool.false_and, Bool.false_or, Bool.false_xor]
  rw [disjoint, ofBits_xor, ofBits_shiftLeft]

/-- **Folding the high bits down** modulo `X ^ w + tail`. -/
theorem fold_high {tail : (ZMod 2)[X]} {high low folded w : Nat} (monic : tail.degree < w) (small : low < 2 ^ w)
    (fits : folded < 2 ^ w) (fold : ofBits folded = ofBits high * tail + ofBits low) :
    ofBits ((high <<< w) ||| low) %ₘ (X ^ w + tail) = ofBits folded := by
  refine (div_modByMonic_unique (ofBits high) (ofBits folded) (monic_X_pow_add monic) ⟨?_, ?_⟩).2
  · have cancelled : ofBits high * tail + ofBits high * tail = 0 := CharTwo.add_self_eq_zero _
    rw [ofBits_or small, fold]
    linear_combination cancelled
  · have leading : (X ^ w + tail : (ZMod 2)[X]).degree = (w : WithBot ℕ) := by
      rw [degree_add_eq_left_of_degree_lt (by rwa [degree_X_pow]), degree_X_pow]
    rw [leading]
    exact degree_ofBits_lt fits

end BitPolynomials
