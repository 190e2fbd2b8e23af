import UrlShortener.HighwayHash.Portable
import UrlShortener.Logic.BitPolynomials

/-!
# The 256-bit hash is a pair of remainders

`ModularReduction` shifts the upper half of a 256-bit number left by one and by two and
adds both to the lower half. Read as polynomials over two elements, that is the remainder
modulo `X ^ 128 + X ^ 2 + X` of the number without its two top bits
(`modularReduction_eq`), and so the 256-bit hash that slugs are made of is two remainders
of the mixed lanes (`finalize256_remainders`).
-/

namespace UrlShortener.HighwayHash
set_option autoImplicit false
open BitPolynomials Polynomial

/-- A number of two words. -/
def wide (high low : UInt64) : Nat := (high.toNat <<< 64) ||| low.toNat

theorem wide_lt (high low : UInt64) : wide high low < 2 ^ 128 := by
  refine Nat.or_lt_two_pow ?_ (Nat.lt_of_lt_of_le low.toNat_lt (by decide))
  have := high.toNat_lt
  rw [Nat.shiftLeft_eq]
  omega

theorem testBit_word {w : UInt64} {i : Nat} (high : 64 ≤ i) : w.toNat.testBit i = false :=
  Nat.testBit_lt_two_pow (Nat.lt_of_lt_of_le w.toNat_lt (Nat.pow_le_pow_right (by decide) high))

theorem testBit_wide (high low : UInt64) (i : Nat) :
    (wide high low).testBit i = if i < 64 then low.toNat.testBit i else high.toNat.testBit (i - 64) := by
  rw [wide, Nat.testBit_or, Nat.testBit_shiftLeft]
  by_cases lower : i < 64
  · rw [if_pos lower, decide_eq_false (by omega), Bool.false_and, Bool.false_or]
  · have upper : 64 ≤ i := by omega
    rw [if_neg lower, decide_eq_true upper, Bool.true_and, testBit_word upper, Bool.or_false]

theorem wide_xor (a b c d : UInt64) : wide (a ^^^ b) (c ^^^ d) = wide a c ^^^ wide b d := by
  apply Nat.eq_of_testBit_eq
  intro i
  rw [Nat.testBit_xor, testBit_wide, testBit_wide, testBit_wide, UInt64.toNat_xor, UInt64.toNat_xor,
    Nat.testBit_xor, Nat.testBit_xor]
  split <;> rfl

theorem testBit_shl (w : UInt64) {n : UInt64} {i : Nat} (short : n.toNat < 64) (inside : i < 64) :
    (w <<< n).toNat.testBit i = (decide (n.toNat ≤ i) && w.toNat.testBit (i - n.toNat)) := by
  rw [UInt64.toNat_shiftLeft, Nat.mod_eq_of_lt short, Nat.testBit_mod_two_pow, Nat.testBit_shiftLeft,
    decide_eq_true inside, Bool.true_and]

theorem testBit_shr (w : UInt64) {n : UInt64} {i : Nat} (positive : 0 < n.toNat) (short : n.toNat < 64) :
    (w >>> (64 - n)).toNat.testBit i = w.toNat.testBit (64 - n.toNat + i) := by
  have width : (64 : UInt64).toNat = 64 := rfl
  have below : n ≤ 64 := UInt64.le_iff_toNat_le.mpr (Nat.le_of_lt short)
  have amount : (64 - n).toNat % 64 = 64 - n.toNat := by
    rw [UInt64.toNat_sub_of_le _ _ below, width]
    exact Nat.mod_eq_of_lt (by omega)
  rw [UInt64.toNat_shiftRight, amount, Nat.testBit_shiftRight]

/-- **`Shift128Left`** of a number whose top bits are clear is a shift. -/
theorem wide_shift {n high : UInt64} (low : UInt64) (positive : 0 < n.toNat) (short : n.toNat < 64)
    (clear : high.toNat < 2 ^ (64 - n.toNat)) :
    wide (shift128Left n high low).1 (shift128Left n high low).2 = wide high low <<< n.toNat := by
  apply Nat.eq_of_testBit_eq
  intro i
  rw [Nat.testBit_shiftLeft, testBit_wide, testBit_wide, shift128Left]
  dsimp only
  by_cases lower : i < 64
  · have below : i - n.toNat < 64 := by omega
    rw [if_pos lower, if_pos below, testBit_shl low short lower]
  · have shifted : i ≥ n.toNat := by omega
    rw [if_neg lower, decide_eq_true shifted, Bool.true_and, UInt64.toNat_or, Nat.testBit_or,
      testBit_shr low positive short]
    have gone : n.toNat ≤ i - 64 → low.toNat.testBit (64 - n.toNat + (i - 64)) = false :=
      fun _ => testBit_word (by omega)
    by_cases above : 128 ≤ i
    · have lost : high.toNat < 2 ^ (i - n.toNat - 64) :=
        Nat.lt_of_lt_of_le clear (Nat.pow_le_pow_right (by decide) (by omega))
      rw [testBit_word (by omega), gone (by omega), if_neg (by omega), Nat.testBit_lt_two_pow lost]
      rfl
    · rw [testBit_shl high short (by omega)]
      by_cases carried : i - n.toNat < 64
      · have position : 64 - n.toNat + (i - 64) = i - n.toNat := by omega
        rw [if_pos carried, decide_eq_false (by omega), Bool.false_and, Bool.false_or, position]
      · have position : i - 64 - n.toNat = i - n.toNat - 64 := by omega
        rw [if_neg carried, decide_eq_true (by omega), Bool.true_and, gone (by omega), Bool.or_false, position]

/-- The modulus of the comment in `ModularReduction`. -/
noncomputable def modulus : (ZMod 2)[X] := X ^ 128 + (X ^ 2 + X)

/-- **`ModularReduction` computes a remainder**: of the 256-bit number without its two top
bits, modulo `X ^ 128 + X ^ 2 + X`. -/
theorem modularReduction_eq (a3 a2 a1 a0 : UInt64) :
    ofBits (wide (modularReduction a3 a2 a1 a0).1 (modularReduction a3 a2 a1 a0).2) =
      ofBits ((wide (a3 &&& 0x3FFFFFFFFFFFFFFF) a2 <<< 128) ||| wide a1 a0) %ₘ modulus := by
  have clear : (a3 &&& 0x3FFFFFFFFFFFFFFF).toNat < 2 ^ 62 := by
    rw [UInt64.toNat_and]
    exact Nat.and_lt_two_pow _ (by decide)
  have one : (1 : UInt64).toNat = 1 := rfl
  have two : (2 : UInt64).toNat = 2 := rfl
  have clear1 : (a3 &&& 0x3FFFFFFFFFFFFFFF).toNat < 2 ^ (64 - (1 : UInt64).toNat) :=
    Nat.lt_of_lt_of_le clear (Nat.pow_le_pow_right (by decide) (by decide))
  have clear2 : (a3 &&& 0x3FFFFFFFFFFFFFFF).toNat < 2 ^ (64 - (2 : UInt64).toNat) := clear
  have shl1 := wide_shift a2 (by decide) (by decide) clear1
  have shl2 := wide_shift a2 (by decide) (by decide) clear2
  rw [one] at shl1
  rw [two] at shl2
  have folded : wide (modularReduction a3 a2 a1 a0).1 (modularReduction a3 a2 a1 a0).2 =
      wide a1 a0 ^^^ wide (a3 &&& 0x3FFFFFFFFFFFFFFF) a2 <<< 1 ^^^ wide (a3 &&& 0x3FFFFFFFFFFFFFFF) a2 <<< 2 := by
    rw [← shl1, ← shl2, ← wide_xor, ← wide_xor, modularReduction]
  have tail : (X ^ 2 + X : (ZMod 2)[X]).degree < (128 : ℕ) := by
    have square : (X ^ 2 : (ZMod 2)[X]).degree < (128 : ℕ) := by
      rw [degree_X_pow]
      exact WithBot.coe_lt_coe.mpr (by decide)
    have linear : (X : (ZMod 2)[X]).degree < (128 : ℕ) := by
      rw [degree_X]
      exact WithBot.coe_lt_coe.mpr (by decide)
    exact (degree_add_le _ _).trans_lt (max_lt square linear)
  unfold modulus
  refine (fold_high tail (wide_lt a1 a0) (wide_lt _ _) ?_).symm
  rw [folded, ofBits_xor, ofBits_xor, ofBits_shiftLeft, ofBits_shiftLeft]
  ring

/-- The lanes of one half of an array. -/
def lowLane (v : Lanes) (half : Fin 2) : UInt64 := v.get ⟨2 * half.val, by omega⟩

def highLane (v : Lanes) (half : Fin 2) : UInt64 := v.get ⟨2 * half.val + 1, by omega⟩

/-- The 256-bit number that a half of the hash is reduced from: `v1 + mul1` without the two
top bits, above `v0 + mul0`. -/
def reduced (s : HHState) (half : Fin 2) : Nat :=
  (wide ((highLane s.v1 half + highLane s.mul1 half) &&& 0x3FFFFFFFFFFFFFFF) (lowLane s.v1 half + lowLane s.mul1 half)
    <<< 128) ||| wide (highLane s.v0 half + highLane s.mul0 half) (lowLane s.v0 half + lowLane s.mul0 half)

/-- **The hash that slugs are made of**: each half of it is the remainder of its lanes after
the ten rounds. -/
theorem finalize256_remainders (s : HHState) (half : Fin 2) :
    ofBits (wide (highLane (finalize256 s) half) (lowLane (finalize256 s) half)) =
      ofBits (reduced (s.permuteAndUpdates 10) half) %ₘ modulus := by
  match half with
  | 0 => exact modularReduction_eq _ _ _ _
  | 1 => exact modularReduction_eq _ _ _ _

end UrlShortener.HighwayHash
