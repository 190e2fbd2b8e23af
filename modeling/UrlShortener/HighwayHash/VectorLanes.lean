import UrlShortener.HighwayHash.Message
import UrlShortener.Logic.Simd

/-!
# Lanes in vectors

The vector states of HighwayHash hold the four lanes of each array in two halves of 128
bits (`lanesOf`). On the halves the shuffles of these states do what the portable state
writes with masks and shifts: `ZipperMerge` (`zipperMerge_eq`), the products of low and
high words (`mulEpu32_srli`, `mulEpu32_swapped`), the rotation of words (`rotate_words`) and
the reduction of the 256-bit result (`xorByShift_eq`).
-/

namespace UrlShortener.HighwayHash
set_option autoImplicit false
open Simd

/-- The lanes of a lower and an upper half. -/
def lanesOf (low high : M128) : Lanes := #v[low.lo, low.hi, high.lo, high.hi]

theorem lanesOf_add (a b c d : M128) :
    lanesOf (addEpi64 a b) (addEpi64 c d) = add (lanesOf b d) (lanesOf a c) := by
  simp [lanesOf, add, addEpi64, M128.lanes₂]

theorem lanesOf_xor (a b c d : M128) :
    lanesOf (xorSi128 a b) (xorSi128 c d) = xor (lanesOf a c) (lanesOf b d) := by
  simp [lanesOf, xor, xorSi128, M128.lanes₂]

/-! ## `ZipperMerge` -/

/-- A byte cut out of a number in its place. -/
theorem and_byte (n k : Nat) : n &&& (0xFF <<< (8 * k)) = n / 256 ^ k % 256 * 256 ^ k := by
  have power : 256 ^ k = 2 ^ (8 * k) := (Nat.pow_mul 2 8 k).symm
  rw [power, ← Nat.shiftLeft_eq]
  apply Nat.eq_of_testBit_eq
  intro i
  have byte : (0xFF : Nat) = 2 ^ 8 - 1 := rfl
  have width : (256 : Nat) = 2 ^ 8 := rfl
  rw [Nat.testBit_and, Nat.testBit_shiftLeft, Nat.testBit_shiftLeft, byte, width, Nat.testBit_two_pow_sub_one,
    Nat.testBit_mod_two_pow, Nat.testBit_div_two_pow]
  by_cases high : 8 * k ≤ i
  · have position : i - 8 * k + 8 * k = i := by omega
    rw [position]
    cases n.testBit i <;> simp
  · simp [high]

/-- What `MASK` leaves of a lane. -/
theorem toNat_mask (v bytes : UInt64) (k : Nat) (position : bytes.toNat = k) (inside : k < 8) :
    (mask v bytes).toNat = (byteAt v k).toNat * 256 ^ k := by
  have shift : (bytes * 8).toNat % 64 = 8 * k := by
    rw [UInt64.toNat_mul, position, show (8 : UInt64).toNat = 8 from rfl]
    omega
  have fits : 0xFF <<< (8 * k) < 2 ^ 64 := by
    have power : 2 ^ (8 * k) ≤ 2 ^ 56 := Nat.pow_le_pow_right (by decide) (by omega)
    rw [Nat.shiftLeft_eq]
    omega
  rw [mask, UInt64.toNat_and, UInt64.toNat_shiftLeft, shift, toNat_byteAt]
  rw [show (0xFF : UInt64).toNat = 0xFF from rfl, Nat.mod_eq_of_lt fits, and_byte]

/-- The control of the byte shuffle. -/
def zipperControl : M128 := setEpi64x 0x070806090D0A040B 0x000F010E05020C03

/-- `ZipperMerge` of both vector states. -/
def zipperMerge (v : M128) : M128 := shuffleEpi8 v zipperControl

theorem zipperMerge_bytes (v : M128) : zipperMerge v =
    ⟨joinBytes [byteAt v.lo 3, byteAt v.hi 4, byteAt v.lo 2, byteAt v.lo 5, byteAt v.hi 6, byteAt v.lo 1, byteAt v.hi 7,
      byteAt v.lo 0],
     joinBytes [byteAt v.hi 3, byteAt v.lo 4, byteAt v.hi 2, byteAt v.hi 5, byteAt v.hi 1, byteAt v.lo 6, byteAt v.hi 0,
      byteAt v.lo 7]⟩ := by
  have control : (List.range 16).map zipperControl.byte =
      [0x03, 0x0C, 0x02, 0x05, 0x0E, 0x01, 0x0F, 0x00, 0x0B, 0x04, 0x0A, 0x0D, 0x09, 0x06, 0x08, 0x07] := by
    decide +kernel
  simp only [List.range, List.range.loop, List.map_cons, List.map_nil, List.cons.injEq, and_true] at control
  obtain ⟨c0, c1, c2, c3, c4, c5, c6, c7, c8, c9, c10, c11, c12, c13, c14, c15⟩ := control
  simp only [zipperMerge, shuffleEpi8, M128.ofBytes, List.range, List.range.loop, List.map_cons, List.map_nil,
    Nat.reduceAdd, c0, c1, c2, c3, c4, c5, c6, c7, c8, c9, c10, c11, c12, c13, c14, c15]
  rfl

theorem byteAt_lt (w : UInt64) (i : Nat) : (byteAt w i).toNat < 256 := (byteAt w i).toNat_lt

/-- The lane 0 of the byte shuffle. -/
theorem zipper0_eq (v1 v0 : UInt64) : zipper0 v1 v0 =
    joinBytes [byteAt v0 3, byteAt v1 4, byteAt v0 2, byteAt v0 5, byteAt v1 6, byteAt v0 1, byteAt v1 7, byteAt v0 0] := by
  have top : (v0 <<< 56).toNat = (byteAt v0 0).toNat * 256 ^ 7 := by
    have shifted : (v0 <<< 56).toNat = v0.toNat * 2 ^ 56 % 2 ^ 64 := by simp [Nat.shiftLeft_eq]
    rw [shifted, toNat_byteAt]
    omega
  have := byteAt_lt v0 0
  have := byteAt_lt v0 1
  have := byteAt_lt v0 2
  have := byteAt_lt v0 3
  have := byteAt_lt v0 5
  have := byteAt_lt v1 4
  have := byteAt_lt v1 6
  have := byteAt_lt v1 7
  apply UInt64.toNat_inj.mp
  rw [toNat_joinBytes (by simp)]
  simp only [zipper0, UInt64.toNat_add, UInt64.toNat_shiftRight, UInt64.toNat_shiftLeft, top,
    toNat_mask v0 1 1 rfl (by decide), toNat_mask v0 2 2 rfl (by decide), toNat_mask v0 3 3 rfl (by decide),
    toNat_mask v0 5 5 rfl (by decide), toNat_mask v1 4 4 rfl (by decide), toNat_mask v1 6 6 rfl (by decide),
    toNat_mask v1 7 7 rfl (by decide), List.map_cons, List.map_nil, Nat.ofDigits_cons, Nat.ofDigits_nil, Nat.shiftLeft_eq,
    Nat.shiftRight_eq_div_pow, UInt64.reduceToNat, Nat.reduceMod, Nat.reducePow]
  omega

/-- The lane 1. -/
theorem zipper1_eq (v1 v0 : UInt64) : zipper1 v1 v0 =
    joinBytes [byteAt v1 3, byteAt v0 4, byteAt v1 2, byteAt v1 5, byteAt v1 1, byteAt v0 6, byteAt v1 0, byteAt v0 7] := by
  have := byteAt_lt v1 0
  have := byteAt_lt v1 1
  have := byteAt_lt v1 2
  have := byteAt_lt v1 3
  have := byteAt_lt v1 5
  have := byteAt_lt v0 4
  have := byteAt_lt v0 6
  have := byteAt_lt v0 7
  apply UInt64.toNat_inj.mp
  rw [toNat_joinBytes (by simp)]
  simp only [zipper1, UInt64.toNat_add, UInt64.toNat_shiftRight, UInt64.toNat_shiftLeft,
    toNat_mask v1 0 0 rfl (by decide), toNat_mask v1 1 1 rfl (by decide), toNat_mask v1 2 2 rfl (by decide),
    toNat_mask v1 3 3 rfl (by decide), toNat_mask v1 5 5 rfl (by decide), toNat_mask v0 4 4 rfl (by decide),
    toNat_mask v0 6 6 rfl (by decide), toNat_mask v0 7 7 rfl (by decide), List.map_cons, List.map_nil,
    Nat.ofDigits_cons, Nat.ofDigits_nil, Nat.shiftLeft_eq, Nat.shiftRight_eq_div_pow, UInt64.reduceToNat, Nat.reduceMod,
    Nat.reducePow]
  omega

/-- **The byte shuffle is what the portable state adds.** -/
theorem zipperMerge_eq (v : M128) : zipperMerge v = ⟨zipper0 v.hi v.lo, zipper1 v.hi v.lo⟩ := by
  rw [zipperMerge_bytes, zipper0_eq, zipper1_eq]

theorem lanesOf_zipper (v0L v0H v1L v1H : M128) :
    lanesOf (addEpi64 v0L (zipperMerge v1L)) (addEpi64 v0H (zipperMerge v1H)) =
      zipperMergeAndAdd (lanesOf v1L v1H) (lanesOf v0L v0H) := by
  rw [zipperMerge_eq, zipperMerge_eq]
  rfl

/-! ## Words -/

theorem toUInt64_highWord (w : UInt64) : (highWord w).toUInt64 = w >>> 32 := by
  apply UInt64.toNat_inj.mp
  rw [UInt32.toNat_toUInt64, toNat_highWord]
  simp [Nat.shiftRight_eq_div_pow]

/-- The product of the low words with the high words, moved down. -/
theorem mulEpu32_srli (a b : M128) : mulEpu32 a (srliEpi64 b 32) = M128.lanes₂ mulHalves a b := by
  have low : ∀ w : UInt64, (lowWord (w >>> UInt64.ofNat 32)).toUInt64 = w >>> 32 := toUInt64_highWord
  simp only [mulEpu32, srliEpi64, M128.lanes₂, mulHalves, if_neg (show ¬ 64 ≤ 32 by decide), low]
  rfl

/-- The same with the words swapped. -/
theorem mulEpu32_swapped (a b : M128) :
    mulEpu32 a (shuffleEpi32 b (mmShuffle 2 3 0 1)) = M128.lanes₂ mulHalves a b := by
  rw [shuffle_swaps]
  simp only [mulEpu32, M128.lanes₂, mulHalves, lowWord_joinWords, toUInt64_highWord]
  rfl

theorem lanesOf_mul (m n a b c d : M128) :
    lanesOf (xorSi128 m (M128.lanes₂ mulHalves a c)) (xorSi128 n (M128.lanes₂ mulHalves b d)) =
      xor (lanesOf m n) (Vector.zipWith mulHalves (lanesOf a b) (lanesOf c d)) := by
  rw [lanesOf_xor]
  simp [lanesOf, M128.lanes₂]

theorem rotate64By32_eq (w : UInt64) : rotate64By32 w = joinWords (lowWord w) (highWord w) := by
  have low : (lowWord w).toUInt64 <<< 32 = w <<< 32 := by
    have := w.toNat_lt
    apply UInt64.toNat_inj.mp
    simp [lowWord, Nat.shiftLeft_eq]
    omega
  rw [rotate64By32, joinWords, low, toUInt64_highWord, UInt64.or_comm]

/-- Words rotated by two shifts. -/
theorem rotate_words {count : Nat} (positive : 0 < count) (short : count < 32) (w : UInt64) :
    joinWords (sllWord (highWord w) count) (sllWord (lowWord w) count) |||
      joinWords (srlWord (highWord w) (32 - count)) (srlWord (lowWord w) (32 - count)) = rotateHalves count w := by
  rw [joinWords_or]
  simp only [sllWord, srlWord, if_neg (show ¬ 32 ≤ count by omega), if_neg (show ¬ 32 ≤ 32 - count by omega)]
  rfl

/-! ## The reduction -/

theorem or_eq_xor {a b : UInt64} (disjoint : a &&& b = 0) : a ||| b = a ^^^ b := by
  apply UInt64.toBitVec_inj.mp
  apply BitVec.eq_of_getLsbD_eq
  intro i inside
  have bit := congrArg (fun w : UInt64 => w.toBitVec.getLsbD i) disjoint
  simp only [UInt64.toBitVec_and, BitVec.getLsbD_and] at bit
  rw [UInt64.toBitVec_or, UInt64.toBitVec_xor, BitVec.getLsbD_or, BitVec.getLsbD_xor]
  cases low : a.toBitVec.getLsbD i
  · rw [Bool.false_or, Bool.false_xor]
  · rw [low, Bool.true_and] at bit
    rw [bit]
    simp

/-- Bits shifted in do not meet those shifted up. -/
theorem shift_in (y z : UInt64) : (y <<< 1) ||| (z >>> (64 - 1)) = (y <<< 1) ^^^ (z >>> 63) ∧
    (y <<< 2) ||| (z >>> (64 - 2)) = (y <<< 2) ^^^ (z >>> 62) := by
  constructor
  · apply or_eq_xor
    apply UInt64.toBitVec_inj.mp
    apply BitVec.eq_of_getLsbD_eq
    intro i inside
    have above : i ≠ 0 → z.toBitVec.getLsbD (63 + i) = false := fun _ => BitVec.getLsbD_of_ge _ _ (by omega)
    simp
    grind
  · apply or_eq_xor
    apply UInt64.toBitVec_inj.mp
    apply BitVec.eq_of_getLsbD_eq
    intro i inside
    have above : ¬ i < 2 → z.toBitVec.getLsbD (62 + i) = false := fun _ => BitVec.getLsbD_of_ge _ _ (by omega)
    simp
    grind

theorem and_low_bits (a : UInt64) : (a &&& 0x3FFFFFFFFFFFFFFF).toNat = a.toNat % 2 ^ 62 := by
  rw [UInt64.toNat_and]
  exact Nat.and_two_pow_sub_one_eq_mod a.toNat 62

/-- Twice a lane whose top bit is then cleared. -/
theorem double_cleared (a : UInt64) :
    ~~~(0x8000000000000000 : UInt64) &&& (a + a) = (a &&& 0x3FFFFFFFFFFFFFFF) <<< 1 := by
  have := a.toNat_lt
  have low : ((a + a) &&& ~~~(0x8000000000000000 : UInt64)).toNat = (a + a).toNat % 2 ^ 63 := by
    rw [UInt64.toNat_and]
    exact Nat.and_two_pow_sub_one_eq_mod _ 63
  apply UInt64.toNat_inj.mp
  rw [UInt64.and_comm, low, UInt64.toNat_add, UInt64.toNat_shiftLeft, and_low_bits,
    show (1 : UInt64).toNat % 64 = 1 from rfl, Nat.shiftLeft_eq]
  omega

/-- Four times a lane loses the two top bits by itself. -/
theorem quadruple (a : UInt64) : a + a + (a + a) = (a &&& 0x3FFFFFFFFFFFFFFF) <<< 2 := by
  have := a.toNat_lt
  apply UInt64.toNat_inj.mp
  rw [UInt64.toNat_add, UInt64.toNat_add, UInt64.toNat_shiftLeft, and_low_bits,
    show (2 : UInt64).toNat % 64 = 2 from rfl, Nat.shiftLeft_eq]
  omega

theorem double_low (a : UInt64) : a + a = a <<< 1 ∧ a + a + (a + a) = a <<< 2 := by
  constructor
  · apply UInt64.toNat_inj.mp
    rw [UInt64.toNat_add, UInt64.toNat_shiftLeft, show (1 : UInt64).toNat % 64 = 1 from rfl, Nat.shiftLeft_eq]
    omega
  · apply UInt64.toNat_inj.mp
    rw [UInt64.toNat_add, UInt64.toNat_add, UInt64.toNat_shiftLeft, show (2 : UInt64).toNat % 64 = 2 from rfl,
      Nat.shiftLeft_eq]
    omega

/-- **`XorByShift128Left12` of both vector states, lane by lane**: the reduction of the portable
one. -/
theorem xorByShift_eq (x out : M128) :
    modularReduction x.hi x.lo out.hi out.lo =
      (out.hi ^^^ (x.hi + x.hi + (x.hi + x.hi)) ^^^ (x.lo >>> 62) ^^^
          (~~~(0x8000000000000000 : UInt64) &&& (x.hi + x.hi)) ^^^ (x.lo >>> 63),
        out.lo ^^^ (x.lo + x.lo + (x.lo + x.lo)) ^^^ 0 ^^^ (~~~(0 : UInt64) &&& (x.lo + x.lo)) ^^^ 0) := by
  obtain ⟨one, two⟩ := shift_in (x.hi &&& 0x3FFFFFFFFFFFFFFF) x.lo
  obtain ⟨once, twice⟩ := double_low x.lo
  have all : ~~~(0 : UInt64) &&& (x.lo <<< 1) = x.lo <<< 1 := UInt64.neg_one_and
  rw [twice, once, all]
  simp only [modularReduction, shift128Left, one, two, double_cleared, quadruple x.hi, UInt64.xor_zero]
  rw [Prod.mk.injEq]
  constructor
  · ac_rfl
  · ac_rfl

end UrlShortener.HighwayHash
