import Mathlib.Data.Nat.Digits.Defs
import Mathlib.Data.Nat.Bitwise

/-!
# Vectors of integers

The 128-bit vectors of SSE4.1 and the 256-bit vectors of AVX2, by their 64-bit lanes, with
the integer intrinsics this development uses. The instructions see a vector as 64-bit
lanes, as 32-bit words or as bytes; `word_ofWords` and `joinBytes_byteAt` are the ways
between these views. An intrinsic that works on each 128-bit half of a 256-bit vector is
`both` or `both₂` of the one on 128 bits.
-/

namespace Simd
set_option autoImplicit false

/-! ## Parts of a lane -/

def lowWord (w : UInt64) : UInt32 := w.toUInt32

def highWord (w : UInt64) : UInt32 := (w >>> 32).toUInt32

def joinWords (high low : UInt32) : UInt64 := (high.toUInt64 <<< 32) ||| low.toUInt64

/-- The `i`-th byte, from the least significant one on. -/
def byteAt (w : UInt64) (i : Nat) : UInt8 := UInt8.ofNat (w.toNat / 256 ^ i)

def joinBytes (bs : List UInt8) : UInt64 := UInt64.ofNat (Nat.ofDigits 256 (bs.map UInt8.toNat))

theorem toNat_lowWord (w : UInt64) : (lowWord w).toNat = w.toNat % 2 ^ 32 := UInt64.toNat_toUInt32 w

theorem toNat_highWord (w : UInt64) : (highWord w).toNat = w.toNat / 2 ^ 32 := by
  have := w.toNat_lt
  simp [highWord, Nat.shiftRight_eq_div_pow]
  omega

theorem toNat_joinWords (high low : UInt32) : (joinWords high low).toNat = high.toNat * 2 ^ 32 + low.toNat := by
  have := high.toNat_lt
  have shifted : (high.toUInt64 <<< 32).toNat = high.toNat <<< 32 := by
    simp [Nat.shiftLeft_eq]
    omega
  rw [joinWords, UInt64.toNat_or, shifted, UInt32.toNat_toUInt64, ← Nat.shiftLeft_add_eq_or_of_lt low.toNat_lt,
    Nat.shiftLeft_eq]

@[simp] theorem lowWord_joinWords (high low : UInt32) : lowWord (joinWords high low) = low := by
  have := low.toNat_lt
  apply UInt32.toNat_inj.mp
  rw [toNat_lowWord, toNat_joinWords]
  omega

@[simp] theorem highWord_joinWords (high low : UInt32) : highWord (joinWords high low) = high := by
  have := low.toNat_lt
  apply UInt32.toNat_inj.mp
  rw [toNat_highWord, toNat_joinWords]
  omega

@[simp] theorem joinWords_words (w : UInt64) : joinWords (highWord w) (lowWord w) = w := by
  apply UInt64.toNat_inj.mp
  rw [toNat_joinWords, toNat_highWord, toNat_lowWord]
  omega

/-- A lane is known by its words. -/
theorem eq_of_words {v w : UInt64} (high : highWord v = highWord w) (low : lowWord v = lowWord w) : v = w := by
  rw [← joinWords_words v, ← joinWords_words w, high, low]

theorem lowWord_or (v w : UInt64) : lowWord (v ||| w) = lowWord v ||| lowWord w := UInt64.toUInt32_or v w

theorem highWord_or (v w : UInt64) : highWord (v ||| w) = highWord v ||| highWord w := by
  rw [highWord, UInt64.shiftRight_or, UInt64.toUInt32_or]
  rfl

/-- Lanes are combined word by word. -/
theorem joinWords_or (a b c d : UInt32) : joinWords a b ||| joinWords c d = joinWords (a ||| c) (b ||| d) := by
  apply eq_of_words
  · rw [highWord_or, highWord_joinWords, highWord_joinWords, highWord_joinWords]
  · rw [lowWord_or, lowWord_joinWords, lowWord_joinWords, lowWord_joinWords]

theorem toNat_byteAt (w : UInt64) (i : Nat) : (byteAt w i).toNat = w.toNat / 256 ^ i % 256 := UInt8.toNat_ofNat'

theorem toNat_joinBytes {bs : List UInt8} (short : bs.length ≤ 8) :
    (joinBytes bs).toNat = Nat.ofDigits 256 (bs.map UInt8.toNat) := by
  have digits : ∀ d ∈ bs.map UInt8.toNat, d < 256 := by
    intro d mem
    obtain ⟨c, -, rfl⟩ := List.mem_map.mp mem
    exact c.toNat_lt
  have small := Nat.ofDigits_lt_base_pow_length (by omega) digits
  rw [List.length_map] at small
  have fits : Nat.ofDigits 256 (bs.map UInt8.toNat) < 256 ^ 8 :=
    Nat.lt_of_lt_of_le small (Nat.pow_le_pow_right (by omega) short)
  rw [joinBytes, UInt64.toNat_ofNat']
  exact Nat.mod_eq_of_lt fits

/-- A lane is known by its bytes. -/
theorem joinBytes_byteAt (w : UInt64) : joinBytes ((List.range 8).map (byteAt w)) = w := by
  have := w.toNat_lt
  apply UInt64.toNat_inj.mp
  rw [toNat_joinBytes (by simp), List.map_map]
  have bytes : (List.range 8).map (UInt8.toNat ∘ byteAt w) = (List.range 8).map fun i => w.toNat / 256 ^ i % 256 :=
    List.map_congr_left fun i _ => toNat_byteAt w i
  rw [bytes]
  simp only [List.range, List.range.loop, List.map_cons, List.map_nil, Nat.ofDigits_cons, Nat.ofDigits_nil]
  omega

/-! ## 128 bits -/

/-- `__m128i`. -/
structure M128 where
  lo : UInt64
  hi : UInt64
  deriving DecidableEq, Repr

namespace M128

/-- The four words. -/
def word (v : M128) (i : Nat) : UInt32 :=
  if i = 0 then lowWord v.lo else if i = 1 then highWord v.lo else if i = 2 then lowWord v.hi else highWord v.hi

def ofWords (f : Nat → UInt32) : M128 := ⟨joinWords (f 1) (f 0), joinWords (f 3) (f 2)⟩

/-- The sixteen bytes. -/
def byte (v : M128) (i : Nat) : UInt8 := if i < 8 then byteAt v.lo i else byteAt v.hi (i - 8)

def ofBytes (f : Nat → UInt8) : M128 :=
  ⟨joinBytes ((List.range 8).map f), joinBytes ((List.range 8).map fun i => f (i + 8))⟩

/-- The same instruction on both lanes. -/
def lanes₂ (f : UInt64 → UInt64 → UInt64) (a b : M128) : M128 := ⟨f a.lo b.lo, f a.hi b.hi⟩

end M128

section Intrinsics

open M128

/-- `_mm_set_epi64x`. -/
def setEpi64x (e1 e0 : UInt64) : M128 := ⟨e0, e1⟩

/-- `_mm_set1_epi32`. -/
def set1Epi32 (a : UInt32) : M128 := ofWords fun _ => a

/-- `_mm_set_epi32`. -/
def setEpi32 (e3 e2 e1 e0 : UInt32) : M128 := ⟨joinWords e1 e0, joinWords e3 e2⟩

/-- `_mm_cvtsi64_si128`. -/
def cvtsi64Si128 (a : UInt64) : M128 := ⟨a, 0⟩

/-- `_mm_cvtsi32_si128`. -/
def cvtsi32Si128 (a : UInt32) : M128 := ⟨a.toUInt64, 0⟩

/-- `_mm_add_epi64`. -/
def addEpi64 : M128 → M128 → M128 := lanes₂ (· + ·)

/-- `_mm_xor_si128`. -/
def xorSi128 : M128 → M128 → M128 := lanes₂ (· ^^^ ·)

/-- `_mm_or_si128`. -/
def orSi128 : M128 → M128 → M128 := lanes₂ (· ||| ·)

/-- `_mm_and_si128`. -/
def andSi128 : M128 → M128 → M128 := lanes₂ (· &&& ·)

/-- `_mm_andnot_si128`: the complement of the first. -/
def andnotSi128 : M128 → M128 → M128 := lanes₂ fun a b => ~~~a &&& b

/-- `_mm_cmpeq_epi64`. -/
def cmpeqEpi64 : M128 → M128 → M128 := lanes₂ fun a b => if a = b then 0xFFFFFFFFFFFFFFFF else 0

/-- `_mm_mul_epu32`: the product of the low words of each lane. -/
def mulEpu32 : M128 → M128 → M128 := lanes₂ fun a b => (lowWord a).toUInt64 * (lowWord b).toUInt64

/-- `_mm_slli_epi64`. -/
def slliEpi64 (a : M128) (imm8 : Nat) : M128 :=
  if 64 ≤ imm8 then ⟨0, 0⟩ else ⟨a.lo <<< UInt64.ofNat imm8, a.hi <<< UInt64.ofNat imm8⟩

/-- `_mm_srli_epi64`. -/
def srliEpi64 (a : M128) (imm8 : Nat) : M128 :=
  if 64 ≤ imm8 then ⟨0, 0⟩ else ⟨a.lo >>> UInt64.ofNat imm8, a.hi >>> UInt64.ofNat imm8⟩

/-- `_mm_unpacklo_epi64`. -/
def unpackloEpi64 (a b : M128) : M128 := ⟨a.lo, b.lo⟩

/-- One word of `_mm_sll_epi32` or `_mm_sllv_epi32`. -/
def sllWord (x : UInt32) (count : Nat) : UInt32 := if 32 ≤ count then 0 else x <<< UInt32.ofNat count

/-- One word of `_mm_srl_epi32` or `_mm_srlv_epi32`. -/
def srlWord (x : UInt32) (count : Nat) : UInt32 := if 32 ≤ count then 0 else x >>> UInt32.ofNat count

/-- `_mm_sll_epi32`: the count is the low lane. -/
def sllEpi32 (a count : M128) : M128 := ofWords fun i => sllWord (a.word i) count.lo.toNat

/-- `_mm_srl_epi32`. -/
def srlEpi32 (a count : M128) : M128 := ofWords fun i => srlWord (a.word i) count.lo.toNat

/-- `_mm_sllv_epi32`: a count for each word. -/
def sllvEpi32 (a count : M128) : M128 := ofWords fun i => sllWord (a.word i) (count.word i).toNat

/-- `_mm_srlv_epi32`. -/
def srlvEpi32 (a count : M128) : M128 := ofWords fun i => srlWord (a.word i) (count.word i).toNat

/-- `_mm_sub_epi32`. -/
def subEpi32 (a b : M128) : M128 := ofWords fun i => a.word i - b.word i

/-- `_mm_cmpgt_epi32`, of signed words. -/
def cmpgtEpi32 (a b : M128) : M128 :=
  ofWords fun i => if (b.word i).toBitVec.slt (a.word i).toBitVec then 0xFFFFFFFF else 0

/-- `_mm_insert_epi32`. -/
def insertEpi32 (a : M128) (x : UInt32) (imm8 : Nat) : M128 := ofWords fun i => if i = imm8 then x else a.word i

/-- `_MM_SHUFFLE`. -/
def mmShuffle (z y x w : Nat) : Nat := 64 * z + 16 * y + 4 * x + w

/-- `_mm_shuffle_epi32`. -/
def shuffleEpi32 (a : M128) (imm8 : Nat) : M128 := ofWords fun i => a.word (imm8 / 4 ^ i % 4)

/-- `_mm_slli_si128`: a shift by bytes. -/
def slliSi128 (a : M128) (imm8 : Nat) : M128 := ofBytes fun i => if i < imm8 then 0 else a.byte (i - imm8)

/-- `_mm_shuffle_epi8`. -/
def shuffleEpi8 (a control : M128) : M128 :=
  ofBytes fun i => if 128 ≤ (control.byte i).toNat then 0 else a.byte ((control.byte i).toNat % 16)

end Intrinsics

/-! ## 256 bits -/

/-- `__m256i`. -/
structure M256 where
  lo : M128
  hi : M128
  deriving DecidableEq, Repr

namespace M256

/-- An instruction on each half. -/
def both (f : M128 → M128) (a : M256) : M256 := ⟨f a.lo, f a.hi⟩

def both₂ (f : M128 → M128 → M128) (a b : M256) : M256 := ⟨f a.lo b.lo, f a.hi b.hi⟩

def word (v : M256) (i : Nat) : UInt32 := if i < 4 then v.lo.word i else v.hi.word (i - 4)

def ofWords (f : Nat → UInt32) : M256 := ⟨M128.ofWords f, M128.ofWords fun i => f (i + 4)⟩

end M256

/-- `_mm256_set_epi64x`. -/
def set256Epi64x (e3 e2 e1 e0 : UInt64) : M256 := ⟨⟨e0, e1⟩, ⟨e2, e3⟩⟩

/-- `_mm256_broadcastd_epi32`. -/
def broadcastdEpi32 (a : M128) : M256 := M256.ofWords fun _ => a.word 0

/-- `_mm256_permutevar8x32_epi32`. -/
def permutevar8x32 (a indices : M256) : M256 := M256.ofWords fun i => a.word ((indices.word i).toNat % 8)

/-! ## What the shuffles do -/

theorem M128.word_ofWords (f : Nat → UInt32) {i : Nat} (inside : i < 4) : (M128.ofWords f).word i = f i := by
  rcases (show i = 0 ∨ i = 1 ∨ i = 2 ∨ i = 3 by omega) with rfl | rfl | rfl | rfl <;>
    simp [M128.ofWords, M128.word]

/-- The shuffle that swaps the words of each lane. -/
theorem shuffle_swaps (v : M128) : shuffleEpi32 v (mmShuffle 2 3 0 1) =
    ⟨joinWords (lowWord v.lo) (highWord v.lo), joinWords (lowWord v.hi) (highWord v.hi)⟩ := by
  simp [shuffleEpi32, mmShuffle, M128.ofWords, M128.word]

/-- A shift by eight bytes moves the low lane up. -/
theorem slliSi128_eight (v : M128) : slliSi128 v 8 = ⟨0, v.lo⟩ := by
  have low : (List.range 8).map (fun i => if i < 8 then (0 : UInt8) else v.byte (i - 8)) = List.replicate 8 0 := by
    rw [List.map_congr_left (g := fun _ => (0 : UInt8)) fun i mem => if_pos (List.mem_range.mp mem)]
    rfl
  have high : (List.range 8).map (fun i => if i + 8 < 8 then (0 : UInt8) else v.byte (i + 8 - 8)) =
      (List.range 8).map (byteAt v.lo) := by
    refine List.map_congr_left fun i mem => ?_
    have inside := List.mem_range.mp mem
    rw [if_neg (by omega), Nat.add_sub_cancel, M128.byte, if_pos inside]
  rw [slliSi128, M128.ofBytes, low, high, joinBytes_byteAt]
  rfl

end Simd
