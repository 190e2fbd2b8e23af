import UrlShortener.HighwayHash.Sse41

/-!
# `hh_avx2.h` and `hh_buffer.h`: one vector for each array

`HHStateAVX2` keeps each array of the portable state in one vector of 256 bits. Its halves
are an SSE4.1 state (`halves`), which its steps follow half by half; only the loads of a
remainder differ, words selected by a comparison of the size with their positions
(`maskloadEpi32_ok`). So `avx2_simulates` rests on the same facts of lanes, and the three
targets give one hash, `targets_agree`.
-/

namespace UrlShortener.HighwayHash
set_option autoImplicit false
open Simd M256

/-! ## Loads -/

/-- `LoadUnaligned<V4x64U>`. -/
def loadUnaligned256 (p : CharPtr) : Except Fault M256 := do
  let bs ← loadBytes p 32
  return ⟨vectorOf (bs.take 16), vectorOf (bs.drop 16)⟩

/-- One word of `_mm_maskload_epi32`, which reads nothing where the mask is clear. -/
def maskloadWord (source : CharPtr) (mask : M128) (i : Nat) : Except Fault UInt32 :=
  if 2 ^ 31 ≤ (mask.word i).toNat then loadWord (source.add (4 * i : Nat)) else .ok 0

/-- `MaskedLoadInt`. -/
def maskedLoadInt (source : CharPtr) (intMask : M128) : Except Fault M128 := do
  let w0 ← maskloadWord source intMask 0
  let w1 ← maskloadWord source intMask 1
  let w2 ← maskloadWord source intMask 2
  let w3 ← maskloadWord source intMask 3
  return setEpi32 w3 w2 w1 w0

/-- `IntMask<0>`. -/
def intMask0 (size : M128) : M128 := cmpgtEpi32 size (setEpi32 15 11 7 3)

/-- `IntMask<16>`. -/
def intMask16 (size : M128) : M128 := cmpgtEpi32 size (setEpi32 31 27 23 19)

/-! ## The state -/

structure HHStateAVX2 where
  v0 : M256
  v1 : M256
  mul0 : M256
  mul1 : M256
  deriving DecidableEq, Repr

namespace HHStateAVX2

/-- `Rotate64By32`. -/
def rotate64By32 (v : M256) : M256 := both (fun half => shuffleEpi32 half (mmShuffle 2 3 0 1)) v

/-- `Rotate32By`. -/
def rotate32By (v count : M256) : M256 :=
  let shiftedLeft := both₂ sllvEpi32 v count
  let shiftedRight := both₂ srlvEpi32 v (both₂ subEpi32 ⟨set1Epi32 32, set1Epi32 32⟩ count)
  both₂ orSi128 shiftedLeft shiftedRight

/-- `Permute`. -/
def permute (v : M256) : M256 :=
  let indices := set256Epi64x 0x0000000200000003 0x0000000000000001 0x0000000600000007 0x0000000400000005
  permutevar8x32 v indices

/-- `ZipperMerge`. -/
def zipperMerge (v : M256) : M256 :=
  let hi := 0x070806090D0A040B
  let lo := 0x000F010E05020C03
  both₂ shuffleEpi8 v (set256Epi64x hi lo hi lo)

def init0 : M256 := set256Epi64x 0x243f6a8885a308d3 0x13198a2e03707344 0xa4093822299f31d0 0xdbe6d5d5fe4cce2f

def init1 : M256 := set256Epi64x 0x452821e638d01377 0xbe5466cf34e90c6c 0xc0acf169b5f18a8c 0x3bd39e10cb0ef593

/-- `Reset`. -/
def reset (keyLanes : HHKey) : HHStateAVX2 :=
  let key : M256 := ⟨loadKey keyLanes 0, loadKey keyLanes 2⟩
  { v0 := both₂ xorSi128 key init0
    v1 := both₂ xorSi128 (rotate64By32 key) init1
    mul0 := init0
    mul1 := init1 }

/-- The private `Update`, of a packet in one vector. -/
def updateVector (s : HHStateAVX2) (packet : M256) : HHStateAVX2 :=
  let v1 := both₂ addEpi64 s.v1 packet
  let v1 := both₂ addEpi64 v1 s.mul0
  let mul0 := both₂ xorSi128 s.mul0 (both₂ mulEpu32 v1 (both (srliEpi64 · 32) s.v0))
  let v0 := both₂ addEpi64 s.v0 s.mul1
  let mul1 := both₂ xorSi128 s.mul1 (both₂ mulEpu32 v0 (both (srliEpi64 · 32) v1))
  let v0 := both₂ addEpi64 v0 (zipperMerge v1)
  let v1 := both₂ addEpi64 v1 (zipperMerge v0)
  ⟨v0, v1, mul0, mul1⟩

/-- `Update` on the 32 bytes of an `HHPacket`. -/
def update (s : HHStateAVX2) (packet : CharPtr) : Except Fault HHStateAVX2 := do
  return s.updateVector (← loadUnaligned256 packet)

/-- The length padding at the head of `UpdateRemainder`. -/
def padLength (s : HHStateAVX2) (size256 : M256) : HHStateAVX2 :=
  { s with v0 := both₂ addEpi64 s.v0 size256, v1 := rotate32By s.v1 size256 }

/-- `UpdateRemainder`. -/
def updateRemainder (s : HHStateAVX2) (bytes : CharPtr) (sizeMod32 : Nat) : Except Fault HHStateAVX2 := do
  let size256 := broadcastdEpi32 (cvtsi64Si128 (UInt64.ofNat sizeMod32))
  let s := s.padLength size256
  let sizeMod4 := sizeMod32 &&& 3
  let remainder := bytes.add (sizeMod32 - sizeMod4 : Nat)
  let size := size256.lo
  if sizeMod32 &&& 16 ≠ 0 then
    let packetL ← loadUnaligned bytes
    let intLanes ← maskedLoadInt (bytes.add 16) (intMask16 size)
    let last4 ← load3ReadBefore remainder sizeMod4
    return s.updateVector ⟨packetL, insertEpi32 intLanes last4 3⟩
  else
    let packetL ← maskedLoadInt bytes (intMask0 size)
    let last3 ← load3Unordered remainder sizeMod4
    return s.updateVector ⟨packetL, cvtsi64Si128 last3⟩

/-- Rounds of `Update(Permute(v0))`. -/
def permuteAndUpdates : Nat → HHStateAVX2 → HHStateAVX2
  | 0, s => s
  | rounds + 1, s => permuteAndUpdates rounds (s.updateVector (permute s.v0))

/-- `XorByShift128Left12`, on both halves. -/
def xorByShift128Left12 (ba out : M256) : M256 :=
  let zero := both₂ xorSi128 ba ba
  let topBits2 := both (srliEpi64 · (64 - 2)) ba
  let ones := both₂ cmpeqEpi64 ba ba
  let shifted1Unmasked := both₂ addEpi64 ba ba
  let topBits1 := both (srliEpi64 · (64 - 1)) ba
  let upper8bytes := both (slliSi128 · 8) ones
  let shifted2 := both₂ addEpi64 shifted1Unmasked shifted1Unmasked
  let upperBitOf128 := both (slliEpi64 · 63) upper8bytes
  let newLowBits2 := both₂ unpackloEpi64 zero topBits2
  let out := both₂ xorSi128 out shifted2
  let shifted1 := both₂ andnotSi128 upperBitOf128 shifted1Unmasked
  let out := both₂ xorSi128 out newLowBits2
  let newLowBits1 := both₂ unpackloEpi64 zero topBits1
  let out := both₂ xorSi128 out shifted1
  both₂ xorSi128 out newLowBits1

/-- `ModularReduction`. -/
def modularReduction (b32a32 b10a10 : M256) : M256 := xorByShift128Left12 b32a32 b10a10

/-- `Finalize(HHResult64*)`. -/
def finalize64 (s : HHStateAVX2) : HHResult64 :=
  let s := s.permuteAndUpdates 4
  let sum0 := (both₂ addEpi64 s.v0 s.mul0).lo
  let sum1 := (both₂ addEpi64 s.v1 s.mul1).lo
  (addEpi64 sum0 sum1).lo

/-- `Finalize(HHResult128*)`. -/
def finalize128 (s : HHStateAVX2) : HHResult128 :=
  let s := s.permuteAndUpdates 6
  let sum0 := (both₂ addEpi64 s.v0 s.mul0).lo
  let sum1 := (both₂ addEpi64 s.v1 s.mul1).hi
  let hash := addEpi64 sum0 sum1
  #v[hash.lo, hash.hi]

/-- `Finalize(HHResult256*)`. -/
def finalize256 (s : HHStateAVX2) : HHResult256 :=
  let s := s.permuteAndUpdates 10
  let sum0 := both₂ addEpi64 s.v0 s.mul0
  let sum1 := both₂ addEpi64 s.v1 s.mul1
  let hash := modularReduction sum1 sum0
  #v[hash.lo.lo, hash.lo.hi, hash.hi.lo, hash.hi.hi]

instance : HHStateT HHStateAVX2 where
  reset := reset
  update := update
  updateRemainder := updateRemainder
  finalize64 := finalize64
  finalize128 := finalize128
  finalize256 := finalize256

/-- The SSE4.1 state in its halves. -/
def halves (s : HHStateAVX2) : HHStateSSE41 where
  v0L := s.v0.lo
  v0H := s.v0.hi
  v1L := s.v1.lo
  v1H := s.v1.hi
  mul0L := s.mul0.lo
  mul0H := s.mul0.hi
  mul1L := s.mul1.lo
  mul1H := s.mul1.hi

/-- The portable state it stands for. -/
def portable (s : HHStateAVX2) : HHState := s.halves.portable

end HHStateAVX2

/-! ## What is loaded -/

theorem loadUnaligned256_ok {p : CharPtr} {bs : Bytes} (holds : p.Holds bs) (length : bs.length = 32) :
    loadUnaligned256 p = .ok ⟨vectorOf (bs.take 16), vectorOf (bs.drop 16)⟩ := by
  have loaded := loadBytes_ok holds
  rw [length] at loaded
  rw [loadUnaligned256, loaded]
  rfl

/-- Two words are the first bytes of a lane, where there are whole words of them. -/
theorem joinWords_take (bs : Bytes) :
    joinWords (UInt32.ofNat (leValue ((bs.drop 4).take 4))) (UInt32.ofNat (leValue (bs.take 4))) =
      joinBytes (bs.take 8) := by
  have few : ∀ cs : Bytes, leValue (cs.take 4) < 2 ^ 32 := by
    intro cs
    have small := leValue_lt (cs.take 4)
    have short : (cs.take 4).length ≤ 4 := by simp
    exact Nat.lt_of_lt_of_le small (Nat.pow_le_pow_right (by decide) short)
  have word : ∀ cs : Bytes, (UInt32.ofNat (leValue (cs.take 4))).toNat = leValue (cs.take 4) :=
    fun cs => UInt32.toNat_ofNat_of_lt' (few cs)
  have split : bs.take 8 = bs.take 4 ++ (bs.drop 4).take 4 := List.take_add (i := 4) (j := 4) (l := bs)
  have short : (bs.take 8).length ≤ 8 := by simp
  apply UInt64.toNat_inj.mp
  rw [toNat_joinWords, word, word, toNat_joinBytes short, split, List.map_append, Nat.ofDigits_append, List.length_map]
  by_cases long : 4 ≤ bs.length
  · have four : (bs.take 4).length = 4 := by
      rw [List.length_take]
      omega
    rw [four, leValue, leValue]
    omega
  · have none : (bs.drop 4).take 4 = [] := by
      rw [List.drop_eq_nil_of_le (by omega), List.take_nil]
    rw [none, leValue, leValue]
    simp

/-- A word selected by a size is that word of the bytes there are. -/
theorem maskloadWord_ok {p : CharPtr} {ws : Bytes} (holds : p.Holds ws) {mask : M128} {i : Nat}
    (selected : 2 ^ 31 ≤ (mask.word i).toNat ↔ 4 * (i + 1) ≤ ws.length) (words : ws.length % 4 = 0) :
    maskloadWord p mask i = .ok (UInt32.ofNat (leValue ((ws.drop (4 * i)).take 4))) := by
  by_cases inside : 4 * (i + 1) ≤ ws.length
  · have split : ws = ws.take (4 * i) ++ ((ws.drop (4 * i)).take 4 ++ (ws.drop (4 * i)).drop 4) := by
      rw [List.take_append_drop, List.take_append_drop]
    have front : (ws.take (4 * i)).length = 4 * i := by
      rw [List.length_take]
      omega
    have four : ((ws.drop (4 * i)).take 4).length = 4 := by
      rw [List.length_take, List.length_drop]
      omega
    rw [split] at holds
    have there := holds.right.left
    rw [front] at there
    rw [maskloadWord, if_pos (selected.mpr inside), loadWord_ok there four]
  · have none : ws.drop (4 * i) = [] := List.drop_eq_nil_of_le (by omega)
    rw [maskloadWord, if_neg (mt selected.mp inside), none]
    rfl

/-- **The masked load** of whole words, as many as the mask selects. -/
theorem maskedLoadInt_ok {p : CharPtr} {ws : Bytes} (holds : p.Holds ws) {mask : M128} (words : ws.length % 4 = 0)
    (short : ws.length ≤ 16) (selected : ∀ i < 4, (2 ^ 31 ≤ (mask.word i).toNat ↔ 4 * (i + 1) ≤ ws.length)) :
    maskedLoadInt p mask = .ok (vectorOf ws) := by
  have low := joinWords_take ws
  have high := joinWords_take (ws.drop 8)
  have whole : (ws.drop 8).take 8 = ws.drop 8 := List.take_of_length_le (by rw [List.length_drop]; omega)
  rw [List.drop_drop, whole] at high
  have word0 := maskloadWord_ok holds (selected 0 (by decide)) words
  have word1 := maskloadWord_ok holds (selected 1 (by decide)) words
  have word2 := maskloadWord_ok holds (selected 2 (by decide)) words
  have word3 := maskloadWord_ok holds (selected 3 (by decide)) words
  simp only [maskedLoadInt, word0, word1, word2, word3, bind, Except.bind, pure, Except.pure, setEpi32, vectorOf, ← low,
    ← high]
  rfl

/-- A comparison of small signed words. -/
theorem word_selected {size bound : Nat} (small : size < 32) (low : bound < 32) :
    (2 ^ 31 ≤ (if (UInt32.ofNat bound).toBitVec.slt (UInt32.ofNat size).toBitVec then (0xFFFFFFFF : UInt32)
      else 0).toNat) ↔ bound < size := by
  have checked : ∀ size bound : Fin 32,
      (UInt32.ofNat bound.val).toBitVec.slt (UInt32.ofNat size.val).toBitVec = decide (bound.val < size.val) := by
    decide +kernel
  rw [checked ⟨size, small⟩ ⟨bound, low⟩]
  by_cases less : bound < size
  · simp [less]
  · simp [less]

theorem intMask0_word {size : Nat} (small : size < 32) {i : Nat} (inside : i < 4) :
    2 ^ 31 ≤ ((intMask0 (set1Epi32 (UInt32.ofNat size))).word i).toNat ↔ 4 * i + 3 < size := by
  rw [intMask0, cmpgtEpi32, M128.word_ofWords _ inside, set1Epi32, M128.word_ofWords _ inside]
  have bound : (setEpi32 15 11 7 3).word i = UInt32.ofNat (4 * i + 3) := by
    rcases (show i = 0 ∨ i = 1 ∨ i = 2 ∨ i = 3 by omega) with rfl | rfl | rfl | rfl <;> rfl
  rw [bound]
  exact word_selected small (by omega)

theorem intMask16_word {size : Nat} (small : size < 32) {i : Nat} (inside : i < 4) :
    2 ^ 31 ≤ ((intMask16 (set1Epi32 (UInt32.ofNat size))).word i).toNat ↔ 4 * i + 19 < size := by
  rw [intMask16, cmpgtEpi32, M128.word_ofWords _ inside, set1Epi32, M128.word_ofWords _ inside]
  have bound : (setEpi32 31 27 23 19).word i = UInt32.ofNat (4 * i + 19) := by
    rcases (show i = 0 ∨ i = 1 ∨ i = 2 ∨ i = 3 by omega) with rfl | rfl | rfl | rfl <;> rfl
  rw [bound]
  exact word_selected small (by omega)

/-! ## What the state stands for -/

namespace HHStateAVX2

theorem halves_updateVector (s : HHStateAVX2) (packet : M256) :
    (s.updateVector packet).halves = s.halves.updateVectors packet.hi packet.lo := by
  simp only [updateVector, halves, HHStateSSE41.updateVectors, HHStateSSE41.rotate64By32, mulEpu32_swapped, mulEpu32_srli,
    both, both₂]
  rfl

/-- `Permute` swaps the halves, and the words of each lane. -/
theorem permute_halves (v : M256) :
    permute v = ⟨HHStateSSE41.rotate64By32 v.hi, HHStateSSE41.rotate64By32 v.lo⟩ := by
  have indices : (List.range 8).map (fun i => ((set256Epi64x 0x0000000200000003 0x0000000000000001 0x0000000600000007
      0x0000000400000005).word i).toNat % 8) = [5, 4, 7, 6, 1, 0, 3, 2] := by
    decide +kernel
  simp only [List.range, List.range.loop, List.map_cons, List.map_nil, List.cons.injEq, and_true] at indices
  obtain ⟨i0, i1, i2, i3, i4, i5, i6, i7⟩ := indices
  rw [HHStateSSE41.rotate64By32, HHStateSSE41.rotate64By32, shuffle_swaps, shuffle_swaps]
  simp only [permute, permutevar8x32, M256.ofWords, M128.ofWords, Nat.reduceAdd, i0, i1, i2, i3, i4, i5, i6, i7]
  rfl

theorem halves_permuteAndUpdates (rounds : Nat) (s : HHStateAVX2) :
    (permuteAndUpdates rounds s).halves = s.halves.permuteAndUpdates rounds := by
  induction rounds generalizing s with
  | zero => rfl
  | succ rounds ih =>
    rw [permuteAndUpdates, ih, halves_updateVector, permute_halves]
    rfl

theorem portable_updateVector (s : HHStateAVX2) (packetL packetH : M128) :
    (s.updateVector ⟨packetL, packetH⟩).portable = s.portable.updateLanes (lanesOf packetL packetH) := by
  rw [portable, halves_updateVector, HHStateSSE41.portable_updateVectors, portable]

theorem portable_permuteAndUpdates (rounds : Nat) (s : HHStateAVX2) :
    (permuteAndUpdates rounds s).portable = s.portable.permuteAndUpdates rounds := by
  rw [portable, halves_permuteAndUpdates, HHStateSSE41.portable_permuteAndUpdates, portable]

/-- The size in every word. -/
theorem broadcast_size (size : Nat) : broadcastdEpi32 (cvtsi64Si128 (UInt64.ofNat size)) =
    ⟨set1Epi32 (UInt32.ofNat size), set1Epi32 (UInt32.ofNat size)⟩ := by
  have word : lowWord (UInt64.ofNat size) = UInt32.ofNat size := UInt64.toUInt32_ofNat' size
  rw [← word]
  rfl

theorem ofWords_congr {f g : Nat → UInt32} (same : ∀ i < 4, f i = g i) : M128.ofWords f = M128.ofWords g := by
  rw [M128.ofWords, M128.ofWords, same 0 (by decide), same 1 (by decide), same 2 (by decide), same 3 (by decide)]

/-- Shifts by a count in each word shift as by one count. -/
theorem rotate32By_half {size : Nat} (short : size < 32) (v : M128) :
    orSi128 (sllvEpi32 v (set1Epi32 (UInt32.ofNat size)))
      (srlvEpi32 v (subEpi32 (set1Epi32 32) (set1Epi32 (UInt32.ofNat size)))) =
      HHStateSSE41.rotate32By v (UInt64.ofNat size) := by
  have word : (UInt32.ofNat size).toNat = size := UInt32.toNat_ofNat_of_lt' (Nat.lt_trans short (by decide))
  have lane : (UInt64.ofNat size).toNat = size := UInt64.toNat_ofNat_of_lt' (Nat.lt_trans short (by decide))
  have left : sllvEpi32 v (set1Epi32 (UInt32.ofNat size)) = sllEpi32 v (cvtsi64Si128 (UInt64.ofNat size)) := by
    refine ofWords_congr fun i inside => ?_
    rw [set1Epi32, M128.word_ofWords _ inside, cvtsi64Si128, word, lane]
  have counts : (32 - UInt32.ofNat size).toNat = (32 - UInt64.ofNat size).toNat := by
    have word32 : UInt32.ofNat size ≤ 32 := by
      rw [UInt32.le_iff_toNat_le, word]
      exact short.le
    have lane32 : UInt64.ofNat size ≤ 32 := by
      rw [UInt64.le_iff_toNat_le, lane]
      exact short.le
    rw [UInt32.toNat_sub_of_le _ _ word32, UInt64.toNat_sub_of_le _ _ lane32, word, lane]
    rfl
  have right : srlvEpi32 v (subEpi32 (set1Epi32 32) (set1Epi32 (UInt32.ofNat size))) =
      srlEpi32 v (cvtsi64Si128 (32 - UInt64.ofNat size)) := by
    refine ofWords_congr fun i inside => ?_
    rw [subEpi32, M128.word_ofWords _ inside, set1Epi32, set1Epi32, M128.word_ofWords _ inside, M128.word_ofWords _ inside,
      counts, cvtsi64Si128]
  rw [left, right, HHStateSSE41.rotate32By]

theorem halves_padLength {size : Nat} (short : size < 32) (s : HHStateAVX2) :
    (s.padLength ⟨set1Epi32 (UInt32.ofNat size), set1Epi32 (UInt32.ofNat size)⟩).halves = s.halves.padLength size := by
  rw [padLength, HHStateSSE41.padLength, halves, halves]
  simp only [rotate32By, both₂, rotate32By_half short]

theorem update_ok (s : HHStateAVX2) {packet : CharPtr} {p : HHPacket} (holds : packet.Holds p.toList) :
    ∃ s', s.update packet = .ok s' ∧ s'.portable = s.portable.updatePacket p := by
  have length := length_packet p
  have split := (List.take_append_drop 16 p.toList).symm
  have front : (p.toList.take 16).length = 16 := by
    rw [List.length_take]
    omega
  refine ⟨s.updateVector ⟨vectorOf (p.toList.take 16), vectorOf (p.toList.drop 16)⟩, ?_, ?_⟩
  · rw [update, loadUnaligned256_ok holds length]
    rfl
  · rw [portable_updateVector, HHState.updatePacket, lanesOf_packet split front]

/-- **The remainder**, with its words selected by the size. -/
theorem updateRemainder_ok (s : HHStateAVX2) {bytes : CharPtr} {rest : Bytes} (short : rest.length < 32)
    (holds : bytes.Holds rest) (some : rest ≠ []) :
    ∃ s', s.updateRemainder bytes rest.length = .ok s' ∧ s'.portable = s.portable.absorbRest rest short := by
  have padded : (s.padLength ⟨set1Epi32 (UInt32.ofNat rest.length), set1Epi32 (UInt32.ofNat rest.length)⟩).portable =
      s.portable.padLength rest.length := by
    rw [portable, halves_padLength short, HHStateSSE41.portable_padLength (List.length_pos_iff.mpr some) short, portable]
  simp only [updateRemainder, broadcast_size, and_three, bind, Except.bind, pure, Except.pure]
  rw [show rest.length - rest.length % 4 = wholeWords rest from rfl]
  by_cases long : 16 ≤ rest.length
  · obtain ⟨front, frontHolds, behind, words⟩ := long_holds holds short long
    have loaded := maskedLoadInt_ok behind (by omega) (by omega) fun i inside =>
      (intMask16_word short inside).trans (by omega)
    rw [if_pos ((and_sixteen short).mpr long), loadUnaligned_ok frontHolds front, loaded,
      load3ReadBefore_ok holds (by omega)]
    refine ⟨_, rfl, ?_⟩
    rw [portable_updateVector, padded, HHState.absorbRest, lanesOf_long short long]
  · obtain ⟨last3, loaded3, stored⟩ := load3Unordered_ok holds
    obtain ⟨wordsHold, whole⟩ := words_hold holds
    have words : (rest.take (wholeWords rest)).length = rest.length - rest.length % 4 := whole
    have loaded := maskedLoadInt_ok wordsHold (by omega) (by omega) fun i inside =>
      (intMask0_word short inside).trans (by omega)
    rw [if_neg (mt (and_sixteen short).mp long), loaded, loaded3]
    refine ⟨_, rfl, ?_⟩
    rw [portable_updateVector, padded, HHState.absorbRest, lanesOf_short short long stored]

/-! ## The finalizations -/

theorem finalize64_portable (s : HHStateAVX2) : s.finalize64 = HighwayHash.finalize64 s.portable :=
  HHStateSSE41.sum64 (permuteAndUpdates 4 s).halves (portable_permuteAndUpdates 4 s)

theorem finalize128_portable (s : HHStateAVX2) : s.finalize128 = HighwayHash.finalize128 s.portable :=
  HHStateSSE41.sums128 (permuteAndUpdates 6 s).halves (portable_permuteAndUpdates 6 s)

/-- The mask of the reduction, computed in the vector itself. -/
theorem upperBitOf128 (x : M128) : slliEpi64 ⟨0, (cmpeqEpi64 x x).lo⟩ 63 = ⟨0, 0x8000000000000000⟩ := by
  have ones : (cmpeqEpi64 x x).lo = 0xFFFFFFFFFFFFFFFF := if_pos rfl
  rw [ones]
  decide +kernel

/-- **The reduction works on each half** as that of the SSE4.1 state. -/
theorem modularReduction_halves (ba out : M256) :
    modularReduction ba out = both₂ HHStateSSE41.modularReduction ba out := by
  have zero : ∀ x, xorSi128 x x = ⟨0, 0⟩ := by
    intro x
    simp [xorSi128, M128.lanes₂]
  simp only [modularReduction, xorByShift128Left12, HHStateSSE41.modularReduction, HHStateSSE41.xorByShift128Left12, both,
    both₂, zero, upperBitOf128, HHStateSSE41.signBit128, slliSi128_eight, unpackloEpi64]

/-- The reductions of `Finalize(HHResult256*)`. -/
theorem reductions256 (t : HHStateAVX2) {p : HHState} (same : t.portable = p) :
    let hash := modularReduction (both₂ addEpi64 t.v1 t.mul1) (both₂ addEpi64 t.v0 t.mul0)
    let low := HighwayHash.modularReduction (p.v1.get 1 + p.mul1.get 1) (p.v1.get 0 + p.mul1.get 0)
      (p.v0.get 1 + p.mul0.get 1) (p.v0.get 0 + p.mul0.get 0)
    let high := HighwayHash.modularReduction (p.v1.get 3 + p.mul1.get 3) (p.v1.get 2 + p.mul1.get 2)
      (p.v0.get 3 + p.mul0.get 3) (p.v0.get 2 + p.mul0.get 2)
    (#v[hash.lo.lo, hash.lo.hi, hash.hi.lo, hash.hi.hi] : HHResult256) = #v[low.2, low.1, high.2, high.1] := by
  dsimp only
  rw [modularReduction_halves]
  exact HHStateSSE41.halves256 t.halves same

theorem finalize256_portable (s : HHStateAVX2) : s.finalize256 = HighwayHash.finalize256 s.portable :=
  reductions256 (permuteAndUpdates 10 s) (portable_permuteAndUpdates 10 s)

end HHStateAVX2

/-- **The AVX2 state stands for a portable one throughout.** -/
theorem avx2_simulates : Simulates HHStateAVX2.portable where
  reset := HHStateSSE41.portable_reset
  update := fun s _ _ holds => s.update_ok holds
  updateRemainder := fun s _ _ short holds some => s.updateRemainder_ok short holds some
  finalize64 := HHStateAVX2.finalize64_portable
  finalize128 := HHStateAVX2.finalize128_portable
  finalize256 := HHStateAVX2.finalize256_portable

/-- **All three targets hash alike**: on any memory that holds the message, whatever lies
around it, `HighwayHashT` completes with each state, and with the same hash of each size. -/
theorem targets_agree (key : HHKey) {bytes : CharPtr} {msg : Bytes} (holds : bytes.Holds msg) :
    (∃ hash, highwayHashT finalize64 (.reset key) bytes msg.length = .ok hash ∧
      highwayHashT HHStateSSE41.finalize64 (.reset key) bytes msg.length = .ok hash ∧
      highwayHashT HHStateAVX2.finalize64 (.reset key) bytes msg.length = .ok hash) ∧
    (∃ hash, highwayHashT finalize128 (.reset key) bytes msg.length = .ok hash ∧
      highwayHashT HHStateSSE41.finalize128 (.reset key) bytes msg.length = .ok hash ∧
      highwayHashT HHStateAVX2.finalize128 (.reset key) bytes msg.length = .ok hash) ∧
    ∃ hash, highwayHashT finalize256 (.reset key) bytes msg.length = .ok hash ∧
      highwayHashT HHStateSSE41.finalize256 (.reset key) bytes msg.length = .ok hash ∧
      highwayHashT HHStateAVX2.finalize256 (.reset key) bytes msg.length = .ok hash := by
  refine ⟨⟨_, highwayHashT_ok _ _ holds, ?_, ?_⟩, ⟨_, highwayHashT_ok _ _ holds, ?_, ?_⟩,
    ⟨_, highwayHashT_ok _ _ holds, ?_, ?_⟩⟩
  · exact sse41_simulates.hash_ok sse41_simulates.finalize64 key holds
  · exact avx2_simulates.hash_ok avx2_simulates.finalize64 key holds
  · exact sse41_simulates.hash_ok sse41_simulates.finalize128 key holds
  · exact avx2_simulates.hash_ok avx2_simulates.finalize128 key holds
  · exact sse41_simulates.hash_ok sse41_simulates.finalize256 key holds
  · exact avx2_simulates.hash_ok avx2_simulates.finalize256 key holds

/-- Forty bytes that start inside an object. -/
theorem targets_agree_inside :
    let bytes := (CharPtr.toBytes (List.replicate 50 7)).add 5
    (∃ hash, highwayHashT finalize64 (.reset #v[1, 2, 3, 4]) bytes 40 = .ok hash ∧
      highwayHashT HHStateSSE41.finalize64 (.reset #v[1, 2, 3, 4]) bytes 40 = .ok hash ∧
      highwayHashT HHStateAVX2.finalize64 (.reset #v[1, 2, 3, 4]) bytes 40 = .ok hash) ∧
    (∃ hash, highwayHashT finalize128 (.reset #v[1, 2, 3, 4]) bytes 40 = .ok hash ∧
      highwayHashT HHStateSSE41.finalize128 (.reset #v[1, 2, 3, 4]) bytes 40 = .ok hash ∧
      highwayHashT HHStateAVX2.finalize128 (.reset #v[1, 2, 3, 4]) bytes 40 = .ok hash) ∧
    ∃ hash, highwayHashT finalize256 (.reset #v[1, 2, 3, 4]) bytes 40 = .ok hash ∧
      highwayHashT HHStateSSE41.finalize256 (.reset #v[1, 2, 3, 4]) bytes 40 = .ok hash ∧
      highwayHashT HHStateAVX2.finalize256 (.reset #v[1, 2, 3, 4]) bytes 40 = .ok hash := by
  have object : (List.replicate 50 7 : Bytes) = List.replicate 5 7 ++ (List.replicate 40 7 ++ List.replicate 5 7) := rfl
  have holds := CharPtr.toBytes_holds (List.replicate 50 7)
  nth_rewrite 2 [object] at holds
  exact targets_agree #v[1, 2, 3, 4] holds.right.left

end UrlShortener.HighwayHash
