import UrlShortener.HighwayHash.VectorLanes

/-!
# `hh_sse41.h`: the state in vectors

`HHStateSSE41` keeps the four arrays of the portable state in eight vectors, the lanes 0, 1
in those named `L` and the lanes 2, 3 in those named `H`. `portable` is the state it stands
for and `sse41_simulates` the simulation; the word and byte shuffles, the loads of a remainder
without a zeroed buffer and the reduction by sums and byte shifts are each shown to be what
the portable state computes another way.
-/

namespace UrlShortener.HighwayHash
set_option autoImplicit false
open Absorb Simd Numerals

/-! ## Loads -/

/-- A `memcpy` of `size` bytes. -/
def loadBytes (p : CharPtr) (size : Nat) : Except Fault Bytes :=
  (List.finRange size).mapM fun byte => p.read (byte.val : Nat)

/-- Up to sixteen bytes, zeros above them. -/
def vectorOf (bs : Bytes) : M128 := ⟨joinBytes (bs.take 8), joinBytes (bs.drop 8)⟩

/-- `LoadUnaligned<V2x64U>`. -/
def loadUnaligned (p : CharPtr) : Except Fault M128 := do
  return vectorOf (← loadBytes p 16)

/-- `LoadUnaligned<V2x64U>(key + i)`. -/
def loadKey (key : HHKey) (i : Nat) : M128 := ⟨key.getD i 0, key.getD (i + 1) 0⟩

/-- `_mm_loadl_epi64`. -/
def loadlEpi64 (p : CharPtr) : Except Fault M128 := do
  return ⟨joinBytes (← loadBytes p 8), 0⟩

/-- `LoadUnaligned<uint32_t>`. -/
def loadWord (p : CharPtr) : Except Fault UInt32 := do
  return UInt32.ofNat (leValue (← loadBytes p 4))

/-- `LoadMultipleOfFour`. -/
def loadMultipleOfFour (bytes : CharPtr) (size : Nat) : Except Fault M128 := do
  let words := bytes
  let mask4 := cvtsi64Si128 0xFFFFFFFF
  let ret := setEpi64x 0 0
  let (ret, mask4, words) ←
    if size &&& 8 ≠ 0 then do pure (← loadlEpi64 words, slliSi128 mask4 8, words.add 8)
    else pure (ret, mask4, words)
  if size &&& 4 ≠ 0 then
    let word2 := cvtsi32Si128 (← loadWord words)
    let broadcast := shuffleEpi32 word2 0x00
    return orSi128 ret (andSi128 broadcast mask4)
  return ret

/-! ## The state -/

structure HHStateSSE41 where
  v0L : M128
  v0H : M128
  v1L : M128
  v1H : M128
  mul0L : M128
  mul0H : M128
  mul1L : M128
  mul1H : M128
  deriving DecidableEq, Repr

namespace HHStateSSE41

/-- `Rotate64By32`. -/
def rotate64By32 (v : M128) : M128 := shuffleEpi32 v (mmShuffle 2 3 0 1)

/-- `Rotate32By`, on one of its two vectors. -/
def rotate32By (v : M128) (count : UInt64) : M128 :=
  let countLeft := cvtsi64Si128 count
  let countRight := cvtsi64Si128 (32 - count)
  orSi128 (sllEpi32 v countLeft) (srlEpi32 v countRight)

def init0L : M128 := setEpi64x 0xa4093822299f31d0 0xdbe6d5d5fe4cce2f

def init0H : M128 := setEpi64x 0x243f6a8885a308d3 0x13198a2e03707344

def init1L : M128 := setEpi64x 0xc0acf169b5f18a8c 0x3bd39e10cb0ef593

def init1H : M128 := setEpi64x 0x452821e638d01377 0xbe5466cf34e90c6c

/-- `Reset`. -/
def reset (key : HHKey) : HHStateSSE41 :=
  let keyL := loadKey key 0
  let keyH := loadKey key 2
  { v0L := xorSi128 keyL init0L
    v0H := xorSi128 keyH init0H
    v1L := xorSi128 (rotate64By32 keyL) init1L
    v1H := xorSi128 (rotate64By32 keyH) init1H
    mul0L := init0L
    mul0H := init0H
    mul1L := init1L
    mul1H := init1H }

/-- The private `Update`, of a packet in two vectors. -/
def updateVectors (s : HHStateSSE41) (packetH packetL : M128) : HHStateSSE41 :=
  let v1L := addEpi64 (addEpi64 s.v1L packetL) s.mul0L
  let v1H := addEpi64 (addEpi64 s.v1H packetH) s.mul0H
  let mul0L := xorSi128 s.mul0L (mulEpu32 v1L (rotate64By32 s.v0L))
  let mul0H := xorSi128 s.mul0H (mulEpu32 v1H (srliEpi64 s.v0H 32))
  let v0L := addEpi64 s.v0L s.mul1L
  let v0H := addEpi64 s.v0H s.mul1H
  let mul1L := xorSi128 s.mul1L (mulEpu32 v0L (rotate64By32 v1L))
  let mul1H := xorSi128 s.mul1H (mulEpu32 v0H (srliEpi64 v1H 32))
  let v0L := addEpi64 v0L (zipperMerge v1L)
  let v0H := addEpi64 v0H (zipperMerge v1H)
  let v1L := addEpi64 v1L (zipperMerge v0L)
  let v1H := addEpi64 v1H (zipperMerge v0H)
  ⟨v0L, v0H, v1L, v1H, mul0L, mul0H, mul1L, mul1H⟩

/-- `Update` on the 32 bytes of an `HHPacket`. -/
def update (s : HHStateSSE41) (packet : CharPtr) : Except Fault HHStateSSE41 := do
  let packetL ← loadUnaligned packet
  let packetH ← loadUnaligned (packet.add 16)
  return s.updateVectors packetH packetL

/-- The length padding at the head of `UpdateRemainder`. -/
def padLength (s : HHStateSSE41) (sizeMod32 : Nat) : HHStateSSE41 :=
  let vsizeMod32 := set1Epi32 (UInt32.ofNat sizeMod32)
  { s with
    v0L := addEpi64 s.v0L vsizeMod32
    v0H := addEpi64 s.v0H vsizeMod32
    v1L := rotate32By s.v1L (UInt64.ofNat sizeMod32)
    v1H := rotate32By s.v1H (UInt64.ofNat sizeMod32) }

/-- `UpdateRemainder`. -/
def updateRemainder (s : HHStateSSE41) (bytes : CharPtr) (sizeMod32 : Nat) : Except Fault HHStateSSE41 := do
  let s := s.padLength sizeMod32
  let sizeMod4 := sizeMod32 &&& 3
  let remainder := bytes.add (sizeMod32 - sizeMod4 : Nat)
  if sizeMod32 &&& 16 ≠ 0 then
    let packetL ← loadUnaligned bytes
    let packetH ← loadMultipleOfFour (bytes.add 16) sizeMod32
    let last4 ← load3ReadBefore remainder sizeMod4
    return s.updateVectors (insertEpi32 packetH last4 3) packetL
  else
    let packetL ← loadMultipleOfFour bytes sizeMod32
    let last4 ← load3Unordered remainder sizeMod4
    return s.updateVectors (cvtsi64Si128 last4) packetL

/-- `PermuteAndUpdate`. -/
def permuteAndUpdate (s : HHStateSSE41) : HHStateSSE41 :=
  s.updateVectors (rotate64By32 s.v0L) (rotate64By32 s.v0H)

def permuteAndUpdates : Nat → HHStateSSE41 → HHStateSSE41
  | 0, s => s
  | rounds + 1, s => permuteAndUpdates rounds s.permuteAndUpdate

/-- `XorByShift128Left12`. -/
def xorByShift128Left12 (x out : M128) : M128 :=
  let zero : M128 := ⟨0, 0⟩
  let signBit128 := insertEpi32 zero 0x80000000 3
  let topBits2 := srliEpi64 x (64 - 2)
  let shifted1Unmasked := addEpi64 x x
  let topBits1 := srliEpi64 x (64 - 1)
  let shifted2 := addEpi64 shifted1Unmasked shifted1Unmasked
  let newLowBits2 := slliSi128 topBits2 8
  let out := xorSi128 out shifted2
  let shifted1 := andnotSi128 signBit128 shifted1Unmasked
  let newLowBits1 := slliSi128 topBits1 8
  let out := xorSi128 out newLowBits2
  let out := xorSi128 out shifted1
  xorSi128 out newLowBits1

/-- `ModularReduction`. -/
def modularReduction (a32Unmasked a10 : M128) : M128 := xorByShift128Left12 a32Unmasked a10

/-- `Finalize(HHResult64*)`. -/
def finalize64 (s : HHStateSSE41) : HHResult64 :=
  let s := s.permuteAndUpdates 4
  let sum0 := addEpi64 s.v0L s.mul0L
  let sum1 := addEpi64 s.v1L s.mul1L
  (addEpi64 sum0 sum1).lo

/-- `Finalize(HHResult128*)`. -/
def finalize128 (s : HHStateSSE41) : HHResult128 :=
  let s := s.permuteAndUpdates 6
  let sum0 := addEpi64 s.v0L s.mul0L
  let sum1 := addEpi64 s.v1H s.mul1H
  let hash := addEpi64 sum0 sum1
  #v[hash.lo, hash.hi]

/-- `Finalize(HHResult256*)`. -/
def finalize256 (s : HHStateSSE41) : HHResult256 :=
  let s := s.permuteAndUpdates 10
  let sum0L := addEpi64 s.v0L s.mul0L
  let sum1L := addEpi64 s.v1L s.mul1L
  let sum0H := addEpi64 s.v0H s.mul0H
  let sum1H := addEpi64 s.v1H s.mul1H
  let hashL := modularReduction sum1L sum0L
  let hashH := modularReduction sum1H sum0H
  #v[hashL.lo, hashL.hi, hashH.lo, hashH.hi]

instance : HHStateT HHStateSSE41 where
  reset := reset
  update := update
  updateRemainder := updateRemainder
  finalize64 := finalize64
  finalize128 := finalize128
  finalize256 := finalize256

/-- The portable state it stands for. -/
def portable (s : HHStateSSE41) : HHState where
  v0 := lanesOf s.v0L s.v0H
  v1 := lanesOf s.v1L s.v1H
  mul0 := lanesOf s.mul0L s.mul0H
  mul1 := lanesOf s.mul1L s.mul1H

end HHStateSSE41

/-! ## What is loaded -/

theorem loadBytes_ok {p : CharPtr} {bs : Bytes} (holds : p.Holds bs) : loadBytes p bs.length = .ok bs := by
  have each : ∀ byte : Fin bs.length, p.read (byte.val : Nat) = .ok (bs.get byte) := fun byte => holds.read byte.isLt
  rw [loadBytes, mapM_ok each]
  congr 1
  refine List.ext_getElem ?_ fun i _ _ => ?_
  · rw [List.length_map, List.length_finRange]
  · rw [List.getElem_map, List.getElem_finRange]
    rfl

/-- Zeros above the bytes of a number. -/
theorem joinBytes_zeros (bs : Bytes) (k : Nat) : joinBytes (bs ++ List.replicate k 0) = joinBytes bs := by
  have zero : UInt8.toNat 0 = 0 := rfl
  rw [joinBytes, List.map_append, List.map_replicate, zero, Nat.ofDigits_append_replicate_zero, joinBytes]

theorem vectorOf_zeros (bs : Bytes) (k : Nat) : vectorOf (bs ++ List.replicate k 0) = vectorOf bs := by
  rw [vectorOf, List.take_append, List.drop_append, List.take_replicate, List.drop_replicate, joinBytes_zeros,
    joinBytes_zeros, vectorOf]

theorem leValue_four {bs : Bytes} (length : bs.length = 4) :
    (UInt32.ofNat (leValue bs)).toNat = leValue bs ∧ leValue bs < 2 ^ 32 := by
  have small := leValue_lt bs
  rw [length] at small
  exact ⟨UInt32.toNat_ofNat_of_lt' small, small⟩

/-- A word stored and loaded. -/
theorem joinBytes_leBytes (w : UInt64) : joinBytes (leBytes 8 w.toNat) = w := by
  have digits : (lowDigits 256 8 w.toNat).map (UInt8.toNat ∘ UInt8.ofNat) = lowDigits 256 8 w.toNat := by
    refine (List.map_congr_left fun d mem => ?_).trans (List.map_id _)
    exact UInt8.toNat_ofNat_of_lt' (lt_of_mem_lowDigits (by decide) mem)
  apply UInt64.toNat_inj.mp
  rw [toNat_joinBytes (length_leBytes 8 _).le, leBytes, List.map_map, digits, ofDigits_lowDigits]
  exact Nat.mod_eq_of_lt w.toNat_lt

/-- Four bytes are the low word of a lane. -/
theorem joinBytes_four {bs : Bytes} (length : bs.length = 4) : (UInt32.ofNat (leValue bs)).toUInt64 = joinBytes bs := by
  apply UInt64.toNat_inj.mp
  rw [UInt32.toNat_toUInt64, (leValue_four length).1, toNat_joinBytes (by omega), leValue]

/-- Eight bytes are two words. -/
theorem joinBytes_eight {low high : Bytes} (fits : low.length = 4) (length : high.length = 4) :
    joinBytes (low ++ high) = joinWords (UInt32.ofNat (leValue high)) (lowWord (joinBytes low)) := by
  have small := (leValue_four fits).2
  have both : (low ++ high).length ≤ 8 := by
    rw [List.length_append]
    omega
  apply UInt64.toNat_inj.mp
  rw [toNat_joinWords, toNat_lowWord, (leValue_four length).1, toNat_joinBytes both, toNat_joinBytes (by omega),
    List.map_append, Nat.ofDigits_append, List.length_map, fits]
  unfold leValue at small ⊢
  omega

theorem loadUnaligned_ok {p : CharPtr} {bs : Bytes} (holds : p.Holds bs) (length : bs.length = 16) :
    loadUnaligned p = .ok (vectorOf bs) := by
  have loaded := loadBytes_ok holds
  rw [length] at loaded
  rw [loadUnaligned, loaded]
  rfl

theorem loadlEpi64_ok {p : CharPtr} {bs : Bytes} (holds : p.Holds bs) (length : bs.length = 8) :
    loadlEpi64 p = .ok ⟨joinBytes bs, 0⟩ := by
  have loaded := loadBytes_ok holds
  rw [length] at loaded
  rw [loadlEpi64, loaded]
  rfl

theorem loadWord_ok {p : CharPtr} {bs : Bytes} (holds : p.Holds bs) (length : bs.length = 4) :
    loadWord p = .ok (UInt32.ofNat (leValue bs)) := by
  have loaded := loadBytes_ok holds
  rw [length] at loaded
  rw [loadWord, loaded]
  rfl

/-- A packet loaded as two vectors. -/
theorem lanesOf_packet {p : HHPacket} {low high : Bytes} (split : p.toList = low ++ high) (length : low.length = 16) :
    p.lanes = lanesOf (vectorOf low) (vectorOf high) := by
  have whole := length_packet p
  rw [split, List.length_append, length] at whole
  have lane : ∀ (i : Fin 4) (bs : Bytes), ((low ++ high).drop (8 * i.val)).take 8 = bs → p.lane i = joinBytes bs := by
    rintro i _ rfl
    rw [← split]
    rfl
  have behind : ∀ k, (low ++ high).drop (16 + k) = high.drop k := by
    intro k
    rw [← List.drop_drop, List.drop_left' length]
  have lane0 := lane 0 (low.take 8) (List.take_append_of_le_length (by omega))
  have lane1 := lane 1 (low.drop 8) (by
    have front : 8 ≤ low.length := by omega
    have upper : (low.drop 8).length = 8 := by
      rw [List.length_drop]
      omega
    rw [show 8 * (1 : Fin 4).val = 8 from rfl, List.drop_append_of_le_length front]
    exact List.take_left' upper)
  have lane2 := lane 2 (high.take 8) (congrArg (List.take 8) (behind 0))
  have lane3 := lane 3 (high.drop 8) (by
    have upper : (high.drop 8).length ≤ 8 := by
      rw [List.length_drop]
      omega
    rw [show 8 * (3 : Fin 4).val = 16 + 8 from rfl, behind 8, List.take_of_length_le upper])
  rw [lanesOf, vectorOf, vectorOf, ← lane0, ← lane1, ← lane2, ← lane3]
  rfl

/-! ## A remainder in words -/

/-- A word in the low half of its lane. -/
theorem joinWords_low (high low : UInt32) : joinWords high low &&& 0xFFFFFFFF = low.toUInt64 := by
  apply UInt64.toNat_inj.mp
  have below : (joinWords high low &&& 0xFFFFFFFF).toNat = (joinWords high low).toNat % 2 ^ 32 := by
    rw [UInt64.toNat_and]
    exact Nat.and_two_pow_sub_one_eq_mod _ 32
  have := low.toNat_lt
  rw [below, toNat_joinWords, UInt32.toNat_toUInt64]
  omega

theorem broadcast_word (x : UInt32) : shuffleEpi32 (cvtsi32Si128 x) 0x00 = ⟨joinWords x x, joinWords x x⟩ := by
  have low : lowWord x.toUInt64 = x := UInt32.toUInt32_toUInt64 x
  simp [shuffleEpi32, cvtsi32Si128, M128.ofWords, M128.word, low]

/-- The mask keeps the word in the low lane. -/
theorem select_low (x : UInt32) :
    andSi128 (shuffleEpi32 (cvtsi32Si128 x) 0x00) (cvtsi64Si128 0xFFFFFFFF) = ⟨x.toUInt64, 0⟩ := by
  simp [broadcast_word, andSi128, cvtsi64Si128, M128.lanes₂, joinWords_low]

/-- The mask moved up keeps it in the high one. -/
theorem select_high (x : UInt32) :
    andSi128 (shuffleEpi32 (cvtsi32Si128 x) 0x00) (slliSi128 (cvtsi64Si128 0xFFFFFFFF) 8) = ⟨0, x.toUInt64⟩ := by
  simp [slliSi128_eight, broadcast_word, andSi128, cvtsi64Si128, M128.lanes₂, joinWords_low]

/-- The bits of the size that `LoadMultipleOfFour` tests. -/
theorem size_bits {size : Nat} (short : size < 32) :
    (size &&& 8 ≠ 0 ↔ 8 ≤ size % 16) ∧ (size &&& 4 ≠ 0 ↔ 4 ≤ size % 8) := by
  have checked : ∀ size : Fin 32,
      (size.val &&& 8 ≠ 0 ↔ 8 ≤ size.val % 16) ∧ (size.val &&& 4 ≠ 0 ↔ 4 ≤ size.val % 8) := by decide
  exact checked ⟨size, short⟩

/-- **The whole words of a remainder**: zeros stand above them. -/
theorem loadMultipleOfFour_ok {bytes : CharPtr} {ws : Bytes} (holds : bytes.Holds ws) {size : Nat} (short : size < 32)
    (length : ws.length = size % 16 - size % 4) : loadMultipleOfFour bytes size = .ok (vectorOf ws) := by
  obtain ⟨eight, four⟩ := size_bits short
  by_cases first : 8 ≤ size % 16
  · obtain ⟨low, high, split, lowLength⟩ : ∃ low high, ws = low ++ high ∧ low.length = 8 := by
      refine ⟨ws.take 8, ws.drop 8, (List.take_append_drop 8 ws).symm, ?_⟩
      rw [List.length_take]
      omega
    rw [split] at holds
    rw [split, List.length_append, lowLength] at length
    have loaded := loadlEpi64_ok holds.left lowLength
    have there : (bytes.add 8).Holds high := by simpa only [lowLength, Nat.cast_ofNat] using holds.right
    have vector : vectorOf ws = ⟨joinBytes low, joinBytes high⟩ := by
      rw [vectorOf, split, List.take_left' lowLength, List.drop_left' lowLength]
    simp only [loadMultipleOfFour, if_pos (eight.mpr first), loaded, bind, Except.bind, pure, Except.pure]
    by_cases last : 4 ≤ size % 8
    · have highLength : high.length = 4 := by omega
      have word := loadWord_ok there highLength
      rw [if_pos (four.mpr last), word]
      simp [select_high, joinBytes_four highLength, orSi128, M128.lanes₂, vector]
    · have none : high = [] := List.length_eq_zero_iff.mp (by omega)
      rw [if_neg (mt four.mp last), vector, none]
      rfl
  · simp only [loadMultipleOfFour, if_neg (mt eight.mp first), bind, Except.bind, pure, Except.pure]
    have small : ws.length ≤ 8 := by omega
    have vector : vectorOf ws = ⟨joinBytes ws, 0⟩ := by
      rw [vectorOf, List.take_of_length_le small, List.drop_eq_nil_of_le small]
      rfl
    by_cases last : 4 ≤ size % 8
    · have four' : ws.length = 4 := by omega
      have word := loadWord_ok holds four'
      rw [if_pos (four.mpr last), word]
      simp [select_low, joinBytes_four four', orSi128, setEpi64x, M128.lanes₂, vector]
    · have none : ws = [] := List.length_eq_zero_iff.mp (by omega)
      rw [if_neg (mt four.mp last), vector, none]
      rfl

theorem insertEpi32_three (v : M128) (x : UInt32) : insertEpi32 v x 3 = ⟨v.lo, joinWords x (lowWord v.hi)⟩ := by
  simp [insertEpi32, M128.ofWords, M128.word]

/-- The last four bytes go above the whole words. -/
theorem insert_last {ws last : Bytes} (words : ws.length ≤ 12) (length : last.length = 4) :
    insertEpi32 (vectorOf ws) (UInt32.ofNat (leValue last)) 3 =
      vectorOf (ws ++ List.replicate (12 - ws.length) 0 ++ last) := by
  rw [← vectorOf_zeros ws (12 - ws.length)]
  have twelve : (ws ++ List.replicate (12 - ws.length) (0 : UInt8)).length = 12 := by
    rw [List.length_append, List.length_replicate]
    omega
  generalize ws ++ List.replicate (12 - ws.length) (0 : UInt8) = padded at twelve
  have third : (padded.drop 8).length = 4 := by
    rw [List.length_drop]
    omega
  rw [insertEpi32_three, vectorOf, vectorOf, List.take_append_of_le_length (by omega),
    List.drop_append_of_le_length (by omega), joinBytes_eight third length]

/-- The whole words of a remainder can be read. -/
theorem words_hold {bytes : CharPtr} {rest : Bytes} (holds : bytes.Holds rest) :
    bytes.Holds (rest.take (wholeWords rest)) ∧ (rest.take (wholeWords rest)).length = wholeWords rest := by
  constructor
  · rw [← List.take_append_drop (wholeWords rest) rest] at holds
    exact holds.left
  · rw [List.length_take, wholeWords]
    omega

/-- Those of a long one, with the first sixteen bytes apart. -/
theorem long_holds {bytes : CharPtr} {rest : Bytes} (holds : bytes.Holds rest) (short : rest.length < 32)
    (long : 16 ≤ rest.length) :
    (rest.take 16).length = 16 ∧ bytes.Holds (rest.take 16) ∧
      (bytes.add 16).Holds ((rest.take (wholeWords rest)).drop 16) ∧
      ((rest.take (wholeWords rest)).drop 16).length = rest.length - 16 - rest.length % 4 := by
  obtain ⟨wordsHold, words⟩ := words_hold holds
  have front : (rest.take 16).length = 16 := by
    rw [List.length_take]
    omega
  have split := (List.take_append_drop 16 (rest.take (wholeWords rest))).symm
  have upTo : (rest.take (wholeWords rest)).take 16 = rest.take 16 := by
    rw [List.take_take, Nat.min_eq_left (by rw [wholeWords]; omega)]
  rw [upTo] at split
  rw [split] at wordsHold
  refine ⟨front, wordsHold.left, ?_, ?_⟩
  · simpa only [front, Nat.cast_ofNat] using wordsHold.right
  · rw [List.length_drop, words, wholeWords]
    omega

/-- The packet of a long remainder, in two vectors. -/
theorem lanesOf_long {rest : Bytes} (short : rest.length < 32) (long : 16 ≤ rest.length) :
    (remainderPacket rest short).lanes = lanesOf (vectorOf (rest.take 16))
      (insertEpi32 (vectorOf ((rest.take (wholeWords rest)).drop 16))
        (UInt32.ofNat (leValue (rest.drop (rest.length - 4)))) 3) := by
  have whole : (rest.take (wholeWords rest)).length = wholeWords rest := by
    rw [List.length_take, wholeWords]
    omega
  have from16 : 16 ≤ wholeWords rest ∧ wholeWords rest ≤ 28 := by
    rw [wholeWords]
    omega
  have words : ((rest.take (wholeWords rest)).drop 16).length = wholeWords rest - 16 := by
    rw [List.length_drop, whole]
  have last : (rest.drop (rest.length - 4)).length = 4 := by
    rw [List.length_drop]
    omega
  have front : (rest.take 16).length = 16 := by
    rw [List.length_take]
    omega
  have zeros : 12 - (wholeWords rest - 16) = 28 - wholeWords rest := by omega
  rw [insert_last (by omega) last, words, zeros]
  apply lanesOf_packet _ front
  have head : rest.take (wholeWords rest) = rest.take 16 ++ (rest.take (wholeWords rest)).drop 16 := by
    have split := (List.take_append_drop 16 (rest.take (wholeWords rest))).symm
    rwa [List.take_take, Nat.min_eq_left from16.1] at split
  rw [remainderPacket, toList_fullBlock, remainderBytes, if_pos long, ← List.append_assoc, ← List.append_assoc,
    ← head]

/-- The packet of a short one. -/
theorem lanesOf_short {rest : Bytes} (short : rest.length < 32) (few : ¬ 16 ≤ rest.length) {last4 : UInt64}
    (stored : leBytes 8 last4.toNat = unordered (rest.drop (wholeWords rest)) ++ List.replicate 5 0) :
    (remainderPacket rest short).lanes = lanesOf (vectorOf (rest.take (wholeWords rest))) (cvtsi64Si128 last4) := by
  have whole : (rest.take (wholeWords rest)).length = wholeWords rest := by
    rw [List.length_take, wholeWords]
    omega
  have words : wholeWords rest ≤ 16 := by
    rw [wholeWords]
    omega
  have front : (rest.take (wholeWords rest) ++ List.replicate (16 - wholeWords rest) (0 : UInt8)).length = 16 := by
    rw [List.length_append, whole, List.length_replicate]
    omega
  have eight : (leBytes 8 last4.toNat).length = 8 := length_leBytes 8 _
  have back : vectorOf (leBytes 8 last4.toNat ++ List.replicate 8 0) = cvtsi64Si128 last4 := by
    rw [vectorOf_zeros, vectorOf, List.take_of_length_le (by omega), List.drop_eq_nil_of_le (by omega),
      joinBytes_leBytes]
    rfl
  rw [← back, ← vectorOf_zeros _ (16 - wholeWords rest)]
  apply lanesOf_packet _ front
  rw [remainderPacket, toList_fullBlock, remainderBytes, if_neg few, stored, List.append_assoc _ _ (List.replicate 8 0)]

/-! ## What the state stands for -/

namespace HHStateSSE41

theorem map_lanesOf (f : UInt64 → UInt64) (low high : M128) :
    (lanesOf low high).map f = lanesOf ⟨f low.lo, f low.hi⟩ ⟨f high.lo, f high.hi⟩ := by
  simp [lanesOf]

theorem rotate64By32_lanes (v : M128) :
    rotate64By32 v = ⟨HighwayHash.rotate64By32 v.lo, HighwayHash.rotate64By32 v.hi⟩ := by
  rw [rotate64By32, shuffle_swaps, rotate64By32_eq, rotate64By32_eq]

theorem lanesOf_rotate64By32 (low high : M128) :
    lanesOf (rotate64By32 low) (rotate64By32 high) = (lanesOf low high).map HighwayHash.rotate64By32 := by
  rw [rotate64By32_lanes, rotate64By32_lanes, map_lanesOf]

theorem portable_reset (key : HHKey) : (reset key).portable = .reset key := by
  have keys : lanesOf (loadKey key 0) (loadKey key 2) = key := by
    apply Vector.ext
    intro i inside
    rcases (show i = 0 ∨ i = 1 ∨ i = 2 ∨ i = 3 by omega) with rfl | rfl | rfl | rfl <;>
      simp [lanesOf, loadKey, Vector.getD]
  have inits : lanesOf init0L init0H = init0 ∧ lanesOf init1L init1H = init1 := ⟨rfl, rfl⟩
  have comm : ∀ a b : Lanes, xor a b = xor b a := by
    intro a b
    apply Vector.ext
    intro i inside
    rw [xor, xor, Vector.getElem_zipWith, Vector.getElem_zipWith, UInt64.xor_comm]
  rw [portable, reset, lanesOf_xor, lanesOf_xor, lanesOf_rotate64By32, keys, inits.1, inits.2, comm key, comm _ init1,
    HHState.reset]

/-- **One packet in both states.** -/
theorem portable_updateVectors (s : HHStateSSE41) (packetH packetL : M128) :
    (s.updateVectors packetH packetL).portable = s.portable.updateLanes (lanesOf packetL packetH) := by
  simp only [updateVectors, portable, HHState.updateLanes, rotate64By32, mulEpu32_swapped, mulEpu32_srli, lanesOf_zipper,
    lanesOf_mul]
  simp only [lanesOf_add]

theorem portable_permuteAndUpdate (s : HHStateSSE41) :
    s.permuteAndUpdate.portable = s.portable.permuteAndUpdate := by
  have permuted : lanesOf (rotate64By32 s.v0H) (rotate64By32 s.v0L) = permute s.portable.v0 := by
    rw [lanesOf_rotate64By32, map_lanesOf]
    rfl
  rw [permuteAndUpdate, portable_updateVectors, permuted, HHState.permuteAndUpdate]

theorem portable_permuteAndUpdates (rounds : Nat) (s : HHStateSSE41) :
    (permuteAndUpdates rounds s).portable = s.portable.permuteAndUpdates rounds := by
  induction rounds generalizing s with
  | zero => rfl
  | succ rounds ih => rw [permuteAndUpdates, ih, portable_permuteAndUpdate, HHState.permuteAndUpdates]

/-- The length in both words of a lane. -/
theorem padding_lane {size : Nat} (short : size < 32) :
    joinWords (UInt32.ofNat size) (UInt32.ofNat size) = (UInt64.ofNat size <<< 32) + UInt64.ofNat size := by
  have word : (UInt32.ofNat size).toNat = size := UInt32.toNat_ofNat_of_lt' (Nat.lt_trans short (by decide))
  have lane : (UInt64.ofNat size).toNat = size := UInt64.toNat_ofNat_of_lt' (Nat.lt_trans short (by decide))
  apply UInt64.toNat_inj.mp
  rw [toNat_joinWords, word, UInt64.toNat_add, UInt64.toNat_shiftLeft, lane, Nat.shiftLeft_eq,
    show (32 : UInt64).toNat % 64 = 32 from rfl]
  omega

/-- A rotation by both shifts. -/
theorem rotate32By_eq {count : Nat} (positive : 0 < count) (short : count < 32) (v : M128) :
    rotate32By v (UInt64.ofNat count) = ⟨rotateHalves count v.lo, rotateHalves count v.hi⟩ := by
  have left : (UInt64.ofNat count).toNat = count := UInt64.toNat_ofNat_of_lt' (Nat.lt_trans short (by decide))
  have below : UInt64.ofNat count ≤ 32 := by
    rw [UInt64.le_iff_toNat_le, left]
    exact short.le
  have right : (32 - UInt64.ofNat count).toNat = 32 - count := by
    rw [UInt64.toNat_sub_of_le _ _ below, left]
    rfl
  rw [rotate32By, cvtsi64Si128, cvtsi64Si128, sllEpi32, srlEpi32, left, right, ← rotate_words positive short v.lo,
    ← rotate_words positive short v.hi]
  rfl

theorem portable_padLength {size : Nat} (positive : 0 < size) (short : size < 32) (s : HHStateSSE41) :
    (s.padLength size).portable = s.portable.padLength size := by
  have broadcast : set1Epi32 (UInt32.ofNat size) =
      ⟨(UInt64.ofNat size <<< 32) + UInt64.ofNat size, (UInt64.ofNat size <<< 32) + UInt64.ofNat size⟩ := by
    rw [← padding_lane short]
    rfl
  rw [portable, padLength, HHState.padLength, portable, map_lanesOf, map_lanesOf, broadcast]
  dsimp only
  rw [rotate32By_eq positive short, rotate32By_eq positive short]
  rfl

theorem update_ok (s : HHStateSSE41) {packet : CharPtr} {p : HHPacket} (holds : packet.Holds p.toList) :
    ∃ s', s.update packet = .ok s' ∧ s'.portable = s.portable.updatePacket p := by
  have length := length_packet p
  obtain ⟨low, high, split, lowLength⟩ : ∃ low high, p.toList = low ++ high ∧ low.length = 16 := by
    refine ⟨p.toList.take 16, p.toList.drop 16, (List.take_append_drop 16 _).symm, ?_⟩
    rw [List.length_take]
    omega
  rw [split] at holds length
  rw [List.length_append, lowLength] at length
  have there : (packet.add 16).Holds high := by simpa only [lowLength, Nat.cast_ofNat] using holds.right
  refine ⟨s.updateVectors (vectorOf high) (vectorOf low), ?_, ?_⟩
  · rw [update, loadUnaligned_ok holds.left lowLength, loadUnaligned_ok there (by omega)]
    rfl
  · rw [portable_updateVectors, HHState.updatePacket, lanesOf_packet split lowLength]

/-- **The remainder in both states.** -/
theorem updateRemainder_ok (s : HHStateSSE41) {bytes : CharPtr} {rest : Bytes} (short : rest.length < 32)
    (holds : bytes.Holds rest) (some : rest ≠ []) :
    ∃ s', s.updateRemainder bytes rest.length = .ok s' ∧ s'.portable = s.portable.absorbRest rest short := by
  have padded := portable_padLength (List.length_pos_iff.mpr some) short s
  simp only [updateRemainder, and_three, bind, Except.bind, pure, Except.pure]
  rw [show rest.length - rest.length % 4 = wholeWords rest from rfl]
  by_cases long : 16 ≤ rest.length
  · obtain ⟨front, frontHolds, behind, words⟩ := long_holds holds short long
    have upTo : ((rest.take (wholeWords rest)).drop 16).length = rest.length % 16 - rest.length % 4 := by omega
    rw [if_pos ((and_sixteen short).mpr long), loadUnaligned_ok frontHolds front, loadMultipleOfFour_ok behind short upTo,
      load3ReadBefore_ok holds (by omega)]
    refine ⟨_, rfl, ?_⟩
    rw [portable_updateVectors, padded, HHState.absorbRest, lanesOf_long short long]
  · obtain ⟨last4, loaded, stored⟩ := load3Unordered_ok holds
    obtain ⟨wordsHold, words⟩ := words_hold holds
    have upTo : (rest.take (wholeWords rest)).length = rest.length % 16 - rest.length % 4 := by
      rw [words, wholeWords]
      omega
    rw [if_neg (mt (and_sixteen short).mp long), loadMultipleOfFour_ok wordsHold short upTo, loaded]
    refine ⟨_, rfl, ?_⟩
    rw [portable_updateVectors, padded, HHState.absorbRest, lanesOf_short short long stored]

/-! ## The finalizations -/

/-- The sum of `Finalize(HHResult64*)`. -/
theorem sum64 (t : HHStateSSE41) {p : HHState} (same : t.portable = p) :
    (addEpi64 (addEpi64 t.v0L t.mul0L) (addEpi64 t.v1L t.mul1L)).lo =
      p.v0.get 0 + p.v1.get 0 + p.mul0.get 0 + p.mul1.get 0 := by
  subst same
  have sum : ∀ a b c d : UInt64, a + b + (c + d) = a + c + b + d := by
    intro a b c d
    ac_rfl
  exact sum _ _ _ _

theorem finalize64_portable (s : HHStateSSE41) : s.finalize64 = HighwayHash.finalize64 s.portable :=
  sum64 (permuteAndUpdates 4 s) (portable_permuteAndUpdates 4 s)

/-- The two sums of `Finalize(HHResult128*)`. -/
theorem sums128 (t : HHStateSSE41) {p : HHState} (same : t.portable = p) :
    (#v[(addEpi64 (addEpi64 t.v0L t.mul0L) (addEpi64 t.v1H t.mul1H)).lo,
        (addEpi64 (addEpi64 t.v0L t.mul0L) (addEpi64 t.v1H t.mul1H)).hi] : HHResult128) =
      #v[p.v0.get 0 + p.mul0.get 0 + p.v1.get 2 + p.mul1.get 2,
        p.v0.get 1 + p.mul0.get 1 + p.v1.get 3 + p.mul1.get 3] := by
  subst same
  have sum : ∀ a b c d : UInt64, a + b + (c + d) = a + b + c + d := fun a b c d => (UInt64.add_assoc (a + b) c d).symm
  exact congrArg₂ (fun x y : UInt64 => #v[x, y]) (sum _ _ _ _) (sum _ _ _ _)

theorem finalize128_portable (s : HHStateSSE41) : s.finalize128 = HighwayHash.finalize128 s.portable :=
  sums128 (permuteAndUpdates 6 s) (portable_permuteAndUpdates 6 s)

/-- The sign bit of 128. -/
theorem signBit128 : insertEpi32 ⟨0, 0⟩ 0x80000000 3 = ⟨0, 0x8000000000000000⟩ := by
  decide +kernel

/-- **The reduction by sums and byte shifts** is the portable one. -/
theorem modularReduction_eq (a32 a10 : M128) :
    modularReduction a32 a10 = ⟨(HighwayHash.modularReduction a32.hi a32.lo a10.hi a10.lo).2,
      (HighwayHash.modularReduction a32.hi a32.lo a10.hi a10.lo).1⟩ := by
  rw [xorByShift_eq, modularReduction, xorByShift128Left12, signBit128, slliSi128_eight, slliSi128_eight]
  rfl

/-- The two reductions of `Finalize(HHResult256*)`. -/
theorem halves256 (t : HHStateSSE41) {p : HHState} (same : t.portable = p) :
    let hashL := modularReduction (addEpi64 t.v1L t.mul1L) (addEpi64 t.v0L t.mul0L)
    let hashH := modularReduction (addEpi64 t.v1H t.mul1H) (addEpi64 t.v0H t.mul0H)
    let low := HighwayHash.modularReduction (p.v1.get 1 + p.mul1.get 1) (p.v1.get 0 + p.mul1.get 0)
      (p.v0.get 1 + p.mul0.get 1) (p.v0.get 0 + p.mul0.get 0)
    let high := HighwayHash.modularReduction (p.v1.get 3 + p.mul1.get 3) (p.v1.get 2 + p.mul1.get 2)
      (p.v0.get 3 + p.mul0.get 3) (p.v0.get 2 + p.mul0.get 2)
    (#v[hashL.lo, hashL.hi, hashH.lo, hashH.hi] : HHResult256) = #v[low.2, low.1, high.2, high.1] := by
  subst same
  intro hashL hashH low high
  have left : hashL = ⟨low.2, low.1⟩ := modularReduction_eq _ _
  have right : hashH = ⟨high.2, high.1⟩ := modularReduction_eq _ _
  rw [left, right]

theorem finalize256_portable (s : HHStateSSE41) : s.finalize256 = HighwayHash.finalize256 s.portable :=
  halves256 (permuteAndUpdates 10 s) (portable_permuteAndUpdates 10 s)

end HHStateSSE41

/-- **The SSE4.1 state stands for a portable one throughout.** -/
theorem sse41_simulates : Simulates HHStateSSE41.portable where
  reset := HHStateSSE41.portable_reset
  update := fun s _ _ holds => s.update_ok holds
  updateRemainder := fun s _ _ short holds some => s.updateRemainder_ok short holds some
  finalize64 := HHStateSSE41.finalize64_portable
  finalize128 := HHStateSSE41.finalize128_portable
  finalize256 := HHStateSSE41.finalize256_portable

/-- The known answers of the library's test for the bytes 0, 1, 2. -/
example :
    let key : HHKey := #v[0x0706050403020100, 0x0F0E0D0C0B0A0908, 0x1716151413121110, 0x1F1E1D1C1B1A1918]
    highwayHashT HHStateSSE41.finalize64 (.reset key) (.toBytes [0, 1, 2]) 3 = .ok 0x5C6BEFAB8A463D80 ∧
      highwayHashT HHStateSSE41.finalize128 (.reset key) (.toBytes [0, 1, 2]) 3 =
        .ok #v[0x0607621B295F0BEB, 0xBFE69A0FD9CEDD79] := by
  decide +kernel

end UrlShortener.HighwayHash
