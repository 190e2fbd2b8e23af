import UrlShortener.HighwayHash.Pointers
import UrlShortener.UrlShortening
import UrlShortener.AppConfig

/-!
# `hh_portable.h`, `load3.h` and `highwayhash.h`: HighwayHash

A state of four arrays of four lanes. `Update` mixes a packet of 32 bytes into it,
`UpdateRemainder` the 1 to 31 bytes after the last full packet, and the `Finalize`s mix
further and fold the lanes to 64, 128 or 256 bits. Built without flags for the
instruction set, `HH_TARGET_PREFERRED` is this portable state on x86-64; `HighwayHashT`
is a template in the state, here a function for any instance of `HHStateT`. Sizes are
natural numbers, so `& ~3` and `& ~31` take off what `& 3` and `& 31` leave.
-/

namespace UrlShortener.HighwayHash
set_option autoImplicit false

/-! ## Lanes -/

/-- `HHStatePortable::Lanes`. -/
abbrev Lanes := Vector UInt64 4

/-- `Add`. -/
def add (source dest : Lanes) : Lanes := Vector.zipWith (· + ·) dest source

/-- `Xor`. -/
def xor (op1 op2 : Lanes) : Lanes := Vector.zipWith (· ^^^ ·) op1 op2

/-- `Rotate64By32`. -/
def rotate64By32 (x : UInt64) : UInt64 := (x >>> 32) ||| (x <<< 32)

/-- `Permute`. -/
def permute (v : Lanes) : Lanes :=
  #v[rotate64By32 v[2], rotate64By32 v[3], rotate64By32 v[0], rotate64By32 v[1]]

/-- One half-lane of `Rotate32By`. -/
def rotate32 (count : Nat) (x : UInt32) : UInt32 :=
  (x <<< UInt32.ofNat count) ||| (x >>> UInt32.ofNat (32 - count))

/-- Both halves of a lane rotated. -/
def rotateHalves (count : Nat) (x : UInt64) : UInt64 :=
  ((rotate32 count (x >>> 32).toUInt32).toUInt64 <<< 32) ||| (rotate32 count x.toUInt32).toUInt64

/-- `Rotate32By`, over the eight halves of `halves`. -/
def rotate32By (halves : Lanes) (count : Nat) : Except Fault Lanes :=
  if 32 ≤ count ∨ 32 ≤ 32 - count then .error .shiftTooFar
  else .ok (halves.map (rotateHalves count))

/-- `MASK`. -/
def mask (v : UInt64) (bytes : UInt64) : UInt64 := v &&& (0xFF <<< (bytes * 8))

/-- What `ZipperMergeAndAdd` adds to `*add0`. -/
def zipper0 (v1 v0 : UInt64) : UInt64 :=
  ((mask v0 3 + mask v1 4) >>> 24) + ((mask v0 5 + mask v1 6) >>> 16) + mask v0 2 +
    (mask v0 1 <<< 32) + (mask v1 7 >>> 8) + (v0 <<< 56)

/-- What it adds to `*add1`. -/
def zipper1 (v1 v0 : UInt64) : UInt64 :=
  ((mask v1 3 + mask v0 4) >>> 24) + mask v1 2 + (mask v1 5 >>> 16) + (mask v1 1 <<< 24) +
    (mask v0 6 >>> 8) + (mask v1 0 <<< 48) + mask v0 7

/-- `ZipperMergeAndAdd` on the lanes 1, 0 and 3, 2. -/
def zipperMergeAndAdd (v dest : Lanes) : Lanes :=
  #v[dest[0] + zipper0 v[1] v[0], dest[1] + zipper1 v[1] v[0],
     dest[2] + zipper0 v[3] v[2], dest[3] + zipper1 v[3] v[2]]

/-- `static_cast<uint32_t>(low) * (high >> 32)`. -/
def mulHalves (low high : UInt64) : UInt64 := low.toUInt32.toUInt64 * (high >>> 32)

/-- The eight bytes of a lane. -/
def laneBytes (b : Buffer) (lane : Fin 4) : Except Fault Bytes :=
  (List.finRange 8).mapM fun byte => b.ptr.read (8 * lane.val + byte.val : Nat)

/-- The packet's lanes: `CopyPartial` into them, then `host_from_le64` on each. -/
def packetLanes (packet : CharPtr) : Except Fault Lanes := do
  let lanes ← copyBytes packet .uninitialized 0 32
  let b0 ← laneBytes lanes 0
  let b1 ← laneBytes lanes 1
  let b2 ← laneBytes lanes 2
  let b3 ← laneBytes lanes 3
  return #v[UInt64.ofNat (leValue b0), UInt64.ofNat (leValue b1), UInt64.ofNat (leValue b2),
    UInt64.ofNat (leValue b3)]

/-! ## `Load3` -/

/-- `Load3()(AllowReadBeforeAndReturn, source, size_mod4)`: four bytes ending where the
valid ones end. -/
def load3ReadBefore (source : CharPtr) (sizeMod4 : Nat) : Except Fault UInt32 := do
  let b0 ← source.read (sizeMod4 - 4)
  let b1 ← source.read (sizeMod4 - 4 + 1)
  let b2 ← source.read (sizeMod4 - 4 + 2)
  let b3 ← source.read (sizeMod4 - 4 + 3)
  return UInt32.ofNat (leValue [b0, b1, b2, b3])

/-- `Load3()(AllowUnordered, source, size_mod4)`. -/
def load3Unordered (source : CharPtr) (sizeMod4 : Nat) : Except Fault UInt64 := do
  if sizeMod4 = 0 then return 0
  let idx0 := 0
  let idx1 := sizeMod4 >>> 1
  let idx2 := sizeMod4 - 1
  let c0 ← source.read idx0
  let c1 ← source.read idx1
  let c2 ← source.read idx2
  return c0.toUInt64 + (c1.toUInt64 <<< 8) + (c2.toUInt64 <<< 16)

/-! ## The state -/

/-- `HHStatePortable`. -/
structure HHState where
  v0 : Lanes
  v1 : Lanes
  mul0 : Lanes
  mul1 : Lanes
  deriving DecidableEq, Repr

def init0 : Lanes := #v[0xdbe6d5d5fe4cce2f, 0xa4093822299f31d0, 0x13198a2e03707344, 0x243f6a8885a308d3]

def init1 : Lanes := #v[0x3bd39e10cb0ef593, 0xc0acf169b5f18a8c, 0xbe5466cf34e90c6c, 0x452821e638d01377]

/-- `Reset`, which the constructor calls. -/
def HHState.reset (keys : HHKey) : HHState where
  v0 := xor init0 keys
  v1 := xor init1 (keys.map rotate64By32)
  mul0 := init0
  mul1 := init1

namespace HHState

/-- `Update` on lanes in native byte order. A round of its loop reads and writes one lane of
each array, so each assignment stands for its four rounds. -/
def updateLanes (s : HHState) (packet : Lanes) : HHState :=
  let v1 := add s.mul0 (add packet s.v1)
  let mul0 := xor s.mul0 (Vector.zipWith mulHalves v1 s.v0)
  let v0 := add s.mul1 s.v0
  let mul1 := xor s.mul1 (Vector.zipWith mulHalves v0 v1)
  let v0 := zipperMergeAndAdd v1 v0
  let v1 := zipperMergeAndAdd v0 v1
  ⟨v0, v1, mul0, mul1⟩

/-- `Update` on the 32 bytes of an `HHPacket`. -/
def update (s : HHState) (packet : CharPtr) : Except Fault HHState := do
  return s.updateLanes (← packetLanes packet)

/-- `UpdateRemainder`. -/
def updateRemainder (s : HHState) (bytes : CharPtr) (sizeMod32 : Nat) : Except Fault HHState := do
  let mod32Pair := (UInt64.ofNat sizeMod32 <<< 32) + UInt64.ofNat sizeMod32
  let v0 := s.v0.map fun lane => lane + mod32Pair
  let v1 ← rotate32By s.v1 sizeMod32
  let sizeMod4 := sizeMod32 &&& 3
  let remainder := bytes.add (sizeMod32 - sizeMod4 : Nat)
  let packet ← copyBytes bytes .zeroed 0 (sizeMod32 - sizeMod4)
  if sizeMod32 &&& 16 ≠ 0 then
    let last4 ← load3ReadBefore remainder sizeMod4
    let packet ← copyBytes (.toBytes (leBytes 4 last4.toNat)) packet 28 4
    HHState.update { s with v0, v1 } packet.ptr
  else
    let last4 ← load3Unordered remainder sizeMod4
    let packet ← copyBytes (.toBytes (leBytes 8 last4.toNat)) packet 16 8
    HHState.update { s with v0, v1 } packet.ptr

/-- `PermuteAndUpdate`. -/
def permuteAndUpdate (s : HHState) : HHState := s.updateLanes (permute s.v0)

/-- So many rounds of it. -/
def permuteAndUpdates : Nat → HHState → HHState
  | 0, s => s
  | rounds + 1, s => permuteAndUpdates rounds s.permuteAndUpdate

end HHState

/-! ## Finalization -/

abbrev HHResult64 := UInt64

abbrev HHResult128 := Vector UInt64 2

/-- `Finalize(HHResult64*)`. -/
def finalize64 (s : HHState) : HHResult64 :=
  let s := s.permuteAndUpdates 4
  s.v0[0] + s.v1[0] + s.mul0[0] + s.mul1[0]

/-- `Finalize(HHResult128*)`. -/
def finalize128 (s : HHState) : HHResult128 :=
  let s := s.permuteAndUpdates 6
  #v[s.v0[0] + s.mul0[0] + s.v1[2] + s.mul1[2], s.v0[1] + s.mul0[1] + s.v1[3] + s.mul1[3]]

/-- `Shift128Left<kBits>` of `(a1, a0)`. -/
def shift128Left (kBits : UInt64) (a1 a0 : UInt64) : UInt64 × UInt64 :=
  ((a1 <<< kBits) ||| (a0 >>> (64 - kBits)), a0 <<< kBits)

/-- `ModularReduction`: `(m1, m0)`. -/
def modularReduction (a3Unmasked a2 a1 a0 : UInt64) : UInt64 × UInt64 :=
  let a3 := a3Unmasked &&& 0x3FFFFFFFFFFFFFFF
  let shl1 := shift128Left 1 a3 a2
  let shl2 := shift128Left 2 a3 a2
  (a1 ^^^ shl1.1 ^^^ shl2.1, a0 ^^^ shl1.2 ^^^ shl2.2)

/-- `Finalize(HHResult256*)`. -/
def finalize256 (s : HHState) : HHResult256 :=
  let s := s.permuteAndUpdates 10
  let low := modularReduction (s.v1[1] + s.mul1[1]) (s.v1[0] + s.mul1[0]) (s.v0[1] + s.mul0[1])
    (s.v0[0] + s.mul0[0])
  let high := modularReduction (s.v1[3] + s.mul1[3]) (s.v1[2] + s.mul1[2]) (s.v0[3] + s.mul0[3])
    (s.v0[2] + s.mul0[2])
  #v[low.2, low.1, high.2, high.1]

/-! ## The hash of a message -/

/-- What `highwayhash.h` uses of a `State`. -/
class HHStateT (State : Type) where
  reset : HHKey → State
  update : State → CharPtr → Except Fault State
  updateRemainder : State → CharPtr → Nat → Except Fault State
  finalize64 : State → HHResult64
  finalize128 : State → HHResult128
  finalize256 : State → HHResult256

instance : HHStateT HHState where
  reset := HHState.reset
  update := HHState.update
  updateRemainder := HHState.updateRemainder
  finalize64 := finalize64
  finalize128 := finalize128
  finalize256 := finalize256

section

variable {State Result : Type} [HHStateT State]

/-- The loop of `HighwayHashT` over the first `packets` packets. -/
def updatePackets (bytes : CharPtr) : Nat → State → Except Fault State
  | 0, s => .ok s
  | packets + 1, s => do
    let s ← updatePackets bytes packets s
    HHStateT.update s (bytes.add (32 * packets : Nat))

/-- `HighwayHashT`, with the `Finalize` of its result type. -/
def highwayHashT (finalize : State → Result) (state : State) (bytes : CharPtr) (size : Nat) :
    Except Fault Result := do
  let remainder := size &&& 31
  let truncated := size - remainder
  let state ← updatePackets bytes (truncated / 32) state
  if remainder ≠ 0 then
    let state ← HHStateT.updateRemainder state (bytes.add truncated) remainder
    return finalize state
  return finalize state

end

end UrlShortener.HighwayHash
