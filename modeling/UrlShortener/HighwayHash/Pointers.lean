import UrlShortener.Bytes
import UrlShortener.Logic.Numerals

/-!
# Pointers to bytes

HighwayHash takes its message through a `const char*` and fills 32-byte buffers through a
`char*`. A `CharPtr` says which byte can be read at which offset; a `Buffer` is such an
object of 32 bytes, each written or not. A read or a write outside its object, and a read
of a byte not written yet, is a `Fault`: what completes has made none.
-/

namespace UrlShortener.HighwayHash
set_option autoImplicit false
open Numerals

/-- What the language leaves undefined and this code could do, the aliasing rules aside, under
which `Rotate32By` reads the lanes through a `uint32_t` pointer. -/
inductive Fault where
  /-- A byte read outside its object or before it is written. -/
  | unreadable
  /-- A byte written outside its object. -/
  | unwritable
  /-- A shift by the width of its operand or more. -/
  | shiftTooFar
  deriving DecidableEq, Repr

/-- A `const char*`, by the byte readable at each offset from it. -/
structure CharPtr where
  at? : Int → Option UInt8

namespace CharPtr

/-- `p[i]`. -/
def read (p : CharPtr) (i : Int) : Except Fault UInt8 :=
  match p.at? i with
  | some c => .ok c
  | none => .error .unreadable

/-- `p + i`. -/
def add (p : CharPtr) (i : Int) : CharPtr := ⟨fun k => p.at? (i + k)⟩

/-- The first of these bytes, and nothing else to be read. -/
def toBytes (object : Bytes) : CharPtr where
  at?
    | .ofNat i => object[i]?
    | .negSucc _ => none

/-- The message can be read from here on; what lies around it is left open. -/
def Holds (p : CharPtr) (msg : Bytes) : Prop := ∀ i, (inside : i < msg.length) → p.at? i = some msg[i]

theorem holds_nil (p : CharPtr) : p.Holds [] := by
  intro i inside
  cases inside

theorem toBytes_holds (object : Bytes) : (toBytes object).Holds object :=
  fun _ inside => List.getElem?_eq_getElem inside

theorem Holds.read {p : CharPtr} {msg : Bytes} (holds : p.Holds msg) {i : Nat} (inside : i < msg.length) :
    p.read i = .ok msg[i] := by
  rw [CharPtr.read, holds i inside]

/-- The same for a byte known by its position. -/
theorem Holds.read_at {p : CharPtr} {msg : Bytes} (holds : p.Holds msg) {k : Nat} {c : UInt8}
    (byte : msg[k]? = some c) {i : Int} (position : i = k) : p.read i = .ok c := by
  obtain ⟨inside, same⟩ := List.getElem?_eq_some_iff.mp byte
  rw [position, holds.read inside, same]

theorem add_at? (p : CharPtr) (i k : Int) : (p.add i).at? k = p.at? (i + k) := rfl

theorem holds_append {p : CharPtr} {xs ys : Bytes} :
    p.Holds (xs ++ ys) ↔ p.Holds xs ∧ (p.add xs.length).Holds ys := by
  constructor
  · intro holds
    refine ⟨fun i inside => ?_, fun i inside => ?_⟩
    · have whole : i < (xs ++ ys).length := by
        rw [List.length_append]
        omega
      rw [holds i whole, List.getElem_append_left inside]
    · have whole : xs.length + i < (xs ++ ys).length := by
        rw [List.length_append]
        omega
      have there := holds (xs.length + i) whole
      rw [List.getElem_append_right (Nat.le_add_right _ _)] at there
      simp only [Nat.add_sub_cancel_left] at there
      rw [add_at?, ← there, Nat.cast_add]
  · rintro ⟨first, last⟩ i inside
    by_cases early : i < xs.length
    · rw [first i early, List.getElem_append_left early]
    · have late : i - xs.length < ys.length := by
        rw [List.length_append] at inside
        omega
      have there := last (i - xs.length) late
      have position : ((xs.length : Int) + ((i - xs.length : Nat) : Int)) = i := by omega
      rw [List.getElem_append_right (Nat.le_of_not_lt early), ← there, add_at?, position]

theorem Holds.left {p : CharPtr} {xs ys : Bytes} (holds : p.Holds (xs ++ ys)) : p.Holds xs :=
  (holds_append.mp holds).1

theorem Holds.right {p : CharPtr} {xs ys : Bytes} (holds : p.Holds (xs ++ ys)) : (p.add xs.length).Holds ys :=
  (holds_append.mp holds).2

end CharPtr

/-! ## Buffers -/

/-- An `HHPacket` in memory; a byte not written yet is `none`. -/
abbrev Buffer := Vector (Option UInt8) 32

namespace Buffer

def uninitialized : Buffer := Vector.replicate 32 none

def zeroed : Buffer := Vector.replicate 32 (some 0)

/-- Its address. -/
def ptr (b : Buffer) : CharPtr where
  at?
    | .ofNat i => (b[i]?).join
    | .negSucc _ => none

/-- The buffer with these bytes written from `offset` on. -/
def overlay (b : Buffer) (offset : Nat) (msg : Bytes) : Buffer :=
  Vector.ofFn fun i => if offset ≤ i ∧ i < offset + msg.length then msg[i.val - offset]? else b[i]

theorem ptr_at? (b : Buffer) (i : Nat) : b.ptr.at? i = (b[i]?).join := rfl

theorem ptr_holds_iff {b : Buffer} {msg : Bytes} :
    b.ptr.Holds msg ↔ ∀ i, (inside : i < msg.length) → b[i]? = some (some msg[i]) := by
  refine forall_congr' fun i => forall_congr' fun inside => ?_
  rw [ptr_at?, Option.join_eq_some_iff]

theorem overlay_nil (b : Buffer) (offset : Nat) : b.overlay offset [] = b := by
  ext1 i inside
  have outside : ¬ (offset ≤ i ∧ i < offset + ([] : Bytes).length) := by
    rw [List.length_nil]
    omega
  rw [overlay, Vector.getElem_ofFn, if_neg outside]
  rfl

/-- One more byte. -/
theorem overlay_take_succ (b : Buffer) {offset size : Nat} {msg : Bytes} (short : size < msg.length)
    (inside : offset + size < 32) :
    (b.overlay offset (msg.take size)).set (offset + size) (some msg[size]) inside =
      b.overlay offset (msg.take (size + 1)) := by
  have length : (msg.take size).length = size := by
    rw [List.length_take]
    omega
  have longer : (msg.take (size + 1)).length = size + 1 := by
    rw [List.length_take]
    omega
  ext1 i within
  rw [Vector.getElem_set, overlay, overlay, Vector.getElem_ofFn, Vector.getElem_ofFn, length, longer]
  dsimp only
  by_cases here : offset + size = i
  · subst here
    have new : offset ≤ offset + size ∧ offset + size < offset + (size + 1) := by omega
    rw [if_pos rfl, if_pos new, Nat.add_sub_cancel_left, List.getElem?_take_of_lt (by omega),
      List.getElem?_eq_getElem short]
  · rw [if_neg here]
    by_cases new : offset ≤ i ∧ i < offset + size
    · have newer : offset ≤ i ∧ i < offset + (size + 1) := by omega
      rw [if_pos new, if_pos newer, List.getElem?_take_of_lt (by omega), List.getElem?_take_of_lt (by omega)]
    · have newer : ¬ (offset ≤ i ∧ i < offset + (size + 1)) := by omega
      rw [if_neg new, if_neg newer]

/-- What is held around the bytes written is still held. -/
theorem overlay_holds {b : Buffer} {front back : Bytes} (msg : Bytes) (before : b.ptr.Holds front)
    (behind : (b.ptr.add (front.length + msg.length : Nat)).Holds back)
    (room : front.length + msg.length + back.length ≤ 32) :
    (b.overlay front.length msg).ptr.Holds (front ++ msg ++ back) := by
  rw [ptr_holds_iff] at before ⊢
  intro i inside
  rw [List.length_append, List.length_append] at inside
  have within : i < 32 := by omega
  rw [Vector.getElem?_eq_getElem within, overlay, Vector.getElem_ofFn]
  dsimp only
  by_cases written : front.length ≤ i ∧ i < front.length + msg.length
  · have position : i - front.length < msg.length := by omega
    have left : i < (front ++ msg).length := by
      rw [List.length_append]
      omega
    rw [if_pos written, List.getElem?_eq_getElem position, List.getElem_append_left left,
      List.getElem_append_right written.1]
  · rw [if_neg written]
    by_cases early : i < front.length
    · have old := before i early
      have left : i < (front ++ msg).length := by
        rw [List.length_append]
        omega
      rw [Vector.getElem?_eq_getElem within] at old
      rw [List.getElem_append_left left, List.getElem_append_left early]
      exact old
    · have late : i - (front.length + msg.length) < back.length := by omega
      have there := behind (i - (front.length + msg.length)) late
      have position : ((front.length + msg.length : Nat) : Int) + ((i - (front.length + msg.length) : Nat) : Int) =
          (i : Nat) := by omega
      rw [CharPtr.add_at?, position, ptr_at?, Option.join_eq_some_iff, Vector.getElem?_eq_getElem within] at there
      have right : (front ++ msg).length ≤ i := by
        rw [List.length_append]
        omega
      rw [List.getElem_append_right right]
      simpa only [List.length_append, Fin.getElem_fin] using there

/-- Zeros can be read all over a zeroed buffer. -/
theorem zeroed_holds (offset : Nat) {k : Nat} (inside : offset + k ≤ 32) :
    (zeroed.ptr.add offset).Holds (List.replicate k 0) := by
  intro i within
  rw [List.length_replicate] at within
  have position : (offset : Int) + (i : Nat) = (offset + i : Nat) := by omega
  rw [CharPtr.add_at?, position, ptr_at?, Vector.getElem?_eq_getElem (by omega), List.getElem_replicate, zeroed,
    Vector.getElem_replicate]
  rfl

end Buffer

/-- `for (i = 0; i < size; ++i) buffer[offset + i] = source[i]`. -/
def copyBytes (source : CharPtr) (buffer : Buffer) (offset : Nat) : Nat → Except Fault Buffer
  | 0 => .ok buffer
  | size + 1 => do
    let buffer ← copyBytes source buffer offset size
    let c ← source.read size
    if inside : offset + size < 32 then return buffer.set (offset + size) (some c)
    throw .unwritable

/-- **The copy**: it completes wherever the source can be read and the target has room. -/
theorem copyBytes_ok {source : CharPtr} {msg : Bytes} (holds : source.Holds msg) (buffer : Buffer) {offset : Nat}
    (room : offset + msg.length ≤ 32) :
    copyBytes source buffer offset msg.length = .ok (buffer.overlay offset msg) := by
  have loop : ∀ size ≤ msg.length,
      copyBytes source buffer offset size = .ok (buffer.overlay offset (msg.take size)) := by
    intro size
    induction size with
    | zero =>
      intro _
      rw [copyBytes, List.take_zero, Buffer.overlay_nil]
    | succ size ih =>
      intro short
      have inside : offset + size < 32 := by omega
      rw [copyBytes, ih (by omega)]
      simp only [bind, Except.bind, holds.read short, dif_pos inside, pure, Except.pure]
      rw [Buffer.overlay_take_succ buffer short inside]
  have whole := loop msg.length (Nat.le_refl _)
  rwa [List.take_length] at whole

/-! ## Little-endian words -/

/-- The number written in these bytes, least significant first. -/
def leValue (bs : Bytes) : Nat := Nat.ofDigits 256 (bs.map UInt8.toNat)

/-- The `k` bytes of a number in memory. -/
def leBytes (k n : Nat) : Bytes := (lowDigits 256 k n).map UInt8.ofNat

@[simp] theorem length_leBytes (k n : Nat) : (leBytes k n).length = k := by
  rw [leBytes, List.length_map, length_lowDigits]

theorem byte_digits (bs : Bytes) : ∀ d ∈ bs.map UInt8.toNat, d < 256 := by
  intro d mem
  obtain ⟨c, _, rfl⟩ := List.mem_map.mp mem
  exact c.toNat_lt

theorem leValue_lt (bs : Bytes) : leValue bs < 256 ^ bs.length := by
  have value := Nat.ofDigits_lt_base_pow_length (by omega) (byte_digits bs)
  rwa [List.length_map] at value

/-- **What was loaded is what is stored.** -/
theorem leBytes_leValue (bs : Bytes) : leBytes bs.length (leValue bs) = bs := by
  have digits := lowDigits_ofDigits (byte_digits bs)
  rw [List.length_map] at digits
  rw [leBytes, leValue, digits, List.map_map]
  have each : UInt8.ofNat ∘ UInt8.toNat = id := funext fun c => UInt8.ofNat_toNat
  rw [each, List.map_id]

theorem leValue_injective {bs cs : Bytes} (length : bs.length = cs.length) (same : leValue bs = leValue cs) :
    bs = cs := by
  rw [← leBytes_leValue bs, ← leBytes_leValue cs, length, same]

end UrlShortener.HighwayHash
