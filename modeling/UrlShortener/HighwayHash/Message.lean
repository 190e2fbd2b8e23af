import UrlShortener.HighwayHash.Portable
import UrlShortener.Logic.Absorb

/-!
# The hash is a function of the message

`messageState` says which state a message leaves: packet after packet absorbed, then the
bytes left over, padded to a packet by `remainderPacket`. `highwayHashT_ok` is the
refinement: wherever `size` bytes can be read, `HighwayHashT` completes with the
finalization of that state. Nothing is assumed of the memory around them, so no other byte
is read, although the last bytes are loaded from up to four bytes before the remainder.
The same holds of every state that simulates the portable one (`Simulates`).
-/

namespace UrlShortener.HighwayHash
set_option autoImplicit false
open Absorb

/-! ## Packets -/

/-- The bytes of an `HHPacket`. -/
abbrev HHPacket := Vector UInt8 32

/-- The eight bytes of a lane. -/
def HHPacket.laneBytes (p : HHPacket) (lane : Fin 4) : Bytes := (p.toList.drop (8 * lane.val)).take 8

def HHPacket.lane (p : HHPacket) (lane : Fin 4) : UInt64 := UInt64.ofNat (leValue (p.laneBytes lane))

/-- The packet as four words. -/
def HHPacket.lanes (p : HHPacket) : Lanes := Vector.ofFn p.lane

theorem length_packet (p : HHPacket) : p.toList.length = 32 := Vector.length_toList

theorem length_laneBytes (p : HHPacket) (lane : Fin 4) : (p.laneBytes lane).length = 8 := by
  have := lane.isLt
  rw [HHPacket.laneBytes, List.length_take, List.length_drop, length_packet]
  omega

/-- A loop that completes in every round. -/
theorem mapM_ok {ι β ε : Type} {f : ι → Except ε β} {g : ι → β} (each : ∀ i, f i = .ok (g i)) (is : List ι) :
    is.mapM f = .ok (is.map g) := by
  induction is with
  | nil => rfl
  | cons i is ih =>
    rw [List.mapM_cons, each, ih]
    rfl

theorem laneBytes_ok {b : Buffer} {p : HHPacket} (holds : b.ptr.Holds p.toList) (lane : Fin 4) :
    laneBytes b lane = .ok (p.laneBytes lane) := by
  have := lane.isLt
  have inside : ∀ byte : Fin 8, 8 * lane.val + byte.val < p.toList.length := by
    intro byte
    have := byte.isLt
    rw [length_packet]
    omega
  have each : ∀ byte : Fin 8,
      b.ptr.read (8 * lane.val + byte.val : Nat) = .ok (p.toList.get ⟨8 * lane.val + byte.val, inside byte⟩) :=
    fun byte => holds.read (inside byte)
  rw [laneBytes, mapM_ok each]
  congr 1
  refine List.ext_getElem ?_ fun i short _ => ?_
  · rw [List.length_map, List.length_finRange, length_laneBytes]
  · rw [List.getElem_map, List.getElem_finRange]
    simp [HHPacket.laneBytes]

/-- **Loading a packet.** -/
theorem packetLanes_ok {packet : CharPtr} {p : HHPacket} (holds : packet.Holds p.toList) :
    packetLanes packet = .ok p.lanes := by
  have room : 0 + p.toList.length ≤ 32 := by rw [length_packet]
  have copied := copyBytes_ok holds .uninitialized room
  rw [length_packet] at copied
  have filled : (Buffer.overlay .uninitialized 0 p.toList).ptr.Holds p.toList := by
    have := Buffer.overlay_holds p.toList (CharPtr.holds_nil Buffer.uninitialized.ptr) (CharPtr.holds_nil _) room
    rwa [List.nil_append, List.append_nil] at this
  simp only [packetLanes, copied, bind, Except.bind, laneBytes_ok filled]
  rfl

theorem update_ok {packet : CharPtr} {p : HHPacket} (holds : packet.Holds p.toList) (s : HHState) :
    s.update packet = .ok (s.updateLanes p.lanes) := by
  rw [HHState.update, packetLanes_ok holds]
  rfl

/-! ## The remainder -/

/-- Up to three bytes, as `Load3` repeats and orders them. -/
def unordered : Bytes → Bytes
  | [a] => [a, a, a]
  | [a, b] => [a, b, b]
  | [a, b, c] => [a, b, c]
  | _ => [0, 0, 0]

theorem length_unordered (last : Bytes) : (unordered last).length = 3 := by
  unfold unordered
  split <;> rfl

/-- How many of the remaining bytes are copied as they are. -/
def wholeWords (rest : Bytes) : Nat := rest.length - rest.length % 4

/-- The remaining bytes, padded to a packet. -/
def remainderBytes (rest : Bytes) : Bytes :=
  if 16 ≤ rest.length then
    rest.take (wholeWords rest) ++ List.replicate (28 - wholeWords rest) 0 ++ rest.drop (rest.length - 4)
  else
    rest.take (wholeWords rest) ++ List.replicate (16 - wholeWords rest) 0 ++
      (unordered (rest.drop (wholeWords rest)) ++ List.replicate 5 0) ++ List.replicate 8 0

theorem length_remainderBytes {rest : Bytes} (short : rest.length < 32) : (remainderBytes rest).length = 32 := by
  unfold remainderBytes wholeWords
  split
  · simp only [List.length_append, List.length_take, List.length_replicate, List.length_drop]
    omega
  · simp only [List.length_append, List.length_take, List.length_replicate, length_unordered]
    omega

def remainderPacket (rest : Bytes) (short : rest.length < 32) : HHPacket :=
  fullBlock (remainderBytes rest) (length_remainderBytes short)

theorem and_three (size : Nat) : size &&& 3 = size % 4 := Nat.and_two_pow_sub_one_eq_mod size 2

theorem and_sixteen {size : Nat} (short : size < 32) : size &&& 16 ≠ 0 ↔ 16 ≤ size := by
  have checked : ∀ size : Fin 32, size.val &&& 16 ≠ 0 ↔ 16 ≤ size.val := by decide
  exact checked ⟨size, short⟩

/-- After the first `CopyPartial`, zeros follow the whole words. -/
theorem whole_holds {rest : Bytes} (short : rest.length < 32) :
    (Buffer.overlay .zeroed 0 (rest.take (wholeWords rest))).ptr.Holds
      (rest.take (wholeWords rest) ++ List.replicate (32 - wholeWords rest) 0) := by
  have length : (rest.take (wholeWords rest)).length = wholeWords rest := by
    rw [List.length_take, wholeWords]
    omega
  have whole : wholeWords rest ≤ 32 := by
    rw [wholeWords]
    omega
  have behind : (Buffer.zeroed.ptr.add (([] : Bytes).length + (rest.take (wholeWords rest)).length : Nat)).Holds
      (List.replicate (32 - wholeWords rest) 0) := by
    apply Buffer.zeroed_holds
    rw [length, List.length_nil]
    omega
  have room : ([] : Bytes).length + (rest.take (wholeWords rest)).length +
      (List.replicate (32 - wholeWords rest) (0 : UInt8)).length ≤ 32 := by
    rw [length, List.length_nil, List.length_replicate]
    omega
  have written := Buffer.overlay_holds _ (CharPtr.holds_nil _) behind room
  rwa [List.nil_append] at written

/-- A list of four. -/
theorem four_of_length {last : Bytes} (length : last.length = 4) : ∃ a b c d, last = [a, b, c, d] := by
  match last, length with
  | [a, b, c, d], _ => exact ⟨a, b, c, d, rfl⟩

/-- Reading `k` bytes after the last whole word is reading `wholeWords + k`. -/
theorem read_after_words {bytes : CharPtr} {rest : Bytes} (holds : bytes.Holds rest) {k : Nat} {c : UInt8}
    (byte : rest[k]? = some c) {i : Int} (position : wholeWords rest + i = k) :
    (bytes.add (wholeWords rest : Nat)).read i = .ok c := by
  have there := holds.read_at byte position
  rwa [CharPtr.read, ← CharPtr.add_at?, ← CharPtr.read] at there

/-- The load of the last four bytes, some of them before the remainder. -/
theorem load3ReadBefore_ok {bytes : CharPtr} {rest : Bytes} (holds : bytes.Holds rest) (long : 4 ≤ rest.length) :
    load3ReadBefore (bytes.add (wholeWords rest : Nat)) (rest.length % 4) =
      .ok (UInt32.ofNat (leValue (rest.drop (rest.length - 4)))) := by
  have length : (rest.drop (rest.length - 4)).length = 4 := by
    rw [List.length_drop]
    omega
  obtain ⟨a, b, c, d, last⟩ := four_of_length length
  have byte : ∀ k x, [a, b, c, d][k]? = some x → rest[rest.length - 4 + k]? = some x := by
    intro k x there
    rwa [← last, List.getElem?_drop] at there
  have words : ((wholeWords rest : Nat) : Int) = rest.length - (rest.length % 4 : Nat) := by
    rw [wholeWords]
    omega
  have read0 := read_after_words holds (byte 0 a rfl) (i := (rest.length % 4 : Nat) - 4) (by omega)
  have read1 := read_after_words holds (byte 1 b rfl) (i := (rest.length % 4 : Nat) - 4 + 1) (by omega)
  have read2 := read_after_words holds (byte 2 c rfl) (i := (rest.length % 4 : Nat) - 4 + 2) (by omega)
  have read3 := read_after_words holds (byte 3 d rfl) (i := (rest.length % 4 : Nat) - 4 + 3) (by omega)
  simp only [load3ReadBefore, read0, read1, read2, read3, bind, Except.bind, pure, Except.pure, last]

/-- Three bytes added up at their places are a word of eight. -/
theorem leBytes_sum (a b c : UInt8) :
    leBytes 8 (a.toUInt64 + (b.toUInt64 <<< 8) + (c.toUInt64 <<< 16)).toNat = [a, b, c] ++ List.replicate 5 0 := by
  have := a.toNat_lt
  have := b.toNat_lt
  have := c.toNat_lt
  have value : (a.toUInt64 + (b.toUInt64 <<< 8) + (c.toUInt64 <<< 16)).toNat =
      leValue ([a, b, c] ++ List.replicate 5 0) := by
    simp [leValue, Nat.ofDigits_cons, List.replicate, Nat.shiftLeft_eq]
    omega
  have length : ([a, b, c] ++ List.replicate 5 0 : Bytes).length = 8 := rfl
  rw [value, ← length, leBytes_leValue]

/-- Its three loads. -/
theorem load3Unordered_reads {source : CharPtr} {sizeMod4 : Nat} {a b c : UInt8} (some : sizeMod4 ≠ 0)
    (read0 : source.read (0 : Nat) = .ok a) (read1 : source.read (sizeMod4 >>> 1 : Nat) = .ok b)
    (read2 : source.read (sizeMod4 - 1 : Nat) = .ok c) :
    load3Unordered source sizeMod4 = .ok (a.toUInt64 + (b.toUInt64 <<< 8) + (c.toUInt64 <<< 16)) := by
  simp only [load3Unordered, if_neg some, read0, read1, read2, bind, Except.bind, pure, Except.pure]

/-- The load of the last bytes in the order of `unordered`. -/
theorem load3Unordered_ok {bytes : CharPtr} {rest : Bytes} (holds : bytes.Holds rest) :
    ∃ last4, load3Unordered (bytes.add (wholeWords rest : Nat)) (rest.length % 4) = .ok last4 ∧
      leBytes 8 last4.toNat = unordered (rest.drop (wholeWords rest)) ++ List.replicate 5 0 := by
  have length : (rest.drop (wholeWords rest)).length = rest.length % 4 := by
    rw [List.length_drop, wholeWords]
    omega
  have byte : ∀ (k : Nat) x, (rest.drop (wholeWords rest))[k]? = some x →
      (bytes.add (wholeWords rest : Nat)).read k = .ok x := by
    intro k x there
    rw [List.getElem?_drop] at there
    exact read_after_words holds there (Nat.cast_add _ _).symm
  rw [← length]
  have three : (rest.drop (wholeWords rest)).length < 4 := by omega
  generalize rest.drop (wholeWords rest) = last at byte three
  match last, three with
  | [], _ => exact ⟨0, rfl, rfl⟩
  | [a], _ =>
    exact ⟨_, load3Unordered_reads (by simp) (byte 0 a rfl) (byte _ a (by simp)) (byte _ a (by simp)),
      leBytes_sum a a a⟩
  | [a, b], _ =>
    exact ⟨_, load3Unordered_reads (by simp) (byte 0 a rfl) (byte _ b (by simp)) (byte _ b (by simp)),
      leBytes_sum a b b⟩
  | [a, b, c], _ =>
    exact ⟨_, load3Unordered_reads (by simp) (byte 0 a rfl) (byte _ b (by simp)) (byte _ c (by simp)),
      leBytes_sum a b c⟩

/-- The two `CopyPartial`s into a zeroed packet. -/
theorem splice_holds {rest : Bytes} (short : rest.length < 32) (msg : Bytes) {offset back : Nat}
    (behind : wholeWords rest ≤ offset) (room : offset + msg.length + back = 32) :
    ((Buffer.overlay .zeroed 0 (rest.take (wholeWords rest))).overlay offset msg).ptr.Holds
      (rest.take (wholeWords rest) ++ List.replicate (offset - wholeWords rest) 0 ++ msg ++ List.replicate back 0) := by
  have whole : (rest.take (wholeWords rest)).length = wholeWords rest := by
    rw [List.length_take, wholeWords]
    omega
  have zeros : List.replicate (32 - wholeWords rest) (0 : UInt8) =
      List.replicate (offset - wholeWords rest) 0 ++ (List.replicate msg.length 0 ++ List.replicate back 0) := by
    rw [List.replicate_append_replicate, List.replicate_append_replicate]
    congr 1
    omega
  have kept := whole_holds short
  rw [zeros, ← List.append_assoc] at kept
  have front : (rest.take (wholeWords rest) ++ List.replicate (offset - wholeWords rest) (0 : UInt8)).length = offset := by
    rw [List.length_append, whole, List.length_replicate]
    omega
  have written := @Buffer.overlay_holds _ _ (List.replicate back 0) msg kept.left
  rw [front, List.length_replicate] at written
  refine written ?_ (Nat.le_of_eq room)
  rw [← List.append_assoc] at kept
  have after := kept.right
  rwa [List.length_append, front, List.length_replicate] at after

/-- The length padding of `UpdateRemainder`. -/
def HHState.padLength (s : HHState) (size : Nat) : HHState where
  v0 := s.v0.map fun lane => lane + ((UInt64.ofNat size <<< 32) + UInt64.ofNat size)
  v1 := s.v1.map (rotateHalves size)
  mul0 := s.mul0
  mul1 := s.mul1

/-- `UpdateRemainder` as a function of the remaining bytes. -/
def HHState.absorbRest (s : HHState) (rest : Bytes) (short : rest.length < 32) : HHState :=
  (s.padLength rest.length).updateLanes (remainderPacket rest short).lanes

/-- **The remainder**: of 1 to 31 bytes, `UpdateRemainder` reads only these. -/
theorem updateRemainder_ok {bytes : CharPtr} {rest : Bytes} (holds : bytes.Holds rest) (some : rest ≠ [])
    (short : rest.length < 32) (s : HHState) :
    s.updateRemainder bytes rest.length = .ok (s.absorbRest rest short) := by
  have positive : 0 < rest.length := List.length_pos_iff.mpr some
  have rotated : rotate32By s.v1 rest.length = .ok (s.v1.map (rotateHalves rest.length)) := by
    rw [rotate32By, if_neg (by omega)]
  have whole : (rest.take (wholeWords rest)).length = wholeWords rest := by
    rw [List.length_take, wholeWords]
    omega
  have copied : copyBytes bytes .zeroed 0 (wholeWords rest) =
      .ok (Buffer.overlay .zeroed 0 (rest.take (wholeWords rest))) := by
    have holds' := holds
    rw [← List.take_append_drop (wholeWords rest) rest] at holds'
    have := copyBytes_ok holds'.left .zeroed (show 0 + _ ≤ 32 by rw [whole, wholeWords]; omega)
    rwa [whole] at this
  simp only [HHState.updateRemainder, rotated, and_three, bind, Except.bind]
  rw [show rest.length - rest.length % 4 = wholeWords rest from rfl, copied]
  dsimp only
  by_cases long : 16 ≤ rest.length
  · have length : (rest.drop (rest.length - 4)).length = 4 := by
      rw [List.length_drop]
      omega
    have stored : leBytes 4 (UInt32.ofNat (leValue (rest.drop (rest.length - 4)))).toNat =
        rest.drop (rest.length - 4) := by
      have small := leValue_lt (rest.drop (rest.length - 4))
      have same := leBytes_leValue (rest.drop (rest.length - 4))
      rw [length] at small same
      have fits : leValue (rest.drop (rest.length - 4)) % 2 ^ 32 = leValue (rest.drop (rest.length - 4)) :=
        Nat.mod_eq_of_lt small
      rw [UInt32.toNat_ofNat', fits, same]
    rw [if_pos ((and_sixteen short).mpr long), load3ReadBefore_ok holds (by omega)]
    dsimp only
    have written := copyBytes_ok (CharPtr.toBytes_holds (rest.drop (rest.length - 4)))
      (Buffer.overlay .zeroed 0 (rest.take (wholeWords rest))) (show 28 + _ ≤ 32 by rw [length])
    rw [length] at written
    rw [stored, written]
    dsimp only
    have words : wholeWords rest ≤ 28 := by
      rw [wholeWords]
      omega
    have packet := splice_holds short (rest.drop (rest.length - 4)) words (show 28 + _ + 0 = 32 by rw [length])
    have bytes32 : (remainderPacket rest short).toList = rest.take (wholeWords rest) ++
        List.replicate (28 - wholeWords rest) 0 ++ rest.drop (rest.length - 4) ++ List.replicate 0 0 := by
      rw [remainderPacket, toList_fullBlock, remainderBytes, if_pos long, List.replicate_zero, List.append_nil]
    rw [← bytes32] at packet
    exact update_ok packet _
  · rw [if_neg (mt (and_sixteen short).mp long)]
    obtain ⟨last4, loaded, stored⟩ := load3Unordered_ok holds
    rw [loaded]
    dsimp only
    have length : (unordered (rest.drop (wholeWords rest)) ++ List.replicate 5 0).length = 8 := by
      rw [List.length_append, length_unordered, List.length_replicate]
    have written := copyBytes_ok (CharPtr.toBytes_holds (unordered (rest.drop (wholeWords rest)) ++ List.replicate 5 0))
      (Buffer.overlay .zeroed 0 (rest.take (wholeWords rest))) (show 16 + _ ≤ 32 by rw [length]; decide)
    rw [length] at written
    rw [stored, written]
    dsimp only
    have words : wholeWords rest ≤ 16 := by
      rw [wholeWords]
      omega
    have packet := splice_holds short (unordered (rest.drop (wholeWords rest)) ++ List.replicate 5 0) words
      (show 16 + _ + 8 = 32 by rw [length])
    have bytes32 : (remainderPacket rest short).toList = rest.take (wholeWords rest) ++
        List.replicate (16 - wholeWords rest) 0 ++ (unordered (rest.drop (wholeWords rest)) ++ List.replicate 5 0) ++
        List.replicate 8 0 := by
      rw [remainderPacket, toList_fullBlock, remainderBytes, if_neg long]
    rw [← bytes32] at packet
    exact update_ok packet _

/-! ## The message -/

/-- `Update` as a function of the packet's bytes. -/
def HHState.updatePacket (s : HHState) (p : HHPacket) : HHState := s.updateLanes p.lanes

/-- A state and the bytes after the last full packet. -/
abbrev Hashing := Absorber HHState UInt8 32

/-- Nothing taken in yet. -/
def Hashing.start (s : HHState) : Hashing := ⟨s, [], by decide⟩

/-- The state after the remainder, of which an empty one is skipped. -/
def Hashing.finish (h : Hashing) : HHState :=
  if h.pending = [] then h.state else h.state.absorbRest h.pending h.short

/-- The state a message leads to. -/
def HHState.messageState (s : HHState) (msg : Bytes) : HHState :=
  Hashing.finish ((Hashing.start s).absorb HHState.updatePacket msg)

theorem absorb_packet (s : HHState) (p : HHPacket) :
    (Hashing.start s).absorb HHState.updatePacket p.toList = Hashing.start (s.updatePacket p) := by
  have full : ((Hashing.start s).pending ++ p.toList).length = 32 := length_packet p
  rw [Absorber.absorb_fill _ _ full]
  rfl

/-- A list of 32 bytes is a packet. -/
theorem exists_packet {bs : Bytes} (length : bs.length = 32) : ∃ p : HHPacket, p.toList = bs :=
  ⟨fullBlock bs length, toList_fullBlock bs length⟩

/-- A state of another target stands for a portable one, and its steps for the steps of that. -/
structure Simulates {State : Type} [HHStateT State] (portable : State → HHState) : Prop where
  reset : ∀ key, portable (HHStateT.reset key) = .reset key
  update : ∀ (s : State) {packet : CharPtr} {p : HHPacket}, packet.Holds p.toList →
    ∃ s', HHStateT.update s packet = .ok s' ∧ portable s' = (portable s).updatePacket p
  updateRemainder : ∀ (s : State) {bytes : CharPtr} {rest : Bytes} (short : rest.length < 32),
    bytes.Holds rest → rest ≠ [] →
    ∃ s', HHStateT.updateRemainder s bytes rest.length = .ok s' ∧ portable s' = (portable s).absorbRest rest short
  finalize64 : ∀ s : State, HHStateT.finalize64 s = HighwayHash.finalize64 (portable s)
  finalize128 : ∀ s : State, HHStateT.finalize128 s = HighwayHash.finalize128 (portable s)
  finalize256 : ∀ s : State, HHStateT.finalize256 s = HighwayHash.finalize256 (portable s)

theorem simulates_itself : Simulates (id : HHState → HHState) where
  reset := fun _ => rfl
  update := fun s _ _ holds => ⟨_, update_ok holds s, rfl⟩
  updateRemainder := fun s _ _ short holds some => ⟨_, updateRemainder_ok holds some short s, rfl⟩
  finalize64 := fun _ => rfl
  finalize128 := fun _ => rfl
  finalize256 := fun _ => rfl

section

variable {State Result : Type} [HHStateT State] {portable : State → HHState}

/-- The packets of the loop, in order. -/
theorem Simulates.updatePackets_ok (sim : Simulates portable) {bytes : CharPtr} (packets : Nat) :
    ∀ {msg : Bytes} (s : State), bytes.Holds msg → msg.length = 32 * packets →
    ∃ s', updatePackets bytes packets s = .ok s' ∧
      (Hashing.start (portable s)).absorb HHState.updatePacket msg = Hashing.start (portable s') := by
  induction packets with
  | zero =>
    intro msg s _ length
    have none : msg = [] := List.length_eq_zero_iff.mp length
    exact ⟨s, rfl, by rw [none, Absorber.absorb_nil]⟩
  | succ packets ih =>
    intro msg s holds length
    have last : (msg.drop (32 * packets)).length = 32 := by
      rw [List.length_drop]
      omega
    have first : (msg.take (32 * packets)).length = 32 * packets := by
      rw [List.length_take]
      omega
    obtain ⟨p, packet⟩ := exists_packet last
    rw [← List.take_append_drop (32 * packets) msg] at holds ⊢
    obtain ⟨s', earlier, absorbed⟩ := ih s holds.left first
    have there := holds.right
    rw [first, ← packet] at there
    obtain ⟨s'', updated, same⟩ := sim.update s' there
    refine ⟨s'', ?_, ?_⟩
    · simp only [updatePackets, earlier, bind, Except.bind, updated]
    · rw [Absorber.absorb_append, absorbed, ← packet, absorb_packet, same]

/-- The full packets of a message and the bytes after them. -/
theorem split_packets (msg : Bytes) :
    ∃ full rest, msg = full ++ rest ∧ full.length = 32 * (msg.length / 32) ∧ rest.length = msg.length % 32 := by
  refine ⟨msg.take (32 * (msg.length / 32)), msg.drop (32 * (msg.length / 32)),
    (List.take_append_drop _ _).symm, ?_, ?_⟩
  · rw [List.length_take]
    omega
  · rw [List.length_drop]
    omega

/-- Once the packets are absorbed, the rest is pending. -/
theorem absorb_rest {s s' : HHState} {full rest : Bytes} (short : rest.length < 32)
    (packets : (Hashing.start s).absorb HHState.updatePacket full = Hashing.start s') :
    (Hashing.start s).absorb HHState.updatePacket (full ++ rest) = ⟨s', rest, short⟩ := by
  have room : ([] : Bytes).length + rest.length < 32 := by
    rw [List.length_nil, Nat.zero_add]
    exact short
  rw [Absorber.absorb_append, packets, Absorber.absorb_short _ _ room]
  rfl

/-- **`HighwayHashT` reads the message and nothing else**, and completes with the hash of
its bytes, whatever their number. -/
theorem Simulates.highwayHashT_ok (sim : Simulates portable) {finalize : State → Result}
    {finalizePortable : HHState → Result} (agree : ∀ s, finalize s = finalizePortable (portable s)) (s : State)
    {bytes : CharPtr} {msg : Bytes} (holds : bytes.Holds msg) :
    highwayHashT finalize s bytes msg.length = .ok (finalizePortable ((portable s).messageState msg)) := by
  obtain ⟨full, rest, split, whole, left⟩ := split_packets msg
  have low : msg.length &&& 31 = msg.length % 32 := Nat.and_two_pow_sub_one_eq_mod msg.length 5
  have truncated : msg.length - msg.length % 32 = full.length := by omega
  have count : full.length / 32 = msg.length / 32 := by omega
  have short : rest.length < 32 := by omega
  rw [split] at holds
  obtain ⟨s', packets, absorbed⟩ := sim.updatePackets_ok _ s holds.left whole
  simp only [highwayHashT, low, truncated, count, packets, bind, Except.bind]
  rw [← left, HHState.messageState, split, absorb_rest short absorbed, Hashing.finish]
  by_cases none : rest = []
  · rw [if_neg (not_not_intro (List.length_eq_zero_iff.mpr none)), if_pos none, ← agree]
    rfl
  · obtain ⟨s'', updated, same⟩ := sim.updateRemainder s' short holds.right none
    rw [if_pos (mt List.length_eq_zero_iff.mp none), if_neg none, updated]
    dsimp only
    rw [← same, ← agree]
    rfl

/-- The same from the state a key sets up. -/
theorem Simulates.hash_ok (sim : Simulates portable) {finalize : State → Result}
    {finalizePortable : HHState → Result} (agree : ∀ s, finalize s = finalizePortable (portable s)) (key : HHKey)
    {bytes : CharPtr} {msg : Bytes} (holds : bytes.Holds msg) :
    highwayHashT finalize (HHStateT.reset key) bytes msg.length =
      .ok (finalizePortable ((HHState.reset key).messageState msg)) := by
  rw [sim.highwayHashT_ok agree _ holds, sim.reset]

end

/-- The portable state. -/
theorem highwayHashT_ok {Result : Type} (finalize : HHState → Result) (s : HHState) {bytes : CharPtr} {msg : Bytes}
    (holds : bytes.Holds msg) : highwayHashT finalize s bytes msg.length = .ok (finalize (s.messageState msg)) :=
  simulates_itself.highwayHashT_ok (fun _ => rfl) s holds

/-- The known answers of the library's test for the bytes 0, 1, 2. -/
example :
    let key : HHKey := #v[0x0706050403020100, 0x0F0E0D0C0B0A0908, 0x1716151413121110, 0x1F1E1D1C1B1A1918]
    highwayHashT finalize64 (.reset key) (.toBytes [0, 1, 2]) 3 = .ok 0x5C6BEFAB8A463D80 ∧
      highwayHashT finalize128 (.reset key) (.toBytes [0, 1, 2]) 3 =
        .ok #v[0x0607621B295F0BEB, 0xBFE69A0FD9CEDD79] := by
  decide +kernel

end UrlShortener.HighwayHash
