import UrlShortener.HighwayHash.Message
import UrlShortener.Logic.Simd
import Mathlib.Data.Fintype.EquivFin
import Mathlib.Data.Finite.Prod

/-!
# No state is lost in mixing

`Update` adds and xors each array with a function of the others, so it can be undone
(`updateLanes_eq`): a packet permutes the states, and from one state two packets lead to
two. By the absorber's induction a whole message permutes the states
(`message_permutes_states`), and two messages that differ within one packet never meet
(`one_packet_kept`), before the finalization's rounds or after any number of them. What
can collide is only the fold to the result.
-/

namespace UrlShortener.HighwayHash
set_option autoImplicit false
open Absorb

/-! ## Lanes -/

theorem getElem_add (source dest : Lanes) {i : Nat} (inside : i < 4) :
    (add source dest)[i] = dest[i] + source[i] := Vector.getElem_zipWith inside

theorem getElem_xor (op1 op2 : Lanes) {i : Nat} (inside : i < 4) : (xor op1 op2)[i] = op1[i] ^^^ op2[i] :=
  Vector.getElem_zipWith inside

theorem add_left_cancel' {source v w : Lanes} (same : add source v = add source w) : v = w := by
  ext1 i inside
  have lane := congrArg (fun u : Lanes => u[i]) same
  simp only [getElem_add] at lane
  exact (UInt64.add_left_inj _).mp lane

theorem add_comm' (v w : Lanes) : add v w = add w v := by
  ext1 i inside
  rw [getElem_add, getElem_add, UInt64.add_comm]

theorem xor_right_cancel {v w mixed : Lanes} (same : xor v mixed = xor w mixed) : v = w := by
  ext1 i inside
  have lane := congrArg (fun u : Lanes => u[i]) same
  simp only [getElem_xor] at lane
  exact (UInt64.xor_left_inj _).mp lane

theorem zipper_cancel {v dest dest' : Lanes} (same : zipperMergeAndAdd v dest = zipperMergeAndAdd v dest') :
    dest = dest' := by
  have lane0 : dest[0] = dest'[0] := (UInt64.add_left_inj _).mp (congrArg (fun u : Lanes => u[0]) same)
  have lane1 : dest[1] = dest'[1] := (UInt64.add_left_inj _).mp (congrArg (fun u : Lanes => u[1]) same)
  have lane2 : dest[2] = dest'[2] := (UInt64.add_left_inj _).mp (congrArg (fun u : Lanes => u[2]) same)
  have lane3 : dest[3] = dest'[3] := (UInt64.add_left_inj _).mp (congrArg (fun u : Lanes => u[3]) same)
  ext1 i inside
  have lane : i = 0 ∨ i = 1 ∨ i = 2 ∨ i = 3 := by omega
  rcases lane with rfl | rfl | rfl | rfl
  · exact lane0
  · exact lane1
  · exact lane2
  · exact lane3

/-! ## One update -/

/-- **What an update keeps**: everything but the packet and `v1` apart from their sum. -/
theorem updateLanes_eq {s t : HHState} {p q : Lanes} (same : s.updateLanes p = t.updateLanes q) :
    s.v0 = t.v0 ∧ s.mul0 = t.mul0 ∧ s.mul1 = t.mul1 ∧ add p s.v1 = add q t.v1 := by
  simp only [HHState.updateLanes, HHState.mk.injEq] at same
  obtain ⟨v0, v1, mul0, mul1⟩ := same
  rw [v0] at v1
  have v1 := zipper_cancel v1
  rw [v1] at v0
  have v0 := zipper_cancel v0
  rw [v0, v1] at mul1
  have mul1 := xor_right_cancel mul1
  rw [mul1] at v0
  have v0 := add_left_cancel' v0
  rw [v1, v0] at mul0
  have mul0 := xor_right_cancel mul0
  rw [mul0] at v1
  exact ⟨v0, mul0, mul1, add_left_cancel' v1⟩

theorem HHState.ext_of {s t : HHState} (v0 : s.v0 = t.v0) (v1 : s.v1 = t.v1) (mul0 : s.mul0 = t.mul0)
    (mul1 : s.mul1 = t.mul1) : s = t := by
  cases s
  cases t
  cases v0
  cases v1
  cases mul0
  cases mul1
  rfl

theorem updateLanes_injective (p : Lanes) : Function.Injective fun s : HHState => s.updateLanes p := by
  intro s t same
  obtain ⟨v0, mul0, mul1, sum⟩ := updateLanes_eq same
  exact HHState.ext_of v0 (add_left_cancel' sum) mul0 mul1

theorem updateLanes_packet {s : HHState} {p q : Lanes} (same : s.updateLanes p = s.updateLanes q) : p = q := by
  obtain ⟨-, -, -, sum⟩ := updateLanes_eq same
  rw [add_comm' p, add_comm' q] at sum
  exact add_left_cancel' sum

/-- The finalization's round takes its packet from `v0`, which the round keeps. -/
theorem permuteAndUpdate_injective : Function.Injective HHState.permuteAndUpdate := by
  intro s t same
  obtain ⟨v0, mul0, mul1, sum⟩ := updateLanes_eq same
  rw [v0] at sum
  exact HHState.ext_of v0 (add_left_cancel' sum) mul0 mul1

theorem permuteAndUpdates_injective (rounds : Nat) : Function.Injective (HHState.permuteAndUpdates rounds) := by
  induction rounds with
  | zero => exact fun s t same => same
  | succ rounds ih => exact ih.comp permuteAndUpdate_injective

/-! ## The remainder -/

theorem rotate32_bits {count : Nat} (positive : 0 < count) (short : count < 32) (x : UInt32) :
    (rotate32 count x).toBitVec = x.toBitVec.rotateLeft count := by
  have left : count % 32 = count := Nat.mod_eq_of_lt short
  have right : (32 - count) % 32 = 32 - count := Nat.mod_eq_of_lt (by omega)
  simp [rotate32, BitVec.rotateLeft_def, UInt32.toBitVec_shiftLeft, UInt32.toBitVec_shiftRight, left, right]

/-- Each bit is found again where it was rotated to. -/
theorem rotate32_injective {count : Nat} (positive : 0 < count) (short : count < 32) :
    Function.Injective (rotate32 count) := by
  intro x y same
  have bits := congrArg UInt32.toBitVec same
  rw [rotate32_bits positive short, rotate32_bits positive short] at bits
  apply UInt32.toBitVec_inj.mp
  apply BitVec.eq_of_getLsbD_eq
  intro i inside
  by_cases low : i + count < 32
  · have bit := congrArg (fun b => b.getLsbD (i + count)) bits
    simpa [BitVec.getLsbD_rotateLeft, Nat.mod_eq_of_lt short, low, BitVec.getLsbD_eq_getElem inside] using bit
  · have bit := congrArg (fun b => b.getLsbD (i + count - 32)) bits
    have wrapped : i + count - 32 < count := by omega
    have back : 32 - count + (i + count - 32) = i := by omega
    simpa [BitVec.getLsbD_rotateLeft, Nat.mod_eq_of_lt short, wrapped, back] using bit

theorem rotateHalves_injective {count : Nat} (positive : 0 < count) (short : count < 32) :
    Function.Injective (rotateHalves count) := by
  intro x y same
  have value := congrArg UInt64.toNat same
  change (Simd.joinWords _ _).toNat = (Simd.joinWords _ _).toNat at value
  rw [Simd.toNat_joinWords, Simd.toNat_joinWords] at value
  have := (rotate32 count (x >>> 32).toUInt32).toNat_lt
  have := (rotate32 count (y >>> 32).toUInt32).toNat_lt
  have := (rotate32 count x.toUInt32).toNat_lt
  have := (rotate32 count y.toUInt32).toNat_lt
  have high : rotate32 count (x >>> 32).toUInt32 = rotate32 count (y >>> 32).toUInt32 :=
    UInt32.toNat_inj.mp (by omega)
  have low : rotate32 count x.toUInt32 = rotate32 count y.toUInt32 := UInt32.toNat_inj.mp (by omega)
  have high := congrArg UInt32.toNat (rotate32_injective positive short high)
  have low := congrArg UInt32.toNat (rotate32_injective positive short low)
  apply UInt64.toNat_inj.mp
  have := x.toNat_lt
  have := y.toNat_lt
  simp [Nat.shiftRight_eq_div_pow] at high low
  omega

theorem map_injective {f : UInt64 → UInt64} (each : Function.Injective f) :
    Function.Injective fun v : Lanes => v.map f := by
  intro v w same
  ext1 i inside
  have lane := congrArg (fun u : Lanes => u[i]) same
  simp only [Vector.getElem_map] at lane
  exact each lane

/-- The length padding can be undone. -/
theorem padLength_injective {size : Nat} (positive : 0 < size) (short : size < 32) :
    Function.Injective fun s : HHState => s.padLength size := by
  intro s t same
  simp only [HHState.padLength, HHState.mk.injEq] at same
  obtain ⟨v0, v1, mul0, mul1⟩ := same
  have v0 := map_injective (fun x y sum => (UInt64.add_left_inj _).mp sum) v0
  exact HHState.ext_of v0 (map_injective (rotateHalves_injective positive short) v1) mul0 mul1

/-! ## Packets -/

theorem laneBytes_eq {p q : HHPacket} {lane : Fin 4} (same : p.lane lane = q.lane lane) :
    p.laneBytes lane = q.laneBytes lane := by
  refine leValue_injective ((length_laneBytes p lane).trans (length_laneBytes q lane).symm) ?_
  have fits : ∀ p : HHPacket, (p.lane lane).toNat = leValue (p.laneBytes lane) := by
    intro p
    have small := leValue_lt (p.laneBytes lane)
    rw [length_laneBytes] at small
    rw [HHPacket.lane, UInt64.toNat_ofNat']
    exact Nat.mod_eq_of_lt small
  rw [← fits, ← fits, same]

theorem toList_laneBytes (p : HHPacket) :
    p.toList = p.laneBytes 0 ++ (p.laneBytes 1 ++ (p.laneBytes 2 ++ p.laneBytes 3)) := by
  have lane3 : p.laneBytes 3 = p.toList.drop 24 := by
    refine List.take_of_length_le ?_
    rw [List.length_drop, length_packet]
    decide
  have lane2 : p.laneBytes 2 ++ p.toList.drop 24 = p.toList.drop 16 := by
    rw [HHPacket.laneBytes]
    have := List.take_append_drop 8 (p.toList.drop 16)
    rwa [List.drop_drop] at this
  have lane1 : p.laneBytes 1 ++ p.toList.drop 16 = p.toList.drop 8 := by
    rw [HHPacket.laneBytes]
    have := List.take_append_drop 8 (p.toList.drop 8)
    rwa [List.drop_drop] at this
  rw [lane3, lane2, lane1]
  exact (List.take_append_drop 8 p.toList).symm

/-- No two packets have the same lanes. -/
theorem lanes_injective : Function.Injective HHPacket.lanes := by
  intro p q same
  have lane : ∀ i : Fin 4, p.laneBytes i = q.laneBytes i := by
    intro i
    have word := congrArg (fun u : Lanes => u[i.val]) same
    simp only [HHPacket.lanes, Vector.getElem_ofFn] at word
    exact laneBytes_eq word
  apply Vector.toList_inj.mp
  rw [toList_laneBytes p, toList_laneBytes q, lane, lane, lane, lane]

theorem unordered_injective {last last' : Bytes} (length : last.length = last'.length) (short : last.length < 4)
    (same : unordered last = unordered last') : last = last' := by
  match last, last', length, short with
  | [], [], _, _ => rfl
  | [a], [a'], _, _ =>
    simp only [unordered, List.cons.injEq] at same
    rw [same.1]
  | [a, b], [a', b'], _, _ =>
    simp only [unordered, List.cons.injEq] at same
    rw [same.1, same.2.1]
  | [a, b, c], [a', b', c'], _, _ => exact same

/-- No two remainders of one length are padded to the same packet. -/
theorem remainderBytes_injective {rest rest' : Bytes} (length : rest.length = rest'.length)
    (same : remainderBytes rest = remainderBytes rest') : rest = rest' := by
  have words : wholeWords rest = wholeWords rest' := by rw [wholeWords, wholeWords, length]
  have below : wholeWords rest ≤ rest.length := Nat.sub_le _ _
  have front : (rest.take (wholeWords rest)).length = (rest'.take (wholeWords rest')).length := by
    rw [List.length_take, List.length_take, words, length]
  rw [← List.take_append_drop (wholeWords rest) rest, ← List.take_append_drop (wholeWords rest') rest']
  unfold remainderBytes at same
  by_cases long : 16 ≤ rest.length
  · rw [if_pos long, if_pos (length ▸ long), words, List.append_assoc, List.append_assoc] at same
    obtain ⟨first, behind⟩ := List.append_inj same (words ▸ front)
    have last := (List.append_inj behind rfl).2
    have tail : ∀ rest : Bytes, 16 ≤ rest.length →
        rest.drop (wholeWords rest) = (rest.drop (rest.length - 4)).drop (4 - rest.length % 4) := by
      intro rest long
      rw [List.drop_drop, wholeWords]
      congr 1
      omega
    rw [tail rest long, tail rest' (length ▸ long), last, words, first, length]
  · rw [if_neg long, if_neg (length ▸ long), words] at same
    simp only [List.append_assoc] at same
    obtain ⟨first, behind⟩ := List.append_inj same (words ▸ front)
    have after := (List.append_inj behind rfl).2
    have last := (List.append_inj after ((length_unordered _).trans (length_unordered _).symm)).1
    have short : (rest.drop (wholeWords rest)).length < 4 := by
      rw [List.length_drop, wholeWords]
      omega
    have lengths : (rest.drop (wholeWords rest)).length = (rest'.drop (wholeWords rest')).length := by
      rw [List.length_drop, List.length_drop, words, length]
    rw [words] at short lengths
    rw [words, first, unordered_injective lengths short last]

theorem remainderPacket_injective {rest rest' : Bytes} {short : rest.length < 32} {short' : rest'.length < 32}
    (length : rest.length = rest'.length) (same : remainderPacket rest short = remainderPacket rest' short') :
    rest = rest' := by
  have bytes := congrArg Vector.toList same
  rw [remainderPacket, remainderPacket, toList_fullBlock, toList_fullBlock] at bytes
  exact remainderBytes_injective length bytes

/-! ## Messages -/

theorem updatePacket_injective (p : HHPacket) : Function.Injective fun s : HHState => s.updatePacket p :=
  updateLanes_injective p.lanes

/-- With the same bytes pending, the last step can be undone. -/
theorem finish_injective {g h : Hashing} (pending : g.pending = h.pending) (same : g.finish = h.finish) :
    g.state = h.state := by
  obtain ⟨s, rest, short⟩ := g
  obtain ⟨t, rest', short'⟩ := h
  have pending : rest = rest' := pending
  subst pending
  simp only [Hashing.finish] at same
  by_cases none : rest = []
  · rw [if_pos none, if_pos none] at same
    exact same
  · rw [if_neg none, if_neg none] at same
    have positive := List.length_pos_iff.mpr none
    exact padLength_injective positive short (updateLanes_injective _ same)

/-- **A message can be undone.** -/
theorem messageState_injective (msg : Bytes) : Function.Injective fun s : HHState => s.messageState msg := by
  intro s t same
  have pending : ((Hashing.start s).absorb HHState.updatePacket msg).pending =
      ((Hashing.start t).absorb HHState.updatePacket msg).pending := Absorber.pending_congr msg (by rfl)
  have states := finish_injective pending same
  have start := Absorber.absorb_injective updatePacket_injective msg (by rfl) states
  exact start

theorem reset_injective : Function.Injective HHState.reset := by
  intro key key' same
  simp only [HHState.reset, HHState.mk.injEq] at same
  have v0 := same.1
  ext1 i inside
  have lane := congrArg (fun u : Lanes => u[i]) v0
  simp only [getElem_xor] at lane
  exact (UInt64.xor_right_inj _).mp lane

instance : Finite HHState := by
  have words : Finite UInt64 := Finite.of_injective UInt64.toFin fun x y same => UInt64.toFin_inj.mp same
  have lanes : Finite Lanes := Finite.of_injective (fun v (i : Fin 4) => v[i]) fun v w same => by
    ext1 i inside
    exact congrFun same ⟨i, inside⟩
  refine Finite.of_injective (fun s : HHState => (s.v0, s.v1, s.mul0, s.mul1)) fun s t same => ?_
  simp only [Prod.mk.injEq] at same
  exact HHState.ext_of same.1 same.2.1 same.2.2.1 same.2.2.2

/-- **A message permutes the states**, with any number of the finalization's rounds after it,
so two keys never lead to one state. -/
theorem message_permutes_states (msg : Bytes) (rounds : Nat) :
    (Function.Bijective fun s : HHState => (s.messageState msg).permuteAndUpdates rounds) ∧
      Function.Injective fun key => ((HHState.reset key).messageState msg).permuteAndUpdates rounds := by
  have injective : Function.Injective fun s : HHState => (s.messageState msg).permuteAndUpdates rounds :=
    (permuteAndUpdates_injective rounds).comp (messageState_injective msg)
  exact ⟨Finite.injective_iff_bijective.mp injective, injective.comp reset_injective⟩

theorem updatePacket_packet {s : HHState} {p q : HHPacket} (same : s.updatePacket p = s.updatePacket q) : p = q :=
  lanes_injective (updateLanes_packet same)

/-- Two last parts of one length. -/
theorem rest_kept {s : HHState} {rest rest' : Bytes} (length : rest.length = rest'.length) (short : rest.length < 32)
    (short' : rest'.length < 32) (same : Hashing.finish ⟨s, rest, short⟩ = Hashing.finish ⟨s, rest', short'⟩) :
    rest = rest' := by
  simp only [Hashing.finish] at same
  by_cases none : rest = []
  · rw [none, List.length_nil] at length
    rw [none, List.length_eq_zero_iff.mp length.symm]
  · have some : rest' ≠ [] := by
      rintro rfl
      exact none (List.length_eq_zero_iff.mp length)
    rw [if_neg none, if_neg some, HHState.absorbRest, HHState.absorbRest, length] at same
    exact remainderPacket_injective length (lanes_injective (updateLanes_packet same))

/-- Two full packets at one place, with anything behind them. -/
theorem packet_kept {s : HHState} {x y back : Bytes} (lengthx : x.length = 32) (lengthy : y.length = 32)
    (same : s.messageState (x ++ back) = s.messageState (y ++ back)) : x = y := by
  obtain ⟨p, packetp⟩ := exists_packet lengthx
  obtain ⟨q, packetq⟩ := exists_packet lengthy
  simp only [HHState.messageState, Absorber.absorb_append] at same
  rw [← packetp, ← packetq, absorb_packet, absorb_packet] at same
  have states := messageState_injective back same
  rw [← packetp, ← packetq, updatePacket_packet states]

/-- The state after full packets goes on as a fresh one. -/
theorem messageState_front {front : Bytes} {k : Nat} (whole : front.length = 32 * k) (s : HHState) :
    ∃ s' : HHState, ∀ msg, s.messageState (front ++ msg) = s'.messageState msg := by
  obtain ⟨s', -, absorbed⟩ := simulates_itself.updatePackets_ok k s (CharPtr.toBytes_holds front) whole
  simp only [id] at absorbed
  refine ⟨s', fun msg => ?_⟩
  rw [HHState.messageState, Absorber.absorb_append, absorbed, HHState.messageState]

/-- Two messages that agree outside one packet and lead to one state are equal. -/
theorem eq_of_messageState {s : HHState} {msg msg' : Bytes} (k : Nat) (length : msg.length = msg'.length)
    (outside : ∀ i, i / 32 ≠ k → msg[i]? = msg'[i]?) (states : s.messageState msg = s.messageState msg') :
    msg = msg' := by
  have front : msg.take (32 * k) = msg'.take (32 * k) := by
    refine List.ext_getElem? fun i => ?_
    rw [List.getElem?_take, List.getElem?_take]
    split
    · exact outside i (by omega)
    · rfl
  have back : (msg.drop (32 * k)).drop 32 = (msg'.drop (32 * k)).drop 32 := by
    refine List.ext_getElem? fun i => ?_
    rw [List.drop_drop, List.drop_drop, List.getElem?_drop, List.getElem?_drop]
    exact outside _ (by omega)
  have lengths : (msg.drop (32 * k)).length = (msg'.drop (32 * k)).length := by
    rw [List.length_drop, List.length_drop, length]
  rw [← List.take_append_drop (32 * k) msg, ← List.take_append_drop (32 * k) msg', front]
  congr 1
  by_cases early : msg.length ≤ 32 * k
  · rw [List.drop_eq_nil_of_le early, List.drop_eq_nil_of_le (length ▸ early)]
  · have whole : (msg'.take (32 * k)).length = 32 * k := by
      rw [List.length_take]
      omega
    obtain ⟨s', after⟩ := messageState_front whole s
    rw [← List.take_append_drop (32 * k) msg, ← List.take_append_drop (32 * k) msg', front, after, after] at states
    by_cases short : (msg.drop (32 * k)).length < 32
    · have short' := lengths ▸ short
      have left := absorb_rest short (Absorber.absorb_nil (Hashing.start s'))
      have right := absorb_rest short' (Absorber.absorb_nil (Hashing.start s'))
      rw [List.nil_append] at left right
      rw [HHState.messageState, HHState.messageState, left, right] at states
      exact rest_kept lengths short short' states
    · rw [← List.take_append_drop 32 (msg.drop (32 * k)), ← List.take_append_drop 32 (msg'.drop (32 * k)),
        back] at states
      have full : ((msg.drop (32 * k)).take 32).length = 32 := by
        rw [List.length_take]
        omega
      have full' : ((msg'.drop (32 * k)).take 32).length = 32 := by
        rw [List.length_take]
        omega
      rw [← List.take_append_drop 32 (msg.drop (32 * k)), packet_kept full full' states, back, List.take_append_drop]

/-- **A change within one packet is never lost**: messages of one length that agree outside
one packet meet in a state, before finalization or after any number of its rounds, only if
they are the same. -/
theorem one_packet_kept (s : HHState) {msg msg' : Bytes} (k : Nat) (length : msg.length = msg'.length)
    (outside : ∀ i, i / 32 ≠ k → msg[i]? = msg'[i]?) (rounds : Nat) :
    (s.messageState msg).permuteAndUpdates rounds = (s.messageState msg').permuteAndUpdates rounds ↔ msg = msg' := by
  constructor
  · intro same
    exact eq_of_messageState k length outside (permuteAndUpdates_injective rounds same)
  · rintro rfl
    rfl

/-- Two messages of 35 bytes that differ behind the first packet. -/
theorem one_packet_kept_35 :
    ((HHState.reset #v[1, 2, 3, 4]).messageState (List.replicate 32 0x61 ++ [0x62, 0x63, 0x64])).permuteAndUpdates 10 ≠
      ((HHState.reset #v[1, 2, 3, 4]).messageState (List.replicate 32 0x61 ++ [0x62, 0x64, 0x63])).permuteAndUpdates 10 := by
  have length : (List.replicate 32 (0x61 : UInt8) ++ [0x62, 0x63, 0x64]).length =
      (List.replicate 32 (0x61 : UInt8) ++ [0x62, 0x64, 0x63]).length := by decide
  have outside : ∀ i, i / 32 ≠ 1 → (List.replicate 32 (0x61 : UInt8) ++ [0x62, 0x63, 0x64])[i]? =
      (List.replicate 32 (0x61 : UInt8) ++ [0x62, 0x64, 0x63])[i]? := by
    intro i outside
    by_cases early : i < 32
    · have first : i < (List.replicate 32 (0x61 : UInt8)).length := by
        rw [List.length_replicate]
        exact early
      rw [List.getElem?_append_left first, List.getElem?_append_left first]
    · have late : 64 ≤ i := by omega
      rw [List.getElem?_eq_none (by simp; omega), List.getElem?_eq_none (by simp; omega)]
  exact mt (one_packet_kept _ 1 length outside 10).mp (by decide)

end UrlShortener.HighwayHash
