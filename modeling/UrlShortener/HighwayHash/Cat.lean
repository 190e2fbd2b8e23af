import UrlShortener.HighwayHash.Message

/-!
# `HighwayHashCatT`: a message in pieces

The hasher keeps the bytes of an unfinished packet in a buffer and leaves what it used
before behind them. `Represents` ties it to an absorber, `append_ok` is its one step, and
`cat_hashes_concatenation` says that after any calls of `Append` and `Reset` the hash is
`HighwayHashT`'s of everything appended since the last `Reset`, however it was cut.
-/

namespace UrlShortener.HighwayHash
set_option autoImplicit false
open Absorb

/-! ## The class -/

/-- `AppendAndUpdate`: `tmp` gets the buffer's valid bytes and the new ones behind them. -/
def HHState.appendAndUpdate (s : HHState) (source : CharPtr) (sizeMod32 : Nat) (buffer : Buffer) (bufferValid : Nat) :
    Except Fault HHState := do
  let tmp ← copyBytes buffer.ptr .uninitialized 0 bufferValid
  let tmp ← copyBytes source tmp bufferValid sizeMod32
  s.update tmp.ptr

/-- `HighwayHashCatT`. -/
structure HighwayHashCat where
  buffer : Buffer
  state : HHState
  bufferUsage : Nat

namespace HighwayHashCat

/-- The constructor. -/
def create (key : HHKey) : HighwayHashCat := ⟨.zeroed, .reset key, 0⟩

/-- `Reset`: the buffer keeps its bytes. -/
def reset (c : HighwayHashCat) (key : HHKey) : HighwayHashCat :=
  { c with state := .reset key, bufferUsage := 0 }

/-- The `while` loop of `Append`: what it leaves in `state_copy`, `bytes` and `num_bytes`. -/
def appendPackets (state : HHState) (bytes : CharPtr) (numBytes : Nat) : Except Fault (HHState × CharPtr × Nat) :=
  if 32 ≤ numBytes then do
    let state ← state.update bytes
    appendPackets state (bytes.add 32) (numBytes - 32)
  else .ok (state, bytes, numBytes)
termination_by numBytes

/-- `Append` when a packet gets full; `state`, `bytes` and `numBytes` are what is left after
the flush of prior bytes. -/
def appendRest (c : HighwayHashCat) (state : HHState) (bytes : CharPtr) (numBytes : Nat) :
    Except Fault HighwayHashCat := do
  let (state, bytes, numBytes) ← appendPackets state bytes numBytes
  if numBytes ≠ 0 then
    let buffer ← copyBytes bytes c.buffer 0 numBytes
    return ⟨buffer, state, numBytes⟩
  return ⟨c.buffer, state, numBytes⟩

/-- `Append`. -/
def append (c : HighwayHashCat) (bytes : CharPtr) (numBytes : Nat) : Except Fault HighwayHashCat := do
  let capacity := 32 - c.bufferUsage
  if numBytes < capacity then
    let buffer ← copyBytes bytes c.buffer c.bufferUsage numBytes
    return { c with buffer, bufferUsage := c.bufferUsage + numBytes }
  if c.bufferUsage ≠ 0 then
    let state ← c.state.appendAndUpdate bytes capacity c.buffer c.bufferUsage
    c.appendRest state (bytes.add capacity) (numBytes - capacity)
  else c.appendRest c.state bytes numBytes

/-- `Finalize`, on a copy of the state. -/
def finalize {Result : Type} (c : HighwayHashCat) (finalize : HHState → Result) : Except Fault Result := do
  if c.bufferUsage ≠ 0 then
    let state ← c.state.updateRemainder c.buffer.ptr c.bufferUsage
    return finalize state
  return finalize c.state

/-! ## One call -/

/-- The hasher stands for an absorber: the buffer begins with the pending bytes. -/
structure Represents (c : HighwayHashCat) (h : Hashing) : Prop where
  state : c.state = h.state
  buffer : c.buffer.ptr.Holds h.pending
  usage : c.bufferUsage = h.pending.length

theorem represents_start (c : HighwayHashCat) (empty : c.bufferUsage = 0) : c.Represents (Hashing.start c.state) where
  state := rfl
  buffer := CharPtr.holds_nil _
  usage := empty

/-- The flush: the buffered bytes and enough new ones are one packet. -/
theorem appendAndUpdate_ok {source : CharPtr} {msg kept : Bytes} {buffer : Buffer} (holds : source.Holds msg)
    (buffered : buffer.ptr.Holds kept) {p : HHPacket} (packet : p.toList = kept ++ msg) (s : HHState) :
    s.appendAndUpdate source msg.length buffer kept.length = .ok (s.updatePacket p) := by
  have length : kept.length + msg.length = 32 := by
    rw [← List.length_append, ← packet, length_packet]
  have first := copyBytes_ok buffered .uninitialized (show 0 + kept.length ≤ 32 by omega)
  have second := copyBytes_ok holds (Buffer.overlay .uninitialized 0 kept) (show kept.length + msg.length ≤ 32 by omega)
  have front := @Buffer.overlay_holds .uninitialized [] [] kept (CharPtr.holds_nil _) (CharPtr.holds_nil _)
    (by simp only [List.length_nil]; omega)
  rw [List.nil_append, List.append_nil] at front
  have filled := @Buffer.overlay_holds _ _ [] msg front (CharPtr.holds_nil _) (by simp only [List.length_nil]; omega)
  rw [List.append_nil, ← packet] at filled
  simp only [HHState.appendAndUpdate, first, second, bind, Except.bind]
  exact update_ok filled s

/-- The loop takes every full packet. -/
theorem appendPackets_ok (packets : Nat) : ∀ {bytes : CharPtr} {msg rest : Bytes} (s : HHState),
    bytes.Holds (msg ++ rest) → msg.length = 32 * packets → rest.length < 32 →
    ∃ s' bytes', appendPackets s bytes (msg ++ rest).length = .ok (s', bytes', rest.length) ∧ bytes'.Holds rest ∧
      (Hashing.start s).absorb HHState.updatePacket msg = Hashing.start s' := by
  induction packets with
  | zero =>
    intro bytes msg rest s holds length short
    have none : msg = [] := List.length_eq_zero_iff.mp length
    subst none
    refine ⟨s, bytes, ?_, holds, rfl⟩
    rw [appendPackets, List.nil_append, if_neg (by omega)]
  | succ packets ih =>
    intro bytes msg rest s holds length short
    have first : (msg.take 32).length = 32 := by
      rw [List.length_take]
      omega
    have later : (msg.drop 32).length = 32 * packets := by
      rw [List.length_drop]
      omega
    obtain ⟨p, packet⟩ := exists_packet first
    have split : msg ++ rest = p.toList ++ (msg.drop 32 ++ rest) := by
      rw [packet, ← List.append_assoc, List.take_append_drop]
    rw [split] at holds
    have there := holds.right
    rw [length_packet] at there
    obtain ⟨s', bytes', ran, held, absorbed⟩ := ih (s.updatePacket p) there later short
    refine ⟨s', bytes', ?_, held, ?_⟩
    · have enough : 32 ≤ (msg ++ rest).length := by
        rw [List.length_append]
        omega
      have left : (msg ++ rest).length - 32 = (msg.drop 32 ++ rest).length := by
        rw [split, List.length_append, length_packet, Nat.add_sub_cancel_left]
      rw [appendPackets, if_pos enough, update_ok holds.left, left]
      exact ran
    · rw [← List.take_append_drop 32 msg, Absorber.absorb_append, ← packet, absorb_packet, absorbed]

/-- The packets and then what is left of them, from an empty buffer. -/
theorem appendRest_ok {c : HighwayHashCat} {bytes : CharPtr} {msg : Bytes} (holds : bytes.Holds msg) (s : HHState) :
    ∃ c', c.appendRest s bytes msg.length = .ok c' ∧
      c'.Represents ((Hashing.start s).absorb HHState.updatePacket msg) := by
  obtain ⟨full, rest, split, whole, left⟩ := split_packets msg
  have short : rest.length < 32 := by omega
  rw [split] at holds
  obtain ⟨s', bytes', ran, held, absorbed⟩ := appendPackets_ok _ s holds whole short
  simp only [split, absorb_rest short absorbed, appendRest, ran, bind, Except.bind]
  by_cases none : rest = []
  · subst none
    exact ⟨_, rfl, rfl, CharPtr.holds_nil _, rfl⟩
  · have copied := copyBytes_ok held c.buffer (show 0 + _ ≤ 32 by omega)
    have filled := @Buffer.overlay_holds c.buffer [] [] rest (CharPtr.holds_nil _) (CharPtr.holds_nil _)
      (show 0 + rest.length + 0 ≤ 32 by omega)
    rw [List.nil_append, List.append_nil] at filled
    rw [if_pos (mt List.length_eq_zero_iff.mp none), copied]
    exact ⟨_, rfl, rfl, filled, rfl⟩

/-- **One `Append`** takes in the bytes it is given, and reads no others. -/
theorem append_ok {c : HighwayHashCat} {h : Hashing} (represents : c.Represents h) {bytes : CharPtr} {msg : Bytes}
    (holds : bytes.Holds msg) :
    ∃ c', c.append bytes msg.length = .ok c' ∧ c'.Represents (h.absorb HHState.updatePacket msg) := by
  have room := h.short
  have usage := represents.usage
  simp only [append, bind, Except.bind]
  by_cases fits : msg.length < 32 - c.bufferUsage
  · have short : h.pending.length + msg.length < 32 := by omega
    have copied := copyBytes_ok holds c.buffer (Nat.le_of_lt short)
    have filled := @Buffer.overlay_holds _ _ [] msg represents.buffer (CharPtr.holds_nil _) (Nat.le_of_lt short)
    rw [List.append_nil] at filled
    rw [if_pos fits, usage, copied, Absorber.absorb_short _ _ short]
    exact ⟨_, rfl, represents.state, filled, (List.length_append).symm⟩
  · rw [if_neg fits]
    by_cases empty : c.bufferUsage = 0
    · have none : h.pending = [] := List.length_eq_zero_iff.mp (usage.symm.trans empty)
      have start : h = Hashing.start c.state := Absorber.ext' represents.state.symm none
      rw [if_neg (not_not_intro empty), start]
      exact appendRest_ok holds c.state
    · have first : (msg.take (32 - c.bufferUsage)).length = 32 - c.bufferUsage := by
        rw [List.length_take]
        omega
      have full : (h.pending ++ msg.take (32 - c.bufferUsage)).length = 32 := by
        rw [List.length_append, first]
        omega
      have holds' := holds
      rw [← List.take_append_drop (32 - c.bufferUsage) msg] at holds'
      have flushed := appendAndUpdate_ok holds'.left represents.buffer (toList_fullBlock _ full) c.state
      have later := holds'.right
      rw [first, ← usage] at flushed
      rw [first] at later
      have left : msg.length - (32 - c.bufferUsage) = (msg.drop (32 - c.bufferUsage)).length := List.length_drop.symm
      rw [if_pos empty, flushed, left]
      obtain ⟨c', ran, stands⟩ := appendRest_ok later (c.state.updatePacket (fullBlock _ full))
      refine ⟨c', ran, ?_⟩
      rw [← List.take_append_drop (32 - c.bufferUsage) msg, Absorber.absorb_append, Absorber.absorb_fill _ _ full,
        ← represents.state]
      exact stands

theorem finalize_ok {Result : Type} {c : HighwayHashCat} {h : Hashing} (represents : c.Represents h)
    (finalize : HHState → Result) : c.finalize finalize = .ok (finalize h.finish) := by
  rw [HighwayHashCat.finalize, represents.usage, represents.state, Hashing.finish]
  by_cases none : h.pending = []
  · rw [if_neg (not_not_intro (List.length_eq_zero_iff.mpr none)), if_pos none]
    rfl
  · rw [if_pos (mt List.length_eq_zero_iff.mp none), if_neg none,
      updateRemainder_ok represents.buffer none h.short]
    rfl

/-! ## Any calls -/

/-- A `StringView`, with the bytes that can be read there. -/
structure StringView where
  data : CharPtr
  bytes : Bytes
  readable : data.Holds bytes

/-- A call that changes the hasher. -/
inductive Call where
  | reset (key : HHKey)
  | append (fragment : StringView)

def call (c : HighwayHashCat) : Call → Except Fault HighwayHashCat
  | .reset key => .ok (c.reset key)
  | .append fragment => c.append fragment.data fragment.bytes.length

/-- One call after another. -/
def calls : List Call → HighwayHashCat → Except Fault HighwayHashCat
  | [], c => .ok c
  | next :: later, c => do calls later (← c.call next)

/-- The key in force and what was appended under it. -/
structure Appended where
  key : HHKey
  msg : Bytes

def Appended.after : List Call → Appended → Appended
  | [], a => a
  | .reset key :: later, _ => after later ⟨key, []⟩
  | .append fragment :: later, a => after later ⟨a.key, a.msg ++ fragment.bytes⟩

/-- What was appended, as the absorber after it. -/
def Appended.hashing (a : Appended) : Hashing := (Hashing.start (.reset a.key)).absorb HHState.updatePacket a.msg

theorem calls_ok (later : List Call) : ∀ {c : HighwayHashCat} {a : Appended}, c.Represents a.hashing →
    ∃ c', calls later c = .ok c' ∧ c'.Represents (Appended.after later a).hashing := by
  induction later with
  | nil => exact fun represents => ⟨_, rfl, represents⟩
  | cons next later ih =>
    intro c a represents
    cases next with
    | reset key =>
      have fresh : (c.reset key).Represents (Appended.hashing ⟨key, []⟩) := represents_start (c.reset key) rfl
      exact ih fresh
    | append fragment =>
      obtain ⟨c', ran, stands⟩ := append_ok represents fragment.readable
      have longer : c'.Represents (Appended.hashing ⟨a.key, a.msg ++ fragment.bytes⟩) := by
        rw [Appended.hashing, Absorber.absorb_append]
        exact stands
      obtain ⟨last, rest, final⟩ := ih longer
      refine ⟨last, ?_, final⟩
      simp only [calls, call, ran, bind, Except.bind]
      exact rest

end HighwayHashCat

open HighwayHashCat in
/-- **A message in pieces hashes as the whole**: after any calls the hasher gives the
`HighwayHashT`, of every result type, of what was appended since the last `Reset`. -/
theorem cat_hashes_concatenation {Result : Type} (finalize : HHState → Result) (key : HHKey) (made : List Call)
    {whole : CharPtr} (flat : whole.Holds (Appended.after made ⟨key, []⟩).msg) :
    ∃ c result, calls made (create key) = .ok c ∧ c.finalize finalize = .ok result ∧
      highwayHashT finalize (.reset (Appended.after made ⟨key, []⟩).key) whole
        (Appended.after made ⟨key, []⟩).msg.length = .ok result := by
  have fresh : (create key).Represents (Appended.hashing ⟨key, []⟩) := represents_start (create key) rfl
  obtain ⟨c, ran, represents⟩ := calls_ok made fresh
  exact ⟨c, _, ran, finalize_ok represents finalize, highwayHashT_ok finalize _ flat⟩

/-- A `StringView` of these bytes alone. -/
def HighwayHashCat.fragment (bytes : Bytes) : HighwayHashCat.StringView :=
  ⟨.toBytes bytes, bytes, CharPtr.toBytes_holds bytes⟩

open HighwayHashCat in
/-- A `Reset` and then 45 bytes in three pieces, of which the second fills the packet. -/
theorem cat_hashes_concatenation_pieces :
    ∃ c result,
      calls [.append (fragment [1, 2, 3]), .reset #v[4, 3, 2, 1], .append (fragment [0x68, 0x74]),
        .append (fragment (List.replicate 41 0x61)), .append (fragment []), .append (fragment [0x7a, 0x7a])]
        (create #v[0, 0, 0, 0]) = .ok c ∧
      c.finalize finalize256 = .ok result ∧
      highwayHashT finalize256 (.reset #v[4, 3, 2, 1])
        (.toBytes ([0x68, 0x74] ++ List.replicate 41 0x61 ++ [] ++ [0x7a, 0x7a])) 45 = .ok result :=
  cat_hashes_concatenation finalize256 #v[0, 0, 0, 0]
    [.append (fragment [1, 2, 3]), .reset #v[4, 3, 2, 1], .append (fragment [0x68, 0x74]),
      .append (fragment (List.replicate 41 0x61)), .append (fragment []), .append (fragment [0x7a, 0x7a])]
    (CharPtr.toBytes_holds _)

end UrlShortener.HighwayHash
