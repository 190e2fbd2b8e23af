import Mathlib.Data.List.Forall2

/-!
# Form coding

`application/x-www-form-urlencoded` texts: fields with `&` between them, each a name and a
value with `=` between them, each of these with some bytes replaced by `%` and two
hexadecimal digits. `Escapes keep` is the relation of a text and any such escape of it
that leaves the bytes of `keep` as they are. Decoding inverts every escape, and a whole
form is decoded to its fields (`formDecode_intercalate`), as long as `keep` holds of none
of the three marks.
-/

namespace FormCoding
set_option autoImplicit false

/-- The value of a hexadecimal digit of either case. -/
def hexDigitValue? (c : UInt8) : Option Nat :=
  if 0x30 ≤ c ∧ c ≤ 0x39 then some (c.toNat - 0x30)
  else if 0x41 ≤ c ∧ c ≤ 0x46 then some (c.toNat - 0x41 + 10)
  else if 0x61 ≤ c ∧ c ≤ 0x66 then some (c.toNat - 0x61 + 10)
  else none

/-- `%` and two hexadecimal digits stand for a byte; any other byte for itself. -/
def percentDecode : List UInt8 → List UInt8
  | c :: h :: l :: rest =>
    if c = 0x25 then
      match hexDigitValue? h, hexDigitValue? l with
      | some high, some low => UInt8.ofNat (16 * high + low) :: percentDecode rest
      | _, _ => c :: percentDecode (h :: l :: rest)
    else c :: percentDecode (h :: l :: rest)
  | c :: rest => c :: percentDecode rest
  | [] => []

/-- The name and the value of a field, at its first `=`. -/
def splitPair (part : List UInt8) : List UInt8 × List UInt8 :=
  (part.takeWhile (· != 0x3d), (part.dropWhile (· != 0x3d)).drop 1)

/-- The fields of a form. -/
def formDecode (body : List UInt8) : List (List UInt8 × List UInt8) :=
  (body.splitOn 0x26).map fun part =>
    let (name, value) := splitPair part
    (percentDecode name, percentDecode value)

/-! ## Escapes -/

/-- The second text is the first with each byte outside `keep` written as `%` and two
hexadecimal digits. -/
inductive Escapes (keep : UInt8 → Prop) : List UInt8 → List UInt8 → Prop where
  | nil : Escapes keep [] []
  | kept {c : UInt8} {text escaped : List UInt8} : keep c → Escapes keep text escaped →
      Escapes keep (c :: text) (c :: escaped)
  | byte {c h l : UInt8} {text escaped : List UInt8} : ¬ keep c →
      hexDigitValue? h = some (c.toNat / 16) → hexDigitValue? l = some (c.toNat % 16) →
      Escapes keep text escaped → Escapes keep (c :: text) (0x25 :: h :: l :: escaped)

variable {keep : UInt8 → Prop}

/-- A byte that is not `%` is left alone. -/
theorem percentDecode_cons {c : UInt8} (other : c ≠ 0x25) (rest : List UInt8) :
    percentDecode (c :: rest) = c :: percentDecode rest := by
  match rest with
  | [] => rfl
  | [_] => rfl
  | h :: l :: rest => rw [percentDecode, if_neg other]

/-- **Decoding inverts an escape.** -/
theorem Escapes.decode (percent : ¬ keep 0x25) {text escaped : List UInt8} (h : Escapes keep text escaped) :
    percentDecode escaped = text := by
  induction h with
  | nil => rfl
  | @kept c _ _ plain _ ih =>
    have other : c ≠ 0x25 := by
      rintro rfl
      exact percent plain
    rw [percentDecode_cons other, ih]
  | @byte c _ _ _ _ _ high low _ ih =>
    have value : 16 * (c.toNat / 16) + c.toNat % 16 = c.toNat := by omega
    rw [percentDecode, if_pos rfl, high, low]
    simp only [ih, value, UInt8.ofNat_toNat]

/-- A byte that is not kept, not `%` and no digit does not occur in an escape. -/
theorem Escapes.not_mem {mark : UInt8} (escaped : ¬ keep mark) (other : mark ≠ 0x25)
    (noDigit : hexDigitValue? mark = none) {text escape : List UInt8} (h : Escapes keep text escape) :
    mark ∉ escape := by
  induction h with
  | nil => exact List.not_mem_nil
  | kept plain _ ih =>
    intro mem
    rcases List.mem_cons.mp mem with rfl | later
    · exact escaped plain
    · exact ih later
  | byte _ high low _ ih =>
    intro mem
    simp only [List.mem_cons] at mem
    rcases mem with same | rfl | rfl | later
    · exact other same
    · rw [noDigit] at high
      cases high
    · rw [noDigit] at low
      cases low
    · exact ih later

/-- A text of kept bytes is an escape of itself. -/
theorem Escapes.self {text : List UInt8} (plain : ∀ c ∈ text, keep c) : Escapes keep text text := by
  induction text with
  | nil => exact .nil
  | cons c rest ih =>
    exact .kept (plain c List.mem_cons_self) (ih fun d mem => plain d (List.mem_cons_of_mem c mem))

/-! ## Forms -/

/-- The three marks are escaped. -/
structure MarksEscaped (keep : UInt8 → Prop) : Prop where
  percent : ¬ keep 0x25
  ampersand : ¬ keep 0x26
  equals : ¬ keep 0x3d

/-- The part is an escape of the field. -/
def EncodesField (keep : UInt8 → Prop) (field : List UInt8 × List UInt8) (part : List UInt8) : Prop :=
  ∃ name value, Escapes keep field.1 name ∧ Escapes keep field.2 value ∧ part = name ++ 0x3d :: value

theorem splitPair_append {name : List UInt8} (absent : 0x3d ∉ name) (value : List UInt8) :
    splitPair (name ++ 0x3d :: value) = (name, value) := by
  have before : ∀ c ∈ name, (c != 0x3d) = true := by
    intro c mem
    rw [bne_iff_ne]
    rintro rfl
    exact absent mem
  unfold splitPair
  rw [List.takeWhile_append_of_pos before, List.dropWhile_append_of_pos before]
  simp

theorem EncodesField.decode (marks : MarksEscaped keep) {field : List UInt8 × List UInt8} {part : List UInt8}
    (h : EncodesField keep field part) :
    0x26 ∉ part ∧ percentDecode (splitPair part).1 = field.1 ∧ percentDecode (splitPair part).2 = field.2 := by
  obtain ⟨name, value, named, valued, rfl⟩ := h
  have equals : 0x3d ∉ name := named.not_mem marks.equals (by decide) (by decide)
  refine ⟨?_, ?_, ?_⟩
  · intro mem
    rcases List.mem_append.mp mem with inName | inRest
    · exact named.not_mem marks.ampersand (by decide) (by decide) inName
    · rcases List.mem_cons.mp inRest with same | inValue
      · exact absurd same (by decide)
      · exact valued.not_mem marks.ampersand (by decide) (by decide) inValue
  · rw [splitPair_append equals]
    exact named.decode marks.percent
  · rw [splitPair_append equals]
    exact valued.decode marks.percent

/-- **A form is decoded to its fields**, whatever bytes they consist of. -/
theorem formDecode_intercalate (marks : MarksEscaped keep) {fields : List (List UInt8 × List UInt8)}
    {parts : List (List UInt8)} (encoded : List.Forall₂ (EncodesField keep) fields parts) (nonempty : parts ≠ []) :
    formDecode ([0x26].intercalate parts) = fields := by
  have separate : ∀ part ∈ parts, 0x26 ∉ part := by
    clear nonempty
    induction encoded with
    | nil => simp
    | cons first _ ih =>
      intro part mem
      rcases List.mem_cons.mp mem with rfl | later
      · exact (first.decode marks).1
      · exact ih part later
  unfold formDecode
  rw [List.splitOn_intercalate 0x26 separate nonempty]
  clear separate nonempty
  induction encoded with
  | nil => rfl
  | cons first _ ih =>
    obtain ⟨-, name, value⟩ := first.decode marks
    rw [List.map_cons, ih]
    simp only [name, value]

end FormCoding
