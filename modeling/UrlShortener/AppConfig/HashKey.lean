import UrlShortener.AppConfig.Text
import UrlShortener.Http
import UrlShortener.Logic.Numerals

/-!
# `create_highwayhash_key`: which keys are read exactly

A key of 64 hexadecimal digits is read exactly: each word is the value of its sixteen
characters, and written in hexadecimal again the words give back the key in lower case.
But `std::stoull` reads a number at the start of a block and ignores what follows it, and
also takes white space, a sign or `0x` before it; the position at which it stopped is not
asked for. A text of 64 characters is therefore accepted whenever each block begins with
a number (`keyReadExactly_iff`).
-/

namespace UrlShortener
set_option autoImplicit false
open Numerals

/-! ## Hexadecimal digits -/

def isHexDigit (c : UInt8) : Bool := (digitValue c).any (· < 16)

def hexDigitValue (c : UInt8) : Nat := (digitValue c).getD 0

/-- The lower-case hexadecimal digit. -/
def hexDigit (d : Nat) : UInt8 := (bytes "0123456789abcdef").getD d 0

/-- What holds of a hexadecimal digit: its value and its lower case, and nothing that is
skipped in front of a number. -/
structure HexDigit (c : UInt8) : Prop where
  small : hexDigitValue c < 16
  lower : hexDigit (hexDigitValue c) = lowerByte c
  value : digitValue c = some (hexDigitValue c)
  noSpace : isspace c = false
  noNul : c ≠ 0
  noMinus : c ≠ 0x2d
  noPlus : c ≠ 0x2b
  noMark : ¬ (c = 0x78 ∨ c = 0x58)

theorem hexDigit_of_isHexDigit {c : UInt8} (digit : isHexDigit c = true) : HexDigit c := by
  have checked : ∀ c, isHexDigit c = true → hexDigitValue c < 16 ∧
      hexDigit (hexDigitValue c) = lowerByte c ∧ digitValue c = some (hexDigitValue c) ∧
      isspace c = false ∧ c ≠ 0 ∧ c ≠ 0x2d ∧ c ≠ 0x2b ∧ ¬ (c = 0x78 ∨ c = 0x58) := by
    apply forall_byte
    decide +kernel
  obtain ⟨small, lower, value, noSpace, noNul, noMinus, noPlus, noMark⟩ := checked c digit
  exact ⟨small, lower, value, noSpace, noNul, noMinus, noPlus, noMark⟩

/-- A text of hexadecimal digits. -/
def IsHex (s : Bytes) : Prop := ∀ c ∈ s, isHexDigit c = true

theorem IsHex.digit {s : Bytes} (hex : IsHex s) {c : UInt8} (mem : c ∈ s) : HexDigit c :=
  hexDigit_of_isHexDigit (hex c mem)

/-- The value of the digits, the most significant one first. -/
def hexValue (s : Bytes) : Nat := Nat.ofDigits 16 (s.map hexDigitValue).reverse

theorem hexDigitValue_lt {s : Bytes} (hex : IsHex s) : ∀ d ∈ (s.map hexDigitValue).reverse, d < 16 := by
  intro d mem
  obtain ⟨c, char, rfl⟩ := List.mem_map.mp (List.mem_reverse.mp mem)
  exact (hex.digit char).small

/-! ## Reading one block -/

/-- What `std::stoull` finds behind white space and a sign. -/
def afterSign (s : Bytes) : Bytes := (takeSign ((CString.ofBytes s).val.dropWhile isspace)).2

/-- Behind white space and a sign there is a number. -/
def BeginsWithNumber (s : Bytes) : Prop := (afterSign s).head?.any isHexDigit = true

theorem leadingDigits_eq_nil_iff (s : Bytes) : leadingDigits 16 s = [] ↔ s.head?.any isHexDigit = false := by
  cases s with
  | nil => simp [leadingDigits]
  | cons c rest =>
    rw [leadingDigits, List.head?_cons, Option.any_some, isHexDigit]
    cases digitValue c with
    | none => simp
    | some d =>
      simp only [Option.any_some, decide_eq_false_iff_not]
      split
      · rename_i small
        simp [small]
      · rename_i large
        simp [large]

/-- A skipped `0x` hides no number and leaves one. -/
theorem digits_dropHexPrefix_eq_nil_iff (s : Bytes) :
    leadingDigits 16 (dropHexPrefix s) = [] ↔ s.head?.any isHexDigit = false := by
  unfold dropHexPrefix
  split
  · rename_i zero x rest
    split
    · rename_i marked
      obtain ⟨rfl, -, more⟩ := marked
      constructor
      · exact fun none => absurd none more
      · intro other
        rw [List.head?_cons, Option.any_some] at other
        exact absurd other (by decide)
    · exact leadingDigits_eq_nil_iff _
  · exact leadingDigits_eq_nil_iff _

theorem leadingDigits_lt {s : Bytes} : ∀ d ∈ leadingDigits 16 s, d < 16 := by
  induction s with
  | nil => simp [leadingDigits]
  | cons c rest ih =>
    rw [leadingDigits]
    split
    · split
      · rename_i small
        intro d mem
        rcases List.mem_cons.mp mem with rfl | later
        · exact small
        · exact ih d later
      · simp
    · simp

theorem length_leadingDigits (s : Bytes) : (leadingDigits 16 s).length ≤ s.length := by
  induction s with
  | nil => exact Nat.le_refl 0
  | cons c rest ih =>
    rw [leadingDigits]
    split
    · split
      · exact Nat.succ_le_succ ih
      · exact Nat.zero_le _
    · exact Nat.zero_le _

theorem length_dropHexPrefix (s : Bytes) : (dropHexPrefix s).length ≤ s.length := by
  unfold dropHexPrefix
  split
  · split
    · simp only [List.length_cons]
      omega
    · exact Nat.le_refl _
  · exact Nat.le_refl _

theorem length_takeSign (s : Bytes) : (takeSign s).2.length ≤ s.length := by
  unfold takeSign
  split
  · exact Nat.le_refl 0
  · split
    · exact Nat.le_succ _
    · split
      · exact Nat.le_succ _
      · exact Nat.le_refl _

theorem length_afterSign (s : Bytes) : (afterSign s).length ≤ s.length :=
  calc
    _ ≤ ((CString.ofBytes s).val.dropWhile isspace).length := length_takeSign _
    _ ≤ (CString.ofBytes s).val.length := (List.dropWhile_suffix _).length_le
    _ ≤ s.length := (List.takeWhile_prefix _).length_le

/-- So many digits fit in a word. -/
theorem ofDigits_lt_word {ds : List Nat} (digits : ∀ d ∈ ds, d < 16) (short : ds.length ≤ 16) :
    ofDigits 16 ds < UInt64.size := by
  have value : ofDigits 16 ds = Nat.ofDigits 16 ds.reverse := by
    unfold ofDigits
    rw [foldl_digits, Nat.mul_zero, Nat.add_zero]
  have bound : Nat.ofDigits 16 ds.reverse < 16 ^ 16 :=
    ofDigits_lt (by omega) (fun d mem => digits d (List.mem_reverse.mp mem)) (by rwa [List.length_reverse])
  rwa [value]

/-- **A block of sixteen characters is read exactly if it begins with a number.** -/
theorem stoull_ok_iff {b : Bytes} (short : b.length ≤ 16) :
    (∃ w, stoull b = .ok w) ↔ BeginsWithNumber b := by
  have length : (leadingDigits 16 (dropHexPrefix (afterSign b))).length ≤ 16 :=
    calc
      _ ≤ (dropHexPrefix (afterSign b)).length := length_leadingDigits _
      _ ≤ (afterSign b).length := length_dropHexPrefix _
      _ ≤ b.length := length_afterSign b
      _ ≤ 16 := short
  have fits := ofDigits_lt_word leadingDigits_lt length
  have none := digits_dropHexPrefix_eq_nil_iff (afterSign b)
  unfold stoull BeginsWithNumber
  unfold afterSign at fits none ⊢
  dsimp only
  constructor
  · rintro ⟨w, read⟩
    split at read
    · cases read
    · rename_i some_digit
      by_contra other
      exact some_digit (none.mpr (Bool.eq_false_iff.mpr other))
  · intro begins
    rw [if_neg, if_neg (Nat.not_le.mpr fits)]
    · exact ⟨_, rfl⟩
    · intro empty
      rw [none.mp empty] at begins
      cases begins

theorem leadingDigits_hex {s : Bytes} (hex : IsHex s) : leadingDigits 16 s = s.map hexDigitValue := by
  induction s with
  | nil => rfl
  | cons c rest ih =>
    have digit := hex.digit List.mem_cons_self
    rw [leadingDigits, digit.value]
    simp only [if_pos digit.small, List.map_cons]
    rw [ih fun d mem => hex d (List.mem_cons_of_mem c mem)]

/-- Nothing is skipped in front of hexadecimal digits. -/
theorem afterSign_hex {s : Bytes} (hex : IsHex s) :
    takeSign ((CString.ofBytes s).val.dropWhile isspace) = (false, s) := by
  have whole : (CString.ofBytes s).val = s := by
    apply List.takeWhile_eq_self_iff.mpr
    intro c mem
    simpa using (hex.digit mem).noNul
  rw [whole]
  cases s with
  | nil => rfl
  | cons c rest =>
    have digit := hex.digit List.mem_cons_self
    rw [List.dropWhile_cons_of_neg (by simp [digit.noSpace]), takeSign, if_neg digit.noMinus, if_neg digit.noPlus]

theorem dropHexPrefix_hex {s : Bytes} (hex : IsHex s) : dropHexPrefix s = s := by
  unfold dropHexPrefix
  split
  · rename_i zero x rest
    have second : x ∈ zero :: x :: rest := List.mem_cons_of_mem zero List.mem_cons_self
    exact if_neg fun marked => (hex.digit second).noMark marked.2.1
  · rfl

/-- A block of hexadecimal digits has their value. -/
theorem stoull_hex {b : Bytes} (nonempty : b ≠ []) (short : b.length ≤ 16) (hex : IsHex b) :
    ∃ w, stoull b = .ok w ∧ w.toNat = hexValue b := by
  have digits : ∀ d ∈ b.map hexDigitValue, d < 16 := fun d mem =>
    hexDigitValue_lt hex d (List.mem_reverse.mpr mem)
  have fits := ofDigits_lt_word digits (by rwa [List.length_map])
  refine ⟨UInt64.ofNat (ofDigits 16 (b.map hexDigitValue)), ?_, ?_⟩
  · unfold stoull
    simp only [afterSign_hex hex, dropHexPrefix_hex hex, leadingDigits_hex hex]
    rw [if_neg (by simpa using nonempty), if_neg (Nat.not_le.mpr fits)]
    rfl
  · rw [UInt64.toNat_ofNat_of_lt' fits]
    unfold ofDigits hexValue
    rw [foldl_digits, Nat.mul_zero, Nat.add_zero]

/-! ## The key -/

/-- Sixteen characters of the key. -/
def block (src : Bytes) (i : Nat) : Bytes := (src.drop (i * 16)).take 16

/-- The key's words are those of its four blocks. -/
theorem createHighwayhashKey_ok_iff {src : Bytes} {key : HHKey} :
    createHighwayhashKey src = .ok key ↔
      src.length = 64 ∧ ∃ a b c d, stoull (block src 0) = .ok a ∧ stoull (block src 1) = .ok b ∧
        stoull (block src 2) = .ok c ∧ stoull (block src 3) = .ok d ∧ key = #v[a, b, c, d] := by
  unfold createHighwayhashKey
  by_cases size : src.length = 64
  · rw [if_neg (by simpa using size)]
    change (stoull (block src 0) >>= fun a => stoull (block src 1) >>= fun b =>
      stoull (block src 2) >>= fun c => stoull (block src 3) >>= fun d => pure #v[a, b, c, d]) = _ ↔ _
    cases first : stoull (block src 0) with
    | error e => simp [bind, Except.bind]
    | ok a =>
      cases second : stoull (block src 1) with
      | error e => simp [bind, Except.bind]
      | ok b =>
        cases third : stoull (block src 2) with
        | error e => simp [bind, Except.bind]
        | ok c =>
          cases fourth : stoull (block src 3) with
          | error e => simp [bind, Except.bind]
          | ok d => simp [bind, Except.bind, pure, Except.pure, size, eq_comm]
  · rw [if_pos size]
    constructor
    · intro built
      cases built
    · rintro ⟨same, -⟩
      exact absurd same size

/-- The sixteen lower-case hexadecimal digits of a word. -/
def hexRendering (w : UInt64) : Bytes := ((lowDigits 16 16 w.toNat).map hexDigit).reverse

def keyRendering (key : HHKey) : Bytes := key.toList.flatMap hexRendering

/-- A word that has the value of sixteen digits is rendered as these digits. -/
theorem hexRendering_eq {b : Bytes} {w : UInt64} (size : b.length = 16) (hex : IsHex b)
    (value : w.toNat = hexValue b) : hexRendering w = b.map lowerByte := by
  have digits := lowDigits_ofDigits (hexDigitValue_lt hex)
  rw [List.length_reverse, List.length_map, size] at digits
  unfold hexRendering hexValue at *
  rw [value, digits, ← List.map_reverse, List.reverse_reverse, List.map_map]
  apply List.map_congr_left
  intro c char
  exact (hex.digit char).lower

/-- The four blocks make up the key. -/
theorem blocks_eq {src : Bytes} (size : src.length = 64) :
    block src 0 ++ (block src 1 ++ (block src 2 ++ block src 3)) = src := by
  have last : block src 3 = src.drop 48 := List.take_of_length_le (by rw [List.length_drop]; omega)
  have third : block src 2 ++ src.drop 48 = src.drop 32 := by
    have := List.take_append_drop 16 (src.drop 32)
    rwa [List.drop_drop] at this
  have second : block src 1 ++ src.drop 32 = src.drop 16 := by
    have := List.take_append_drop 16 (src.drop 16)
    rwa [List.drop_drop] at this
  rw [last, third, second]
  exact List.take_append_drop 16 src

theorem length_block {src : Bytes} (size : src.length = 64) {i : Nat} (inside : i < 4) :
    (block src i).length = 16 := by
  unfold block
  rw [List.length_take, List.length_drop]
  omega

theorem IsHex.block {src : Bytes} (hex : IsHex src) (i : Nat) : IsHex (block src i) :=
  fun c mem => hex c (List.mem_of_mem_drop (List.mem_of_mem_take mem))

/-- Each block of a hexadecimal key has its value. -/
theorem stoull_block {src : Bytes} (size : src.length = 64) (hex : IsHex src) {i : Nat} (inside : i < 4) :
    ∃ w, stoull (block src i) = .ok w ∧ w.toNat = hexValue (block src i) := by
  have length := length_block size inside
  refine stoull_hex ?_ (by omega) (hex.block i)
  intro empty
  rw [empty] at length
  cases length

/-- "parse 256-bit hex string": exactly the texts of 64 hexadecimal digits are accepted, each
word is the value of its block, and the words in hexadecimal are the text in lower case. -/
structure KeyReadExactly (src : Bytes) : Prop where
  accepted : (∃ key, createHighwayhashKey src = .ok key) ↔ src.length = 64 ∧ IsHex src
  words : ∀ key, createHighwayhashKey src = .ok key → ∀ i : Fin 4, key[i].toNat = hexValue (block src i)
  rendering : ∀ key, createHighwayhashKey src = .ok key → keyRendering key = src.map lowerByte

/-- The text has another size, consists of hexadecimal digits, or has a block that does not
begin with a number. -/
def ReadOrRefused (src : Bytes) : Prop :=
  src.length ≠ 64 ∨ IsHex src ∨ ∃ i < 4, ¬ BeginsWithNumber (block src i)

/-- A text of 64 characters is accepted exactly if its four blocks begin with a number. -/
theorem accepted_iff (src : Bytes) : (∃ key, createHighwayhashKey src = .ok key) ↔
    src.length = 64 ∧ ∀ i < 4, BeginsWithNumber (block src i) := by
  constructor
  · rintro ⟨key, built⟩
    obtain ⟨size, a, b, c, d, first, second, third, fourth, -⟩ := createHighwayhashKey_ok_iff.mp built
    refine ⟨size, ?_⟩
    intro i inside
    rw [← stoull_ok_iff (length_block size inside).le]
    match i, inside with
    | 0, _ => exact ⟨a, first⟩
    | 1, _ => exact ⟨b, second⟩
    | 2, _ => exact ⟨c, third⟩
    | 3, _ => exact ⟨d, fourth⟩
  · rintro ⟨size, begins⟩
    have read : ∀ i < 4, ∃ w, stoull (block src i) = .ok w := fun i inside =>
      (stoull_ok_iff (length_block size inside).le).mpr (begins i inside)
    obtain ⟨a, first⟩ := read 0 (by omega)
    obtain ⟨b, second⟩ := read 1 (by omega)
    obtain ⟨c, third⟩ := read 2 (by omega)
    obtain ⟨d, fourth⟩ := read 3 (by omega)
    exact ⟨_, createHighwayhashKey_ok_iff.mpr ⟨size, a, b, c, d, first, second, third, fourth, rfl⟩⟩

/-- A hexadecimal key is read exactly. -/
theorem hex_readExactly {src : Bytes} (hex : IsHex src) {key : HHKey}
    (built : createHighwayhashKey src = .ok key) :
    (∀ i : Fin 4, key[i].toNat = hexValue (block src i)) ∧ keyRendering key = src.map lowerByte := by
  obtain ⟨size, a, b, c, d, first, second, third, fourth, rfl⟩ := createHighwayhashKey_ok_iff.mp built
  have value : ∀ i < 4, ∀ w, stoull (block src i) = .ok w → w.toNat = hexValue (block src i) := by
    intro i inside w read
    obtain ⟨w', read', same⟩ := stoull_block size hex inside
    rw [read] at read'
    cases read'
    exact same
  have va := value 0 (by omega) a first
  have vb := value 1 (by omega) b second
  have vc := value 2 (by omega) c third
  have vd := value 3 (by omega) d fourth
  constructor
  · intro i
    match i with
    | 0 => exact va
    | 1 => exact vb
    | 2 => exact vc
    | 3 => exact vd
  · have rendered : keyRendering #v[a, b, c, d] =
        hexRendering a ++ (hexRendering b ++ (hexRendering c ++ hexRendering d)) := by
      simp [keyRendering]
    rw [rendered, hexRendering_eq (length_block size (by omega)) (hex.block 0) va,
      hexRendering_eq (length_block size (by omega)) (hex.block 1) vb,
      hexRendering_eq (length_block size (by omega)) (hex.block 2) vc,
      hexRendering_eq (length_block size (by omega)) (hex.block 3) vd,
      ← List.map_append, ← List.map_append, ← List.map_append, blocks_eq size]

/-- A hexadecimal digit is a number. -/
theorem beginsWithNumber_hex {b : Bytes} (nonempty : b ≠ []) (hex : IsHex b) : BeginsWithNumber b := by
  obtain ⟨c, rest, rfl⟩ := List.exists_cons_of_ne_nil nonempty
  unfold BeginsWithNumber afterSign
  rw [afterSign_hex hex]
  exact hex c List.mem_cons_self

/-- A key of hexadecimal digits is accepted. -/
theorem hex_accepted {src : Bytes} (size : src.length = 64) (hex : IsHex src) :
    ∃ key, createHighwayhashKey src = .ok key := by
  rw [accepted_iff]
  refine ⟨size, fun i inside => ?_⟩
  have length := length_block size inside
  apply beginsWithNumber_hex _ (hex.block i)
  intro empty
  rw [empty] at length
  cases length

/-- A text of the three kinds that is accepted is hexadecimal. -/
theorem ReadOrRefused.hex {src : Bytes} (h : ReadOrRefused src) {key : HHKey}
    (built : createHighwayhashKey src = .ok key) : src.length = 64 ∧ IsHex src := by
  obtain ⟨size, begins⟩ := (accepted_iff src).mp ⟨key, built⟩
  rcases h with other | hex | ⟨i, inside, text⟩
  · exact absurd size other
  · exact ⟨size, hex⟩
  · exact absurd (begins i inside) text

theorem ReadOrRefused.readExactly {src : Bytes} (h : ReadOrRefused src) : KeyReadExactly src where
  accepted := by
    constructor
    · rintro ⟨key, built⟩
      exact h.hex built
    · rintro ⟨size, hex⟩
      exact hex_accepted size hex
  words := fun _ built => (hex_readExactly (h.hex built).2 built).1
  rendering := fun _ built => (hex_readExactly (h.hex built).2 built).2

/-- **The key is read exactly or refused where it is not a text of 64 characters, where it
is hexadecimal, and where a block does not begin with a number**, and nowhere else. Two
such texts with the same key are the same but for case. -/
theorem keyReadExactly_iff (src : Bytes) : (KeyReadExactly src ↔ ReadOrRefused src) ∧
    ∀ src' key, ReadOrRefused src → ReadOrRefused src' → createHighwayhashKey src = .ok key →
      createHighwayhashKey src' = .ok key → src.map lowerByte = src'.map lowerByte := by
  constructor
  · constructor
    · intro exactly
      by_contra other
      unfold ReadOrRefused at other
      push Not at other
      obtain ⟨size, text, begins⟩ := other
      exact text (exactly.accepted.mp ((accepted_iff src).mpr ⟨size, begins⟩)).2
    · exact ReadOrRefused.readExactly
  · intro src' key h h' built built'
    rw [← h.readExactly.rendering key built, ← h'.readExactly.rendering key built']

/-- Four numbers with letters behind them, and four others, are the same key. -/
theorem text_key_accepted :
    let src := (List.replicate 4 (bytes "1zzzzzzzzzzzzzzz")).flatten
    let src' := (List.replicate 4 (bytes " +0x1 and so on ")).flatten
    createHighwayhashKey src = .ok #v[1, 1, 1, 1] ∧ createHighwayhashKey src' = .ok #v[1, 1, 1, 1] ∧
    src.map lowerByte ≠ src'.map lowerByte ∧ ¬ KeyReadExactly src := by
  intro src src'
  have built : createHighwayhashKey src = .ok #v[1, 1, 1, 1] := by decide +kernel
  refine ⟨built, by decide +kernel, by decide +kernel, ?_⟩
  intro exactly
  obtain ⟨-, hex⟩ := exactly.accepted.mp ⟨_, built⟩
  exact absurd (hex 0x7a (by decide +kernel)) (by decide)

end UrlShortener
