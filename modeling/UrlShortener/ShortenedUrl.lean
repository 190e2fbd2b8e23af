import UrlShortener.AppConfig.Text
import UrlShortener.Logic.Numerals

/-!
# `url_shortening.cc`: `generate_shortened_url`

The function hashes a view and writes the 64-bit hash in seven characters. The view's own
size is not used: the length is `strlen` of the pointer, so what is hashed ends at the
first NUL after the view's start, wherever the view ends, and that NUL is read
(`hashes_exactly_never`). The seven characters are a numeral of base 58, and exact
(`encoding_exact`).
-/

namespace UrlShortener
set_option autoImplicit false
open Numerals

/-! ## The function -/

/-- A `std::string_view`: a range of a buffer. -/
structure StringView where
  buffer : Bytes
  start : Nat
  length : Nat
  inside : start + length ≤ buffer.length

/-- The bytes of the view. -/
def StringView.bytes (src : StringView) : Bytes := (src.buffer.drop src.start).take src.length

/-- `std::strlen` of the address `a`, where `memory` begins; with the addresses it reads. -/
def strlen (a : Nat) (memory : Bytes) : Except Undefined (Nat × List Nat) :=
  match memory with
  | [] => .error .outOfRange
  | c :: rest =>
    if c = 0 then .ok (0, [a])
    else (strlen (a + 1) rest).map fun (n, reads) => (n + 1, a :: reads)

/-- `shortened_url_len`. -/
def shortenedUrlLen : Nat := 7

/-- The loop that divides `rounds` characters off `result` and appends them to `out`. -/
def shortenedUrlChars : Nat → UInt64 → Bytes → Except Undefined Bytes
  | 0, _, out => .ok out
  | rounds + 1, result, out =>
    let idx := result % UInt64.ofNat alphabet.length
    match alphabet[idx.toNat]? with
    | none => .error .outsideAlphabet
    | some c => shortenedUrlChars rounds (result / UInt64.ofNat alphabet.length) (out ++ [c])

/-- The string that is returned, what was hashed for it and the addresses read. -/
structure ShortenedUrl where
  out : Bytes
  hashed : Bytes
  reads : List Nat
  deriving DecidableEq, Repr

/-- `generate_shortened_url`; `highwayHash` is HighwayHash with a 64-bit result. -/
def generateShortenedUrl (highwayHash : HHKey → Bytes → UInt64) (src : StringView) (highwayhashKey : HHKey) :
    Except Undefined ShortenedUrl := do
  let memory := src.buffer.drop src.start
  let (size, reads) ← strlen src.start memory
  let hashed := memory.take size
  let out ← shortenedUrlChars shortenedUrlLen (highwayHash highwayhashKey hashed) []
  return ⟨out, hashed, reads ++ List.range' src.start size⟩

/-! ## The encoding -/

/-- The character of a digit. -/
def slugChar (d : Nat) : UInt8 := alphabet.getD d 0

theorem alphabet_length : alphabet.length = 58 := by decide

theorem getElem?_alphabet {d : Nat} (h : d < 58) : alphabet[d]? = some (slugChar d) := by
  unfold slugChar
  rw [List.getD_eq_getElem?_getD, List.getElem?_eq_getElem (alphabet_length.symm ▸ h)]
  rfl

/-- The digit of a character. -/
def slugDigit (c : UInt8) : Nat := alphabet.idxOf c

theorem slugDigit_slugChar {d : Nat} (h : d < 58) : slugDigit (slugChar d) = d := by
  have distinct : alphabet.Nodup := by decide
  have inside : d < alphabet.length := alphabet_length.symm ▸ h
  have char : slugChar d = alphabet[d] := by
    unfold slugChar
    rw [List.getD_eq_getElem?_getD, List.getElem?_eq_getElem inside]
    rfl
  rw [char]
  exact distinct.idxOf_getElem d inside

theorem slugDigit_lt {c : UInt8} (h : c ∈ alphabet) : slugDigit c < 58 :=
  alphabet_length ▸ List.idxOf_lt_length_of_mem h

theorem slugChar_slugDigit {c : UInt8} (h : c ∈ alphabet) : slugChar (slugDigit c) = c := by
  have inside : alphabet.idxOf c < alphabet.length := List.idxOf_lt_length_of_mem h
  unfold slugChar slugDigit
  rw [List.getD_eq_getElem?_getD, List.getElem?_eq_getElem inside]
  exact List.getElem_idxOf inside

theorem slugChar_mem {d : Nat} (h : d < 58) : slugChar d ∈ alphabet :=
  List.mem_of_getElem? (getElem?_alphabet h)

/-- **The loop writes the low digits of the hash.** -/
theorem shortenedUrlChars_eq (rounds : Nat) : ∀ (result : UInt64) (out : Bytes),
    shortenedUrlChars rounds result out = .ok (out ++ (lowDigits 58 rounds result.toNat).map slugChar) := by
  induction rounds with
  | zero =>
    intro result out
    rw [shortenedUrlChars, lowDigits, List.map_nil, List.append_nil]
  | succ rounds ih =>
    intro result out
    have digit : (result % UInt64.ofNat alphabet.length).toNat = result.toNat % 58 := by
      rw [UInt64.toNat_mod]
      rfl
    have quotient : (result / UInt64.ofNat alphabet.length).toNat = result.toNat / 58 := by
      rw [UInt64.toNat_div]
      rfl
    rw [shortenedUrlChars]
    simp only [digit, getElem?_alphabet (Nat.mod_lt _ (by omega))]
    rw [ih, quotient, lowDigits, List.map_cons, List.append_assoc, List.singleton_append]

/-- The encoding of a hash. -/
def encoding (h : UInt64) : Bytes := (lowDigits 58 shortenedUrlLen h.toNat).map slugChar

theorem shortenedUrlChars_encoding (h : UInt64) : shortenedUrlChars shortenedUrlLen h [] = .ok (encoding h) :=
  shortenedUrlChars_eq shortenedUrlLen h []

/-- The digits are read back from their characters. -/
theorem map_slugDigit_encoding (h : UInt64) :
    (encoding h).map slugDigit = lowDigits 58 shortenedUrlLen h.toNat := by
  unfold encoding
  rw [List.map_map]
  calc
    _ = (lowDigits 58 shortenedUrlLen h.toNat).map id := by
      apply List.map_congr_left
      intro d mem
      exact slugDigit_slugChar (lt_of_mem_lowDigits (by omega) mem)
    _ = lowDigits 58 shortenedUrlLen h.toNat := List.map_id _

theorem encoding_eq_iff {h h' : UInt64} :
    encoding h = encoding h' ↔ h.toNat ≡ h'.toNat [MOD 58 ^ shortenedUrlLen] := by
  rw [← lowDigits_eq_iff (by omega)]
  constructor
  · intro same
    rw [← map_slugDigit_encoding, ← map_slugDigit_encoding, same]
  · intro same
    unfold encoding
    rw [same]

theorem encoding_slug (h : UInt64) : (encoding h).length = shortenedUrlLen ∧ ∀ c ∈ encoding h, c ∈ alphabet := by
  unfold encoding
  constructor
  · rw [List.length_map, length_lowDigits]
  · intro c mem
    obtain ⟨d, digit, rfl⟩ := List.mem_map.mp mem
    exact slugChar_mem (lt_of_mem_lowDigits (by omega) digit)

/-- Seven characters have a value below `58 ^ 7`, which a hash can have. -/
theorem exists_encoding {s : Bytes} (long : s.length = shortenedUrlLen) (chars : ∀ c ∈ s, c ∈ alphabet) :
    ∃ h, encoding h = s := by
  have digits : ∀ d ∈ s.map slugDigit, d < 58 := by
    intro d mem
    obtain ⟨c, char, rfl⟩ := List.mem_map.mp mem
    exact slugDigit_lt (chars c char)
  have bound : Nat.ofDigits 58 (s.map slugDigit) < 58 ^ shortenedUrlLen :=
    ofDigits_lt (by omega) digits (by rw [List.length_map, long])
  have fits : 58 ^ shortenedUrlLen < UInt64.size := by decide
  refine ⟨UInt64.ofNat (Nat.ofDigits 58 (s.map slugDigit)), ?_⟩
  have numeral := lowDigits_ofDigits digits
  rw [List.length_map, long] at numeral
  unfold encoding
  rw [UInt64.toNat_ofNat_of_lt' (bound.trans fits), numeral, List.map_map]
  calc
    _ = s.map id := by
      apply List.map_congr_left
      intro c char
      exact slugChar_slugDigit (chars c char)
    _ = s := List.map_id s

/-! ## What is hashed -/

/-- The bytes before the first NUL. -/
def untilNul (memory : Bytes) : Bytes := (CString.ofBytes memory).val

theorem nul_not_mem_untilNul (memory : Bytes) : 0 ∉ untilNul memory := (CString.ofBytes memory).noTerminator

theorem untilNul_cons {c : UInt8} (other : c ≠ 0) (rest : Bytes) : untilNul (c :: rest) = c :: untilNul rest := by
  unfold untilNul CString.ofBytes
  dsimp only
  rw [List.takeWhile_cons_of_pos (by simpa using other)]

theorem untilNul_append {pre : Bytes} (noNul : 0 ∉ pre) (rest : Bytes) : untilNul (pre ++ 0 :: rest) = pre := by
  have kept : ∀ c ∈ pre, (c != 0) = true := fun c mem => by
    simp only [bne_iff_ne]
    rintro rfl
    exact noNul mem
  calc
    _ = pre ++ (0 :: rest).takeWhile (· != 0) := List.takeWhile_append_of_pos kept
    _ = pre := by simp

/-- **`strlen` reads up to the first NUL**, and that one. -/
theorem strlen_eq (memory : Bytes) : ∀ a, strlen a memory =
    if 0 ∈ memory then .ok ((untilNul memory).length, List.range' a ((untilNul memory).length + 1))
    else .error .outOfRange := by
  induction memory with
  | nil => exact fun a => rfl
  | cons c rest ih =>
    intro a
    rw [strlen]
    by_cases nul : c = 0
    · rw [if_pos nul, nul, if_pos List.mem_cons_self]
      rfl
    · have later : (0 : UInt8) ∈ c :: rest ↔ (0 : UInt8) ∈ rest := by simp [Ne.symm nul]
      rw [if_neg nul, ih, untilNul_cons nul]
      simp only [later]
      split
      · simp [Except.map, List.range'_succ]
      · rfl

theorem take_length_untilNul (memory : Bytes) : memory.take (untilNul memory).length = untilNul memory :=
  (List.prefix_iff_eq_take.mp (List.takeWhile_prefix _)).symm

/-- A NUL follows. -/
theorem getElem?_untilNul {memory : Bytes} (mem : 0 ∈ memory) : memory[(untilNul memory).length]? = some 0 := by
  induction memory with
  | nil => cases mem
  | cons c rest ih =>
    by_cases nul : c = 0
    · subst nul
      rfl
    · have later : 0 ∈ rest := List.mem_of_ne_of_mem (Ne.symm nul) mem
      rw [untilNul_cons nul, List.length_cons, List.getElem?_cons_succ, ih later]

/-- The function's result: it hashes the bytes before the first NUL. -/
theorem generateShortenedUrl_eq (highwayHash : HHKey → Bytes → UInt64) (src : StringView) (key : HHKey) :
    let memory := src.buffer.drop src.start
    generateShortenedUrl highwayHash src key =
      if 0 ∈ memory then
        .ok ⟨encoding (highwayHash key (untilNul memory)), untilNul memory,
          List.range' src.start ((untilNul memory).length + 1) ++
            List.range' src.start (untilNul memory).length⟩
      else .error .outOfRange := by
  intro memory
  unfold generateShortenedUrl
  simp only [strlen_eq, show src.buffer.drop src.start = memory from rfl]
  split
  · simp only [bind, Except.bind, take_length_untilNul, shortenedUrlChars_encoding]
    rfl
  · rfl

/-- Exactly the bytes of the view are hashed, and nothing outside the view is read. -/
def HashesExactly (highwayHash : HHKey → Bytes → UInt64) (src : StringView) (key : HHKey) : Prop :=
  ∃ g, generateShortenedUrl highwayHash src key = .ok g ∧ g.hashed = src.bytes ∧
    ∀ i ∈ g.reads, src.start ≤ i ∧ i < src.start + src.length

/-- The view holds no NUL and stands before one. -/
def NulTerminated (src : StringView) : Prop :=
  0 ∉ src.bytes ∧ src.buffer[src.start + src.length]? = some 0

theorem StringView.length_bytes (src : StringView) : src.bytes.length = src.length := by
  have inside := src.inside
  unfold StringView.bytes
  rw [List.length_take, List.length_drop]
  omega

/-- The bytes before the first NUL are those of the view exactly if it is terminated. -/
theorem untilNul_eq_bytes_iff (src : StringView) :
    (0 ∈ src.buffer.drop src.start ∧ untilNul (src.buffer.drop src.start) = src.bytes) ↔ NulTerminated src := by
  have after : src.buffer[src.start + src.length]? = (src.buffer.drop src.start)[src.length]? := by
    rw [List.getElem?_drop]
  unfold NulTerminated
  rw [after]
  constructor
  · rintro ⟨mem, same⟩
    have nul := getElem?_untilNul mem
    rw [same, src.length_bytes] at nul
    exact ⟨same ▸ nul_not_mem_untilNul _, nul⟩
  · rintro ⟨noNul, nul⟩
    obtain ⟨inside, value⟩ := List.getElem?_eq_some_iff.mp nul
    have split : src.buffer.drop src.start =
        src.bytes ++ 0 :: (src.buffer.drop src.start).drop (src.length + 1) := by
      rw [← value, ← List.drop_eq_getElem_cons inside]
      exact (List.take_append_drop _ _).symm
    rw [split]
    exact ⟨by simp, untilNul_append noNul _⟩

/-- **The function never hashes just the view.** It reads a byte behind what it hashes, so
one outside the view if it hashes the view. The hashed bytes are those of the view exactly
where a NUL ends it, and two such views of the same bytes have the same result. -/
theorem hashes_exactly_never (highwayHash : HHKey → Bytes → UInt64) :
    (∀ src key, ¬ HashesExactly highwayHash src key) ∧
    (∀ src key, (∃ g, generateShortenedUrl highwayHash src key = .ok g ∧ g.hashed = src.bytes) ↔
      NulTerminated src) ∧
    (∀ src src' key, NulTerminated src → NulTerminated src' → src.bytes = src'.bytes →
      (generateShortenedUrl highwayHash src key).map ShortenedUrl.out =
        (generateShortenedUrl highwayHash src' key).map ShortenedUrl.out) := by
  refine ⟨?_, ?_, ?_⟩
  · rintro src key ⟨g, generated, same, inside⟩
    rw [generateShortenedUrl_eq] at generated
    split at generated
    · cases generated
      have size := congrArg List.length same
      rw [src.length_bytes] at size
      -- the terminator
      have outside := inside (src.start + src.length) (by simp [List.mem_range'_1, size])
      omega
    · cases generated
  · intro src key
    rw [generateShortenedUrl_eq, ← untilNul_eq_bytes_iff]
    constructor
    · rintro ⟨g, generated, same⟩
      split at generated
      · rename_i mem
        cases generated
        exact ⟨mem, same⟩
      · cases generated
    · rintro ⟨mem, same⟩
      rw [if_pos mem]
      exact ⟨_, rfl, same⟩
  · intro src src' key terminated terminated' same
    obtain ⟨mem, hashed⟩ := (untilNul_eq_bytes_iff src).mpr terminated
    obtain ⟨mem', hashed'⟩ := (untilNul_eq_bytes_iff src').mpr terminated'
    rw [generateShortenedUrl_eq, generateShortenedUrl_eq, if_pos mem, if_pos mem', hashed, hashed', same]
    rfl

/-- The hash of nothing but the length. -/
def lengthHash (_ : HHKey) (s : Bytes) : UInt64 := UInt64.ofNat s.length

/-- Two views of `ab`, of which the first stands before a `c`; and a view at the end of its
buffer. -/
theorem views_hashed_beyond :
    let key : HHKey := #v[0, 0, 0, 5]
    let src : StringView := ⟨bytes "abc" ++ [0], 0, 2, by decide⟩
    let src' : StringView := ⟨bytes "ab" ++ [0], 0, 2, by decide⟩
    let last : StringView := ⟨bytes "ab", 0, 2, by decide⟩
    src.bytes = src'.bytes ∧ ¬ HashesExactly lengthHash src key ∧
    generateShortenedUrl lengthHash src key = .ok ⟨bytes "4111111", bytes "abc", [0, 1, 2, 3, 0, 1, 2]⟩ ∧
    generateShortenedUrl lengthHash src' key = .ok ⟨bytes "3111111", bytes "ab", [0, 1, 2, 0, 1]⟩ ∧
    generateShortenedUrl lengthHash last key = .error .outOfRange := by
  intro key src src' last
  have beyond : generateShortenedUrl lengthHash src key =
      .ok ⟨bytes "4111111", bytes "abc", [0, 1, 2, 3, 0, 1, 2]⟩ := by decide
  refine ⟨by decide, ?_, beyond, by decide, by decide⟩
  rintro ⟨g, generated, same, -⟩
  rw [beyond] at generated
  cases generated
  exact absurd same (by decide)

/-! ## The encoding is exact -/

/-- **Two hashes have the same seven characters exactly if they are congruent modulo
`58 ^ 7`**, all seven are of the alphabet, and all strings of seven such characters occur. -/
theorem encoding_exact (h h' : UInt64) :
    (∃ out, shortenedUrlChars shortenedUrlLen h [] = .ok out ∧ out.length = 7 ∧ ∀ c ∈ out, c ∈ alphabet) ∧
    (shortenedUrlChars shortenedUrlLen h [] = shortenedUrlChars shortenedUrlLen h' [] ↔
      h.toNat ≡ h'.toNat [MOD 58 ^ 7]) ∧
    (∀ s : Bytes, s.length = 7 → (∀ c ∈ s, c ∈ alphabet) →
      ∃ h, shortenedUrlChars shortenedUrlLen h [] = .ok s) ∧
    (∀ highwayHash src src' key g g', generateShortenedUrl highwayHash src key = .ok g →
      generateShortenedUrl highwayHash src' key = .ok g' → g.out = g'.out →
        (highwayHash key g.hashed).toNat ≡ (highwayHash key g'.hashed).toNat [MOD 58 ^ 7]) := by
  refine ⟨?_, ?_, ?_, ?_⟩
  · exact ⟨encoding h, shortenedUrlChars_encoding h, encoding_slug h⟩
  · rw [shortenedUrlChars_encoding, shortenedUrlChars_encoding, Except.ok.injEq]
    exact encoding_eq_iff
  · intro s long chars
    obtain ⟨h, encoded⟩ := exists_encoding long chars
    exact ⟨h, by rw [shortenedUrlChars_encoding, encoded]⟩
  · intro highwayHash src src' key g g' generated generated' same
    rw [generateShortenedUrl_eq] at generated generated'
    split at generated
    · split at generated'
      · cases generated
        cases generated'
        exact encoding_eq_iff.mp same
      · cases generated'
    · cases generated

end UrlShortener
