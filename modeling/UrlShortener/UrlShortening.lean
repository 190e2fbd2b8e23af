import UrlShortener.Bytes

/-!
# `url_shortening.cc`: the slug alphabet, its parser and its generator

`generateSlug` divides the four words of a 256-bit hash into digits, as many for
each try as the slug is long; `parseOutRequestStr` reads a slug back out of a
request path. Both use the built-in `alphabet`: the generator takes only the
*length* of the configured one.
-/

namespace UrlShortener
set_option autoImplicit false

/-- The file-level `alphabet`. -/
def alphabet : Bytes := bytes "123456789ABCDEFGHJKLMNPQRSTUVWXYZabcdefghijkmnopqrstuvwxyz"

def maxRequestStrLen : Nat := 1000

/-! ## Parsing a request path -/

/-- The scan for `c` through `alphabet`. -/
def included (c : UInt8) : Bool := alphabet.any fun a => a == c

/-- The scan from `it` to `src.end()`: the bytes before the end or the first
`?`, unless an illegal symbol comes first. -/
def scanSlug : Bytes → Option Bytes
  | [] => some []
  | c :: rest =>
    if included c then (scanSlug rest).map (c :: ·)
    else if c = 0x3f then some []
    else none

/-- `parse_out_request_str`. The empty view has no first character to look at. -/
def parseOutRequestStr (src : Bytes) : Except Undefined Bytes :=
  if src.length > maxRequestStrLen then .ok []
  else
    match src with
    | [] => .error .outOfRange
    | c :: rest => if c ≠ 0x2f then .ok [] else .ok ((scanSlug rest).getD [])

/-! ## Generating a slug -/

/-- `highwayhash::HHResult256`. -/
abbrev HHResult256 := Vector UInt64 4

/-- `UrlShorteningConfig`, with HighwayHash under the configured key as a
function of the hashed bytes. -/
structure UrlShorteningConfig where
  slugLength : UInt8
  alphabet : Bytes
  highwayHash : Bytes → HHResult256

/-- The locals of `generate_slug` while it divides the hash. -/
structure SlugState where
  result : HHResult256
  resultIdx : Nat
  dst : Bytes
  deriving DecidableEq, Repr

/-- `result[result_idx]`. -/
def SlugState.word (s : SlugState) : Except Undefined UInt64 :=
  match s.result[s.resultIdx]? with
  | some w => .ok w
  | none => .error .outOfRange

/-- Divide one digit off the current word and append its character. -/
def SlugState.emit (alphabetLen : Nat) (s : SlugState) : Except Undefined SlugState := do
  let w ← s.word
  if alphabetLen = 0 then throw .zeroDivisor
  match alphabet[w.toNat % alphabetLen]? with
  | none => throw .outsideAlphabet
  | some c =>
    return { s with
      result := s.result.setIfInBounds s.resultIdx (UInt64.ofNat (w.toNat / alphabetLen))
      dst := s.dst ++ [c] }

/-- One round of the inner `for`: move past a used-up word, then emit. `false`
is the `return false` of the guard, which compares with `>` and so lets
`result_idx = 4` through. -/
def SlugState.next (alphabetLen : Nat) (s : SlugState) : Except Undefined (Bool × SlugState) := do
  let w ← s.word
  if w ≤ 0 then
    let s := { s with resultIdx := s.resultIdx + 1 }
    if s.resultIdx > 4 then return (false, s)
    return (true, ← s.emit alphabetLen)
  return (true, ← s.emit alphabetLen)

/-- The inner `for`, `count` rounds of it. -/
def slugChars (alphabetLen : Nat) : Nat → SlugState → Except Undefined (Bool × SlugState)
  | 0, s => .ok (true, s)
  | count + 1, s =>
    match s.next alphabetLen with
    | .ok (true, s) => slugChars alphabetLen count s
    | stop => stop

/-- The outer `while (nth_try-- > 0)`. -/
def slugTries (alphabetLen slugLength : Nat) : Nat → SlugState → Except Undefined (Bool × SlugState)
  | 0, s => .ok (true, s)
  | nthTry + 1, s =>
    match slugChars alphabetLen slugLength { s with dst := [] } with
    | .ok (true, s) => slugTries alphabetLen slugLength nthTry s
    | stop => stop

/-- `UrlShorteningConfig::generate_slug`: the return value and the contents of
`dst`. -/
def UrlShorteningConfig.generateSlug (svc : UrlShorteningConfig) (dst longUrl : Bytes)
    (nthTry : UInt8) : Except Undefined (Bool × Bytes) :=
  (slugTries svc.alphabet.length svc.slugLength.toNat nthTry.toNat
    ⟨svc.highwayHash longUrl, 0, dst⟩).map fun r => (r.1, r.2.dst)

/-! ## What a slug is made of -/

/-- What a successful round does to `dst`. -/
theorem emit_dst {n : Nat} {s s' : SlugState} (h : s.emit n = .ok s') :
    ∃ c ∈ alphabet, s'.dst = s.dst ++ [c] := by
  simp only [SlugState.emit, bind, Except.bind] at h
  split at h
  · cases h
  · split at h
    · cases h
    · split at h
      · cases h
      · rename_i c hc
        cases h
        exact ⟨c, List.mem_of_getElem? hc, rfl⟩

theorem next_dst {n : Nat} {s s' : SlugState} (h : s.next n = .ok (true, s')) :
    ∃ c ∈ alphabet, s'.dst = s.dst ++ [c] := by
  simp only [SlugState.next, bind, Except.bind] at h
  split at h
  · cases h
  · split at h
    · split at h
      · cases h
      · split at h
        · cases h
        · rename_i hs
          cases h
          obtain ⟨c, hc, hdst⟩ := emit_dst hs
          exact ⟨c, hc, hdst⟩
    · split at h
      · cases h
      · rename_i hs
        cases h
        exact emit_dst hs

/-- The inner loop appends `count` characters of `alphabet`. -/
theorem slugChars_dst {n count : Nat} {s s' : SlugState}
    (h : slugChars n count s = .ok (true, s')) :
    ∃ cs : Bytes, cs.length = count ∧ (∀ c ∈ cs, c ∈ alphabet) ∧ s'.dst = s.dst ++ cs := by
  induction count generalizing s with
  | zero =>
    cases h
    exact ⟨[], rfl, by simp, by simp⟩
  | succ count ih =>
    simp only [slugChars] at h
    split at h
    · rename_i s₁ hs
      obtain ⟨c, hc, first⟩ := next_dst hs
      obtain ⟨cs, hlen, hcs, rest⟩ := ih h
      refine ⟨c :: cs, by simp [hlen], ?_, by simp [rest, first]⟩
      intro a ha
      rcases List.mem_cons.mp ha with rfl | ha
      · exact hc
      · exact hcs a ha
    · rename_i stop
      exact absurd h (stop _)

/-- After the outer loop `dst` holds the block of the last try alone. -/
theorem slugTries_dst {n len tries : Nat} {s s' : SlugState} (positive : 0 < tries)
    (h : slugTries n len tries s = .ok (true, s')) :
    s'.dst.length = len ∧ ∀ c ∈ s'.dst, c ∈ alphabet := by
  induction tries generalizing s with
  | zero => omega
  | succ tries ih =>
    simp only [slugTries] at h
    split at h
    · rename_i s₁ hs
      cases tries with
      | zero =>
        cases h
        obtain ⟨cs, hlen, hcs, hdst⟩ := slugChars_dst hs
        simp only [List.nil_append] at hdst
        exact ⟨by rw [hdst, hlen], by rw [hdst]; exact hcs⟩
      | succ tries => exact ih (by omega) h
    · rename_i stop
      exact absurd h (stop _)

/-- What was in `dst` before does not matter, as long as there is a try. -/
theorem slugTries_dst_irrelevant (n len : Nat) {tries : Nat} (positive : 0 < tries)
    (s : SlugState) (dst : Bytes) :
    slugTries n len tries { s with dst := dst } = slugTries n len tries s := by
  cases tries with
  | zero => omega
  | succ tries => rfl

theorem generateSlug_dst_irrelevant (svc : UrlShorteningConfig) (dst longUrl : Bytes) {n : UInt8}
    (positive : 0 < n.toNat) :
    svc.generateSlug dst longUrl n = svc.generateSlug [] longUrl n := by
  unfold UrlShorteningConfig.generateSlug
  rw [← slugTries_dst_irrelevant _ _ positive ⟨svc.highwayHash longUrl, 0, dst⟩ []]

/-- A generated slug has the configured length and characters of the built-in
alphabet. -/
theorem generateSlug_slug {svc : UrlShorteningConfig} {dst longUrl slug : Bytes} {n : UInt8}
    (positive : 0 < n.toNat) (h : svc.generateSlug dst longUrl n = .ok (true, slug)) :
    slug.length = svc.slugLength.toNat ∧ ∀ c ∈ slug, c ∈ alphabet := by
  simp only [UrlShorteningConfig.generateSlug] at h
  cases hs : slugTries svc.alphabet.length svc.slugLength.toNat n.toNat
      ⟨svc.highwayHash longUrl, 0, dst⟩ with
  | error u => simp [hs, Except.map] at h
  | ok r =>
    obtain ⟨done, s⟩ := r
    simp only [hs, Except.map, Except.ok.injEq, Prod.mk.injEq] at h
    obtain ⟨rfl, rfl⟩ := h
    exact slugTries_dst positive hs

/-! ## Slugs survive the parser -/

theorem included_of_mem {c : UInt8} (h : c ∈ alphabet) : included c = true := by
  simpa [included] using h

theorem scanSlug_of_alphabet {s : Bytes} (h : ∀ c ∈ s, c ∈ alphabet) : scanSlug s = some s := by
  induction s with
  | nil => rfl
  | cons c s ih =>
    rw [scanSlug, if_pos (included_of_mem (h c List.mem_cons_self)),
      ih fun a ha => h a (List.mem_cons_of_mem _ ha)]
    rfl

/-- A path made of `/` and characters of the alphabet parses to what follows the
slash. -/
theorem parseOutRequestStr_slug {s : Bytes} (short : s.length < maxRequestStrLen)
    (h : ∀ c ∈ s, c ∈ alphabet) : parseOutRequestStr (0x2f :: s) = .ok s := by
  unfold parseOutRequestStr
  rw [if_neg (by simp only [List.length_cons]; omega)]
  simp [scanSlug_of_alphabet h]

theorem slash_not_in_alphabet : (0x2f : UInt8) ∉ alphabet := by decide

end UrlShortener
