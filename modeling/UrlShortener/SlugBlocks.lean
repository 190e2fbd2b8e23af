import UrlShortener.SlugDigits

/-!
# The blocks of the tries

Try `n` renders the `n`-th block of the digit stream (`generateSlug_reads_block`). The
guard at the end of the hash compares with `>`, so where the stream is too short the
loop reads past the four words instead of returning `false`
(`generateSlug_inside_hash_iff`). The characters are those of the built-in alphabet,
whatever alphabet is configured (`honoursAlphabet_iff`).
-/

namespace UrlShortener
set_option autoImplicit false
open DigitStream

/-! ## Inside the hash -/

section

variable {svc : UrlShorteningConfig} (dst longUrl : Bytes) {n : UInt8}

theorem generateSlug_no_try (zero : n.toNat = 0) : svc.generateSlug dst longUrl n = .ok (true, dst) := by
  rw [UrlShorteningConfig.generateSlug, zero]
  rfl

/-- A call on a stream that is too short reads past the last word; any other call
returns `true`. -/
theorem generateSlug_within (lower : 2 ≤ svc.alphabet.length) (upper : svc.alphabet.length ≤ 58) :
    ((hashDigits svc.alphabet.length (svc.highwayHash longUrl)).length < svc.digitsRead n ∧
      svc.generateSlug dst longUrl n = .error .outOfRange) ∨
    (svc.digitsRead n ≤ (hashDigits svc.alphabet.length (svc.highwayHash longUrl)).length ∧
      ∃ slug, svc.generateSlug dst longUrl n = .ok (true, slug)) := by
  rcases Nat.eq_zero_or_pos n.toNat with zero | tried
  · have none_read : svc.digitsRead n = 0 := by
      rw [UrlShorteningConfig.digitsRead, zero, Nat.zero_mul]
    right
    exact ⟨by omega, dst, generateSlug_no_try dst longUrl zero⟩
  · have nonempty : svc.alphabet ≠ [] := List.ne_nil_of_length_pos (by omega)
    have builtIn : alphabet.length = 58 := by decide
    have ends := Cursor.take_eq_none_iff lower (c := hashCursor (svc.highwayHash longUrl)) (k := svc.digitsRead n)
    rw [hashCursor_pending] at ends
    have call := generateSlug_cases longUrl nonempty tried dst
    generalize svc.generateSlug dst longUrl n = r at call
    cases call with
    | usedUp short =>
      left
      exact ⟨ends.mp short, rfl⟩
    | outside outside => omega
    | @rendered slug _ _ there =>
      right
      exact ⟨Nat.le_of_not_lt fun short => there (ends.mpr short), slug, rfl⟩

end

/-- Every `result[result_idx]` has an index below 4. -/
def StaysInsideHash (svc : UrlShorteningConfig) (dst longUrl : Bytes) (n : UInt8) : Prop :=
  svc.generateSlug dst longUrl n ≠ .error .outOfRange

/-- `false` is returned exactly where the tries need more digits than there are. -/
def ReportsExhaustion (svc : UrlShorteningConfig) (dst longUrl : Bytes) (n : UInt8) : Prop :=
  (∃ dst', svc.generateSlug dst longUrl n = .ok (false, dst')) ↔
    (hashDigits svc.alphabet.length (svc.highwayHash longUrl)).length < svc.digitsRead n

/-- **The call stays inside the hash and reports its exhaustion exactly where it does
not exhaust it.** -/
theorem generateSlug_inside_hash_iff (svc : UrlShorteningConfig) (dst longUrl : Bytes) (n : UInt8)
    (lower : 2 ≤ svc.alphabet.length) (upper : svc.alphabet.length ≤ 58) :
    StaysInsideHash svc dst longUrl n ∧ ReportsExhaustion svc dst longUrl n ↔
      svc.digitsRead n ≤ (hashDigits svc.alphabet.length (svc.highwayHash longUrl)).length := by
  unfold StaysInsideHash ReportsExhaustion
  rcases generateSlug_within dst longUrl (n := n) lower upper with ⟨short, eq⟩ | ⟨enough, slug, eq⟩ <;>
    rw [eq]
  · constructor
    · rintro ⟨inside, -⟩
      exact absurd rfl inside
    · intro enough
      omega
  · constructor
    · intro _
      exact enough
    · intro _
      constructor
      · intro outside
        cases outside
      · constructor
        · rintro ⟨dst', same⟩
          cases same
        · intro short
          omega

/-- Slugs of seven characters, and one hash for every URL. -/
def oneHash (alphabet : Bytes) : UrlShorteningConfig :=
  ⟨7, alphabet, fun _ => #v[0x0123456789abcdef, 0xfedcba9876543210, 3, 7]⟩

theorem first_try_inside_hash : StaysInsideHash (oneHash alphabet) [] [] 1 ∧
    ReportsExhaustion (oneHash alphabet) [] [] 1 :=
  (generateSlug_inside_hash_iff (oneHash alphabet) [] [] 1 (by decide) (by decide)).mpr (by decide)

/-- The fourth try needs five digits more than the hash has. -/
theorem fourth_try_outside_hash :
    (hashDigits 58 ((oneHash alphabet).highwayHash [])).length = 23 ∧
      (oneHash alphabet).digitsRead 4 = 28 ∧ ¬ StaysInsideHash (oneHash alphabet) [] [] 4 :=
  ⟨by decide, by decide, fun inside => inside rfl⟩

/-! ## Blocks of the stream -/

/-- Where try `n` of slugs of `len` characters stands in the digit stream. -/
def tryPositions (len n : Nat) : Finset Nat := Finset.Ico ((n - 1) * len) (n * len)

/-- The blocks of two tries do not overlap. -/
theorem tryPositions_disjoint {len m n : Nat} (first : m ≤ n - 1) :
    Disjoint (tryPositions len m) (tryPositions len n) := by
  rw [Finset.disjoint_left]
  intro i inFirst inSecond
  have before := (Finset.mem_Ico.mp inFirst).2
  have after := (Finset.mem_Ico.mp inSecond).1
  have apart := Nat.mul_le_mul_right len first
  omega

/-- **Try `n` renders its block of the stream**, whatever `dst` held before, and no
two tries share a position. -/
theorem generateSlug_reads_block (svc : UrlShorteningConfig) (longUrl : Bytes) (n : UInt8)
    (lower : 2 ≤ svc.alphabet.length) (upper : svc.alphabet.length ≤ 58)
    (tried : 1 ≤ n.toNat)
    (enough : n.toNat * svc.slugLength.toNat ≤
      (hashDigits svc.alphabet.length (svc.highwayHash longUrl)).length) :
    (∃ slug, (∀ dst, svc.generateSlug dst longUrl n = .ok (true, slug)) ∧
      slug.map some = (((hashDigits svc.alphabet.length (svc.highwayHash longUrl)).drop
        ((n.toNat - 1) * svc.slugLength.toNat)).take svc.slugLength.toNat).map fun d => alphabet[d]?) ∧
    ∀ m : UInt8, 1 ≤ m.toNat → m ≠ n →
      Disjoint (tryPositions svc.slugLength.toNat m.toNat) (tryPositions svc.slugLength.toNat n.toNat) := by
  have nonempty : svc.alphabet ≠ [] := List.ne_nil_of_length_pos (by omega)
  obtain ⟨slug, generated⟩ : ∃ slug, svc.generateSlug [] longUrl n = .ok (true, slug) := by
    rcases generateSlug_within [] longUrl (n := n) lower upper with ⟨short, -⟩ | ⟨-, generated⟩
    · unfold UrlShorteningConfig.digitsRead at short
      omega
    · exact generated
  refine ⟨⟨slug, fun dst => ?_, ?_⟩, ?_⟩
  · rw [generateSlug_dst_irrelevant svc dst longUrl tried, generated]
  · have call := generateSlug_cases longUrl nonempty tried []
    rw [generated] at call
    cases call with
    | rendered renders _ _ => rw [← tryDigits_eq longUrl lower tried enough, renders]
  · intro m used different
    have numbers : m.toNat ≠ n.toNat := fun same => different (UInt8.toNat_inj.mp same)
    rcases Nat.lt_or_ge m.toNat n.toNat with before | after
    · exact tryPositions_disjoint (by omega)
    · exact (tryPositions_disjoint (by omega)).symm

theorem third_try_reads_block : ∃ slug,
    (∀ dst, (oneHash alphabet).generateSlug dst [] 3 = .ok (true, slug)) ∧
      slug.map some = (((hashDigits 58 ((oneHash alphabet).highwayHash [])).drop 14).take 7).map
        fun d => alphabet[d]? :=
  (generateSlug_reads_block (oneHash alphabet) [] 3 (by decide) (by decide) (by decide) (by decide)).1

/-! ## The configured alphabet -/

/-- The slug of try `n` is one in the configured alphabet. -/
structure HonoursAlphabet (svc : UrlShorteningConfig) (longUrl : Bytes) (n : UInt8) (slug : Bytes) :
    Prop where
  chars : ∀ c ∈ slug, c ∈ svc.alphabet
  length : slug.length = svc.slugLength.toNat
  rendered : slug.map some = (svc.tryDigits longUrl n).map fun d => svc.alphabet[d]?

/-- **A slug is one in the configured alphabet exactly where that agrees with the
built-in one** at the digits of the try. -/
theorem honoursAlphabet_iff (svc : UrlShorteningConfig) (dst longUrl : Bytes) (n : UInt8) (slug : Bytes)
    (nonempty : svc.alphabet ≠ []) (tried : 1 ≤ n.toNat)
    (generated : svc.generateSlug dst longUrl n = .ok (true, slug)) :
    HonoursAlphabet svc longUrl n slug ↔ ∀ d ∈ svc.tryDigits longUrl n, svc.alphabet[d]? = alphabet[d]? := by
  have call := generateSlug_cases longUrl nonempty tried dst
  rw [generated] at call
  cases call with
  | rendered renders length _ =>
    constructor
    · intro honours d digit
      have same : (svc.tryDigits longUrl n).map (fun d => svc.alphabet[d]?) =
          (svc.tryDigits longUrl n).map fun d => alphabet[d]? := honours.rendered.symm.trans renders
      exact List.map_inj_left.mp same d digit
    · intro agree
      have rendered : slug.map some = (svc.tryDigits longUrl n).map fun d => svc.alphabet[d]? := by
        rw [renders]
        exact (List.map_congr_left agree).symm
      refine ⟨?_, length, rendered⟩
      intro c mem
      have image : some c ∈ slug.map some := List.mem_map_of_mem mem
      rw [rendered] at image
      obtain ⟨d, -, char⟩ := List.mem_map.mp image
      exact List.mem_of_getElem? char

theorem default_alphabet_honoured :
    HonoursAlphabet (oneHash alphabet) [] 1 (bytes "YP8c7qP") :=
  (honoursAlphabet_iff (oneHash alphabet) [] [] 1 (bytes "YP8c7qP") (by decide) (by decide) rfl).mpr
    fun _ _ => rfl

/-- A slug in the alphabet of `a` and `b` has neither. -/
theorem other_alphabet_ignored : (oneHash (bytes "ab")).generateSlug [] [] 1 = .ok (true, bytes "2222122") ∧
    ¬ HonoursAlphabet (oneHash (bytes "ab")) [] 1 (bytes "2222122") := by
  refine ⟨rfl, fun honours => ?_⟩
  have two : (0x32 : UInt8) ∈ bytes "ab" := honours.chars 0x32 (by decide)
  revert two
  decide

end UrlShortener
