import UrlShortener.MakeUrl.Shorten

/-!
# What one `do_shorten_url` does to the store

A call should keep every stored URL, change nothing when it reports failure, and
add exactly its own entry when it reports a slug (`DamagesNothing`). It does so
except on two kinds of input. When all 99 candidates are taken the loop ends
without having found a free slug, yet the insertion after it goes ahead and
overwrites the last candidate (`FallsThrough`); a one-letter alphabet offers a
single slug and so gets there with the second URL. And a slug length of zero,
which only one of the two loaders refuses, stores the URL under the empty slug
and then reports failure (`InsertsEmptySlug`).
-/

namespace UrlShortener
set_option autoImplicit false
open AtomicStore

/-- What a call that returned `slug` for `longUrl` may do to the store. -/
structure DamagesNothing (s s' : UrlStore) (longUrl slug : Bytes) : Prop where
  kept : Keeps s s'
  unchanged : slug = [] → s' = s
  stored : slug ≠ [] → s' = Function.update s slug (some longUrl)

/-- Every candidate is taken and no operation fails, so the loop ends without a
free slug. -/
def FallsThrough (svc : UrlShorteningConfig) (s : UrlStore) (longUrl : Bytes)
    (fail : Nat → Option RocksFailure) : Prop :=
  (∀ n, 2 ≤ n → n ≤ maxTries → CandidateTaken svc s longUrl n ∧ fail (n - 2) = none) ∧
    fail (maxTries - 1) = none

/-- The only candidate is the empty slug, it is free, and it is written. -/
def InsertsEmptySlug (svc : UrlShorteningConfig) (s : UrlStore)
    (fail : Nat → Option RocksFailure) : Prop :=
  svc.slugLength = 0 ∧ Vacant s [] ∧ fail 0 = none ∧ fail 1 = none

section

variable {svc : UrlShorteningConfig} {s s' : UrlStore} {longUrl slug : Bytes}
  {fail : Nat → Option RocksFailure}

/-- Falling through overwrites the last candidate. -/
theorem fallsThrough_exec (nonempty : longUrl ≠ []) (falls : FallsThrough svc s longUrl fail) :
    ∃ last, svc.candidate longUrl maxTries = .ok (true, last) ∧ Taken s longUrl last ∧
      (doShortenUrl svc longUrl).exec fail 0 s =
        (.ok last, Function.update s last (some longUrl)) := by
  rcases shorten_cases svc nonempty s fail with ⟨n, low, high, -, ends⟩ | ⟨last, -, offer, ends⟩
  · exact absurd ends (not_stops_of_taken (falls.1 n low high).1 (falls.1 n low high).2)
  · obtain ⟨c, offer', held⟩ := (falls.1 maxTries (by decide) (by decide)).1
    rw [offer] at offer'
    cases offer'
    rw [falls.2] at ends
    refine ⟨last, offer, held, ?_⟩
    generalize (doShortenUrl svc longUrl).exec fail 0 s = r at ends
    obtain ⟨res, after⟩ := r
    cases ends
    rfl

/-- With slugs of length zero every candidate is the empty slug. -/
theorem candidate_empty (empty : svc.slugLength = 0) (longUrl : Bytes) (n : Nat) :
    svc.candidate longUrl n = .ok (true, []) := by
  have tries : ∀ k st, (st : SlugState).dst = [] →
      ∃ st', slugTries svc.alphabet.length 0 k st = .ok (true, st') ∧ st'.dst = [] := by
    intro k
    induction k with
    | zero => exact fun st h => ⟨st, rfl, h⟩
    | succ k ih => exact fun st _ => ih { st with dst := [] } rfl
  obtain ⟨st, done, dst⟩ := tries (UInt8.ofNat n).toNat ⟨svc.highwayHash longUrl, 0, []⟩ rfl
  simp only [UrlShorteningConfig.candidate, UrlShorteningConfig.generateSlug, empty]
  rw [show (0 : UInt8).toNat = 0 from rfl, done]
  simp [Except.map, dst]

theorem insertsEmptySlug_exec (nonempty : longUrl ≠ []) (h : InsertsEmptySlug svc s fail) :
    (doShortenUrl svc longUrl).exec fail 0 s = (.ok [], Function.update s [] (some longUrl)) := by
  obtain ⟨empty, vacant, read, write⟩ := h
  have offer := candidate_empty empty longUrl
  have free : ¬ CandidateTaken svc s longUrl 2 := by
    rintro ⟨c, h, held⟩
    rw [offer] at h
    cases h
    exact not_vacant_of_taken held vacant
  rcases shorten_cases svc nonempty s fail with ⟨n, low, high, earlier, ends⟩ | ⟨last, earlier, -, -⟩
  · have first : n = 2 := by
      by_contra later
      exact free (earlier 2 (by omega) (by omega)).1
    subst first
    generalize (doShortenUrl svc longUrl).exec fail 0 s = r at ends
    obtain ⟨res, after⟩ := r
    cases ends with
    | undefined h => rw [offer] at h; cases h
    | ranOut h => rw [offer] at h; cases h
    | readFailed _ failed => rw [read] at failed; cases failed
    | present h _ held =>
      rw [offer] at h
      cases h
      rcases vacant with none | some <;> simp_all
    | inserted h _ _ ends =>
      rw [offer] at h
      cases h
      rw [show 2 - 2 + 1 = 1 from rfl, write] at ends
      cases ends
      rfl
  · exact absurd (earlier 2 (by decide) (by decide)).1 free

/-- Adding an entry under a free slug keeps the stored URLs. -/
theorem damagesNothing_insert (vacant : Vacant s slug) (nonempty : slug ≠ []) :
    DamagesNothing s (Function.update s slug (some longUrl)) longUrl slug :=
  ⟨keeps_update (.inl vacant), fun empty => absurd empty nonempty, fun _ => rfl⟩

/-- Leaving the store alone damages nothing, if the slug reported is there. -/
theorem damagesNothing_refl (held : slug ≠ [] → s slug = some longUrl) :
    DamagesNothing s s longUrl slug := by
  refine ⟨Keeps.refl s, fun _ => rfl, fun nonempty => ?_⟩
  rw [← held nonempty, Function.update_eq_self]

end

/-- **The exact frame of `do_shorten_url`.** A call that completes damages nothing
if and only if it neither falls through nor inserts the empty slug. -/
theorem shorten_damages_nothing_iff (svc : UrlShorteningConfig) (s : UrlStore) (longUrl : Bytes)
    (fail : Nat → Option RocksFailure) (slug : Bytes) (s' : UrlStore) (nonempty : longUrl ≠ [])
    (completes : (doShortenUrl svc longUrl).exec fail 0 s = (.ok slug, s')) :
    DamagesNothing s s' longUrl slug ↔
      ¬ FallsThrough svc s longUrl fail ∧ ¬ InsertsEmptySlug svc s fail := by
  constructor
  · intro sound
    constructor
    · intro falls
      obtain ⟨last, -, ⟨v, held, real, other⟩, ends⟩ := fallsThrough_exec nonempty falls
      rw [completes] at ends
      cases ends
      have kept := sound.kept slug v held real
      rw [Function.update_self] at kept
      exact other (Option.some.inj kept).symm
    · intro inserts
      have ends := insertsEmptySlug_exec nonempty inserts
      rw [completes] at ends
      cases ends
      have same := congrFun (sound.unchanged rfl) []
      rw [Function.update_self] at same
      rcases inserts.2.1 with h | h <;> rw [h] at same
      · cases same
      · exact nonempty (Option.some.inj same)
  · rintro ⟨stays, filled⟩
    have ends := shorten_cases svc nonempty s fail
    simp only [completes] at ends
    rcases ends with ⟨n, low, high, earlier, ends⟩ | ⟨last, earlier, offer, ends⟩
    · cases ends with
      | ranOut => exact damagesNothing_refl fun h => absurd rfl h
      | readFailed => exact damagesNothing_refl fun h => absurd rfl h
      | present _ _ held => exact damagesNothing_refl fun _ => held
      | inserted offer read vacant ends =>
        generalize write : fail (n - 2 + 1) = outcome at ends
        cases ends with
        | failed => exact damagesNothing_refl fun h => absurd rfl h
        | written =>
          refine damagesNothing_insert vacant fun empty => ?_
          subst empty
          -- the empty slug is the candidate of every try, so the first try stops here
          have length := (candidate_slug (by omega) high offer).1
          have none : svc.slugLength = 0 := UInt8.toNat_inj.mp length.symm
          have first : n = 2 := by
            by_contra later
            obtain ⟨c, offer', held⟩ := (earlier 2 (by omega) (by omega)).1
            rw [candidate_empty none] at offer'
            cases offer'
            exact not_vacant_of_taken held vacant
          subst first
          exact filled ⟨none, vacant, read, write⟩
    · generalize write : fail (maxTries - 1) = outcome at ends
      cases ends with
      | failed => exact damagesNothing_refl fun h => absurd rfl h
      | written => exact absurd ⟨earlier, write⟩ stays

/-- The first URL of an empty store. -/
theorem shorten_damages_nothing_iff_first :
    DamagesNothing (fun _ => none)
        (Function.update (fun _ => none) (bytes "C3Cs6Yf") (some (bytes "https://b.example/")))
        (bytes "https://b.example/") (bytes "C3Cs6Yf") ↔
      ¬ FallsThrough (sampleShortening fun _ => #v[0x0123456789abcdef, 0xfedcba9876543210, 3, 5])
          (fun _ => none) (bytes "https://b.example/") (fun _ => none) ∧
        ¬ InsertsEmptySlug (sampleShortening fun _ => #v[0x0123456789abcdef, 0xfedcba9876543210, 3, 5])
          (fun _ => none) (fun _ => none) :=
  shorten_damages_nothing_iff _ _ _ _ _ _ (by decide) rfl

/-! ## A one-letter alphabet -/

/-- A slug length of 7 over the alphabet `1`, with a non-zero hash. -/
def unaryShortening : UrlShorteningConfig := ⟨7, bytes "1", fun _ => #v[1, 1, 1, 1]⟩

/-- A word divided by an alphabet length of one stays as it is. -/
theorem next_unary {st : SlugState} (word : st.result[st.resultIdx]? = some 1) :
    st.next 1 = .ok (true, { st with dst := st.dst ++ [0x31] }) := by
  have same : st.result.setIfInBounds st.resultIdx 1 = st.result := by
    apply Vector.ext
    intro j hj
    rw [Vector.getElem_setIfInBounds]
    split
    · rename_i at_idx
      subst at_idx
      rw [Vector.getElem?_eq_getElem hj] at word
      exact (Option.some.inj word).symm
    · rfl
  have digit : alphabet[(1 : UInt64).toNat % 1]? = some 0x31 := by decide
  have divided : UInt64.ofNat ((1 : UInt64).toNat / 1) = 1 := by decide
  have positive : ¬ (1 : UInt64) ≤ 0 := by decide
  simp only [SlugState.next, SlugState.emit, SlugState.word, word, bind, Except.bind, digit,
    if_neg positive, divided, same]
  rfl

theorem slugChars_unary (count : Nat) (st : SlugState) (word : st.result[st.resultIdx]? = some 1) :
    slugChars 1 count st = .ok (true, { st with dst := st.dst ++ List.replicate count 0x31 }) := by
  induction count generalizing st with
  | zero => simp [slugChars]
  | succ count ih =>
    have rest := ih { st with dst := st.dst ++ [0x31] } word
    simp only [slugChars, next_unary word, rest, List.append_assoc]
    rfl

/-- Every try offers the same slug. -/
theorem candidate_unary (longUrl : Bytes) {n : Nat} (positive : 0 < n) (small : n ≤ maxTries) :
    unaryShortening.candidate longUrl n = .ok (true, bytes "1111111") := by
  have tries : ∀ k (st : SlugState), 0 < k → st.result[st.resultIdx]? = some 1 →
      slugTries 1 7 k st = .ok (true, { st with dst := bytes "1111111" }) := by
    intro k
    induction k with
    | zero => exact fun _ h _ => absurd h (by omega)
    | succ k ih =>
      intro st _ word
      simp only [slugTries, slugChars_unary 7 { st with dst := [] } word]
      cases k with
      | zero => rfl
      | succ k => exact ih { st with dst := _ } (by omega) word
  have done := tries (UInt8.ofNat n).toNat ⟨#v[1, 1, 1, 1], 0, []⟩
    (by rw [tryNumber_toNat small]; exact positive) rfl
  simp only [UrlShorteningConfig.candidate, UrlShorteningConfig.generateSlug, unaryShortening]
  rw [show (bytes "1").length = 1 from rfl, show (7 : UInt8).toNat = 7 from rfl, done]
  rfl

/-- The store after the first URL. -/
def unaryStore : UrlStore :=
  Function.update (fun _ => none) (bytes "1111111") (some (bytes "https://a.example/"))

/-- The second URL takes the place of the first, and success is reported. -/
theorem unary_overwrites :
    (doShortenUrl unaryShortening (bytes "https://b.example/")).exec (fun _ => none) 0 unaryStore =
        (.ok (bytes "1111111"),
          Function.update unaryStore (bytes "1111111") (some (bytes "https://b.example/"))) ∧
      ¬ DamagesNothing unaryStore
          (Function.update unaryStore (bytes "1111111") (some (bytes "https://b.example/")))
          (bytes "https://b.example/") (bytes "1111111") := by
  have held : unaryStore (bytes "1111111") = some (bytes "https://a.example/") :=
    Function.update_self ..
  have taken : Taken unaryStore (bytes "https://b.example/") (bytes "1111111") :=
    ⟨_, held, by decide, by decide⟩
  have falls : FallsThrough unaryShortening unaryStore (bytes "https://b.example/") fun _ => none :=
    ⟨fun n low high => ⟨⟨_, candidate_unary _ (by omega) high, taken⟩, rfl⟩, rfl⟩
  constructor
  · obtain ⟨last, offer, -, ends⟩ := fallsThrough_exec (by decide) falls
    rw [candidate_unary _ (by decide) (by decide)] at offer
    cases offer
    exact ends
  · intro sound
    have kept := sound.kept _ _ held (by decide)
    rw [Function.update_self] at kept
    exact absurd (Option.some.inj kept) (by decide)

end UrlShortener
