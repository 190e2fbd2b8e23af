import UrlShortener.MakeUrl.Shorten

/-!
# Which candidate `do_shorten_url` returns

The loop counts its try before it uses it, so candidate 1 is never looked at and the
first candidate that is not taken is looked for from candidate 2 on
(`shorten_at_least`). With every candidate from 1 on to be tried, the result is
therefore the right one exactly where candidate 1 is not usable, or the first usable
candidate after it is the same slug (`triesFromFirst_iff`).
-/

namespace UrlShortener
set_option autoImplicit false
open AtomicStore

/-! ## `generate_slug` never returns `false` -/

/-- The guard is never met: at its index 4 there is no word to come to it with. -/
theorem next_ne_false {n : Nat} {s s' : SlugState} : s.next n ≠ .ok (false, s') := by
  intro h
  simp only [SlugState.next, bind, Except.bind] at h
  split at h
  · cases h
  · rename_i w word
    have inside : s.resultIdx < 4 := by
      by_contra outside
      have past : s.result[s.resultIdx]? = none := Vector.getElem?_eq_none (by omega)
      rw [SlugState.word, past] at word
      cases word
    split at h
    · rw [if_neg (by omega)] at h
      split at h <;> cases h
    · split at h <;> cases h

theorem slugChars_ne_false {n count : Nat} {s s' : SlugState} : slugChars n count s ≠ .ok (false, s') := by
  induction count generalizing s with
  | zero =>
    intro h
    cases h
  | succ count ih =>
    intro h
    simp only [slugChars] at h
    split at h
    · exact ih h
    · exact next_ne_false h

theorem slugTries_ne_false {n len tries : Nat} {s s' : SlugState} :
    slugTries n len tries s ≠ .ok (false, s') := by
  induction tries generalizing s with
  | zero =>
    intro h
    cases h
  | succ tries ih =>
    intro h
    simp only [slugTries] at h
    split at h
    · exact ih h
    · exact slugChars_ne_false h

theorem candidate_ne_false {svc : UrlShorteningConfig} {longUrl dst : Bytes} {n : Nat} :
    svc.candidate longUrl n ≠ .ok (false, dst) := by
  intro h
  simp only [UrlShorteningConfig.candidate, UrlShorteningConfig.generateSlug] at h
  cases tries : slugTries svc.alphabet.length svc.slugLength.toNat (UInt8.ofNat n).toNat
      ⟨svc.highwayHash longUrl, 0, []⟩ with
  | error u =>
    rw [tries] at h
    cases h
  | ok r =>
    obtain ⟨done, s⟩ := r
    rw [tries] at h
    cases h
    exact slugTries_ne_false tries

/-! ## The first candidate that is not taken -/

/-- The slug is absent, stands for the empty string, or already for the URL. -/
def Free (s : UrlStore) (longUrl slug : Bytes) : Prop := Vacant s slug ∨ s slug = some longUrl

section

variable {svc : UrlShorteningConfig} {longUrl slug : Bytes} {s : UrlStore}

theorem not_free_of_taken (taken : Taken s longUrl slug) : ¬ Free s longUrl slug := by
  rintro (vacant | same)
  · exact not_vacant_of_taken taken vacant
  · obtain ⟨v, held, -, other⟩ := taken
    exact other (Option.some.inj (held.symm.trans same))

theorem taken_of_not_free (occupied : ¬ Free s longUrl slug) : Taken s longUrl slug := by
  cases held : s slug with
  | none => exact absurd (.inl (.inl held)) occupied
  | some v =>
    refine ⟨v, held, ?_, ?_⟩
    · rintro rfl
      exact occupied (.inl (.inr held))
    · rintro rfl
      exact occupied (.inr held)

/-- Without database errors a call returns the first candidate from 2 on that is not
taken. -/
theorem shorten_at_least (nonempty : longUrl ≠ []) {k : Nat} (low : 2 ≤ k) (high : k ≤ maxTries)
    (before : ∀ m, 2 ≤ m → m < k → CandidateTaken svc s longUrl m)
    (offer : svc.candidate longUrl k = .ok (true, slug)) (free : Free s longUrl slug) :
    ((doShortenUrl svc longUrl).exec (fun _ => none) 0 s).1 = .ok slug := by
  have usable : ¬ CandidateTaken svc s longUrl k := by
    rintro ⟨other, offered, taken⟩
    rw [offer] at offered
    cases offered
    exact not_free_of_taken taken free
  rcases shorten_cases svc nonempty s fun _ => none with ⟨n, low', high', earlier, ends⟩ | ⟨last, all, -, -⟩
  · have here : n = k := by
      rcases Nat.lt_trichotomy n k with less | same | more
      · exact absurd ends (not_stops_of_taken (before n low' less) rfl)
      · exact same
      · exact absurd (earlier k low more).1 usable
    subst here
    generalize (doShortenUrl svc longUrl).exec (fun _ => none) 0 s = r at ends
    obtain ⟨res, s'⟩ := r
    simp only at ends ⊢
    cases ends with
    | undefined h | ranOut h =>
      rw [offer] at h
      cases h
    | readFailed _ failed => cases failed
    | present h _ _ =>
      rw [offer] at h
      cases h
      rfl
    | inserted h _ _ done =>
      rw [offer] at h
      cases h
      cases done
      rfl
  · exact absurd (all k low high).1 usable

/-- What a call returns without database errors is a candidate. -/
theorem shorten_ok_cases (nonempty : longUrl ≠ [])
    (returned : ((doShortenUrl svc longUrl).exec (fun _ => none) 0 s).1 = .ok slug) :
    (∃ n, 2 ≤ n ∧ n ≤ maxTries ∧ (∀ m, 2 ≤ m → m < n → CandidateTaken svc s longUrl m) ∧
      svc.candidate longUrl n = .ok (true, slug)) ∨ Taken s longUrl slug := by
  rcases shorten_cases svc nonempty s fun _ => none with
    ⟨n, low, high, earlier, ends⟩ | ⟨last, all, offer, done⟩
  · refine .inl ⟨n, low, high, fun m low' less => (earlier m low' less).1, ?_⟩
    generalize (doShortenUrl svc longUrl).exec (fun _ => none) 0 s = r at ends returned
    obtain ⟨res, s'⟩ := r
    simp only at ends returned
    cases ends with
    | undefined _ => cases returned
    | ranOut h => exact absurd h candidate_ne_false
    | readFailed _ failed => cases failed
    | present h _ _ =>
      cases returned
      exact h
    | inserted h _ _ done =>
      cases done
      cases returned
      exact h
  · obtain ⟨last', offer', taken⟩ := (all maxTries (by decide) (Nat.le_refl _)).1
    rw [offer] at offer'
    cases offer'
    generalize (doShortenUrl svc longUrl).exec (fun _ => none) 0 s = r at done returned
    obtain ⟨res, s'⟩ := r
    simp only at done returned
    cases done
    cases returned
    exact .inr taken

end

/-! ## From the first candidate on -/

/-- Candidate `n` and all before it are generated, and it is free with slug `slug`. -/
def UsableAt (svc : UrlShorteningConfig) (s : UrlStore) (longUrl : Bytes) (n : Nat) (slug : Bytes) : Prop :=
  (∀ m, 1 ≤ m → m ≤ n → ∃ c, svc.candidate longUrl m = .ok (true, c)) ∧
    svc.candidate longUrl n = .ok (true, slug) ∧ Free s longUrl slug

/-- The call returns the first of the candidates 1 to 99 that is usable, if there is
one. -/
def TriesFromFirst (svc : UrlShorteningConfig) (s : UrlStore) (longUrl : Bytes) : Prop :=
  ∀ k slug, 1 ≤ k → k ≤ 99 → UsableAt svc s longUrl k slug →
    (∀ m c, 1 ≤ m → m < k → ¬ UsableAt svc s longUrl m c) →
    ((doShortenUrl svc longUrl).exec (fun _ => none) 0 s).1 = .ok slug

/-- **A call returns the first usable candidate exactly where that is not candidate 1,
or where the first untaken candidate after it is the same slug.** -/
theorem triesFromFirst_iff (svc : UrlShorteningConfig) (s : UrlStore) (longUrl : Bytes)
    (nonempty : longUrl ≠ []) :
    TriesFromFirst svc s longUrl ↔ ∀ slug, UsableAt svc s longUrl 1 slug →
      ∃ n, 2 ≤ n ∧ n ≤ maxTries ∧ (∀ m, 2 ≤ m → m < n → CandidateTaken svc s longUrl m) ∧
        svc.candidate longUrl n = .ok (true, slug) := by
  constructor
  · intro tries slug usable
    have returned := tries 1 slug (Nat.le_refl 1) (by decide) usable (fun m c low less => by omega)
    rcases shorten_ok_cases nonempty returned with later | taken
    · exact later
    · exact absurd usable.2.2 (not_free_of_taken taken)
  · intro again k slug low high usable least
    rcases Nat.lt_or_ge 1 k with later | first
    · have taken : ∀ m, 2 ≤ m → m < k → CandidateTaken svc s longUrl m := by
        intro m low' less
        obtain ⟨c, offer⟩ := usable.1 m (by omega) (by omega)
        refine ⟨c, offer, taken_of_not_free fun free => ?_⟩
        exact least m c (by omega) less ⟨fun i low'' le => usable.1 i low'' (by omega), offer, free⟩
      exact shorten_at_least nonempty later (Nat.le_trans high (by decide)) taken usable.2.1 usable.2.2
    · obtain rfl : k = 1 := by omega
      obtain ⟨n, low', high', taken, offer⟩ := again slug usable
      exact shorten_at_least nonempty low' high' taken offer usable.2.2

/-- A store whose only slug is the first candidate of `https://a.example/`. -/
def firstTaken : UrlStore := fun slug =>
  if slug = bytes "YP8c7qP" then some (bytes "https://b.example/") else none

theorem tries_past_first_taken :
    TriesFromFirst (sampleShortening twoHashes) firstTaken (bytes "https://a.example/") := by
  refine (triesFromFirst_iff (sampleShortening twoHashes) firstTaken (bytes "https://a.example/")
    (by decide)).mpr ?_
  rintro slug ⟨-, offer, free⟩
  obtain rfl : bytes "YP8c7qP" = slug := by
    have first : (sampleShortening twoHashes).candidate (bytes "https://a.example/") 1 =
        .ok (true, bytes "YP8c7qP") := by rfl
    rw [first] at offer
    cases offer
    rfl
  exact absurd free (not_free_of_taken ⟨bytes "https://b.example/", by decide, by decide, by decide⟩)

/-- On an empty store the call returns the second candidate. -/
theorem first_candidate_skipped :
    (sampleShortening twoHashes).candidate (bytes "https://a.example/") 1 = .ok (true, bytes "YP8c7qP") ∧
    ((doShortenUrl (sampleShortening twoHashes) (bytes "https://a.example/")).exec (fun _ => none) 0
      fun _ => none).1 = .ok (bytes "C3Cs6Yf") ∧
    ¬ TriesFromFirst (sampleShortening twoHashes) (fun _ => none) (bytes "https://a.example/") := by
  have first : (sampleShortening twoHashes).candidate (bytes "https://a.example/") 1 =
      .ok (true, bytes "YP8c7qP") := by rfl
  have returned : ((doShortenUrl (sampleShortening twoHashes) (bytes "https://a.example/")).exec
      (fun _ => none) 0 fun _ => none).1 = .ok (bytes "C3Cs6Yf") := by rfl
  refine ⟨first, returned, fun tries => ?_⟩
  have usable : UsableAt (sampleShortening twoHashes) (fun _ => none) (bytes "https://a.example/") 1
      (bytes "YP8c7qP") := by
    refine ⟨fun m low high => ⟨bytes "YP8c7qP", ?_⟩, first, .inl (.inl rfl)⟩
    obtain rfl : m = 1 := by omega
    exact first
  have asked := tries 1 _ (Nat.le_refl 1) (by decide) usable fun m c low less => by omega
  exact absurd (Except.ok.inj (returned.symm.trans asked)) (by decide)

end UrlShortener
