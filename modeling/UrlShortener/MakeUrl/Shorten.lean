import UrlShortener.Db
import UrlShortener.UrlShortening

/-!
# `MakeUrlRequestHandler::do_shorten_url`

The function tries the slugs the generator offers until one is free or already
maps to the URL, then inserts it. `shorten_cases` says everything one call run
alone can do: it stops at some try, all earlier candidates being `Taken`, or it
finds every candidate taken and falls through to the insertion. The results on
the store (`MakeUrl/Frame.lean`, `MakeUrl/Runs.lean`) are case analyses of it.
-/

namespace UrlShortener
set_option autoImplicit false
open AtomicStore

/-- `max_tries`. -/
def maxTries : Nat := 100

/-- The `put` at the end and the returns after it. -/
def insertSlug (slug longUrl : Bytes) : DbProg (Except Undefined Bytes) := do
  match ← ShortenedUrlsDatabase.put slug longUrl with
  | some _ => return .ok []
  | none => return .ok slug

/-- The `while (nth_try++ < max_tries)` loop entered with
`nth_try = max_tries - remaining`, and what follows it. The body sees `nth_try`
already incremented. -/
def shortenLoop (svc : UrlShorteningConfig) (longUrl : Bytes) :
    Nat → Bytes → DbProg (Except Undefined Bytes)
  | 0, slug => insertSlug slug longUrl
  | remaining + 1, slug =>
    match svc.generateSlug slug longUrl (UInt8.ofNat (maxTries - remaining)) with
    | .error u => return .error u
    | .ok (false, _) => return .ok []
    | .ok (true, slug) => do
      match ← ShortenedUrlsDatabase.get slug with
      | .error .notFound => insertSlug slug longUrl
      | .error _ => return .ok []
      | .ok got =>
        if got = [] then insertSlug slug longUrl
        else if got = longUrl then return .ok slug
        else shortenLoop svc longUrl remaining slug

/-- `do_shorten_url`, entered with `nth_try = 1`. -/
def doShortenUrl (svc : UrlShorteningConfig) (longUrl : Bytes) : DbProg (Except Undefined Bytes) :=
  shortenLoop svc longUrl (maxTries - 1) []

/-- The sample configuration's alphabet and slug length, with hash values `hash`. -/
def sampleShortening (hash : Bytes → HHResult256) : UrlShorteningConfig := ⟨7, alphabet, hash⟩

/-- Two URLs with different hashes. -/
def twoHashes (longUrl : Bytes) : HHResult256 :=
  if longUrl = bytes "https://a.example/" then #v[0x0123456789abcdef, 0xfedcba9876543210, 3, 5]
  else #v[0xfedcba9876543210, 0x0123456789abcdef, 7, 11]

/-- What `generate_slug` offers at try `n`. -/
def UrlShorteningConfig.candidate (svc : UrlShorteningConfig) (longUrl : Bytes) (n : Nat) :
    Except Undefined (Bool × Bytes) :=
  svc.generateSlug [] longUrl (UInt8.ofNat n)

/-- Another URL holds the slug. -/
def Taken (s : UrlStore) (longUrl slug : Bytes) : Prop :=
  ∃ v, s slug = some v ∧ v ≠ [] ∧ v ≠ longUrl

/-- Nothing but perhaps an empty value is stored under the slug. -/
def Vacant (s : UrlStore) (slug : Bytes) : Prop := s slug = none ∨ s slug = some []

/-- The candidate of try `n` is generated and taken. -/
def CandidateTaken (svc : UrlShorteningConfig) (s : UrlStore) (longUrl : Bytes) (n : Nat) : Prop :=
  ∃ slug, svc.candidate longUrl n = .ok (true, slug) ∧ Taken s longUrl slug

theorem not_vacant_of_taken {s : UrlStore} {longUrl slug : Bytes} (taken : Taken s longUrl slug) :
    ¬ Vacant s slug := by
  obtain ⟨v, held, nonempty, -⟩ := taken
  rintro (h | h) <;> rw [held] at h
  · cases h
  · exact nonempty (Option.some.inj h)

/-- Every stored URL is still there. -/
def Keeps (s s' : UrlStore) : Prop := ∀ k v, s k = some v → v ≠ [] → s' k = some v

theorem Keeps.refl (s : UrlStore) : Keeps s s := fun _ _ held _ => held

theorem Keeps.trans (a b c : UrlStore) (first : Keeps a b) (second : Keeps b c) : Keeps a c :=
  fun k v held real => second k v (first k v held real) real

/-- Writing to a vacant slug keeps the stored URLs, and so does writing what is
there. -/
theorem keeps_update {s : UrlStore} {slug longUrl : Bytes}
    (free : Vacant s slug ∨ s slug = some longUrl) :
    Keeps s (Function.update s slug (some longUrl)) := by
  intro k v held real
  by_cases same : k = slug
  · subst same
    rw [Function.update_self]
    rcases free with (h | h) | h <;> rw [held] at h
    · cases h
    · exact absurd (Option.some.inj h) real
    · exact h.symm
  · rw [Function.update_of_ne same, held]

/-- A taken candidate stays taken. -/
theorem CandidateTaken.keeps {svc : UrlShorteningConfig} {s s' : UrlStore} {longUrl : Bytes} {n : Nat}
    (h : CandidateTaken svc s longUrl n) (kept : Keeps s s') : CandidateTaken svc s' longUrl n := by
  obtain ⟨slug, offer, v, held, real, other⟩ := h
  exact ⟨slug, offer, v, kept slug v held real, real, other⟩

section Candidate

variable {svc : UrlShorteningConfig} {longUrl slug : Bytes} {n : Nat}

theorem tryNumber_toNat (small : n ≤ maxTries) : (UInt8.ofNat n).toNat = n := by
  have : n ≤ 100 := small
  rw [UInt8.toNat_ofNat']
  omega

/-- A candidate does not depend on the slug generated before it. -/
theorem generateSlug_eq_candidate (dst : Bytes) (positive : 0 < n) (small : n ≤ maxTries) :
    svc.generateSlug dst longUrl (UInt8.ofNat n) = svc.candidate longUrl n :=
  generateSlug_dst_irrelevant svc dst longUrl (by rw [tryNumber_toNat small]; exact positive)

theorem candidate_slug (positive : 0 < n) (small : n ≤ maxTries)
    (h : svc.candidate longUrl n = .ok (true, slug)) :
    slug.length = svc.slugLength.toNat ∧ ∀ c ∈ slug, c ∈ alphabet :=
  generateSlug_slug (by rw [tryNumber_toNat small]; exact positive) h

end Candidate

/-! ## A round of the loop -/

/-- What a round makes of the reply to its read of `slug`. -/
inductive LoopRound (svc : UrlShorteningConfig) (longUrl : Bytes) (remaining : Nat) (slug : Bytes) :
    Except RocksFailure (Option Bytes) → DbProg (Except Undefined Bytes) → Prop where
  | failed {e : RocksFailure} : LoopRound svc longUrl remaining slug (.error e) (.ret (.ok []))
  | vacant {found : Option Bytes} : found = none ∨ found = some [] →
      LoopRound svc longUrl remaining slug (.ok found) (insertSlug slug longUrl)
  | present : LoopRound svc longUrl remaining slug (.ok (some longUrl)) (.ret (.ok slug))
  | taken {got : Bytes} : got ≠ [] → got ≠ longUrl →
      LoopRound svc longUrl remaining slug (.ok (some got)) (shortenLoop svc longUrl remaining slug)

/-- A round ends the call without a slug, or reads the slug it has generated. -/
inductive LoopStep (svc : UrlShorteningConfig) (longUrl : Bytes) (remaining : Nat) (dst : Bytes) :
    DbProg (Except Undefined Bytes) → Prop where
  | undefined {u : Undefined} : LoopStep svc longUrl remaining dst (.ret (.error u))
  | ranOut : LoopStep svc longUrl remaining dst (.ret (.ok []))
  | reads {slug : Bytes} {next} :
      svc.generateSlug dst longUrl (UInt8.ofNat (maxTries - remaining)) = .ok (true, slug) →
      (∀ r, LoopRound svc longUrl remaining slug r (next r)) → LoopStep svc longUrl remaining dst (.get slug next)

/-- **Everything one round can do.** -/
theorem shortenLoop_step (svc : UrlShorteningConfig) (longUrl : Bytes) (remaining : Nat) (dst : Bytes) :
    LoopStep svc longUrl remaining dst (shortenLoop svc longUrl (remaining + 1) dst) := by
  rw [shortenLoop]
  split
  · exact .undefined
  · exact .ranOut
  · rename_i slug offer
    refine .reads offer fun r => ?_
    rcases r with failure | _ | got
    · cases failure <;> exact .failed
    · exact .vacant (.inl rfl)
    · change LoopRound svc longUrl remaining slug _ (if got = [] then insertSlug slug longUrl
        else if got = longUrl then .ret (.ok slug) else shortenLoop svc longUrl remaining slug)
      split
      · rename_i empty
        exact .vacant (.inr (congrArg some empty))
      · rename_i real
        split
        · rename_i same
          subst same
          exact .present
        · rename_i other
          exact .taken real other

/-! ## One call run alone -/

/-- What the insertion of `slug` as `i`-th operation does. -/
inductive Inserted (s : UrlStore) (longUrl slug : Bytes) :
    Option RocksFailure → Except Undefined Bytes → UrlStore → Prop where
  | failed (e : RocksFailure) : Inserted s longUrl slug (some e) (.ok []) s
  | written : Inserted s longUrl slug none (.ok slug) (Function.update s slug (some longUrl))

/-- How a call ends at try `n`, whose read is the `i`-th operation. -/
inductive Stops (svc : UrlShorteningConfig) (s : UrlStore) (longUrl : Bytes)
    (fail : Nat → Option RocksFailure) (n i : Nat) : Except Undefined Bytes → UrlStore → Prop where
  | undefined {u : Undefined} : svc.candidate longUrl n = .error u →
      Stops svc s longUrl fail n i (.error u) s
  | ranOut {dst : Bytes} : svc.candidate longUrl n = .ok (false, dst) →
      Stops svc s longUrl fail n i (.ok []) s
  | readFailed {slug : Bytes} {e : RocksFailure} : svc.candidate longUrl n = .ok (true, slug) →
      fail i = some e → Stops svc s longUrl fail n i (.ok []) s
  | present {slug : Bytes} : svc.candidate longUrl n = .ok (true, slug) → fail i = none →
      s slug = some longUrl → Stops svc s longUrl fail n i (.ok slug) s
  | inserted {slug : Bytes} {res : Except Undefined Bytes} {s' : UrlStore} :
      svc.candidate longUrl n = .ok (true, slug) → fail i = none → Vacant s slug →
      Inserted s longUrl slug (fail (i + 1)) res s' → Stops svc s longUrl fail n i res s'

/-- A call does not stop at a try whose candidate is taken. -/
theorem not_stops_of_taken {svc : UrlShorteningConfig} {s s' : UrlStore} {longUrl : Bytes}
    {fail : Nat → Option RocksFailure} {n i : Nat} {res : Except Undefined Bytes}
    (taken : CandidateTaken svc s longUrl n) (sound : fail i = none) : ¬ Stops svc s longUrl fail n i res s' := by
  obtain ⟨c, offer, held⟩ := taken
  intro ends
  cases ends with
  | undefined h => rw [offer] at h; cases h
  | ranOut h => rw [offer] at h; cases h
  | readFailed h failed => rw [sound] at failed; cases failed
  | present h _ present =>
    rw [offer] at h
    cases h
    obtain ⟨v, hv, -, other⟩ := held
    exact other (Option.some.inj (hv.symm.trans present))
  | inserted h _ vacant =>
    rw [offer] at h
    cases h
    exact not_vacant_of_taken held vacant

theorem insertSlug_exec (s : UrlStore) (longUrl slug : Bytes) (fail : Nat → Option RocksFailure)
    (i : Nat) : Inserted s longUrl slug (fail i) ((insertSlug slug longUrl).exec fail i s).1
      ((insertSlug slug longUrl).exec fail i s).2 := by
  unfold insertSlug ShortenedUrlsDatabase.put
  cases hf : fail i with
  | none => simpa [hf] using Inserted.written
  | some e => simpa [hf] using Inserted.failed e

/-- One round of the loop: the call ends at try `n`, or the candidate is taken and
the loop goes on with it. -/
theorem shortenLoop_round {svc : UrlShorteningConfig} {longUrl : Bytes} (nonempty : longUrl ≠ [])
    (s : UrlStore) (fail : Nat → Option RocksFailure) {remaining n i : Nat} (slug : Bytes)
    (low : 2 ≤ n) (count : n + remaining = maxTries) :
    let r := (shortenLoop svc longUrl (remaining + 1) slug).exec fail i s
    Stops svc s longUrl fail n i r.1 r.2 ∨
      ∃ slug', svc.candidate longUrl n = .ok (true, slug') ∧ Taken s longUrl slug' ∧ fail i = none ∧
        r = (shortenLoop svc longUrl remaining slug').exec fail (i + 1) s := by
  have number : maxTries - remaining = n := by omega
  have offered : svc.generateSlug slug longUrl (UInt8.ofNat n) = svc.candidate longUrl n :=
    generateSlug_eq_candidate slug (by omega) (by omega)
  simp only [shortenLoop, number, offered]
  cases offer : svc.candidate longUrl n with
  | error u => exact .inl (.undefined offer)
  | ok offered =>
    obtain ⟨done, slug'⟩ := offered
    cases done with
    | false => exact .inl (.ranOut offer)
    | true =>
      simp only [ShortenedUrlsDatabase.get, get_bind, exec_get]
      cases failure : fail i with
      | some e => cases e <;> exact .inl (.readFailed offer failure)
      | none =>
        simp only [readReply_none]
        cases held : s slug' with
        | none => exact .inl (.inserted offer failure (.inl held) (insertSlug_exec ..))
        | some got =>
          simp only [ret_bind]
          by_cases empty : got = []
          · subst empty
            exact .inl (.inserted offer failure (.inr held) (insertSlug_exec ..))
          · by_cases same : got = longUrl
            · subst same
              simp only [if_neg nonempty, if_true]
              exact .inl (.present offer failure held)
            · simp only [if_neg empty, if_neg same]
              exact .inr ⟨slug', rfl, ⟨got, held, empty, same⟩, trivial, rfl⟩

/-- The loop from try `n` on, `remaining` tries left and the read of try `n` being
the `i`-th operation. -/
theorem shortenLoop_cases {svc : UrlShorteningConfig} {longUrl : Bytes} (nonempty : longUrl ≠ [])
    (s : UrlStore) (fail : Nat → Option RocksFailure) {remaining : Nat} :
    ∀ {n i : Nat} {slug : Bytes}, 2 ≤ n → n + remaining = maxTries + 1 →
      (remaining = 0 → svc.candidate longUrl maxTries = .ok (true, slug)) →
      let r := (shortenLoop svc longUrl remaining slug).exec fail i s
      (∃ k < remaining, (∀ j < k, CandidateTaken svc s longUrl (n + j) ∧ fail (i + j) = none) ∧
        Stops svc s longUrl fail (n + k) (i + k) r.1 r.2) ∨
      (∃ last, (∀ j < remaining, CandidateTaken svc s longUrl (n + j) ∧ fail (i + j) = none) ∧
        svc.candidate longUrl maxTries = .ok (true, last) ∧
        Inserted s longUrl last (fail (i + remaining)) r.1 r.2) := by
  induction remaining with
  | zero =>
    intro n i slug _ _ last
    exact .inr ⟨slug, by simp, last rfl, insertSlug_exec s longUrl slug fail i⟩
  | succ remaining ih =>
    intro n i slug low count _ r
    rcases shortenLoop_round (i := i) nonempty s fail slug low (by omega : n + remaining = maxTries) with
      ends | ⟨slug', offer, taken, sound, goes⟩
    · exact .inl ⟨0, by omega, by simp, ends⟩
    · have extend {k : Nat} (earlier : ∀ j < k,
          CandidateTaken svc s longUrl (n + 1 + j) ∧ fail (i + 1 + j) = none) :
          ∀ j < k + 1, CandidateTaken svc s longUrl (n + j) ∧ fail (i + j) = none := by
        intro j hj
        cases j with
        | zero => exact ⟨⟨slug', offer, taken⟩, sound⟩
        | succ j =>
          have := earlier j (by omega)
          rwa [show n + 1 + j = n + (j + 1) by omega, show i + 1 + j = i + (j + 1) by omega] at this
      have last : remaining = 0 → svc.candidate longUrl maxTries = .ok (true, slug') := by
        intro none
        rw [← offer, show maxTries = n by omega]
      simp only [r, goes]
      rcases ih (n := n + 1) (i := i + 1) (by omega) (by omega) last with
        ⟨k, hk, earlier, ends⟩ | ⟨final, earlier, offered, ends⟩
      · refine .inl ⟨k + 1, by omega, extend earlier, ?_⟩
        rwa [show n + 1 + k = n + (k + 1) by omega, show i + 1 + k = i + (k + 1) by omega] at ends
      · refine .inr ⟨final, extend earlier, offered, ?_⟩
        rwa [show i + 1 + remaining = i + (remaining + 1) by omega] at ends

/-- **Everything a call can do.** It stops at some try `n`, the candidates of the
earlier tries being taken; or all 99 candidates are taken and the last one is
inserted over what it holds. Try `n` reads as operation `n - 2`. -/
theorem shorten_cases (svc : UrlShorteningConfig) {longUrl : Bytes} (nonempty : longUrl ≠ [])
    (s : UrlStore) (fail : Nat → Option RocksFailure) :
    let r := (doShortenUrl svc longUrl).exec fail 0 s
    (∃ n, 2 ≤ n ∧ n ≤ maxTries ∧
      (∀ m, 2 ≤ m → m < n → CandidateTaken svc s longUrl m ∧ fail (m - 2) = none) ∧
      Stops svc s longUrl fail n (n - 2) r.1 r.2) ∨
    (∃ last, (∀ m, 2 ≤ m → m ≤ maxTries → CandidateTaken svc s longUrl m ∧ fail (m - 2) = none) ∧
      svc.candidate longUrl maxTries = .ok (true, last) ∧
      Inserted s longUrl last (fail (maxTries - 1)) r.1 r.2) := by
  have start : 2 + (maxTries - 1) = maxTries + 1 := rfl
  have shift {k : Nat} (earlier : ∀ j < k, CandidateTaken svc s longUrl (2 + j) ∧ fail (0 + j) = none) :
      ∀ m, 2 ≤ m → m < 2 + k → CandidateTaken svc s longUrl m ∧ fail (m - 2) = none := by
    intro m low high
    have := earlier (m - 2) (by omega)
    rwa [show 2 + (m - 2) = m by omega, show 0 + (m - 2) = m - 2 by omega] at this
  have first : maxTries - 1 = 0 → svc.candidate longUrl maxTries = .ok (true, []) := by
    intro none
    cases none
  rcases @shortenLoop_cases svc longUrl nonempty s fail _ 2 0 [] (Nat.le_refl 2) start first with
    ⟨k, hk, earlier, ends⟩ | ⟨last, earlier, offered, ends⟩
  · refine .inl ⟨2 + k, by omega, by omega, shift earlier, ?_⟩
    rwa [show 2 + k - 2 = 0 + k by omega]
  · refine .inr ⟨last, fun m low high => shift earlier m low (by omega), offered, ?_⟩
    rwa [show maxTries - 1 = 0 + (maxTries - 1) by omega]

end UrlShortener
