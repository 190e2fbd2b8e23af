import UrlShortener.MakeUrl.Shorten

/-!
# Sequences of `do_shorten_url` calls

Calls are made one after another on a database nothing else writes to. The
invariant is `Settled`: a URL that was given a slug finds the slug at one of its
tries, and every earlier candidate is taken, which the later calls cannot undo.
-/

namespace UrlShortener
set_option autoImplicit false
open AtomicStore Transition

/-- The store after some calls, with what the calls were given and returned,
newest first. -/
structure CallHistory where
  store : UrlStore
  given : List (Bytes × Bytes)

def CallHistory.start : CallHistory := ⟨fun _ => none, []⟩

/-- One more call, without database errors. -/
def shortenNext (svc : UrlShorteningConfig) (h : CallHistory) (longUrl : Bytes) : Option CallHistory :=
  match (doShortenUrl svc longUrl).exec (fun _ => none) 0 h.store with
  | (.ok slug, s) => some ⟨s, (longUrl, slug) :: h.given⟩
  | (.error _, _) => none

/-- All tries of the call are used up. -/
def Exhausts (svc : UrlShorteningConfig) (s : UrlStore) (longUrl : Bytes) : Prop :=
  ∀ n, 2 ≤ n → n ≤ maxTries → CandidateTaken svc s longUrl n

/-- A call for a URL, not exhausting its tries. -/
def WithinTries (svc : UrlShorteningConfig) (h : CallHistory) (longUrl : Bytes) : Prop :=
  longUrl ≠ [] ∧ ¬ Exhausts svc h.store longUrl

/-- The URL holds the slug of one of its tries, and the earlier candidates are
taken. -/
def Settled (svc : UrlShorteningConfig) (s : UrlStore) (longUrl slug : Bytes) : Prop :=
  ∃ n, 2 ≤ n ∧ n ≤ maxTries ∧ (∀ m, 2 ≤ m → m < n → CandidateTaken svc s longUrl m) ∧
    svc.candidate longUrl n = .ok (true, slug) ∧ s slug = some longUrl

section

variable {svc : UrlShorteningConfig} {s s' : UrlStore} {longUrl slug : Bytes}

theorem Settled.keeps (nonempty : longUrl ≠ []) (h : Settled svc s longUrl slug) (kept : Keeps s s') :
    Settled svc s' longUrl slug := by
  obtain ⟨n, low, high, earlier, offer, held⟩ := h
  exact ⟨n, low, high, fun m hm hn => (earlier m hm hn).keeps kept, offer,
    kept slug longUrl held nonempty⟩

/-- A call for a settled URL finds its slug and writes nothing. -/
theorem Settled.exec (nonempty : longUrl ≠ []) (h : Settled svc s longUrl slug) :
    (doShortenUrl svc longUrl).exec (fun _ => none) 0 s = (.ok slug, s) := by
  obtain ⟨n, low, high, earlier, offer, held⟩ := h
  have untaken : ¬ CandidateTaken svc s longUrl n := by
    rintro ⟨c, offer', v, held', -, other⟩
    rw [offer] at offer'
    cases offer'
    exact other (Option.some.inj (held'.symm.trans held))
  rcases shorten_cases svc nonempty s (fun _ => none) with
    ⟨m, hm, -, before, ends⟩ | ⟨last, before, -, -⟩
  · have after : ¬ n < m := fun hlt => untaken (before n low hlt).1
    generalize (doShortenUrl svc longUrl).exec (fun _ => none) 0 s = r at ends
    obtain ⟨res, t⟩ := r
    rcases Nat.lt_or_ge m n with hlt | hge
    · -- the call cannot end at an earlier try, whose candidate is taken
      exact absurd ends (not_stops_of_taken (earlier m hm hlt) rfl)
    · have same : m = n := by omega
      subst same
      cases ends with
      | undefined h => rw [offer] at h; cases h
      | ranOut h => rw [offer] at h; cases h
      | readFailed _ failed => cases failed
      | present h =>
        rw [offer] at h
        cases h
        rfl
      | inserted h _ vacant =>
        rw [offer] at h
        cases h
        rcases vacant with h | h <;> rw [held] at h
        · cases h
        · exact absurd (Option.some.inj h) nonempty
  · exact absurd (before n low high).1 untaken

/-- A call that does not exhaust its tries keeps the store and settles its URL. -/
theorem shorten_settles (nonempty : longUrl ≠ []) (tries : ¬ Exhausts svc s longUrl)
    (completes : (doShortenUrl svc longUrl).exec (fun _ => none) 0 s = (.ok slug, s')) :
    Keeps s s' ∧ (slug ≠ [] → Settled svc s' longUrl slug) := by
  have ends := shorten_cases svc nonempty s (fun _ => none)
  simp only [completes] at ends
  rcases ends with ⟨n, low, high, earlier, ends⟩ | ⟨last, earlier, -, -⟩
  · cases ends with
    | ranOut => exact ⟨Keeps.refl s, fun h => absurd rfl h⟩
    | readFailed _ failed => cases failed
    | present offer _ held =>
      exact ⟨Keeps.refl s, fun _ => ⟨n, low, high, fun m hm hn => (earlier m hm hn).1, offer, held⟩⟩
    | inserted offer _ vacant ends =>
      cases ends
      have kept : Keeps s (Function.update s slug (some longUrl)) := keeps_update (.inl vacant)
      exact ⟨kept, fun _ => ⟨n, low, high, fun m hm hn => (earlier m hm hn).1.keeps kept, offer,
        Function.update_self ..⟩⟩
  · exact absurd (fun n low high => (earlier n low high).1) tries

end

/-- Every URL that was given a slug is settled. -/
def AllSettled (svc : UrlShorteningConfig) (h : CallHistory) : Prop :=
  ∀ longUrl slug, (longUrl, slug) ∈ h.given → slug ≠ [] →
    longUrl ≠ [] ∧ Settled svc h.store longUrl slug

theorem allSettled_next {svc : UrlShorteningConfig} {h h' : CallHistory} {longUrl : Bytes}
    (settled : AllSettled svc h) (within : WithinTries svc h longUrl)
    (called : shortenNext svc h longUrl = some h') : AllSettled svc h' := by
  simp only [shortenNext] at called
  split at called
  · rename_i slug s ends
    cases called
    obtain ⟨kept, fresh⟩ := shorten_settles within.1 within.2 ends
    intro u c member real
    rcases List.mem_cons.mp member with same | before
    · cases same
      exact ⟨within.1, fresh real⟩
    · obtain ⟨nonempty, old⟩ := settled u c before real
      exact ⟨nonempty, old.keeps nonempty kept⟩
  · cases called

theorem allSettled_run {svc : UrlShorteningConfig} {h : CallHistory}
    (run : Runs (shortenNext svc) (WithinTries svc) .start h) : AllSettled svc h := by
  refine run.invariant (AllSettled svc) ?_ fun a e b inv within called =>
    allSettled_next inv within called
  intro longUrl slug member
  cases member

/-- **Shortening is idempotent and injective.** After any sequence of calls none
of which exhausts its tries, a URL that was given a slug is given the same slug
again, the store staying as it is, and no slug was given to two URLs. -/
theorem shorten_idempotent_injective (svc : UrlShorteningConfig) (h : CallHistory)
    (run : Runs (shortenNext svc) (WithinTries svc) .start h) :
    (∀ longUrl slug, (longUrl, slug) ∈ h.given → slug ≠ [] →
      (doShortenUrl svc longUrl).exec (fun _ => none) 0 h.store = (.ok slug, h.store)) ∧
    (∀ longUrl longUrl' slug, (longUrl, slug) ∈ h.given → (longUrl', slug) ∈ h.given → slug ≠ [] →
      longUrl = longUrl') := by
  have settled := allSettled_run run
  constructor
  · intro longUrl slug member real
    obtain ⟨nonempty, found⟩ := settled longUrl slug member real
    exact found.exec nonempty
  · intro longUrl longUrl' slug member member' real
    obtain ⟨-, -, -, -, -, -, held⟩ := settled longUrl slug member real
    obtain ⟨-, -, -, -, -, -, held'⟩ := settled longUrl' slug member' real
    exact Option.some.inj (held.symm.trans held')

theorem withinTries_of_free {svc : UrlShorteningConfig} {h : CallHistory} {longUrl slug : Bytes}
    (nonempty : longUrl ≠ []) (offer : svc.candidate longUrl 2 = .ok (true, slug))
    (free : h.store slug = none) : WithinTries svc h longUrl := by
  refine ⟨nonempty, fun all => ?_⟩
  obtain ⟨c, offer', v, held, -, -⟩ := all 2 (by decide) (by decide)
  rw [offer] at offer'
  cases offer'
  rw [free] at held
  cases held

/-- The first URL shortened. -/
def oneCall : CallHistory where
  store := Function.update (fun _ => none) (bytes "C3Cs6Yf") (some (bytes "https://a.example/"))
  given := [(bytes "https://a.example/", bytes "C3Cs6Yf")]

/-- Both URLs shortened in turn. -/
def twoCalls : CallHistory where
  store := Function.update oneCall.store (bytes "1VdjYP8") (some (bytes "https://b.example/"))
  given := (bytes "https://b.example/", bytes "1VdjYP8") :: oneCall.given

theorem shorten_idempotent_injective_two :
    (∀ longUrl slug, (longUrl, slug) ∈ twoCalls.given → slug ≠ [] →
      (doShortenUrl (sampleShortening twoHashes) longUrl).exec (fun _ => none) 0 twoCalls.store =
        (.ok slug, twoCalls.store)) ∧
    (∀ longUrl longUrl' slug, (longUrl, slug) ∈ twoCalls.given → (longUrl', slug) ∈ twoCalls.given →
      slug ≠ [] → longUrl = longUrl') := by
  have first : WithinTries (sampleShortening twoHashes) .start (bytes "https://a.example/") :=
    withinTries_of_free (by decide) rfl rfl
  have second : WithinTries (sampleShortening twoHashes) oneCall (bytes "https://b.example/") :=
    withinTries_of_free (by decide) rfl rfl
  have one : Runs (shortenNext (sampleShortening twoHashes)) (WithinTries (sampleShortening twoHashes))
      .start oneCall := Runs.refl.snoc first rfl
  exact shorten_idempotent_injective _ twoCalls (one.snoc second rfl)

end UrlShortener
