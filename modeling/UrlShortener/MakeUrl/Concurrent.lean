import UrlShortener.MakeUrl.Shorten

/-!
# Concurrent `do_shorten_url` calls

Any number of calls share the database and take turns between their operations.
A call reads whether its slug is free and inserts it in a second step; when
another call inserts the same slug in between, the second insertion overwrites
the first (`concurrent_overwrites`). On a schedule where that does not happen
(`TakesTurns`) the check that the loop makes before every insertion still holds when the
insertion is made (`doShortenUrl_readsFirst`, `Pool.Heeded.step`), so the calls only
ever add to the store: `Keeps` is the rely of the rely-guarantee rule, and each call is
stable under it (`doShortenUrl_stable`). On any other schedule a returned slug can be
lost (`lost_of_intrusion`).
-/

namespace UrlShortener
set_option autoImplicit false
open AtomicStore Transition

/-- The database shared by the calls, and what is left of each call. -/
abbrev ShortenPool (ι : Type) := Pool ι Bytes Bytes RocksFailure (Except Undefined Bytes)

/-- All calls about to start. -/
def startCalls {ι : Type} (svc : UrlShorteningConfig) (urls : ι → Bytes) (s : UrlStore) :
    ShortenPool ι :=
  ⟨s, fun i => doShortenUrl svc (urls i)⟩

/-- Nothing, or only an empty value, is stored. -/
def FreeSlug (held : Option Bytes) : Prop := held = none ∨ held = some []

/-- The schedule lets no other call insert a slug, for another URL, between the read with which
a call has found the slug free and its insertion; and no call runs out of tries and inserts
a slug at which it has just read a URL. -/
abbrev TakesTurns {ι : Type} (c : ShortenPool ι) (e : ι × Option RocksFailure) : Prop :=
  Pool.TakesTurns FreeSlug c e

/-- A call that returned a slug finds the URL under it. -/
def Stored (longUrl : Bytes) (res : Except Undefined Bytes) (s : UrlStore) : Prop :=
  ∀ slug, res = .ok slug → slug ≠ [] → s slug = some longUrl

theorem stored_error {longUrl : Bytes} (s : UrlStore) (u : Undefined) :
    Stored longUrl (.error u) s := by
  intro slug h
  cases h

theorem stored_empty {longUrl : Bytes} (s : UrlStore) : Stored longUrl (.ok []) s := by
  intro slug h real
  cases h
  exact absurd rfl real

section

variable {longUrl : Bytes}

/-- What the store holds for the URL stays there. -/
theorem stored_keeps (nonempty : longUrl ≠ []) {s s' : UrlStore} {slug : Bytes}
    (held : s slug = some longUrl) (kept : Keeps s s') : Stored longUrl (.ok slug) s' := by
  intro c h _
  cases h
  exact kept slug longUrl held nonempty

theorem insertSlug_stable (nonempty : longUrl ≠ []) (slug : Bytes) (s : UrlStore) :
    (insertSlug slug longUrl).Stable Keeps (Stored longUrl) s := by
  intro s' _ fail _
  cases fail with
  | some e => exact fun t _ => stored_empty t
  | none => exact fun t kept => stored_keeps nonempty (Function.update_self ..) kept

/-- The loop is stable from every try on. -/
theorem shortenLoop_stable (svc : UrlShorteningConfig) (nonempty : longUrl ≠ []) (remaining : Nat) :
    ∀ (slug : Bytes) (s : UrlStore),
      (shortenLoop svc longUrl remaining slug).Stable Keeps (Stored longUrl) s := by
  induction remaining with
  | zero => exact fun slug s => insertSlug_stable nonempty slug s
  | succ remaining ih =>
    intro dst s
    have goes := shortenLoop_step svc longUrl remaining dst
    generalize shortenLoop svc longUrl (remaining + 1) dst = p at goes ⊢
    cases goes with
    | undefined => exact fun t _ => stored_error t _
    | ranOut => exact fun t _ => stored_empty t
    | @reads slug next _ round =>
      intro s' _ fail
      generalize reply : readReply fail s' slug = r
      have goes := round r
      generalize next r = p at goes ⊢
      cases goes with
      | failed => exact fun t _ => stored_empty t
      | vacant _ => exact insertSlug_stable nonempty slug s'
      | present =>
        cases fail with
        | some e => cases reply
        | none => exact fun t kept => stored_keeps nonempty (Except.ok.inj reply) kept
      | taken _ _ => exact ih slug s'

theorem doShortenUrl_stable (svc : UrlShorteningConfig) (nonempty : longUrl ≠ []) (s : UrlStore) :
    (doShortenUrl svc longUrl).Stable Keeps (Stored longUrl) s :=
  shortenLoop_stable svc nonempty _ _ s

end

/-- What is left of a call inserts its URL at most once, and then returns the slug. -/
def Inserts (longUrl : Bytes) : DbProg (Except Undefined Bytes) → Prop
  | .ret _ => True
  | .get _ next => ∀ r, Inserts longUrl (next r)
  | .put slug v next => v = longUrl ∧ next (.ok ()) = .ret (.ok slug) ∧ ∀ r, ∃ a, next r = .ret a

theorem shortenLoop_inserts (svc : UrlShorteningConfig) (longUrl : Bytes) (remaining : Nat) :
    ∀ slug : Bytes, Inserts longUrl (shortenLoop svc longUrl remaining slug) := by
  have once (slug : Bytes) : Inserts longUrl (insertSlug slug longUrl) := by
    refine ⟨rfl, rfl, fun r => ?_⟩
    cases r <;> exact ⟨_, rfl⟩
  induction remaining with
  | zero => exact fun slug => once slug
  | succ remaining ih =>
    intro dst
    have goes := shortenLoop_step svc longUrl remaining dst
    generalize shortenLoop svc longUrl (remaining + 1) dst = p at goes ⊢
    cases goes with
    | undefined | ranOut => trivial
    | @reads slug next _ round =>
      intro r
      have goes := round r
      generalize next r = p at goes ⊢
      cases goes with
      | failed | present => trivial
      | vacant _ => exact once slug
      | taken _ _ => exact ih slug

/-- In every run a call inserts its own URL. -/
theorem inserts_of_run {ι : Type} [DecidableEq ι] {svc : UrlShorteningConfig} {urls : ι → Bytes} {s : UrlStore}
    {c : ShortenPool ι} (run : Reachable Pool.step (startCalls svc urls s) c) (i : ι) :
    Inserts (urls i) (c.prog i) := by
  refine run.invariant (fun c => ∀ i, Inserts (urls i) (c.prog i))
    (fun i => shortenLoop_inserts svc (urls i) _ []) (fun a e b inserts _ moved j => ?_) i
  simp only [Pool.step] at moved
  split at moved
  · cases moved
  · rename_i p s' hop
    cases moved
    by_cases same : j = e.1
    · subst same
      simp only [Function.update_self]
      have before := inserts e.1
      cases call : a.prog e.1 with
      | ret _ =>
        rw [call] at hop
        cases hop
      | get k next =>
        rw [call] at hop before
        cases hop
        exact before _
      | put k v next =>
        rw [call] at hop before
        cases hop
        obtain ⟨res, last⟩ := before.2.2 (writeReply e.2)
        rw [last]
        trivial
    · simpa [same] using inserts j

/-- **A call that inserts what another is about to insert for another URL loses its slug.** The
first returns the slug, and the second overwrites it. -/
theorem lost_of_intrusion {ι : Type} [DecidableEq ι] {svc : UrlShorteningConfig} {urls : ι → Bytes} {s : UrlStore}
    {c : ShortenPool ι} (run : Reachable Pool.step (startCalls svc urls s) c) {i j : ι} {slug v w : Bytes}
    {next rest} (first : c.prog i = .put slug v next) (second : c.prog j = .put slug w rest) (other : w ≠ v) :
    ∃ c', replay Pool.step c [(i, none), (j, none)] = some c' ∧ c'.prog i = .ret (.ok slug) ∧
      c'.store slug = some (urls j) ∧ urls j ≠ urls i := by
  have mine := inserts_of_run run i
  have theirs := inserts_of_run run j
  rw [first] at mine
  rw [second] at theirs
  obtain ⟨rfl, returns, -⟩ := mine
  obtain ⟨rfl, -, -⟩ := theirs
  have apart : j ≠ i := by
    rintro rfl
    exact other rfl
  let written : UrlStore := Function.update (Function.update c.store slug (some (urls i))) slug (some (urls j))
  refine ⟨⟨written, Function.update (Function.update c.prog i (.ret (.ok slug))) j (rest (.ok ()))⟩,
    ?_, ?_, ?_, other⟩
  · simp [written, replay, Pool.step, first, second, Prog.step, apart, returns]
  · simp [Ne.symm apart]
  · exact Function.update_self ..

end UrlShortener
