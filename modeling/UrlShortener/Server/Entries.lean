import Mathlib.Data.Finset.Card
import UrlShortener.Server.Provenance

/-!
# Who fills the database

A create request writes at most one entry, and it is let through with one charge. Every
transaction behind which a charge stands is counted by `Accounted`, so the entries that a run
adds can be handed out to distinct transactions, and an address owns at most as many of them
as requests were let through for it (`entries_accounted`).
-/

namespace UrlShortener
set_option autoImplicit false
open AtomicStore Transition

/-- The transaction was let through and charged to the address. -/
def Transaction.PassedFor {IP : Type} (t : Transaction IP) (ip : IP) : Prop :=
  t.filter = none ∧ t.charged = some ip

/-- A request that is let through for an address is charged to it as passed. -/
theorem accept_passedFor {IP : Type} {msg : HTTPMessage IP} {r : FilterResult IP RequestHandler} {ip : IP}
    (passed : (Transaction.accept msg r).PassedFor ip) :
    r.handler.isPassed = true ∧ ∃ rest, r.logged = ip :: rest := by
  obtain ⟨unfiltered, charged⟩ := passed
  unfold Transaction.accept at unfiltered charged
  split at unfiltered
  · rename_i handler verdict
    rw [verdict] at charged ⊢
    exact ⟨rfl, List.head?_eq_some_iff.mp charged⟩
  · cases unfiltered

/-- A handler that writes at most once has written one entry. -/
theorem wrote_once {log : List LogEntry} (once : puts log ≤ 1) {slug slug' longUrl longUrl' : Bytes}
    {failure failure' : Option RocksFailure} (first : Did log (.put slug longUrl failure))
    (second : Did log (.put slug' longUrl' failure')) : slug = slug' := by
  obtain ⟨freed, mem⟩ := first
  obtain ⟨freed', mem'⟩ := second
  have kept : ⟨freed, .put slug longUrl failure⟩ ∈ log.filter (·.action.isPut) := List.mem_filter.mpr ⟨mem, rfl⟩
  have kept' : ⟨freed', .put slug' longUrl' failure'⟩ ∈ log.filter (·.action.isPut) := List.mem_filter.mpr ⟨mem', rfl⟩
  rw [puts, List.countP_eq_length_filter] at once
  generalize log.filter (·.action.isPut) = writes at once kept kept'
  match writes, once with
  | [], _ => cases kept
  | [e], _ =>
    have same := (List.mem_singleton.mp kept).trans (List.mem_singleton.mp kept').symm
    cases same
    rfl
  | e :: e' :: rest, once =>
    simp only [List.length_cons] at once
    omega

namespace Server

variable {ι IP : Type} [DecidableEq ι] [DecidableEq IP] [IPAddress IP] {setup : ServerSetup IP}
  {s s' : Server ι IP} {e : ServerEvent ι IP}

omit [DecidableEq ι] [IPAddress IP] in
/-- However many transactions were let through for an address, so many charges of it passed. -/
def Accounted (s : Server ι IP) : Prop :=
  ∀ ip (J : Finset ι), (∀ j ∈ J, ∃ t, s.transactions j = some t ∧ t.PassedFor ip) →
    J.card ≤ passedFor s.limiter.charges ip

/-- **One event.** -/
theorem Accounted.step (accounted : Accounted s) (moved : s.step setup e = some s') : Accounted s' := by
  intro ip J each
  cases step_cases moved with
  | @arrived i msg now handler _ _ =>
    simp only [arrives] at each ⊢
    rw [passedFor, List.countP_append]
    have old : ∀ j ∈ J, j ≠ i → ∃ t, s.transactions j = some t ∧ t.PassedFor ip := by
      intro j mem other
      obtain ⟨t, there, passed⟩ := each j mem
      exact ⟨t, by rwa [Function.update_of_ne other] at there, passed⟩
    by_cases mem : i ∈ J
    · obtain ⟨t, there, passed⟩ := each i mem
      rw [Function.update_self] at there
      cases there
      obtain ⟨verdict, rest, logged⟩ := accept_passedFor passed
      have before : (J.erase i).card ≤ passedFor s.limiter.charges ip :=
        accounted ip (J.erase i) fun j m => old j (Finset.mem_of_mem_erase m) (Finset.ne_of_mem_erase m)
      have one : J.card = (J.erase i).card + 1 := (Finset.card_erase_add_one mem).symm
      rw [logged, List.map_cons, List.countP_cons]
      simp only [verdict, and_self, decide_true, if_true]
      unfold passedFor at before
      omega
    · have before : J.card ≤ passedFor s.limiter.charges ip :=
        accounted ip J fun j m => old j m fun same => mem (same ▸ m)
      unfold passedFor at before
      omega
  | @went _ i t t' store' _ before moves =>
    refine accounted ip J fun j mem => ?_
    obtain ⟨u, there, passed⟩ := each j mem
    simp only [Server.moved, Function.update_apply] at there
    split at there
    · rename_i here
      cases there
      have same := moves.sameRequest
      refine ⟨t, here ▸ before, ?_, same.charged.symm.trans passed.2⟩
      rw [← Option.not_isSome_iff_eq_none, ← same.filtered, passed.1]
      exact Bool.false_ne_true
    · exact ⟨u, there, passed⟩

end Server

section

variable {ι IP : Type} [DecidableEq ι] [DecidableEq IP] [IPAddress IP]

/-- **Every new entry has a request of its own behind it.** In every run of the server the
entries that were not in the database at the start can be handed out to distinct create
requests of the run, each of which was let through and has written its entry; and an address
owns at most as many of them as requests were let through for it. -/
theorem entries_accounted (setup : ServerSetup IP) (store : UrlStore) (now : Int) (s : Server ι IP)
    (run : Reachable (Server.step setup) (.start setup store now) s) (K : Finset Bytes)
    (added : ∀ slug ∈ K, ∃ v, s.store slug = some v ∧ store slug ≠ some v) :
    ∃ owner : Bytes → Option ι,
      (∀ slug ∈ K, ∃ j t v, owner slug = some j ∧ s.transactions j = some t ∧ s.store slug = some v ∧
        t.Created setup slug v) ∧
      (∀ slug ∈ K, ∀ slug' ∈ K, owner slug = owner slug' → slug = slug') ∧
      ∀ ip, ∀ K' ⊆ K, (∀ slug ∈ K', ∃ j t, owner slug = some j ∧ s.transactions j = some t ∧
          t.charged = some ip) → K'.card ≤ passedFor s.limiter.charges ip := by
  have written := (Server.sourced_of_run run).stored
  have accounted : Server.Accounted s :=
    run.invariant Server.Accounted (fun ip J each => by
      rcases J.eq_empty_or_nonempty with rfl | ⟨j, mem⟩
      · exact Nat.zero_le _
      · obtain ⟨t, there, -⟩ := each j mem
        cases there) fun _ _ _ inv _ moved => inv.step moved
  have each : ∀ slug ∈ K, ∃ j t v, s.transactions j = some t ∧ s.store slug = some v ∧
      t.Wrote slug v ∧ t.Created setup slug v := by
    intro slug mem
    obtain ⟨v, held, new⟩ := added slug mem
    rcases written slug v held with first | ⟨j, t, there, wrote⟩
    · exact absurd first new
    · exact ⟨j, t, v, there, held, wrote, created_of_wrote run there wrote⟩
  classical
  choose j t v there held wrote created using each
  have apart {slug slug' : Bytes} (mem : slug ∈ K) (mem' : slug' ∈ K) (same : j slug mem = j slug' mem') :
      slug = slug' := by
    obtain ⟨h, serving, did⟩ := wrote slug mem
    obtain ⟨h', serving', did'⟩ := wrote slug' mem'
    have one : t slug mem = t slug' mem' := by
      have there' := there slug' mem'
      rw [← same, there slug mem] at there'
      exact Option.some.inj there'
    obtain rfl : h = h' := by
      rw [one, serving'] at serving
      cases serving
      rfl
    have budget : DbBudget setup.svc h :=
      (create_reachable run (there slug mem) serving).invariant (DbBudget setup.svc)
        (dbBudget_start setup.svc) fun _ _ _ inv _ moved => inv.step moved
    exact wrote_once budget.chain.spent.2 did did'
  let owner : Bytes → Option ι := fun slug => if mem : slug ∈ K then some (j slug mem) else none
  have owns {slug : Bytes} (mem : slug ∈ K) : owner slug = some (j slug mem) := dif_pos mem
  refine ⟨owner, ?_, ?_, ?_⟩
  · intro slug mem
    exact ⟨j slug mem, t slug mem, v slug mem, owns mem, there slug mem, held slug mem, created slug mem⟩
  · intro slug mem slug' mem' same
    rw [owns mem, owns mem'] at same
    exact apart mem mem' (Option.some.inj same)
  · intro ip K' sub charged
    have distinct : Function.Injective fun x : K' => j x.1 (sub x.2) :=
      fun x y same => Subtype.ext (apart (sub x.2) (sub y.2) same)
    rw [← Finset.card_attach, ← Finset.card_image_of_injective _ distinct]
    refine accounted ip _ fun i mem => ?_
    obtain ⟨⟨slug, inside⟩, -, rfl⟩ := Finset.mem_image.mp mem
    obtain ⟨_, u, same, here, owes⟩ := charged slug inside
    rw [owns (sub inside)] at same
    cases same
    refine ⟨u, here, ?_, owes⟩
    obtain rfl : t slug (sub inside) = u := Option.some.inj ((there slug (sub inside)).symm.trans here)
    exact (created slug (sub inside)).passed

end

/-- A client's two requests. -/
def twoCreates : List (ServerEvent Bool UInt32) :=
  sampleCreateEvents false createByClient ++ createEventsOf otherBody true createByClient

/-- The slugs they have made. -/
def twoSlugs : Finset Bytes := {bytes "C3Cs6Yf", bytes "1VdjYP8"}

/-- The client's two entries have two requests behind them, and two of its requests were let
through. -/
theorem entries_accounted_two : ∃ s, replay (Server.step sampleSetup)
      (.start sampleSetup (fun _ => none) 0 : Server Bool UInt32) twoCreates = some s ∧ twoSlugs.card = 2 ∧
    passedFor s.limiter.charges createByClient.clientAddress = 2 ∧
    ∃ owner : Bytes → Option Bool,
      (∀ slug ∈ twoSlugs, ∃ j t v, owner slug = some j ∧ s.transactions j = some t ∧ s.store slug = some v ∧
        t.Created sampleSetup slug v) ∧
      (∀ slug ∈ twoSlugs, ∀ slug' ∈ twoSlugs, owner slug = owner slug' → slug = slug') ∧
      ∀ ip, ∀ K' ⊆ twoSlugs, (∀ slug ∈ K', ∃ j t, owner slug = some j ∧ s.transactions j = some t ∧
          t.charged = some ip) → K'.card ≤ passedFor s.limiter.charges ip := by
  have result : (replay (Server.step sampleSetup)
      (.start sampleSetup (fun _ => none) 0 : Server Bool UInt32) twoCreates).map
        (fun s => (s.store (bytes "C3Cs6Yf"), s.store (bytes "1VdjYP8"),
          passedFor s.limiter.charges createByClient.clientAddress)) =
      some (some (bytes "https://a.example/"), some (bytes "https://b.example/"), 2) := by
    decide +kernel
  obtain ⟨s, done, held⟩ := Option.map_eq_some_iff.mp result
  simp only [Prod.mk.injEq] at held
  obtain ⟨first, second, charged⟩ := held
  have added : ∀ slug ∈ twoSlugs, ∃ v, s.store slug = some v ∧ (fun _ => none : UrlStore) slug ≠ some v := by
    intro slug mem
    rcases Finset.mem_insert.mp mem with rfl | last
    · exact ⟨bytes "https://a.example/", first, by simp⟩
    · rw [Finset.mem_singleton.mp last]
      exact ⟨bytes "https://b.example/", second, by simp⟩
  exact ⟨s, done, by decide, charged, entries_accounted sampleSetup (fun _ => none) 0 s
    (Reachable.of_replay _ _ _ done) twoSlugs added⟩

end UrlShortener
