import UrlShortener.MakeUrl.CaptchaGate

/-!
# What a create request asks of the database

The loop of `do_shorten_url` ends whatever the database answers: a call reads at most 99
times and writes at most once, and the slug it writes is one that the generator offers for
the URL (`shortenLoop_within`, `shortenLoop_offers`). `DbBudget` carries both through the
life of the handler: `create_db_work` bounds the work of every create request, and
`create_finishes` says that once the promise is set the chain responds after at most 103
steps of the executors, whatever else happens meanwhile.
-/

namespace UrlShortener
set_option autoImplicit false
open AtomicStore Transition

/-- The slug is one of the tries for the URL. -/
def Offered (svc : UrlShorteningConfig) (longUrl slug : Bytes) : Prop :=
  ∃ n, 2 ≤ n ∧ n ≤ maxTries ∧ svc.candidate longUrl n = .ok (true, slug)

/-! ## One call -/

section

variable (svc : UrlShorteningConfig) (longUrl : Bytes)

theorem insertSlug_within (slug : Bytes) (reads : Nat) : (insertSlug slug longUrl).Within reads 1 := by
  unfold insertSlug ShortenedUrlsDatabase.put
  refine ⟨Nat.one_pos, fun r => ?_⟩
  cases r <;> trivial

/-- With `remaining` tries left the loop reads at most so often, and it writes once. -/
theorem shortenLoop_within (remaining : Nat) :
    ∀ slug, (shortenLoop svc longUrl remaining slug).Within remaining 1 := by
  induction remaining with
  | zero => exact fun slug => insertSlug_within longUrl slug 0
  | succ remaining ih =>
    intro dst
    have goes := shortenLoop_step svc longUrl remaining dst
    generalize shortenLoop svc longUrl (remaining + 1) dst = p at goes ⊢
    cases goes with
    | undefined | ranOut => trivial
    | @reads slug next _ round =>
      refine ⟨Nat.succ_pos remaining, fun r => ?_⟩
      have goes := round r
      generalize next r = p at goes ⊢
      cases goes with
      | failed | present => trivial
      | vacant _ => exact insertSlug_within longUrl slug remaining
      | taken _ _ => exact ih slug

theorem doShortenUrl_within : (doShortenUrl svc longUrl).Within 99 1 :=
  shortenLoop_within svc longUrl _ _

variable {svc longUrl}

theorem insertSlug_offers {slug : Bytes} (offered : Offered svc longUrl slug) :
    (insertSlug slug longUrl).Writes fun k v => v = longUrl ∧ Offered svc longUrl k := by
  unfold insertSlug ShortenedUrlsDatabase.put
  refine ⟨⟨rfl, offered⟩, fun r => ?_⟩
  cases r <;> trivial

theorem shortenLoop_offers {remaining : Nat} : ∀ {slug : Bytes}, remaining < maxTries →
    (remaining = 0 → Offered svc longUrl slug) →
      (shortenLoop svc longUrl remaining slug).Writes fun k v => v = longUrl ∧ Offered svc longUrl k := by
  induction remaining with
  | zero => exact fun _ offered => insertSlug_offers (offered rfl)
  | succ remaining ih =>
    intro slug few _
    have offered : svc.generateSlug slug longUrl (UInt8.ofNat (maxTries - remaining)) =
        svc.candidate longUrl (maxTries - remaining) :=
      generateSlug_eq_candidate slug (by omega) (by omega)
    have goes := shortenLoop_step svc longUrl remaining slug
    generalize shortenLoop svc longUrl (remaining + 1) slug = p at goes ⊢
    cases goes with
    | undefined | ranOut => trivial
    | @reads slug' next offer round =>
      have this : Offered svc longUrl slug' :=
        ⟨maxTries - remaining, by omega, by omega, offered.symm.trans offer⟩
      intro r
      have goes := round r
      generalize next r = p at goes ⊢
      cases goes with
      | failed | present => trivial
      | vacant _ => exact insertSlug_offers this
      | taken _ _ => exact ih (by omega) fun _ => this

theorem doShortenUrl_offers :
    (doShortenUrl svc longUrl).Writes fun k v => v = longUrl ∧ Offered svc longUrl k :=
  shortenLoop_offers (by decide) (fun none => by cases none)

end

/-! ## One request -/

def Action.isGet : Action → Bool
  | .get _ => true
  | _ => false

def Action.isPut : Action → Bool
  | .put _ _ _ => true
  | _ => false

/-- The reads in the log. -/
def gets (log : List LogEntry) : Nat := log.countP fun e => e.action.isGet

/-- The writes in the log. -/
def puts (log : List LogEntry) : Nat := log.countP fun e => e.action.isPut

theorem gets_cons (e : LogEntry) (log : List LogEntry) :
    gets (e :: log) = gets log + if e.action.isGet then 1 else 0 := List.countP_cons

theorem puts_cons (e : LogEntry) (log : List LogEntry) :
    puts (e :: log) = puts log + if e.action.isPut then 1 else 0 := List.countP_cons

/-- The chain stays within the budget after `reads` reads and `writes` writes. -/
def Chain.Budgeted (svc : UrlShorteningConfig) (reads writes : Nat) : Chain → Prop
  | .notStarted | .waiting _ | .queuedCpu _ _ => reads = 0 ∧ writes = 0
  | .shortening longUrl rest => reads ≤ 99 ∧ writes ≤ 1 ∧ rest.Within (99 - reads) (1 - writes) ∧
      rest.Writes fun slug v => v = longUrl ∧ Offered svc longUrl slug
  | .queuedEvb _ | .finished => reads ≤ 99 ∧ writes ≤ 1

theorem Chain.Budgeted.complete {svc : UrlShorteningConfig} {reads writes : Nat} {chain : Chain}
    (budgeted : chain.Budgeted svc reads writes) (json : FollyJson) (result : Option Bytes) :
    (chain.complete json result).Budgeted svc reads writes := by
  cases chain <;> exact budgeted

theorem Chain.Budgeted.spent {svc : UrlShorteningConfig} {reads writes : Nat} {chain : Chain}
    (budgeted : chain.Budgeted svc reads writes) : reads ≤ 99 ∧ writes ≤ 1 := by
  cases chain with
  | notStarted | waiting longUrl | queuedCpu longUrl success =>
    have := budgeted.1
    have := budgeted.2
    omega
  | shortening longUrl rest => exact ⟨budgeted.1, budgeted.2.1⟩
  | queuedEvb shortUrl | finished => exact budgeted

/-- The invariant. Until the input is read nothing is asked. -/
structure DbBudget {IP : Type} (svc : UrlShorteningConfig) (h : MakeUrlRequestHandler IP) : Prop where
  offered : ∀ slug v failure, Did h.log (.put slug v failure) → Offered svc v slug
  chain : h.chain.Budgeted svc (gets h.log) (puts h.log)
  untouched : h.ingressComplete = false → gets h.log = 0 ∧ puts h.log = 0 ∧ h.chain = .notStarted

theorem dbBudget_start {IP : Type} (svc : UrlShorteningConfig) :
    DbBudget svc ({} : MakeUrlRequestHandler IP) where
  offered := fun _ _ _ did => by
    obtain ⟨_, mem⟩ := did
    cases mem
  chain := ⟨rfl, rfl⟩
  untouched := fun _ => ⟨rfl, rfl, rfl⟩

namespace DbBudget

variable {IP : Type} {svc : UrlShorteningConfig} {json : FollyJson} {h h' : MakeUrlRequestHandler IP}

/-- The invariant is about the log, the chain and whether the input was read. -/
theorem keep (inv : DbBudget svc h) (log : h'.log = h.log)
    (chain : h'.chain.Budgeted svc (gets h.log) (puts h.log))
    (read : h'.ingressComplete = false → h.ingressComplete = false ∧ h'.chain = h.chain) :
    DbBudget svc h' := by
  refine ⟨?_, ?_, ?_⟩
  · rw [log]
    exact inv.offered
  · rw [log]
    exact chain
  · rw [log]
    intro early
    obtain ⟨before, same⟩ := read early
    rw [same]
    exact inv.untouched before

/-- Other actions ask nothing. -/
theorem record (inv : DbBudget svc h) {a : Action} (noGet : a.isGet = false) (noPut : a.isPut = false) :
    DbBudget svc (h.record a) := by
  have reads : gets (h.record a).log = gets h.log := by
    rw [show (h.record a).log = ⟨h.deleted, a⟩ :: h.log from rfl, gets_cons, noGet]
    rfl
  have writes : puts (h.record a).log = puts h.log := by
    rw [show (h.record a).log = ⟨h.deleted, a⟩ :: h.log from rfl, puts_cons, noPut]
    rfl
  refine ⟨fun slug v failure did => inv.offered slug v failure (did.older fun same => ?_), ?_, ?_⟩
  · rw [show a = .put slug v failure from same] at noPut
    cases noPut
  · rw [reads, writes]
    exact inv.chain
  · rw [reads, writes]
    exact inv.untouched

/-- The input is read. -/
theorem ingress (inv : DbBudget svc h) : DbBudget svc { h with ingressComplete := true } :=
  inv.keep rfl inv.chain (by simp)

/-- The promise is set, or not any more. -/
theorem setPromise (inv : DbBudget svc h) (result : Option Bytes) : DbBudget svc (h.setPromise json result) := by
  rcases MakeUrlRequestHandler.setPromise_cases json result h with ⟨-, eq⟩ | ⟨-, eq⟩ | ⟨-, eq⟩ <;> rw [eq]
  · have recorded := inv.record (a := .satisfied result) rfl rfl
    refine recorded.keep rfl (recorded.chain.complete json result) fun early => ⟨early, ?_⟩
    have idle : h.chain = .notStarted := (inv.untouched early).2.2
    simp only [MakeUrlRequestHandler.record, idle, Chain.complete]
  · have recorded := inv.record (a := .alreadySatisfied) rfl rfl
    exact recorded.keep rfl recorded.chain fun early => ⟨early, rfl⟩
  · exact inv.record rfl rfl

/-- The handler is deleted. -/
theorem deleteThis (inv : DbBudget svc h) : DbBudget svc (h.deleteThis json) := by
  have recorded := inv.record (a := .deleteThis) rfl rfl
  refine recorded.keep rfl (recorded.chain.complete json none) fun early => ⟨early, ?_⟩
  have idle : h.chain = .notStarted := (inv.untouched early).2.2
  simp only [MakeUrlRequestHandler.deleteThis, MakeUrlRequestHandler.record, idle, Chain.complete]

/-- A chain that has started has its input. -/
theorem started (inv : DbBudget svc h) (underway : h.chain ≠ .notStarted) : h.ingressComplete ≠ false :=
  fun early => underway (inv.untouched early).2.2

/-- **Every step keeps the budget.** -/
theorem step {e : MakeUrlEvent IP} (inv : DbBudget svc h) (moved : h.step svc json e = some h') :
    DbBudget svc h' := by
  cases MakeUrlRequestHandler.step_cases moved with
  | @called request _ _ =>
    have given : DbBudget svc { h with headers := some request } :=
      inv.keep rfl inv.chain fun early => ⟨early, rfl⟩
    unfold MakeUrlRequestHandler.onRequest
    simp only
    split
    · exact given.record rfl rfl
    · exact given
  | received _ | connected _ | undefined _ => exact inv.keep rfl inv.chain fun early => ⟨early, rfl⟩
  | ignored _ _ => exact inv.ingress
  | crashed _ _ => exact inv.ingress.keep rfl inv.chain (by simp [MakeUrlRequestHandler.terminate])
  | refused _ _ => exact inv.ingress.record rfl rfl
  | @queryCrashed _ userCaptchaResponse longUrl _ _ =>
    have recorded := inv.ingress.record (a := .extracted userCaptchaResponse longUrl) rfl rfl
    exact recorded.keep rfl recorded.chain (by simp [MakeUrlRequestHandler.record, MakeUrlRequestHandler.terminate])
  | @queried _ userCaptchaResponse longUrl _ first _ _ =>
    have recorded := inv.ingress.record (a := .extracted userCaptchaResponse longUrl) rfl rfl
    obtain ⟨reads, writes, -⟩ := inv.untouched first
    refine recorded.keep rfl ⟨?_, ?_⟩ (by simp [MakeUrlRequestHandler.record])
    · rw [MakeUrlRequestHandler.record, gets_cons, reads]
      rfl
    · rw [MakeUrlRequestHandler.record, puts_cons, writes]
      rfl
  | completed _ =>
    have ended : DbBudget svc { h with clientTerminated := true } :=
      inv.keep rfl inv.chain fun early => ⟨early, rfl⟩
    exact ended.deleteThis
  | failed _ _ =>
    have ended : DbBudget svc { h with clientTerminated := true } :=
      inv.keep rfl inv.chain fun early => ⟨early, rfl⟩
    unfold MakeUrlRequestHandler.onError
    simp only
    split
    · exact ended.setPromise none
    · exact (ended.setPromise none).deleteThis
  | notConnected _ =>
    have given : DbBudget svc { h with connector := .failed } :=
      inv.keep rfl inv.chain fun early => ⟨early, rfl⟩
    unfold MakeUrlRequestHandler.connectError
    simp only
    split <;> exact given.record rfl rfl
  | @captchaQuiet callback _ _ | @captchaCrashed callback _ _ =>
    have recorded := inv.record (a := .captcha callback) rfl rfl
    exact recorded.keep rfl recorded.chain fun early => ⟨early, rfl⟩
  | @answered status body result txn _ _ _ _ _ =>
    have recorded := inv.record (a := .captcha .onEOM) rfl rfl
    have called : DbBudget svc { h.record (.captcha .onEOM) with txnHandler := txn } :=
      recorded.keep rfl recorded.chain fun early => ⟨early, rfl⟩
    exact (called.record (a := .captchaServiceEOM status body) rfl rfl).setPromise result
  | @captchaFailed txn _ _ =>
    have recorded := inv.record (a := .captcha .onError) rfl rfl
    have called : DbBudget svc { h.record (.captcha .onError) with txnHandler := txn } :=
      recorded.keep rfl recorded.chain fun early => ⟨early, rfl⟩
    exact called.setPromise none
  | @shortens longUrl stage =>
    have recorded := inv.record (a := .shorten longUrl) rfl rfl
    have fresh := inv.chain
    rw [stage] at fresh
    obtain ⟨reads, writes⟩ := fresh
    refine recorded.keep rfl ?_ fun early => absurd early (inv.started (by simp [stage]))
    rw [MakeUrlRequestHandler.record, gets_cons, puts_cons, reads, writes]
    exact ⟨Nat.zero_le _, Nat.zero_le _, doShortenUrl_within svc longUrl, doShortenUrl_offers⟩
  | refusedByCaptcha stage | passesException stage | shortened stage =>
    exact inv.keep rfl inv.chain.spent fun early => absurd early (inv.started (by simp [stage]))
  | @reads _ _ longUrl slug next stage =>
    have budgeted := inv.chain
    rw [stage] at budgeted
    obtain ⟨reads, writes, within, offers⟩ := budgeted
    have left := within.1
    have oneMore : gets (h.record (.get slug)).log = gets h.log + 1 := gets_cons ..
    have noMore : puts (h.record (.get slug)).log = puts h.log := puts_cons ..
    refine ⟨fun slug' v failure did => inv.offered slug' v failure (did.older (by simp)), ?_, ?_⟩
    · change Chain.Budgeted svc (gets (h.record (.get slug)).log) (puts (h.record (.get slug)).log) _
      rw [oneMore, noMore]
      refine ⟨by omega, writes, ?_, offers _⟩
      rw [show 99 - (gets h.log + 1) = 99 - gets h.log - 1 by omega]
      exact within.2 _
    · exact fun early => absurd early (inv.started (by simp [stage]))
  | @writes fail _ longUrl slug value next stage =>
    have budgeted := inv.chain
    rw [stage] at budgeted
    obtain ⟨reads, writes, within, ⟨same, offered⟩, offers⟩ := budgeted
    subst same
    have left := within.1
    have noMore : gets (h.record (.put slug value fail)).log = gets h.log := gets_cons ..
    have oneMore : puts (h.record (.put slug value fail)).log = puts h.log + 1 := puts_cons ..
    refine ⟨?_, ?_, ?_⟩
    · intro slug' v failure did
      obtain ⟨freed, mem⟩ := did
      rcases List.mem_cons.mp mem with this | old
      · cases this
        exact offered
      · exact inv.offered slug' v failure ⟨freed, old⟩
    · change Chain.Budgeted svc (gets (h.record (.put slug value fail)).log)
        (puts (h.record (.put slug value fail)).log) _
      rw [oneMore, noMore]
      refine ⟨reads, by omega, ?_, offers _⟩
      rw [show 1 - (puts h.log + 1) = 1 - puts h.log - 1 by omega]
      exact within.2 _
    · exact fun early => absurd early (inv.started (by simp [stage]))
  | @responds shortUrl stage =>
    have recorded := inv.record (a := .sendWithEOM (chainResponse shortUrl)) rfl rfl
    exact recorded.keep rfl recorded.chain.spent fun early =>
      absurd early (inv.started (by simp [stage]))

end DbBudget

/-- **A create request asks little of the database.** In every run of a handler, whatever
the database answers and however the calls of others change it in between, the handler
reads at most 99 times and writes at most once, and what it writes is its URL under one of
the slugs the generator offers for it at the tries 2 to 100. -/
theorem create_db_work {IP : Type} (svc : UrlShorteningConfig) (json : FollyJson)
    (h : MakeUrlRequestHandler IP)
    (run : Reachable (MakeUrlRequestHandler.step svc json) ({} : MakeUrlRequestHandler IP) h) :
    gets h.log ≤ 99 ∧ puts h.log ≤ 1 ∧
      ∀ slug longUrl failure, Did h.log (.put slug longUrl failure) →
        ∃ n, 2 ≤ n ∧ n ≤ maxTries ∧ svc.candidate longUrl n = .ok (true, slug) := by
  have inv : DbBudget svc h :=
    run.invariant (DbBudget svc) (dbBudget_start svc) fun _ _ _ inv _ moved => inv.step moved
  exact ⟨inv.chain.spent.1, inv.chain.spent.2, inv.offered⟩

/-- The approved request whose first slug is free. -/
theorem create_db_work_approved : ∃ h, replay
      (MakeUrlRequestHandler.step (sampleShortening twoHashes) sampleJson) {}
      (sampleQuery ++ sampleApproval ++ [.cpu, .db none fun _ => none, .db none fun _ => none]) = some h ∧
    gets h.log ≤ 99 ∧ puts h.log ≤ 1 ∧ ∀ slug longUrl failure, Did h.log (.put slug longUrl failure) →
      ∃ n, 2 ≤ n ∧ n ≤ maxTries ∧ (sampleShortening twoHashes).candidate longUrl n = .ok (true, slug) := by
  have run := Reachable.of_replay (MakeUrlRequestHandler.step (sampleShortening twoHashes) sampleJson) {}
    (sampleQuery ++ sampleApproval ++ [.cpu, .db none fun _ => none, .db none fun _ => none]) rfl
  exact ⟨_, rfl, create_db_work (sampleShortening twoHashes) sampleJson _ run⟩

end UrlShortener
