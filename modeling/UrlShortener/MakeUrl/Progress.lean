import UrlShortener.MakeUrl.DbWork

/-!
# The chain behind a create request ends

Once the promise is set the chain needs only its executors. Each of their steps uses up one
of at most 103: the start of `do_shorten_url`, its 99 reads and one write, its return and
the response. `Chain.Left` counts what is left of them, and no event of the client, the
connector or the captcha transaction adds to it, a client that is gone included.
-/

namespace UrlShortener
set_option autoImplicit false
open AtomicStore Transition

/-- A step of the chain on its executors. -/
def MakeUrlEvent.ofChain {IP : Type} : MakeUrlEvent IP → Bool
  | .cpu => true
  | .db _ _ => true
  | .evb => true
  | _ => false

theorem Did.mono {log log' : List LogEntry} {a : Action} (did : Did log a) (older : log <:+ log') : Did log' a := by
  obtain ⟨freed, mem⟩ := did
  exact ⟨freed, older.mem mem⟩

namespace MakeUrlRequestHandler

variable {IP : Type} {svc : UrlShorteningConfig} {json : FollyJson} {h h' : MakeUrlRequestHandler IP}
  {e : MakeUrlEvent IP}

theorem record_suffix (a : Action) (h : MakeUrlRequestHandler IP) : h.log <:+ (h.record a).log :=
  List.suffix_cons _ _

theorem setPromise_suffix (json : FollyJson) (result : Option Bytes) (h : MakeUrlRequestHandler IP) :
    h.log <:+ (h.setPromise json result).log := by
  rcases setPromise_cases json result h with ⟨-, eq⟩ | ⟨-, eq⟩ | ⟨-, eq⟩ <;> rw [eq] <;>
    exact List.suffix_cons _ _

/-- A step adds to the log. -/
theorem log_suffix (moved : h.step svc json e = some h') : h.log <:+ h'.log := by
  cases step_cases moved with
  | called _ _ =>
    unfold onRequest
    simp only
    split
    · exact record_suffix _ h
    · exact List.suffix_rfl
  | received _ | ignored _ _ | crashed _ _ | connected _ | refusedByCaptcha _ | passesException _ | shortened _
  | undefined _ => exact List.suffix_rfl
  | refused _ _ | queryCrashed _ _ | queried _ _ _ _ | captchaQuiet _ _ | captchaCrashed _ _ | shortens _
  | reads _ | writes _ | responds _ => exact List.suffix_cons _ _
  | completed _ => exact List.suffix_cons _ _
  | failed _ running =>
    rcases onError_cases json h running with ⟨-, eq⟩ | ⟨a, -, eq⟩ <;> rw [eq]
    · exact List.suffix_cons _ _
    · exact (record_suffix a h).trans (List.suffix_cons _ _)
  | notConnected _ =>
    unfold connectError
    simp only
    split <;> exact List.suffix_cons _ _
  | @answered status body result txn _ _ _ _ _ =>
    have set := setPromise_suffix json result
      (record (.captchaServiceEOM status body) { h.record (.captcha .onEOM) with txnHandler := txn })
    exact ((record_suffix _ h).trans (List.suffix_cons _ _)).trans set
  | @captchaFailed txn _ _ =>
    have set := setPromise_suffix json none { h.record (.captcha .onError) with txnHandler := txn }
    exact (record_suffix _ h).trans set

/-- Setting the promise does not read the input, and at most completes the chain. -/
theorem setPromise_chain (json : FollyJson) (result : Option Bytes) (h : MakeUrlRequestHandler IP) :
    (h.setPromise json result).ingressComplete = h.ingressComplete ∧
      ((h.setPromise json result).chain = h.chain ∨
        (h.setPromise json result).chain = h.chain.complete json result) := by
  rcases setPromise_cases json result h with ⟨-, eq⟩ | ⟨-, eq⟩ | ⟨-, eq⟩ <;> rw [eq]
  · exact ⟨rfl, .inr rfl⟩
  · exact ⟨rfl, .inl rfl⟩
  · exact ⟨rfl, .inl rfl⟩

/-- Other steps leave the chain or complete it, and one of them lets it wait for the promise:
the end of the input. -/
theorem chain_aside (moved : h.step svc json e = some h') (other : e.ofChain = false) :
    (h.ingressComplete = true → h'.ingressComplete = true) ∧
      (h'.chain = h.chain ∨ (∃ result, h'.chain = h.chain.complete json result) ∨
        h.ingressComplete = false ∧ ∃ longUrl, h'.chain = .waiting longUrl) := by
  cases step_cases moved with
  | called _ _ =>
    unfold onRequest
    simp only
    split <;> exact ⟨id, .inl rfl⟩
  | received _ | connected _ | captchaQuiet _ _ | captchaCrashed _ _ => exact ⟨id, .inl rfl⟩
  | ignored _ _ | refused _ _ | crashed _ _ | queryCrashed _ _ => exact ⟨fun _ => rfl, .inl rfl⟩
  | @queried _ _ longUrl _ early _ _ => exact ⟨fun _ => rfl, .inr (.inr ⟨early, longUrl, rfl⟩)⟩
  | completed _ => exact ⟨id, .inr (.inl ⟨none, rfl⟩)⟩
  | failed _ running =>
    rcases onError_cases json h running with ⟨-, eq⟩ | ⟨a, -, eq⟩ <;> rw [eq]
    · exact ⟨id, .inl rfl⟩
    · exact ⟨id, .inr (.inl ⟨none, rfl⟩)⟩
  | notConnected _ =>
    unfold connectError
    simp only
    split <;> exact ⟨id, .inl rfl⟩
  | @answered status body result txn _ _ _ _ _ =>
    obtain ⟨same, chain⟩ := setPromise_chain json result
      (record (.captchaServiceEOM status body) { h.record (.captcha .onEOM) with txnHandler := txn })
    exact ⟨fun read => same.trans read,
      chain.imp_right fun completed => .inl ⟨result, completed⟩⟩
  | @captchaFailed txn _ _ =>
    obtain ⟨same, chain⟩ := setPromise_chain json none { h.record (.captcha .onError) with txnHandler := txn }
    exact ⟨fun read => same.trans read,
      chain.imp_right fun completed => .inl ⟨none, completed⟩⟩
  | shortens _ | refusedByCaptcha _ | passesException _ | shortened _ | undefined _ | reads _ | writes _
  | responds _ => cases other

end MakeUrlRequestHandler

/-- At most `n` steps are left of a chain whose promise is set, or it has responded. -/
def Chain.Left (log : List LogEntry) (n : Nat) : Chain → Prop
  | .notStarted | .waiting _ => False
  | .queuedCpu _ _ => 103 ≤ n
  | .shortening _ rest => ∃ reads writes, rest.Within reads writes ∧ reads + writes + 2 ≤ n
  | .queuedEvb _ => 1 ≤ n
  | .finished => ∃ shortUrl, Did log (.sendWithEOM (chainResponse shortUrl))

namespace Chain.Left

variable {log log' : List LogEntry} {n n' : Nat} {chain : Chain}

theorem complete (left : chain.Left log n) (json : FollyJson) (result : Option Bytes) :
    chain.complete json result = chain := by
  cases chain with
  | waiting longUrl => exact left.elim
  | notStarted | queuedCpu _ _ | shortening _ _ | queuedEvb _ | finished => rfl

theorem mono (left : chain.Left log n) (older : log <:+ log') : chain.Left log' n := by
  cases chain with
  | finished =>
    obtain ⟨shortUrl, did⟩ := left
    exact ⟨shortUrl, did.mono older⟩
  | notStarted | waiting _ | queuedCpu _ _ | shortening _ _ | queuedEvb _ => exact left

end Chain.Left

section

variable {IP : Type} {svc : UrlShorteningConfig} {json : FollyJson} {h h' : MakeUrlRequestHandler IP}
  {e : MakeUrlEvent IP} {n : Nat}

/-- Once the promise is set, the chain ends after at most `n` more of its steps, or the
process does. -/
structure Settling (n : Nat) (h : MakeUrlRequestHandler IP) : Prop where
  read : h.ingressComplete = true
  left : h.terminated = false → h.chain.Left h.log n

/-- **A step of the chain uses one up.** -/
theorem Settling.chainStep (settling : Settling n h) (moved : h.step svc json e = some h')
    (own : e.ofChain = true) : ∃ m, n = m + 1 ∧ Settling m h' := by
  have running : h.terminated = false := by
    simp only [MakeUrlRequestHandler.step, Option.ite_none_left_eq_some] at moved
    simpa using moved.1
  have left := settling.left running
  cases MakeUrlRequestHandler.step_cases moved with
  | shortens stage =>
    rw [stage] at left
    refine ⟨n - 1, by have : 103 ≤ n := left; omega, settling.read, fun _ => ?_⟩
    exact ⟨99, 1, doShortenUrl_within .., by have : 103 ≤ n := left; omega⟩
  | refusedByCaptcha stage | passesException stage =>
    rw [stage] at left
    have : 103 ≤ n := left
    exact ⟨n - 1, by omega, settling.read, fun _ => show 1 ≤ n - 1 by omega⟩
  | shortened stage =>
    rw [stage] at left
    obtain ⟨reads, writes, -, enough⟩ := left
    exact ⟨n - 1, by omega, settling.read, fun _ => show 1 ≤ n - 1 by omega⟩
  | undefined stage =>
    rw [stage] at left
    obtain ⟨reads, writes, -, enough⟩ := left
    refine ⟨n - 1, by omega, settling.read, fun alive => ?_⟩
    cases alive
  | reads stage =>
    rw [stage] at left
    obtain ⟨reads, writes, ⟨some_, rest⟩, enough⟩ := left
    exact ⟨n - 1, by omega, settling.read, fun _ => ⟨reads - 1, writes, rest _, by omega⟩⟩
  | writes stage =>
    rw [stage] at left
    obtain ⟨reads, writes, ⟨some_, rest⟩, enough⟩ := left
    exact ⟨n - 1, by omega, settling.read, fun _ => ⟨reads, writes - 1, rest _, by omega⟩⟩
  | @responds shortUrl stage =>
    rw [stage] at left
    have : 1 ≤ n := left
    exact ⟨n - 1, by omega, settling.read, fun _ => ⟨shortUrl, did_first ..⟩⟩
  | called _ _ | received _ | ignored _ _ | refused _ _ | crashed _ _ | queryCrashed _ _ | queried _ _ _ _
  | completed _ | failed _ _ | connected _ | notConnected _ | captchaQuiet _ _ | captchaCrashed _ _
  | answered _ _ _ _ _ | captchaFailed _ _ => cases own

/-- The other steps add nothing. -/
theorem Settling.aside (settling : Settling n h) (moved : h.step svc json e = some h')
    (other : e.ofChain = false) : Settling n h' := by
  have running : h.terminated = false := by
    simp only [MakeUrlRequestHandler.step, Option.ite_none_left_eq_some] at moved
    simpa using moved.1
  have left := settling.left running
  obtain ⟨read, chain⟩ := MakeUrlRequestHandler.chain_aside moved other
  have same : h'.chain = h.chain := by
    rcases chain with same | ⟨result, completed⟩ | ⟨early, -⟩
    · exact same
    · rw [completed, left.complete]
    · rw [settling.read] at early
      cases early
  exact ⟨read settling.read, fun _ => same ▸ left.mono (MakeUrlRequestHandler.log_suffix moved)⟩

/-- A run uses up as many as it has steps of the chain. -/
theorem Settling.replay (settling : Settling n h) {es : List (MakeUrlEvent IP)}
    (moved : Transition.replay (MakeUrlRequestHandler.step svc json) h es = some h') :
    ∃ m, n = m + es.countP (·.ofChain) ∧ Settling m h' := by
  induction es generalizing h n with
  | nil =>
    cases moved
    exact ⟨n, rfl, settling⟩
  | cons e es ih =>
    obtain ⟨mid, first, rest⟩ := Option.bind_eq_some_iff.mp moved
    rw [List.countP_cons]
    cases own : e.ofChain with
    | true =>
      obtain ⟨m, rfl, settled⟩ := settling.chainStep first own
      obtain ⟨k, rfl, final⟩ := ih settled rest
      exact ⟨k, by simp only [if_true]; omega, final⟩
    | false =>
      obtain ⟨k, rfl, final⟩ := ih (settling.aside first own) rest
      exact ⟨k, by simp, final⟩

/-- A chain that is under way has a next step. -/
theorem chain_goes_on (running : h.terminated = false) (under : h.chain.Underway) (fail : Option RocksFailure)
    (s : UrlStore) : ∃ e h', (e = .cpu ∨ e = .db fail s ∨ e = .evb) ∧ h.step svc json e = some h' := by
  cases stage : h.chain with
  | notStarted | waiting _ | finished =>
    rw [stage] at under
    exact under.elim
  | queuedCpu longUrl success =>
    refine ⟨.cpu, ?_⟩
    rcases success with _ | _ | _ <;>
      exact ⟨_, .inl rfl, by simp only [MakeUrlRequestHandler.step, running, MakeUrlRequestHandler.cpu, stage]; rfl⟩
  | shortening longUrl rest =>
    cases rest with
    | ret r =>
      refine ⟨.cpu, ?_⟩
      cases r <;>
        exact ⟨_, .inl rfl, by simp only [MakeUrlRequestHandler.step, running, MakeUrlRequestHandler.cpu, stage]; rfl⟩
    | get slug next | put slug value next =>
      exact ⟨.db fail s, _, .inr (.inl rfl), by
        simp only [MakeUrlRequestHandler.step, running, MakeUrlRequestHandler.db, stage]; rfl⟩
  | queuedEvb shortUrl =>
    exact ⟨.evb, _, .inr (.inr rfl), by
      simp only [MakeUrlRequestHandler.step, running, MakeUrlRequestHandler.evb, stage]; rfl⟩

/-- Of a chain under way no more than 103 steps are left. -/
theorem settling_of_underway (budget : DbBudget svc h) (under : h.chain.Underway) : Settling 103 h := by
  constructor
  · have started : h.chain ≠ .notStarted := by
      intro idle
      rw [idle] at under
      exact under
    simpa using budget.started started
  · intro _
    have budgeted := budget.chain
    cases stage : h.chain with
    | notStarted | waiting _ | finished =>
      rw [stage] at under
      exact under.elim
    | queuedCpu longUrl success => exact Nat.le_refl 103
    | shortening longUrl rest =>
      rw [stage] at budgeted
      exact ⟨_, _, budgeted.2.2.1, by omega⟩
    | queuedEvb shortUrl => exact show 1 ≤ 103 by decide

/-- Where the chain stands when it has settled. -/
theorem Settling.stands (settling : Settling n h) (running : h.terminated = false) :
    h.chain.Underway ∨ ∃ shortUrl, Did h.log (.sendWithEOM (chainResponse shortUrl)) := by
  have left := settling.left running
  cases stage : h.chain with
  | notStarted | waiting _ =>
    rw [stage] at left
    exact left.elim
  | queuedCpu _ _ | shortening _ _ | queuedEvb _ => exact .inl trivial
  | finished =>
    rw [stage] at left
    exact .inr left

end

/-- **A create request whose promise is set is answered.** From any reachable state in which
the chain is under way, whatever the client, the connector, the captcha transaction and the
database do, at most 103 steps of the chain can follow; and in every state that can follow,
either the process has been terminated, or the response of the chain has been sent, or the
chain has a next step, whatever the database answers. -/
theorem create_finishes {IP : Type} (svc : UrlShorteningConfig) (json : FollyJson)
    (h : MakeUrlRequestHandler IP)
    (run : Reachable (MakeUrlRequestHandler.step svc json) ({} : MakeUrlRequestHandler IP) h)
    (under : h.chain.Underway) (es : List (MakeUrlEvent IP)) (h' : MakeUrlRequestHandler IP)
    (later : replay (MakeUrlRequestHandler.step svc json) h es = some h') :
    es.countP (·.ofChain) ≤ 103 ∧
      (h'.terminated = true ∨ (∃ shortUrl, Did h'.log (.sendWithEOM (chainResponse shortUrl))) ∨
        ∀ fail s, ∃ e next, (e = .cpu ∨ e = .db fail s ∨ e = .evb) ∧ h'.step svc json e = some next) := by
  have budget : DbBudget svc h :=
    run.invariant (DbBudget svc) (dbBudget_start svc) fun _ _ _ inv _ moved => inv.step moved
  obtain ⟨left, count, settled⟩ := (settling_of_underway budget under).replay later
  refine ⟨by omega, ?_⟩
  cases running : h'.terminated with
  | true => exact .inl rfl
  | false =>
    refine .inr ?_
    rcases settled.stands running with still | answered
    · exact .inr (chain_goes_on running still)
    · exact .inl answered

/-- The approved request whose first slug is free. -/
theorem create_finishes_approved : ∃ h, replay
      (MakeUrlRequestHandler.step (sampleShortening twoHashes) sampleJson) {} (sampleQuery ++ sampleApproval) =
        some h ∧ ∃ h', replay (MakeUrlRequestHandler.step (sampleShortening twoHashes) sampleJson) h
          [.cpu, .db none fun _ => none, .db none fun _ => none, .cpu, .evb] = some h' ∧
      (h'.terminated = true ∨ (∃ shortUrl, Did h'.log (.sendWithEOM (chainResponse shortUrl))) ∨
        ∀ fail s, ∃ e next, (e = .cpu ∨ e = .db fail s ∨ e = .evb) ∧
          h'.step (sampleShortening twoHashes) sampleJson e = some next) := by
  have run := Reachable.of_replay (MakeUrlRequestHandler.step (sampleShortening twoHashes) sampleJson) {}
    (sampleQuery ++ sampleApproval) rfl
  exact ⟨_, rfl, _, rfl, (create_finishes (sampleShortening twoHashes) sampleJson _ run trivial
    [.cpu, .db none fun _ => none, .db none fun _ => none, .cpu, .evb] _ rfl).2⟩

end UrlShortener
