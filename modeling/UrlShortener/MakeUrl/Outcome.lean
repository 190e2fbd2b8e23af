import UrlShortener.Logic.Transition
import UrlShortener.MakeUrl.Handler

/-!
# One outcome for a create request

No flag of the handler records that the promise was satisfied or that a response was
sent. `OneOutcome` is the condition on the order of events under which neither
happens twice: the captcha service's answer or error comes once and no client error
after it, and the request does not end after a failed connection attempt, whose
response leaves the chain waiting. `Course` ties the number of responses sent to the
stage of the chain. Without the condition the exception ends the process, or a second
response is sent (`two_outcomes`).
-/

namespace UrlShortener
set_option autoImplicit false
open AtomicStore Transition

variable {IP : Type} {svc : UrlShorteningConfig} {json : FollyJson}

def Action.isResponse : Action → Bool
  | .sendWithEOM _ => true
  | _ => false

/-- The responses with EOM sent so far. -/
def responses (log : List LogEntry) : Nat := log.countP fun e => e.action.isResponse

/-- The captcha service's answer, or its failure. -/
def Action.isAnswer : Action → Bool
  | .captchaServiceEOM _ _ => true
  | .captcha .onError => true
  | _ => false

/-- The captcha service has answered, or failed. -/
def Answered (log : List LogEntry) : Prop := ∃ e ∈ log, e.action.isAnswer = true

instance (log : List LogEntry) : Decidable (Answered log) := inferInstanceAs (Decidable (∃ e ∈ log, _))

/-- The event sets the promise. -/
def SetsPromise (h : MakeUrlRequestHandler IP) (e : MakeUrlEvent IP) : Prop :=
  e = .onError ∨ e = .captcha .onError ∨
    e = .captcha .onEOM ∧ h.txnHandler.cancelled = false ∧ h.txnHandler.headers ≠ none

/-- The order of events that keeps to one outcome. The factory makes the handler for
`POST` and `PUT` requests only. -/
structure OneOutcome (h : MakeUrlRequestHandler IP) (e : MakeUrlEvent IP) : Prop where
  routed : ∀ request, e = .onRequest request → request.method = some .post ∨ request.method = some .put
  /-- A live handler's promise is set before the captcha service has answered. -/
  first : SetsPromise h e → h.deleted = false → ¬ Answered h.log
  /-- The request does not end after a failed connection attempt. -/
  connected : e = .requestComplete ∨ e = .onError → h.connector ≠ .failed

/-- How many responses have been sent at a stage of the chain. -/
def Course (n : Nat) (connector : ConnectorState) : Chain → Prop
  | .notStarted => n ≤ 1 ∧ connector = .idle
  | .waiting _ => n ≤ 1 ∧ (connector ≠ .failed → n = 0)
  | .queuedCpu _ _ => n = 0 ∧ connector ≠ .failed ∧ connector ≠ .connecting
  | .shortening _ _ => n = 0 ∧ connector ≠ .failed ∧ connector ≠ .connecting
  | .queuedEvb _ => n = 0 ∧ connector ≠ .failed ∧ connector ≠ .connecting
  | .finished => n = 1 ∧ connector ≠ .failed ∧ connector ≠ .connecting

/-- The invariant. -/
structure SingleOutcome (h : MakeUrlRequestHandler IP) : Prop where
  once : ¬ Did h.log .alreadySatisfied
  answered : h.promise = .satisfied → Answered h.log
  destroyed : h.deleted = true → h.promise = .destroyed
  before : h.ingressComplete = false →
    responses h.log = 0 ∧ h.chain = .notStarted ∧ h.connector = .idle
  attached : h.txnHandler.attached = true → h.connector = .connected
  course : Course (responses h.log) h.connector h.chain

section Log

variable {log : List LogEntry}

theorem Answered.cons (e : LogEntry) (answered : Answered log) : Answered (e :: log) := by
  obtain ⟨answer, mem, is_answer⟩ := answered
  exact ⟨answer, List.mem_cons_of_mem _ mem, is_answer⟩

theorem answered_first (freed : Bool) {a : Action} (answer : a.isAnswer = true) :
    Answered (⟨freed, a⟩ :: log) := ⟨_, List.mem_cons_self, answer⟩

theorem responses_cons_response (freed : Bool) (r : Response) :
    responses (⟨freed, .sendWithEOM r⟩ :: log) = responses log + 1 := by
  unfold responses
  rw [List.countP_cons_of_pos rfl]

theorem responses_cons (freed : Bool) {a : Action} (other : a.isResponse = false) :
    responses (⟨freed, a⟩ :: log) = responses log := by
  unfold responses
  rw [List.countP_cons_of_neg (by simpa using other)]

end Log

section Course

variable {n : Nat} {connector : ConnectorState} {chain : Chain}

/-- At most one response at every stage. -/
theorem Course.bound (course : Course n connector chain) : n ≤ 1 := by
  cases chain with
  | notStarted => exact course.1
  | waiting longUrl => exact course.1
  | queuedCpu longUrl success => exact course.1 ▸ Nat.zero_le 1
  | shortening longUrl rest => exact course.1 ▸ Nat.zero_le 1
  | queuedEvb shortUrl => exact course.1 ▸ Nat.zero_le 1
  | finished => exact course.1 ▸ Nat.le_refl 1

/-- A connection attempt is pending only while the chain waits, and nothing has been
sent. -/
theorem Course.connecting (course : Course n .connecting chain) :
    n = 0 ∧ ∃ longUrl, chain = .waiting longUrl := by
  cases chain with
  | waiting longUrl => exact ⟨course.2 nofun, longUrl, rfl⟩
  | notStarted => exact absurd course.2 nofun
  | queuedCpu longUrl success => exact absurd rfl course.2.2
  | shortening longUrl rest => exact absurd rfl course.2.2
  | queuedEvb shortUrl => exact absurd rfl course.2.2
  | finished => exact absurd rfl course.2.2

/-- While the chain is under way nothing has been sent. -/
theorem course_underway (under : chain.Underway) :
    Course n connector chain ↔ n = 0 ∧ connector ≠ .failed ∧ connector ≠ .connecting := by
  cases chain with
  | notStarted | waiting _ | finished => exact absurd under id
  | queuedCpu _ _ | shortening _ _ | queuedEvb _ => exact Iff.rfl

/-- The promise completes the chain when no connection attempt is pending or has
failed. -/
theorem Course.complete (course : Course n connector chain) (json : FollyJson) (result : Option Bytes)
    (notFailed : connector ≠ .failed) (notPending : connector ≠ .connecting) :
    Course n connector (chain.complete json result) := by
  cases chain with
  | waiting longUrl => exact ⟨course.2 notFailed, notFailed, notPending⟩
  | notStarted => exact course
  | queuedCpu longUrl success => exact course
  | shortening longUrl rest => exact course
  | queuedEvb shortUrl => exact course
  | finished => exact course

/-- Deleting the handler drops a pending connection attempt. -/
theorem Course.drop (course : Course n connector chain) (json : FollyJson)
    (notFailed : connector ≠ .failed) :
    Course n (if connector = .connecting then .idle else connector) (chain.complete json none) := by
  split
  · rename_i pending
    subst pending
    obtain ⟨none, longUrl, rfl⟩ := course.connecting
    exact ⟨none, nofun, nofun⟩
  · rename_i notPending
    exact course.complete json none notFailed notPending

end Course

namespace SingleOutcome

variable {h h' : MakeUrlRequestHandler IP}

/-- What changes none of the members the invariant is about. -/
theorem keep (inv : SingleOutcome h) (log : h'.log = h.log) (promise : h'.promise = h.promise)
    (deleted : h'.deleted = h.deleted)
    (before : h'.ingressComplete = false → h.ingressComplete = false)
    (attached : h'.txnHandler.attached = true → h.connector = .connected)
    (connector : h'.connector = h.connector) (chain : h'.chain = h.chain) : SingleOutcome h' where
  once := by
    rw [log]
    exact inv.once
  answered := by
    rw [log, promise]
    exact inv.answered
  destroyed := by
    rw [deleted, promise]
    exact inv.destroyed
  before := by
    rw [log, chain, connector]
    exact fun early => inv.before (before early)
  attached := by
    rw [connector]
    exact attached
  course := by
    rw [log, connector, chain]
    exact inv.course

/-- An action that is no response. -/
theorem record (inv : SingleOutcome h) {a : Action} (quiet : a.isResponse = false)
    (other : a ≠ .alreadySatisfied) : SingleOutcome (h.record a) where
  once := fun did => inv.once (did.older other)
  answered := fun set => (inv.answered set).cons _
  destroyed := inv.destroyed
  before := by
    intro early
    obtain ⟨none, rest⟩ := inv.before early
    exact ⟨(responses_cons _ quiet).trans none, rest⟩
  attached := inv.attached
  course := by
    have count : responses (h.record a).log = responses h.log := responses_cons _ quiet
    rw [count]
    exact inv.course

/-- A response, when none has been sent. -/
theorem respond (inv : SingleOutcome h) (r : Response) (read : h'.ingressComplete = true)
    (log : h'.log = ⟨h.deleted, .sendWithEOM r⟩ :: h.log) (promise : h'.promise = h.promise)
    (deleted : h'.deleted = h.deleted)
    (attached : h'.txnHandler.attached = true → h'.connector = .connected)
    (course : Course (responses h.log + 1) h'.connector h'.chain) : SingleOutcome h' where
  once := by
    rw [log]
    exact fun did => inv.once (did.older nofun)
  answered := by
    rw [log, promise]
    exact fun set => (inv.answered set).cons _
  destroyed := by
    rw [deleted, promise]
    exact inv.destroyed
  before := by
    rw [read]
    nofun
  attached := attached
  course := by
    rw [log, responses_cons_response]
    exact course

/-- The stage changes, and no response is sent. -/
theorem stage (inv : SingleOutcome h) (log : h'.log = h.log) (promise : h'.promise = h.promise)
    (deleted : h'.deleted = h.deleted) (read : h'.ingressComplete = true)
    (attached : h'.txnHandler.attached = true → h'.connector = .connected)
    (course : Course (responses h.log) h'.connector h'.chain) : SingleOutcome h' where
  once := by
    rw [log]
    exact inv.once
  answered := by
    rw [log, promise]
    exact inv.answered
  destroyed := by
    rw [deleted, promise]
    exact inv.destroyed
  before := by
    rw [read]
    nofun
  attached := attached
  course := by
    rw [log]
    exact course

/-- The chain has not started before the input is read. -/
theorem read_of_started (inv : SingleOutcome h) (started : h.chain ≠ .notStarted) :
    h.ingressComplete = true := by
  by_contra early
  exact started (inv.before (by simpa using early)).2.1

theorem read_of_underway (inv : SingleOutcome h) (under : h.chain.Underway) :
    h.ingressComplete = true := by
  refine inv.read_of_started ?_
  intro waiting
  rw [waiting] at under
  exact under

/-- The chain goes on. -/
theorem goOn (inv : SingleOutcome h) {next : Chain} (under : h.chain.Underway) (after : next.Underway) :
    SingleOutcome { h with chain := next } := by
  have course := (course_underway under).mp inv.course
  exact inv.stage rfl rfl rfl (inv.read_of_underway under) inv.attached ((course_underway after).mpr course)

/-- The captcha service sets the promise for the first time. -/
theorem setPromise (inv : SingleOutcome h) (result : Option Bytes) (answered : Answered h.log)
    (connected : h.connector = .connected) (first : h.promise ≠ .satisfied) :
    SingleOutcome (h.setPromise json result) := by
  have notFailed : h.connector ≠ .failed := by rw [connected]; nofun
  have notPending : h.connector ≠ .connecting := by rw [connected]; nofun
  rcases MakeUrlRequestHandler.setPromise_cases json result h with
    ⟨unsatisfied, eq⟩ | ⟨satisfied, -⟩ | ⟨-, eq⟩
  · rw [eq]
    have recorded := inv.record (a := .satisfied result) rfl nofun
    refine ⟨recorded.once, fun _ => answered.cons _, ?_, ?_, recorded.attached, ?_⟩
    · intro deleted
      rw [inv.destroyed deleted] at unsatisfied
      cases unsatisfied
    · intro early
      obtain ⟨_, _, idle⟩ := inv.before early
      rw [connected] at idle
      cases idle
    · exact recorded.course.complete json result notFailed notPending
  · exact absurd satisfied first
  · rw [eq]
    exact inv.record rfl nofun

/-- The handler is deleted while no connection attempt has failed. -/
theorem erased (inv : SingleOutcome h) (notFailed : h.connector ≠ .failed) :
    SingleOutcome (h.erased json) := by
  have recorded := inv.record (a := .deleteThis) rfl nofun
  refine ⟨recorded.once, nofun, fun _ => rfl, ?_, ?_, recorded.course.drop json notFailed⟩
  · intro early
    obtain ⟨none, waiting, idle⟩ := recorded.before early
    refine ⟨none, ?_, ?_⟩
    · change h.chain = .notStarted at waiting
      simp [MakeUrlRequestHandler.erased, waiting, Chain.complete]
    · change h.connector = .idle at idle
      simp [MakeUrlRequestHandler.erased, idle]
  · intro attached
    have connected : h.connector = .connected := inv.attached attached
    simp [MakeUrlRequestHandler.erased, connected]

/-- The input is refused. -/
theorem refused (inv : SingleOutcome h) (early : h.ingressComplete = false) :
    SingleOutcome (MakeUrlRequestHandler.record (.sendWithEOM badRequest) { h with ingressComplete := true }) := by
  obtain ⟨none, waiting, idle⟩ := inv.before early
  refine inv.respond badRequest rfl rfl rfl rfl inv.attached ?_
  have chain : h.chain = .notStarted := waiting
  change Course _ h.connector h.chain
  rw [none, chain]
  exact ⟨Nat.le_refl 1, idle⟩

/-- The captcha query is set up. -/
theorem queried (inv : SingleOutcome h) (early : h.ingressComplete = false)
    (userCaptchaResponse longUrl : Bytes) :
    SingleOutcome { MakeUrlRequestHandler.record (.extracted userCaptchaResponse longUrl)
      { h with ingressComplete := true } with connector := .connecting, chain := .waiting longUrl } := by
  obtain ⟨none, -, idle⟩ := inv.before early
  have recorded := inv.record (a := .extracted userCaptchaResponse longUrl) rfl nofun
  refine recorded.stage rfl rfl rfl rfl ?_ ?_
  · intro attached
    have connected : h.connector = .connected := inv.attached attached
    rw [idle] at connected
    cases connected
  · have count : responses (⟨h.deleted, .extracted userCaptchaResponse longUrl⟩ :: h.log) = 0 :=
      (responses_cons _ rfl).trans none
    exact ⟨count ▸ Nat.zero_le 1, fun _ => count⟩

/-- The connection is there. -/
theorem connectSuccess (inv : SingleOutcome h) (pending : h.connector = .connecting) :
    SingleOutcome h.connectSuccess := by
  have course := inv.course
  rw [pending] at course
  obtain ⟨none, longUrl, chain⟩ := course.connecting
  refine inv.stage rfl rfl rfl ?_ (fun _ => rfl) ?_
  · exact inv.read_of_started (by rw [chain]; nofun)
  · change Course _ .connected h.chain
    rw [none, chain]
    exact ⟨Nat.zero_le 1, fun _ => rfl⟩

/-- The connection fails. -/
theorem connectError (inv : SingleOutcome h) (pending : h.connector = .connecting) :
    SingleOutcome h.connectError := by
  have course := inv.course
  rw [pending] at course
  obtain ⟨none, longUrl, chain⟩ := course.connecting
  have started : h.ingressComplete = true := inv.read_of_started (by rw [chain]; nofun)
  have notAttached : h.txnHandler.attached ≠ true := by
    intro attached
    have connected := inv.attached attached
    rw [pending] at connected
    cases connected
  unfold MakeUrlRequestHandler.connectError
  simp only
  split
  · have failed : SingleOutcome { h with connector := .failed } := by
      refine inv.stage rfl rfl rfl started (fun attached => absurd attached notAttached) ?_
      change Course _ .failed h.chain
      rw [none, chain]
      exact ⟨Nat.zero_le 1, fun _ => rfl⟩
    exact failed.record rfl nofun
  · refine inv.respond _ started rfl rfl rfl (fun attached => absurd attached notAttached) ?_
    change Course _ .failed h.chain
    rw [none, chain]
    exact ⟨Nat.le_refl 1, fun notFailed => absurd rfl notFailed⟩

/-- The last continuation responds. -/
theorem responds (inv : SingleOutcome h) {shortUrl : Option Bytes} (chain : h.chain = .queuedEvb shortUrl) :
    SingleOutcome { h.record (.sendWithEOM (chainResponse shortUrl)) with chain := .finished } := by
  have under : h.chain.Underway := by
    rw [chain]
    trivial
  have started := inv.read_of_underway under
  obtain ⟨none, free⟩ := (course_underway under).mp inv.course
  refine inv.respond (chainResponse shortUrl) started rfl rfl rfl inv.attached ?_
  exact ⟨congrArg (· + 1) none, free⟩

/-- **One step in the order of one outcome.** -/
theorem step {e : MakeUrlEvent IP} (inv : SingleOutcome h) (order : OneOutcome h e)
    (moved : h.step svc json e = some h') : SingleOutcome h' := by
  have unset (sets : SetsPromise h e) (answered : h.promise = .satisfied) : h.deleted = true := by
    by_contra live
    exact order.first sets (by simpa using live) (inv.answered answered)
  have first (sets : SetsPromise h e) : h.promise ≠ .satisfied := by
    intro satisfied
    have destroyed := inv.destroyed (unset sets satisfied)
    rw [satisfied] at destroyed
    cases destroyed
  have under {c : Chain} (here : h.chain = c) (going : c.Underway) : h.chain.Underway := by
    rw [here]
    exact going
  cases MakeUrlRequestHandler.step_cases moved with
  | @called request _ _ =>
    unfold MakeUrlRequestHandler.onRequest
    simp only
    split
    · rename_i refused
      rcases order.routed request rfl with post | put
      · exact absurd post refused.1
      · exact absurd put refused.2
    · exact inv.keep rfl rfl rfl id inv.attached rfl rfl
  | received _ => exact inv.keep rfl rfl rfl id inv.attached rfl rfl
  | ignored _ _ | crashed _ _ => exact inv.keep rfl rfl rfl nofun inv.attached rfl rfl
  | refused _ early => exact inv.refused early
  | @queryCrashed _ userCaptchaResponse longUrl _ early =>
    have recorded := inv.record (a := .extracted userCaptchaResponse longUrl) rfl nofun
    exact recorded.keep rfl rfl rfl nofun inv.attached rfl rfl
  | @queried _ userCaptchaResponse longUrl _ early _ _ =>
    exact inv.queried early userCaptchaResponse longUrl
  | completed _ => exact inv.erased (order.connected (.inl rfl))
  | failed _ running =>
    rcases MakeUrlRequestHandler.onError_cases json h running with ⟨satisfied, -⟩ | ⟨a, which, eq⟩
    · exact absurd satisfied (first (.inl rfl))
    · rw [eq]
      have recorded : SingleOutcome (h.record a) := by
        rcases which with rfl | rfl <;> exact inv.record rfl nofun
      exact recorded.erased (order.connected (.inr rfl))
  | connected pending => exact inv.connectSuccess pending
  | notConnected pending => exact inv.connectError pending
  | @captchaQuiet callback txn attached | @captchaCrashed callback txn attached =>
    have recorded := inv.record (a := .captcha callback) rfl nofun
    exact recorded.keep rfl rfl rfl id (fun _ => inv.attached attached) rfl rfl
  | @answered status body result txn attached _ running given _ =>
    have sets : SetsPromise h (.captcha .onEOM) :=
      .inr (.inr ⟨rfl, running, by rw [given]; nofun⟩)
    have recorded := inv.record (a := .captcha .onEOM) rfl nofun
    have called : SingleOutcome { h.record (.captcha .onEOM) with txnHandler := txn } :=
      recorded.keep rfl rfl rfl id (fun _ => inv.attached attached) rfl rfl
    have ended := called.record (a := .captchaServiceEOM status body) rfl nofun
    exact ended.setPromise result (answered_first _ rfl) (inv.attached attached) (first sets)
  | @captchaFailed txn attached _ =>
    have recorded := inv.record (a := .captcha .onError) rfl nofun
    have called : SingleOutcome { h.record (.captcha .onError) with txnHandler := txn } :=
      recorded.keep rfl rfl rfl id (fun _ => inv.attached attached) rfl rfl
    exact called.setPromise none (answered_first _ rfl) (inv.attached attached) (first (.inr (.inl rfl)))
  | @shortens longUrl chain =>
    have recorded := inv.record (a := .shorten longUrl) rfl nofun
    exact recorded.goOn (under chain trivial) trivial
  | refusedByCaptcha chain | passesException chain | shortened chain =>
    exact inv.goOn (under chain trivial) trivial
  | undefined _ => exact inv.keep rfl rfl rfl id inv.attached rfl rfl
  | @reads _ _ _ slug _ chain =>
    have recorded := inv.record (a := .get slug) rfl nofun
    exact recorded.goOn (under chain trivial) trivial
  | @writes fail _ _ slug value _ chain =>
    have recorded := inv.record (a := .put slug value fail) rfl nofun
    exact recorded.goOn (under chain trivial) trivial
  | responds chain => exact inv.responds chain

end SingleOutcome

/-- An event that neither sets the promise nor ends the request. -/
theorem oneOutcome_goesOn {h : MakeUrlRequestHandler IP} {e : MakeUrlEvent IP}
    (routed : ∀ request, e = .onRequest request →
      request.method = some .post ∨ request.method = some .put)
    (onError : e ≠ .onError) (captchaError : e ≠ .captcha .onError) (captchaEOM : e ≠ .captcha .onEOM)
    (requestComplete : e ≠ .requestComplete) : OneOutcome h e where
  routed := routed
  first := by
    rintro (same | same | ⟨same, -⟩)
    · exact absurd same onError
    · exact absurd same captchaError
    · exact absurd same captchaEOM
  connected := by
    rintro (same | same)
    · exact absurd same requestComplete
    · exact absurd same onError

/-- **One outcome.** In every run in the order of `OneOutcome` the promise is not set
twice and at most one response with EOM is sent. -/
theorem single_outcome (svc : UrlShorteningConfig) (json : FollyJson) (h : MakeUrlRequestHandler IP)
    (run : Runs (MakeUrlRequestHandler.step svc json) OneOutcome ({} : MakeUrlRequestHandler IP) h) :
    ¬ Did h.log .alreadySatisfied ∧ responses h.log ≤ 1 := by
  have start : SingleOutcome ({} : MakeUrlRequestHandler IP) := by
    refine ⟨?_, nofun, nofun, fun _ => ⟨rfl, rfl, rfl⟩, nofun, ⟨Nat.zero_le 1, rfl⟩⟩
    rintro ⟨_, mem⟩
    cases mem
  have inv := run.invariant SingleOutcome start fun _ _ _ inv order moved => inv.step order moved
  exact ⟨inv.once, inv.course.bound⟩

/-- The captcha service refuses. -/
theorem single_outcome_refusal : ∃ h, replay
      (MakeUrlRequestHandler.step (sampleShortening twoHashes) sampleJson) {}
      (sampleQuery ++ sampleRefusal ++ [.cpu, .evb]) = some h ∧
    h.chain = .finished ∧ ¬ Did h.log .alreadySatisfied ∧ responses h.log ≤ 1 := by
  have asked : ∀ e ∈ sampleQuery ++ [.connectSuccess, .captcha (.onHeadersComplete 500)], ∀ h,
      OneOutcome h e := by
    intro e mem h
    simp only [sampleQuery, List.cons_append, List.nil_append, List.mem_cons, List.not_mem_nil,
      or_false] at mem
    rcases mem with rfl | rfl | rfl | rfl | rfl <;>
      refine oneOutcome_goesOn ?_ nofun nofun nofun nofun <;> rintro request same <;> cases same
    exact .inl rfl
  have rest : ∀ e ∈ [.captcha .detachTransaction, .cpu, .evb], ∀ h : MakeUrlRequestHandler Unit,
      OneOutcome h e := by
    intro e mem h
    simp only [List.mem_cons, List.not_mem_nil, or_false] at mem
    rcases mem with rfl | rfl | rfl <;> exact oneOutcome_goesOn nofun nofun nofun nofun nofun
  have before := Runs.of_replay (MakeUrlRequestHandler.step (sampleShortening twoHashes) sampleJson) {}
    (sampleQuery ++ [.connectSuccess, .captcha (.onHeadersComplete 500)]) rfl asked
  have answer := before.snoc (e := .captcha .onEOM) ⟨nofun, fun _ _ => by decide, nofun⟩ rfl
  have whole := answer.trans (Runs.of_replay _ _ [.captcha .detachTransaction, .cpu, .evb] rfl rest)
  refine ⟨_, rfl, rfl, ?_⟩
  exact single_outcome (sampleShortening twoHashes) sampleJson _ whole

/-- A client error after the captcha service's answer throws out of `onError`; and a
failed connection attempt followed by a client error sends two responses. -/
theorem two_outcomes :
    (∃ h, replay (MakeUrlRequestHandler.step (sampleShortening twoHashes) sampleJson) {}
        (sampleQuery ++ sampleApproval ++ [.onError]) = some h ∧
      ⟨false, .alreadySatisfied⟩ ∈ h.log ∧ h.terminated = true) ∧
    (∃ h, replay (MakeUrlRequestHandler.step (sampleShortening twoHashes) sampleJson) {}
        (sampleQuery ++ [.connectError, .onError, .cpu, .evb]) = some h ∧ responses h.log = 2) :=
  ⟨⟨_, rfl, by decide, rfl⟩, ⟨_, rfl, by decide⟩⟩

end UrlShortener
