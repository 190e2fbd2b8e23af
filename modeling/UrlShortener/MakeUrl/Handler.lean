import UrlShortener.Http
import UrlShortener.Json
import UrlShortener.MakeUrl.Shorten

/-!
# `make_url_request_handler.cc`: the handler of a create request

The handler as a state machine: its members, the connection attempt, the captcha
transaction, the promise and how far the chain of futures behind it has come.
`MakeUrlRequestHandler.step` is one callback of the downstream, of the connector or
of the transaction, or one step of the chain on the CPU executor or the event base.
Destroying the unsatisfied promise completes its future with an exception. The
members of a deleted handler are still there for what uses them, and `log` keeps
with each action whether it was one on a deleted handler. `step_cases` says
everything a step can do.
-/

namespace UrlShortener
set_option autoImplicit false
open AtomicStore

/-- The callbacks of the captcha service's transaction. -/
inductive CaptchaCallback where
  | onHeadersComplete (status : Nat)
  | onBody (chain : Bytes)
  | onEOM
  | onError
  | detachTransaction
  deriving DecidableEq, Repr

/-- What a handler does. -/
inductive Action where
  /-- `onEOM` read the two parameters. -/
  | extracted (userCaptchaResponse longUrl : Bytes)
  /-- A response with EOM. -/
  | sendWithEOM (r : Response)
  | sendAbort
  | captcha (callback : CaptchaCallback)
  /-- `on_captcha_service_EOM` got these headers and this body. -/
  | captchaServiceEOM (status : Nat) (body : Option Bytes)
  /-- The promise was satisfied, by an exception if there is no value. -/
  | satisfied (result : Option Bytes)
  /-- `PromiseAlreadySatisfied` was thrown. -/
  | alreadySatisfied
  /-- The promise used was destroyed. -/
  | setDestroyed
  | shorten (longUrl : Bytes)
  | get (slug : Bytes)
  /-- A write, with its failure if it did not go through. -/
  | put (slug longUrl : Bytes) (failure : Option RocksFailure)
  | deleteThis
  deriving DecidableEq, Repr

/-- An action, and whether the handler had been deleted before it. -/
structure LogEntry where
  freed : Bool
  action : Action
  deriving DecidableEq, Repr

/-- The action is in the log. -/
def Did (log : List LogEntry) (a : Action) : Prop := ∃ freed, ⟨freed, a⟩ ∈ log

theorem Did.cons {log : List LogEntry} {a : Action} (e : LogEntry) (did : Did log a) :
    Did (e :: log) a := by
  obtain ⟨freed, mem⟩ := did
  exact ⟨freed, List.mem_cons_of_mem _ mem⟩

theorem did_first (freed : Bool) (a : Action) (log : List LogEntry) : Did (⟨freed, a⟩ :: log) a :=
  ⟨freed, List.mem_cons_self⟩

theorem Did.older {log : List LogEntry} {a : Action} {e : LogEntry} (did : Did (e :: log) a)
    (other : e.action ≠ a) : Did log a := by
  obtain ⟨freed, mem⟩ := did
  rcases List.mem_cons.mp mem with rfl | old
  · exact absurd rfl other
  · exact ⟨freed, old⟩

inductive ConnectorState where
  | idle | connecting | connected | failed
  deriving DecidableEq, Repr

inductive PromiseState where
  | unsatisfied | satisfied | destroyed
  deriving DecidableEq, Repr

/-- The chain of futures behind `query_captcha_service`. A result that is an
exception is `none`. -/
inductive Chain where
  | notStarted
  /-- Waiting for the promise. -/
  | waiting (longUrl : Bytes)
  /-- Queued on the CPU executor. -/
  | queuedCpu (longUrl : Bytes) (success : Option Bool)
  /-- In `do_shorten_url`. -/
  | shortening (longUrl : Bytes) (rest : DbProg (Except Undefined Bytes))
  /-- Queued on the event base. -/
  | queuedEvb (shortUrl : Option Bytes)
  | finished

/-- `CaptchaServiceHTTPTransactionHandler`. -/
structure CaptchaTransactionHandler where
  attached : Bool := false
  cancelled : Bool := false
  headers : Option Nat := none
  body : Option Bytes := none

structure MakeUrlRequestHandler (IP : Type) where
  headers : Option (HTTPMessage IP) := none
  body : Option Bytes := none
  ingressComplete : Bool := false
  clientTerminated : Bool := false
  connector : ConnectorState := .idle
  txnHandler : CaptchaTransactionHandler := {}
  promise : PromiseState := .unsatisfied
  chain : Chain := .notStarted
  deleted : Bool := false
  /-- The process has been terminated. -/
  terminated : Bool := false
  /-- Newest first. -/
  log : List LogEntry := []

inductive MakeUrlEvent (IP : Type) where
  | onRequest (request : HTTPMessage IP)
  | onBody (body : Bytes)
  /-- `throws`: looking up the captcha service or setting up TLS throws. -/
  | onEOM (throws : Bool)
  | requestComplete
  | onError
  | connectSuccess
  | connectError
  | captcha (callback : CaptchaCallback)
  /-- The CPU executor goes on with the chain. -/
  | cpu
  /-- The database answers, from the store `s`, with failure `fail`. -/
  | db (fail : Option RocksFailure) (s : UrlStore)
  /-- The event base goes on with the chain. -/
  | evb

/-- The body of the first `thenValue`: the verdict in the captcha service's reply. -/
def captchaVerdict (json : FollyJson) (result : Bytes) : Option Bool :=
  match json.parseJson result with
  | none => none
  | some d =>
    if d.isObject ∧ ¬ (d.get (bytes "success")).isNull then json.asBool (d.get (bytes "success"))
    else none

/-- The promise completes its future: the first `thenValue` runs at once and the next
one is queued. -/
def Chain.complete (json : FollyJson) (result : Option Bytes) : Chain → Chain
  | .waiting longUrl => .queuedCpu longUrl (result.bind (captchaVerdict json))
  | c => c

/-- The promise is set and the response not yet sent. -/
def Chain.Underway : Chain → Prop
  | .queuedCpu _ _ => True
  | .shortening _ _ => True
  | .queuedEvb _ => True
  | _ => False

/-- The parameters `onEOM` reads from the body, unless an exception escapes. -/
def parseInput (json : FollyJson) (body : Bytes) : Option (Bytes × Bytes) :=
  match json.parseJson body with
  | none => none
  | some d =>
    if d.isObject ∧ ¬ (d.get (bytes "user_captcha_response")).isNull ∧
        ¬ (d.get (bytes "long_url")).isNull then do
      let userCaptchaResponse ← json.asString (d.get (bytes "user_captcha_response"))
      let longUrl ← json.asString (d.get (bytes "long_url"))
      return (userCaptchaResponse, longUrl)
    else some ([], [])

/-- The response at the end of the chain. -/
def chainResponse (shortUrl : Option Bytes) : Response :=
  let headers := [(bytes "Access-Control-Allow-Origin", bytes "*")]
  match shortUrl with
  | none => { status := 500, reason := bytes "Internal Server Error", headers }
  | some [] => { status := 400, reason := bytes "Bad Request", headers }
  | some slug => { status := 200, reason := bytes "OK", headers, body := slug }

def badRequest : Response := { status := 400, reason := bytes "Bad Request" }

namespace MakeUrlRequestHandler

variable {IP : Type}

def record (a : Action) (h : MakeUrlRequestHandler IP) : MakeUrlRequestHandler IP :=
  { h with log := ⟨h.deleted, a⟩ :: h.log }

def terminate (h : MakeUrlRequestHandler IP) : MakeUrlRequestHandler IP :=
  { h with terminated := true }

/-- `setValue` and `setException`, called where no exception may escape. -/
def setPromise (json : FollyJson) (result : Option Bytes) (h : MakeUrlRequestHandler IP) :
    MakeUrlRequestHandler IP :=
  match h.promise with
  | .unsatisfied =>
    { h.record (.satisfied result) with
      promise := .satisfied, chain := h.chain.complete json result }
  | .satisfied => (h.record .alreadySatisfied).terminate
  | .destroyed => h.record .setDestroyed

/-- `delete this`: the connector drops its attempt, the promise breaks. -/
def deleteThis (json : FollyJson) (h : MakeUrlRequestHandler IP) : MakeUrlRequestHandler IP :=
  { h.record .deleteThis with
    deleted := true
    connector := if h.connector = .connecting then .idle else h.connector
    promise := .destroyed
    chain := h.chain.complete json none }

def onRequest (request : HTTPMessage IP) (h : MakeUrlRequestHandler IP) : MakeUrlRequestHandler IP :=
  let h := { h with headers := some request }
  if request.method ≠ some .post ∧ request.method ≠ some .put then
    h.record (.sendWithEOM { status := 405, reason := bytes "Method Not Allowed" })
  else h

def onBody (body : Bytes) (h : MakeUrlRequestHandler IP) : MakeUrlRequestHandler IP :=
  match h.body with
  | some chain => { h with body := some (chain ++ body) }
  | none => { h with body := some body }

/-- `onEOM`. The captcha query ends with the connection attempt and the chain waiting
for the promise. -/
def onEOM (json : FollyJson) (throws : Bool) (h : MakeUrlRequestHandler IP) :
    MakeUrlRequestHandler IP :=
  if h.clientTerminated then h
  else
    -- no return after this response
    let h := if h.headers.isNone then h.record (.sendWithEOM badRequest) else h
    match h.body with
    | none => h.record (.sendWithEOM badRequest)
    | some body =>
      match parseInput json body with
      | none => h.terminate
      | some (userCaptchaResponse, longUrl) =>
        if userCaptchaResponse = [] then h.record (.sendWithEOM badRequest)
        else if longUrl = [] then h.record (.sendWithEOM badRequest)
        else
          let h := h.record (.extracted userCaptchaResponse longUrl)
          if throws then h.terminate
          else { h with connector := .connecting, chain := .waiting longUrl }

def requestComplete (json : FollyJson) (h : MakeUrlRequestHandler IP) : MakeUrlRequestHandler IP :=
  { h with clientTerminated := true }.deleteThis json

def onError (json : FollyJson) (h : MakeUrlRequestHandler IP) : MakeUrlRequestHandler IP :=
  let h := { h with clientTerminated := true }.setPromise json none
  if h.terminated then h else h.deleteThis json

def connectSuccess (h : MakeUrlRequestHandler IP) : MakeUrlRequestHandler IP :=
  { h with
    connector := .connected
    txnHandler := { h.txnHandler with attached := true, cancelled := false } }

def connectError (h : MakeUrlRequestHandler IP) : MakeUrlRequestHandler IP :=
  let h := { h with connector := .failed }
  if h.clientTerminated then h.record .sendAbort
  else h.record (.sendWithEOM { status := 503, reason := bytes "Bad Gateway" })

/-- `on_captcha_service_EOM`. -/
def onCaptchaServiceEOM (json : FollyJson) (headers : Option Nat) (body : Option Bytes)
    (h : MakeUrlRequestHandler IP) : MakeUrlRequestHandler IP :=
  match headers with
  | none => h.terminate
  | some status =>
    let h := h.record (.captchaServiceEOM status body)
    if status ≠ 200 then h.setPromise json none
    else
      match body with
      | none => h.setPromise json none
      | some body => h.setPromise json (some body)

/-- The callbacks of `CaptchaServiceHTTPTransactionHandler`. -/
def onCaptcha (json : FollyJson) (callback : CaptchaCallback) (h : MakeUrlRequestHandler IP) :
    MakeUrlRequestHandler IP :=
  let h := h.record (.captcha callback)
  let txn := h.txnHandler
  match callback with
  | .onHeadersComplete status => { h with txnHandler := { txn with headers := some status } }
  | .onBody chain =>
    if txn.cancelled then h.terminate
    else { h with txnHandler := { txn with body := some (txn.body.getD [] ++ chain) } }
  | .onEOM =>
    if txn.cancelled then h
    else
      { h with txnHandler := { txn with headers := none, body := none } }.onCaptchaServiceEOM json
        txn.headers txn.body
  | .onError => { h with txnHandler := { txn with cancelled := true } }.setPromise json none
  | .detachTransaction => { h with txnHandler := { txn with cancelled := true, attached := false } }

/-- The CPU executor: the second `thenValue` starts, or hands its result on. -/
def cpu (svc : UrlShorteningConfig) (h : MakeUrlRequestHandler IP) :
    Option (MakeUrlRequestHandler IP) :=
  match h.chain with
  | .queuedCpu longUrl (some true) =>
    some { h.record (.shorten longUrl) with chain := .shortening longUrl (doShortenUrl svc longUrl) }
  | .queuedCpu _ (some false) => some { h with chain := .queuedEvb (some []) }
  | .queuedCpu _ none => some { h with chain := .queuedEvb none }
  | .shortening _ (.ret (.ok shortUrl)) => some { h with chain := .queuedEvb (some shortUrl) }
  | .shortening _ (.ret (.error _)) => some h.terminate
  | _ => none

/-- The next database operation of `do_shorten_url`. -/
def db (fail : Option RocksFailure) (s : UrlStore) (h : MakeUrlRequestHandler IP) :
    Option (MakeUrlRequestHandler IP) :=
  match h.chain with
  | .shortening longUrl (.get slug next) =>
    some { h.record (.get slug) with chain := .shortening longUrl (next (readReply fail s slug)) }
  | .shortening longUrl (.put slug value next) =>
    some { h.record (.put slug value fail) with chain := .shortening longUrl (next (writeReply fail)) }
  | _ => none

/-- The event base: the last `thenValue`, or `thenError`, responds. -/
def evb (h : MakeUrlRequestHandler IP) : Option (MakeUrlRequestHandler IP) :=
  match h.chain with
  | .queuedEvb shortUrl =>
    some { h.record (.sendWithEOM (chainResponse shortUrl)) with chain := .finished }
  | _ => none

/-- One step. proxygen calls `onRequest` once and first, `onEOM` once, and nothing
after `requestComplete` or `onError`; destroying the connector drops its callbacks. -/
def step (svc : UrlShorteningConfig) (json : FollyJson) (h : MakeUrlRequestHandler IP)
    (e : MakeUrlEvent IP) : Option (MakeUrlRequestHandler IP) :=
  if h.terminated then none
  else
    match e with
    | .onRequest request =>
      if h.deleted ∨ h.headers.isSome then none else some (h.onRequest request)
    | .onBody body => if h.deleted ∨ h.headers.isNone then none else some (h.onBody body)
    | .onEOM throws =>
      if h.deleted ∨ h.headers.isNone ∨ h.ingressComplete then none
      else some ({ h with ingressComplete := true }.onEOM json throws)
    | .requestComplete => if h.deleted then none else some (h.requestComplete json)
    | .onError => if h.deleted then none else some (h.onError json)
    | .connectSuccess => if h.connector = .connecting then some h.connectSuccess else none
    | .connectError => if h.connector = .connecting then some h.connectError else none
    | .captcha callback => if h.txnHandler.attached then some (h.onCaptcha json callback) else none
    | .cpu => h.cpu svc
    | .db fail s => h.db fail s
    | .evb => h.evb

/-- Everything a step can do, the callbacks of the transaction that touch neither the
promise nor the response being one case. The members not named keep their values. -/
inductive Moves (svc : UrlShorteningConfig) (json : FollyJson) (h : MakeUrlRequestHandler IP) :
    MakeUrlEvent IP → MakeUrlRequestHandler IP → Prop where
  | called {request : HTTPMessage IP} : h.deleted = false → h.headers = none →
      Moves svc json h (.onRequest request) (h.onRequest request)
  | received {body : Bytes} {chain : Option Bytes} : h.deleted = false →
      Moves svc json h (.onBody body) { h with body := chain }
  | ignored {throws : Bool} : h.deleted = false → h.ingressComplete = false →
      Moves svc json h (.onEOM throws) { h with ingressComplete := true }
  | refused {throws : Bool} : h.deleted = false → h.ingressComplete = false →
      Moves svc json h (.onEOM throws)
        (record (.sendWithEOM badRequest) { h with ingressComplete := true })
  | crashed {throws : Bool} : h.deleted = false → h.ingressComplete = false →
      Moves svc json h (.onEOM throws) (terminate { h with ingressComplete := true })
  | queryCrashed {throws : Bool} {userCaptchaResponse longUrl : Bytes} : h.deleted = false →
      h.ingressComplete = false →
      Moves svc json h (.onEOM throws)
        (record (.extracted userCaptchaResponse longUrl) { h with ingressComplete := true }).terminate
  | queried {throws : Bool} {userCaptchaResponse longUrl : Bytes} : h.deleted = false →
      h.ingressComplete = false → userCaptchaResponse ≠ [] → longUrl ≠ [] →
      Moves svc json h (.onEOM throws)
        { record (.extracted userCaptchaResponse longUrl) { h with ingressComplete := true } with
          connector := .connecting, chain := .waiting longUrl }
  | completed : h.deleted = false → Moves svc json h .requestComplete (h.requestComplete json)
  | failed : h.deleted = false → h.terminated = false → Moves svc json h .onError (h.onError json)
  | connected : h.connector = .connecting → Moves svc json h .connectSuccess h.connectSuccess
  | notConnected : h.connector = .connecting → Moves svc json h .connectError h.connectError
  | captchaQuiet {callback : CaptchaCallback} (txn : CaptchaTransactionHandler) :
      h.txnHandler.attached = true →
      Moves svc json h (.captcha callback) { h.record (.captcha callback) with txnHandler := txn }
  | captchaCrashed {callback : CaptchaCallback} (txn : CaptchaTransactionHandler) :
      h.txnHandler.attached = true →
      Moves svc json h (.captcha callback)
        (terminate { h.record (.captcha callback) with txnHandler := txn })
  | answered {status : Nat} {body result : Option Bytes} {txn : CaptchaTransactionHandler} :
      h.txnHandler.attached = true → txn.attached = true → h.txnHandler.cancelled = false →
      h.txnHandler.headers = some status → (∀ b, result = some b → status = 200 ∧ body = some b) →
      Moves svc json h (.captcha .onEOM)
        (setPromise json result (record (.captchaServiceEOM status body)
          { h.record (.captcha .onEOM) with txnHandler := txn }))
  | captchaFailed {txn : CaptchaTransactionHandler} :
      h.txnHandler.attached = true → txn.attached = true →
      Moves svc json h (.captcha .onError)
        (setPromise json none { h.record (.captcha .onError) with txnHandler := txn })
  | shortens {longUrl : Bytes} : h.chain = .queuedCpu longUrl (some true) →
      Moves svc json h .cpu
        { h.record (.shorten longUrl) with chain := .shortening longUrl (doShortenUrl svc longUrl) }
  | refusedByCaptcha {longUrl : Bytes} : h.chain = .queuedCpu longUrl (some false) →
      Moves svc json h .cpu { h with chain := .queuedEvb (some []) }
  | passesException {longUrl : Bytes} : h.chain = .queuedCpu longUrl none →
      Moves svc json h .cpu { h with chain := .queuedEvb none }
  | shortened {longUrl shortUrl : Bytes} : h.chain = .shortening longUrl (.ret (.ok shortUrl)) →
      Moves svc json h .cpu { h with chain := .queuedEvb (some shortUrl) }
  | undefined {longUrl : Bytes} {u : Undefined} : h.chain = .shortening longUrl (.ret (.error u)) →
      Moves svc json h .cpu h.terminate
  | reads {fail : Option RocksFailure} {s : UrlStore} {longUrl slug : Bytes} {next} :
      h.chain = .shortening longUrl (.get slug next) →
      Moves svc json h (.db fail s)
        { h.record (.get slug) with chain := .shortening longUrl (next (readReply fail s slug)) }
  | writes {fail : Option RocksFailure} {s : UrlStore} {longUrl slug value : Bytes} {next} :
      h.chain = .shortening longUrl (.put slug value next) →
      Moves svc json h (.db fail s)
        { h.record (.put slug value fail) with chain := .shortening longUrl (next (writeReply fail)) }
  | responds {shortUrl : Option Bytes} : h.chain = .queuedEvb shortUrl →
      Moves svc json h .evb
        { h.record (.sendWithEOM (chainResponse shortUrl)) with chain := .finished }

section

variable {svc : UrlShorteningConfig} {json : FollyJson} {h h' : MakeUrlRequestHandler IP}

theorem onEOM_moves {throws : Bool} (live : h.deleted = false) (called : h.headers.isSome)
    (first : h.ingressComplete = false) :
    Moves svc json h (.onEOM throws) (onEOM json throws { h with ingressComplete := true }) := by
  have present : h.headers.isNone = false := by
    cases given : h.headers with
    | none => rw [given] at called; cases called
    | some _ => rfl
  simp only [onEOM, present]
  split
  · exact .ignored live first
  · simp only [Bool.false_eq_true, if_false]
    split
    · exact .refused live first
    · split
      · exact .crashed live first
      · split
        · exact .refused live first
        · split
          · exact .refused live first
          · rename_i hasResponse hasUrl
            split
            · exact .queryCrashed live first
            · exact .queried live first hasResponse hasUrl

theorem onCaptcha_moves {callback : CaptchaCallback} (attached : h.txnHandler.attached = true) :
    Moves svc json h (.captcha callback) (h.onCaptcha json callback) := by
  cases callback with
  | onHeadersComplete status => exact .captchaQuiet _ attached
  | onBody chain =>
    simp only [onCaptcha]
    split
    · exact .captchaCrashed h.txnHandler attached
    · exact .captchaQuiet _ attached
  | onEOM =>
    simp only [onCaptcha]
    split
    · exact .captchaQuiet h.txnHandler attached
    · rename_i running
      have running : h.txnHandler.cancelled = false := by simpa [record] using running
      simp only [onCaptchaServiceEOM]
      split
      · exact .captchaCrashed _ attached
      · rename_i status given
        split
        · exact .answered attached attached running given nofun
        · rename_i ok
          have ok : status = 200 := by simpa using ok
          split
          · exact .answered attached attached running given nofun
          · rename_i body some_
            refine .answered attached attached running given fun b same => ?_
            cases same
            exact ⟨ok, some_⟩
  | onError => exact .captchaFailed attached attached
  | detachTransaction => exact .captchaQuiet _ attached

theorem cpu_moves (moved : h.cpu svc = some h') : Moves svc json h .cpu h' := by
  unfold cpu at moved
  split at moved <;> rename_i stage
  · cases moved
    exact .shortens stage
  · cases moved
    exact .refusedByCaptcha stage
  · cases moved
    exact .passesException stage
  · cases moved
    exact .shortened stage
  · cases moved
    exact .undefined stage
  · cases moved

theorem db_moves {fail : Option RocksFailure} {s : UrlStore} (moved : h.db fail s = some h') :
    Moves svc json h (.db fail s) h' := by
  unfold db at moved
  split at moved <;> rename_i stage
  · cases moved
    exact .reads stage
  · cases moved
    exact .writes stage
  · cases moved

theorem evb_moves (moved : h.evb = some h') : Moves svc json h .evb h' := by
  unfold evb at moved
  split at moved <;> rename_i stage
  · cases moved
    exact .responds stage
  · cases moved

/-- **Everything a step can do.** -/
theorem step_cases {e : MakeUrlEvent IP} (moved : h.step svc json e = some h') :
    Moves svc json h e h' := by
  simp only [step, Option.ite_none_left_eq_some] at moved
  obtain ⟨running, moved⟩ := moved
  cases e with
  | onRequest request =>
    simp only [Option.ite_none_left_eq_some, not_or, Option.some.injEq] at moved
    obtain ⟨⟨live, first⟩, rfl⟩ := moved
    exact .called (by simpa using live) (by simpa using first)
  | onBody body =>
    simp only [Option.ite_none_left_eq_some, not_or, Option.some.injEq] at moved
    obtain ⟨⟨live, -⟩, rfl⟩ := moved
    unfold onBody
    split <;> exact .received (by simpa using live)
  | onEOM throws =>
    simp only [Option.ite_none_left_eq_some, not_or, Option.some.injEq] at moved
    obtain ⟨⟨live, called, first⟩, rfl⟩ := moved
    refine onEOM_moves (by simpa using live) ?_ (by simpa using first)
    simpa [Option.isSome_iff_ne_none] using called
  | requestComplete =>
    simp only [Option.ite_none_left_eq_some, Option.some.injEq] at moved
    obtain ⟨live, rfl⟩ := moved
    exact .completed (by simpa using live)
  | onError =>
    simp only [Option.ite_none_left_eq_some, Option.some.injEq] at moved
    obtain ⟨live, rfl⟩ := moved
    exact .failed (by simpa using live) (by simpa using running)
  | connectSuccess =>
    simp only [Option.ite_none_right_eq_some, Option.some.injEq] at moved
    obtain ⟨pending, rfl⟩ := moved
    exact .connected pending
  | connectError =>
    simp only [Option.ite_none_right_eq_some, Option.some.injEq] at moved
    obtain ⟨pending, rfl⟩ := moved
    exact .notConnected pending
  | captcha callback =>
    simp only [Option.ite_none_right_eq_some, Option.some.injEq] at moved
    obtain ⟨attached, rfl⟩ := moved
    exact onCaptcha_moves attached
  | cpu => exact cpu_moves moved
  | db fail s => exact db_moves moved
  | evb => exact evb_moves moved

/-- What setting the promise does. -/
theorem setPromise_cases (json : FollyJson) (result : Option Bytes) (h : MakeUrlRequestHandler IP) :
    (h.promise = .unsatisfied ∧ h.setPromise json result =
      { h.record (.satisfied result) with
        promise := .satisfied, chain := h.chain.complete json result }) ∨
    (h.promise = .satisfied ∧ h.setPromise json result = (h.record .alreadySatisfied).terminate) ∨
    (h.promise = .destroyed ∧ h.setPromise json result = h.record .setDestroyed) := by
  unfold setPromise
  split <;> rename_i state
  · exact .inl ⟨state, rfl⟩
  · exact .inr (.inl ⟨state, rfl⟩)
  · exact .inr (.inr ⟨state, rfl⟩)

/-- A completed chain is not completed again. -/
theorem complete_complete (chain : Chain) (first second : Option Bytes) :
    (chain.complete json first).complete json second = chain.complete json first := by
  cases chain <;> rfl

/-- The handler after `delete this`, with the actions that led to it. -/
def erased (json : FollyJson) (h : MakeUrlRequestHandler IP) : MakeUrlRequestHandler IP :=
  { h.record .deleteThis with
    clientTerminated := true
    deleted := true
    connector := if h.connector = .connecting then .idle else h.connector
    promise := .destroyed
    chain := h.chain.complete json none }

/-- `onError` deletes the handler, unless its exception ends the process. -/
theorem onError_cases (json : FollyJson) (h : MakeUrlRequestHandler IP) (running : h.terminated = false) :
    (h.promise = .satisfied ∧ h.onError json =
      (record .alreadySatisfied { h with clientTerminated := true }).terminate) ∨
    (∃ a, (a = .satisfied none ∨ a = .setDestroyed) ∧ h.onError json = (h.record a).erased json) := by
  unfold onError
  rcases setPromise_cases json none { h with clientTerminated := true } with
    ⟨-, eq⟩ | ⟨state, eq⟩ | ⟨-, eq⟩ <;> rw [eq]
  · refine .inr ⟨.satisfied none, .inl rfl, ?_⟩
    simp [record, erased, deleteThis, running, complete_complete]
  · exact .inl ⟨state, by simp [terminate]⟩
  · refine .inr ⟨.setDestroyed, .inr rfl, ?_⟩
    simp [record, erased, deleteThis, running]

end

end MakeUrlRequestHandler

/-- A create request up to the connection attempt. -/
def sampleQuery : List (MakeUrlEvent Unit) :=
  [.onRequest ⟨some .post, bytes "/api/v1/create", [], ()⟩, .onBody sampleBody, .onEOM false]

/-- The captcha service approves. -/
def sampleApproval : List (MakeUrlEvent Unit) :=
  [.connectSuccess, .captcha (.onHeadersComplete 200), .captcha (.onBody sampleReply), .captcha .onEOM]

/-- The captcha service refuses and its transaction ends. -/
def sampleRefusal : List (MakeUrlEvent Unit) :=
  [.connectSuccess, .captcha (.onHeadersComplete 500), .captcha .onEOM, .captcha .detachTransaction]

end UrlShortener
