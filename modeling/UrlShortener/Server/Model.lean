import UrlShortener.MakeUrl.Handler
import UrlShortener.RateLimit
import UrlShortener.RedirectLifetime
import UrlShortener.WebServer

/-!
# The server

Any number of transactions share one database and one rate limiter. A request is routed
by `MyRequestHandlerFactory` and charged by `AntiAbuseProtection`, which may wrap the
handler in a `RateLimitFilter`. From then on proxygen calls the outermost handler of the
transaction, while the connectors, the captcha transactions, the CPU pool and the event
base work for the handlers; every database operation is one atomic step on the store of
that moment. `Server.step` is one such event, and `Server.step_cases` says everything it
can do. Frontend files, static files and 404s touch neither the store nor the limiter,
and their handlers stay as they were built.
-/

namespace UrlShortener
set_option autoImplicit false
open AtomicStore Transition

/-- What `main` hands to the factories. -/
structure ServerSetup (IP : Type) where
  cfg : ReadOnlyAppConfig IP
  svc : UrlShorteningConfig
  json : FollyJson
  cache : FrontendDirCache

/-- The handler of a transaction. -/
inductive Serving (IP : Type) where
  | makeUrl (h : MakeUrlRequestHandler IP)
  | redirect (h : RedirectHandler)
  | other (h : RequestHandler)

/-- `RateLimitFilter`: whether `upstream_` is still there, what was sent downstream,
newest first, and whether it deleted itself. -/
structure RateLimitFilter where
  upstream : Bool := true
  responses : List Response := []
  deleted : Bool := false
  deriving DecidableEq, Repr

/-- A request, the address it was charged to, and what serves it. -/
structure Transaction (IP : Type) where
  request : HTTPMessage IP
  charged : Option IP
  filter : Option RateLimitFilter
  serving : Serving IP

structure Server (ι IP : Type) where
  store : UrlStore
  limiter : LimiterRun IP
  transactions : ι → Option (Transaction IP)
  /-- The process has been terminated. -/
  terminated : Bool := false

/-- The callbacks proxygen makes on the outermost handler. -/
inductive DownstreamCall where
  | onRequest
  | onBody (body : Bytes)
  /-- `throws`: looking up the captcha service or setting up TLS throws. -/
  | onEOM (throws : Bool)
  | requestComplete
  | onError
  deriving DecidableEq, Repr

/-- What goes on behind the handlers. -/
inductive Work where
  | connectSuccess
  | connectError
  | captcha (callback : CaptchaCallback)
  | cpu
  /-- The next database operation, with failure `fail`. -/
  | db (fail : Option RocksFailure)
  | evb
  deriving DecidableEq, Repr

inductive ServerEvent (ι IP : Type) where
  | arrives (i : ι) (msg : HTTPMessage IP) (now : ClockReadings)
  | call (i : ι) (c : DownstreamCall)
  | work (i : ι) (w : Work)

section

variable {IP : Type}

def RequestHandler.serving : RequestHandler → Serving IP
  | .makeUrl => .makeUrl {}
  | .redirect shortUrl => .redirect { shortUrl }
  | h => .other h

def DownstreamCall.toMakeUrl (request : HTTPMessage IP) : DownstreamCall → MakeUrlEvent IP
  | .onRequest => .onRequest request
  | .onBody body => .onBody body
  | .onEOM throws => .onEOM throws
  | .requestComplete => .requestComplete
  | .onError => .onError

/-- `onBody` and `onEOM` of a redirect handler do nothing. -/
def DownstreamCall.toRedirect (request : HTTPMessage IP) : DownstreamCall → Option RedirectEvent
  | .onRequest => some (.onRequest request.method)
  | .onBody _ => none
  | .onEOM _ => none
  | .requestComplete => some .requestComplete
  | .onError => some .onError

def Work.toMakeUrl (store : UrlStore) : Work → MakeUrlEvent IP
  | .connectSuccess => .connectSuccess
  | .connectError => .connectError
  | .captcha callback => .captcha callback
  | .cpu => .cpu
  | .db fail => .db fail store
  | .evb => .evb

def Work.toRedirect (store : UrlStore) : Work → Option RedirectEvent
  | .cpu => some .cpu
  | .db fail => some (.db fail store)
  | .evb => some .evb
  | _ => none

/-- The store after the next database operation of the handler. -/
def MakeUrlRequestHandler.storeAfter (fail : Option RocksFailure) (store : UrlStore)
    (h : MakeUrlRequestHandler IP) : UrlStore :=
  match h.chain with
  | .shortening _ (.put slug longUrl _) => write fail store slug longUrl
  | _ => store

/-- The process ends with the handler's exception. -/
def Serving.terminated : Serving IP → Bool
  | .makeUrl h => h.terminated
  | _ => false

/-- A callback of proxygen. -/
def Serving.call (setup : ServerSetup IP) (request : HTTPMessage IP) (c : DownstreamCall) :
    Serving IP → Option (Serving IP)
  | .makeUrl h => (h.step setup.svc setup.json (c.toMakeUrl request)).map .makeUrl
  | .redirect h =>
    match c.toRedirect request with
    | none => some (.redirect h)
    | some e => (h.step e).map .redirect
  | .other h => some (.other h)

/-- Work for a handler, and the store after it. -/
def Serving.work (setup : ServerSetup IP) (store : UrlStore) (w : Work) :
    Serving IP → Option (Serving IP × UrlStore)
  | .makeUrl h =>
    (h.step setup.svc setup.json (w.toMakeUrl store)).map fun h' =>
      (.makeUrl h', match w with
        | .db fail => h.storeAfter fail store
        | _ => store)
  | .redirect h => ((w.toRedirect store).bind h.step).map fun h' => (.redirect h', store)
  | .other _ => none

/-- The handler goes on to the next factory's. -/
def Filtered.isPassed {RH : Type} : Filtered RH → Bool
  | .passed _ => true
  | .rateLimitFilter _ => false

/-- The transaction of a request the factories have answered so. -/
def Transaction.accept (msg : HTTPMessage IP) (r : FilterResult IP RequestHandler) : Transaction IP :=
  match r.handler with
  | .passed handler =>
    { request := msg, charged := r.logged.head?, filter := none, serving := handler.serving }
  | .rateLimitFilter handler =>
    { request := msg, charged := r.logged.head?, filter := some {}, serving := handler.serving }

/-- The response of the filter. -/
def tooManyRequests : Response := { status := 429, reason := bytes "Too Many Requests" }

/-- A callback of proxygen on the outermost handler. The filter passes none on: its
`onRequest` ends the wrapped handler with an error and responds. It is called once and
first, and nothing is called after `requestComplete` or `onError`. -/
def Transaction.call (setup : ServerSetup IP) (c : DownstreamCall) (t : Transaction IP) :
    Option (Transaction IP) :=
  match t.filter with
  | none => (t.serving.call setup t.request c).map fun serving => { t with serving }
  | some f =>
    if f.deleted then none
    else
      match c with
      | .onRequest =>
        if f.upstream then
          (t.serving.call setup t.request .onError).map fun serving =>
            { t with
              serving
              filter := some { f with upstream := false, responses := tooManyRequests :: f.responses } }
        else none
      | .onBody _ => some t
      | .onEOM _ => some t
      | .requestComplete => some { t with filter := some { f with deleted := true } }
      | .onError =>
        if f.upstream then
          (t.serving.call setup t.request .onError).map fun serving =>
            { t with serving, filter := some { f with upstream := false, deleted := true } }
        else some { t with filter := some { f with deleted := true } }

end

namespace Server

variable {ι IP : Type} [DecidableEq ι] [DecidableEq IP] [IPAddress IP]

omit [DecidableEq ι] [DecidableEq IP] [IPAddress IP] in
/-- A server that has just started, on a database with this content. -/
def start (setup : ServerSetup IP) (store : UrlStore) (now : Int) : Server ι IP where
  store := store
  limiter := .start setup.cfg now
  transactions := fun _ => none

/-- A request comes. -/
def arrives (setup : ServerSetup IP) (i : ι) (msg : HTTPMessage IP) (now : ClockReadings)
    (handler : RequestHandler) (s : Server ι IP) : Server ι IP :=
  let r := AntiAbuseProtection.onRequest setup.cfg s.limiter.svc now handler msg
  { s with
    limiter :=
      { svc := r.svc
        charges := r.logged.map (fun ip => ⟨ip, now.added, r.handler.isPassed⟩) ++ s.limiter.charges
        lastReading := now.recycled }
    transactions := Function.update s.transactions i (some (.accept msg r)) }

omit [DecidableEq IP] [IPAddress IP] in
/-- A transaction has moved. -/
def moved (i : ι) (t : Transaction IP) (store : UrlStore) (s : Server ι IP) : Server ι IP :=
  { s with
    store := store
    transactions := Function.update s.transactions i (some t)
    terminated := t.serving.terminated }

/-- One event. A request whose path is empty is not taken: routing reads outside it. -/
def step (setup : ServerSetup IP) (s : Server ι IP) (e : ServerEvent ι IP) : Option (Server ι IP) :=
  if s.terminated then none
  else
    match e with
    | .arrives i msg now =>
      match s.transactions i, MyRequestHandlerFactory.onRequest setup.cfg setup.cache msg with
      | none, .ok handler => some (s.arrives setup i msg now handler)
      | _, _ => none
    | .call i c =>
      match s.transactions i with
      | none => none
      | some t => (t.call setup c).map fun t' => s.moved i t' s.store
    | .work i w =>
      match s.transactions i with
      | none => none
      | some t =>
        (t.serving.work setup s.store w).map fun r => s.moved i { t with serving := r.1 } r.2

end Server

/-! ## Everything an event can do -/

section

variable {IP : Type}

/-- Whether the database fails in the event. -/
def Work.failure : Work → Option RocksFailure
  | .db fail => fail
  | _ => none

/-- Whether the database fails in the event. -/
def ServerEvent.failure {ι : Type} : ServerEvent ι IP → Option RocksFailure
  | .work _ w => w.failure
  | _ => none

/-- The transaction that an event is about. -/
def ServerEvent.index {ι : Type} : ServerEvent ι IP → ι
  | .arrives i _ _ => i
  | .call i _ => i
  | .work i _ => i

/-- The event brings the request, or the database answers so, if it does either. -/
def MakeUrlEvent.On (request : HTTPMessage IP) (fail : Option RocksFailure) (store : UrlStore) :
    MakeUrlEvent IP → Prop
  | .onRequest msg => msg = request
  | .db f s => f = fail ∧ s = store
  | _ => True

/-- The event brings the request, or the database answers so, if it does either. -/
def RedirectEvent.On (request : HTTPMessage IP) (fail : Option RocksFailure) (store : UrlStore) :
    RedirectEvent → Prop
  | .onRequest method => method = request.method
  | .db f s => f = fail ∧ s = store
  | _ => True

/-- The store after an event of the handler. -/
def MakeUrlRequestHandler.storeOn (e : MakeUrlEvent IP) (store : UrlStore) (h : MakeUrlRequestHandler IP) :
    UrlStore :=
  match e with
  | .db fail _ => h.storeAfter fail store
  | _ => store

/-- How a handler moves, for a request, on a store. -/
inductive Serving.Moves (setup : ServerSetup IP) (request : HTTPMessage IP) (fail : Option RocksFailure)
    (store : UrlStore) : Serving IP → Serving IP → UrlStore → Prop where
  | still (v : Serving IP) : Moves setup request fail store v v store
  | makeUrl {h h' : MakeUrlRequestHandler IP} (e : MakeUrlEvent IP) : e.On request fail store →
      h.step setup.svc setup.json e = some h' →
      Moves setup request fail store (.makeUrl h) (.makeUrl h') (h.storeOn e store)
  | redirect {h h' : RedirectHandler} (e : RedirectEvent) : e.On request fail store → h.step e = some h' →
      Moves setup request fail store (.redirect h) (.redirect h') store

theorem DownstreamCall.toMakeUrl_on (request : HTTPMessage IP) (fail : Option RocksFailure) (store : UrlStore)
    (c : DownstreamCall) : (c.toMakeUrl request).On request fail store := by
  cases c with
  | onRequest => rfl
  | onBody _ | onEOM _ | requestComplete | onError => trivial

theorem DownstreamCall.storeOn (request : HTTPMessage IP) (store : UrlStore) (c : DownstreamCall)
    (h : MakeUrlRequestHandler IP) : h.storeOn (c.toMakeUrl request) store = store := by
  cases c <;> rfl

theorem DownstreamCall.toRedirect_on {request : HTTPMessage IP} (fail : Option RocksFailure) (store : UrlStore)
    {c : DownstreamCall} {e : RedirectEvent} (given : c.toRedirect request = some e) :
    e.On request fail store := by
  cases c with
  | onRequest =>
    cases given
    rfl
  | onBody _ | onEOM _ => cases given
  | requestComplete | onError =>
    cases given
    trivial

theorem Work.toMakeUrl_on (request : HTTPMessage IP) (store : UrlStore) (w : Work) :
    (w.toMakeUrl store : MakeUrlEvent IP).On request w.failure store := by
  cases w with
  | db fail => exact ⟨rfl, rfl⟩
  | connectSuccess | connectError | captcha _ | cpu | evb => trivial

theorem Work.toRedirect_on (request : HTTPMessage IP) {store : UrlStore} {w : Work} {e : RedirectEvent}
    (given : w.toRedirect store = some e) : e.On request w.failure store := by
  cases w with
  | db fail =>
    cases given
    exact ⟨rfl, rfl⟩
  | cpu | evb =>
    cases given
    trivial
  | connectSuccess | connectError | captcha _ => cases given

theorem Serving.call_moves {setup : ServerSetup IP} {request : HTTPMessage IP} {c : DownstreamCall}
    {v v' : Serving IP} (fail : Option RocksFailure) (store : UrlStore)
    (moved : v.call setup request c = some v') : Serving.Moves setup request fail store v v' store := by
  cases v with
  | makeUrl h =>
    obtain ⟨h', went, rfl⟩ := Option.map_eq_some_iff.mp moved
    have moves := Serving.Moves.makeUrl _ (c.toMakeUrl_on request fail store) went
    rwa [c.storeOn] at moves
  | redirect h =>
    simp only [Serving.call] at moved
    split at moved
    · cases moved
      exact .still _
    · rename_i e given
      obtain ⟨h', went, rfl⟩ := Option.map_eq_some_iff.mp moved
      exact .redirect e (DownstreamCall.toRedirect_on fail store given) went
  | other h =>
    cases moved
    exact .still _

theorem Serving.work_moves {setup : ServerSetup IP} (request : HTTPMessage IP) {store store' : UrlStore}
    {w : Work} {v v' : Serving IP} (moved : v.work setup store w = some (v', store')) :
    Serving.Moves setup request w.failure store v v' store' := by
  cases v with
  | makeUrl h =>
    obtain ⟨h', went, same⟩ := Option.map_eq_some_iff.mp moved
    have moves := Serving.Moves.makeUrl _ (w.toMakeUrl_on request store) went
    cases same
    cases w <;> exact moves
  | redirect h =>
    obtain ⟨h', went, same⟩ := Option.map_eq_some_iff.mp moved
    obtain ⟨e, given, went⟩ := Option.bind_eq_some_iff.mp went
    cases same
    exact .redirect e (Work.toRedirect_on request given) went
  | other h => cases moved

/-- How a transaction moves on a store. -/
inductive Transaction.Moves (setup : ServerSetup IP) (fail : Option RocksFailure) (store : UrlStore)
    (t : Transaction IP) : Transaction IP → UrlStore → Prop where
  | called {c : DownstreamCall} {v : Serving IP} : t.filter = none →
      t.serving.call setup t.request c = some v → Moves setup fail store t { t with serving := v } store
  | worked {w : Work} {v : Serving IP} {store' : UrlStore} : w.failure = fail →
      t.serving.work setup store w = some (v, store') →
      Moves setup fail store t { t with serving := v } store'
  | turnedAway {f : RateLimitFilter} {v : Serving IP} : t.filter = some f → f.upstream = true →
      f.deleted = false → t.serving.call setup t.request .onError = some v →
      Moves setup fail store t
        { t with
          serving := v
          filter := some { f with upstream := false, responses := tooManyRequests :: f.responses } } store
  | dropped {f : RateLimitFilter} {v : Serving IP} : t.filter = some f → f.upstream = true →
      t.serving.call setup t.request .onError = some v →
      Moves setup fail store t
        { t with serving := v, filter := some { f with upstream := false, deleted := true } } store
  | filterEnded {f : RateLimitFilter} : t.filter = some f →
      Moves setup fail store t { t with filter := some { f with deleted := true } } store
  | filterIgnored {f : RateLimitFilter} : t.filter = some f → Moves setup fail store t t store

theorem Transaction.call_moves {setup : ServerSetup IP} {c : DownstreamCall} {t t' : Transaction IP}
    (fail : Option RocksFailure) (store : UrlStore) (moved : t.call setup c = some t') :
    Transaction.Moves setup fail store t t' store := by
  unfold Transaction.call at moved
  split at moved <;> rename_i wrapped
  · obtain ⟨v, went, rfl⟩ := Option.map_eq_some_iff.mp moved
    exact .called wrapped went
  · rename_i f
    obtain ⟨live, moved⟩ := Option.ite_none_left_eq_some.mp moved
    have live : f.deleted = false := by simpa using live
    cases c with
    | onRequest =>
      obtain ⟨upstream, moved⟩ := Option.ite_none_right_eq_some.mp moved
      obtain ⟨v, went, rfl⟩ := Option.map_eq_some_iff.mp moved
      exact .turnedAway wrapped upstream live went
    | onBody _ | onEOM _ =>
      cases moved
      exact .filterIgnored wrapped
    | requestComplete =>
      cases moved
      exact .filterEnded wrapped
    | onError =>
      simp only at moved
      split at moved
      · rename_i upstream
        obtain ⟨v, went, rfl⟩ := Option.map_eq_some_iff.mp moved
        exact .dropped wrapped upstream went
      · cases moved
        exact .filterEnded wrapped

/-- The request and the charge stay, and so does whether there is a filter. -/
structure SameRequest (t t' : Transaction IP) : Prop where
  request : t'.request = t.request
  charged : t'.charged = t.charged
  filtered : t'.filter.isSome = t.filter.isSome

theorem Transaction.Moves.sameRequest {setup : ServerSetup IP} {fail : Option RocksFailure}
    {store store' : UrlStore} {t t' : Transaction IP} (moves : Transaction.Moves setup fail store t t' store') : SameRequest t t' := by
  cases moves with
  | called _ _ | worked _ _ | filterIgnored _ => exact ⟨rfl, rfl, rfl⟩
  | turnedAway wrapped _ _ _ | dropped wrapped _ _ | filterEnded wrapped =>
    exact ⟨rfl, rfl, by simp [wrapped]⟩

/-- Whoever is called, the handler itself makes a step of its own or none. -/
theorem Transaction.Moves.serving {setup : ServerSetup IP} {fail : Option RocksFailure}
    {store store' : UrlStore} {t t' : Transaction IP} (moves : Transaction.Moves setup fail store t t' store') :
    Serving.Moves setup t.request fail store t.serving t'.serving store' := by
  cases moves with
  | called _ went => exact Serving.call_moves fail store went
  | worked same went => exact same ▸ Serving.work_moves t.request went
  | turnedAway _ _ _ went => exact Serving.call_moves fail store went
  | dropped _ _ went => exact Serving.call_moves fail store went
  | filterEnded _ | filterIgnored _ => exact .still _

end

namespace Server

variable {ι IP : Type} [DecidableEq ι] [DecidableEq IP] [IPAddress IP]
  {setup : ServerSetup IP} {s s' : Server ι IP} {e : ServerEvent ι IP}

/-- How the server moves. -/
inductive Moves (setup : ServerSetup IP) (s : Server ι IP) : ServerEvent ι IP → Server ι IP → Prop where
  | arrived {i : ι} {msg : HTTPMessage IP} {now : ClockReadings} {handler : RequestHandler} :
      s.transactions i = none → MyRequestHandlerFactory.onRequest setup.cfg setup.cache msg = .ok handler →
      Moves setup s (.arrives i msg now) (s.arrives setup i msg now handler)
  | went {e : ServerEvent ι IP} {i : ι} {t t' : Transaction IP} {store' : UrlStore} :
      e.index = i → s.transactions i = some t → Transaction.Moves setup e.failure s.store t t' store' →
      Moves setup s e (s.moved i t' store')

/-- **Everything an event can do.** -/
theorem step_cases (moved : s.step setup e = some s') : Moves setup s e s' := by
  unfold step at moved
  obtain ⟨-, moved⟩ := Option.ite_none_left_eq_some.mp moved
  cases e with
  | arrives i msg now =>
    simp only at moved
    split at moved
    · rename_i free routed
      cases moved
      exact .arrived free routed
    · cases moved
  | call i c =>
    simp only at moved
    split at moved
    · cases moved
    · rename_i t here
      obtain ⟨t', went, rfl⟩ := Option.map_eq_some_iff.mp moved
      exact .went rfl here (Transaction.call_moves none s.store went)
  | work i w =>
    simp only at moved
    split at moved
    · cases moved
    · rename_i t here
      obtain ⟨⟨v, store'⟩, went, rfl⟩ := Option.map_eq_some_iff.mp moved
      exact .went rfl here (.worked rfl went)

/-- **The rule for one transaction.** What holds of every transaction when it is accepted
and is kept by its moves holds of every transaction of a run. -/
theorem each_transaction {P : Transaction IP → Prop} {ok : Server ι IP → ServerEvent ι IP → Prop}
    {store : UrlStore} {now : Int}
    (accepted : ∀ (svc : IPAccessCountService IP) msg now handler,
      MyRequestHandlerFactory.onRequest setup.cfg setup.cache msg = .ok handler →
      P (.accept msg (AntiAbuseProtection.onRequest setup.cfg svc now handler msg)))
    (keeps : ∀ fail store store' t t', P t → Transaction.Moves setup fail store t t' store' → P t')
    (run : Runs (step setup) ok (.start setup store now) s) {i : ι} {t : Transaction IP}
    (here : s.transactions i = some t) : P t := by
  have all : ∀ i t, s.transactions i = some t → P t := by
    refine run.invariant (fun s => ∀ i t, s.transactions i = some t → P t) ?_ ?_
    · intro i t none
      cases none
    · intro s e s' inv _ moved j u there
      cases step_cases moved with
      | @arrived i msg now handler _ routed =>
        simp only [arrives, Function.update_apply] at there
        split at there
        · cases there
          exact accepted s.limiter.svc msg now handler routed
        · exact inv j u there
      | @went _ i t t' store' _ before moves =>
        simp only [Server.moved, Function.update_apply] at there
        split at there
        · cases there
          exact keeps e.failure s.store store' t u (inv i t before) moves
        · exact inv j u there
  exact all i t here

end Server

/-- A server with the default configuration and no trusted networks. -/
def sampleSetup : ServerSetup UInt32 where
  cfg := {}
  svc := sampleShortening twoHashes
  json := sampleJson
  cache := fun _ => none

/-- An approved create request with this body from its arrival to its response. -/
def createEventsOf {ι : Type} (body : Bytes) (i : ι) (msg : HTTPMessage UInt32) : List (ServerEvent ι UInt32) :=
  [.arrives i msg ⟨0, 0, 0⟩, .call i .onRequest, .call i (.onBody body), .call i (.onEOM false),
    .work i .connectSuccess, .work i (.captcha (.onHeadersComplete 200)),
    .work i (.captcha (.onBody sampleReply)), .work i (.captcha .onEOM), .work i .cpu,
    .work i (.db none), .work i (.db none), .work i .cpu, .work i .evb]

def sampleCreateEvents {ι : Type} : ι → HTTPMessage UInt32 → List (ServerEvent ι UInt32) := createEventsOf sampleBody

/-- A lookup from its arrival to its response. -/
def sampleLookupEvents {ι : Type} (i : ι) (msg : HTTPMessage UInt32) : List (ServerEvent ι UInt32) :=
  [.arrives i msg ⟨0, 0, 0⟩, .call i .onRequest, .work i .cpu, .work i (.db none), .work i .evb]

end UrlShortener
