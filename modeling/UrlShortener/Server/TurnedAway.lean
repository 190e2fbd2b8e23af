import UrlShortener.Charging
import UrlShortener.RequestPath
import UrlShortener.Server.Model

/-!
# Which transactions are served

A transaction keeps the kind of handler its route asked for (`Routed`), and a protected one
that got past the limiter has been charged (`Charged`). One that did not stands behind a
`RateLimitFilter`. The filter ends the wrapped handler with an error as soon as it is
called itself, so the handler is as it was built or as `onError` leaves a handler that was
never called (`Unused`): there is nothing left to do for it, and the only response is one
429 (`turned_away_unserved`).
-/

namespace UrlShortener
set_option autoImplicit false
open AtomicStore Transition

section

variable {IP : Type} {setup : ServerSetup IP} {fail : Option RocksFailure} {store store' : UrlStore}
  {t t' : Transaction IP}

/-! ## The route -/

/-- The handler was built as `handler`. -/
def Serving.BuiltAs (handler : RequestHandler) : Serving IP → Prop
  | .makeUrl _ => handler = .makeUrl
  | .redirect h => handler = .redirect h.shortUrl
  | .other h => handler = h ∧ handler ≠ .makeUrl ∧ ∀ slug, handler ≠ .redirect slug

theorem builtAs_serving (handler : RequestHandler) :
    (handler.serving : Serving IP).BuiltAs handler := by
  cases handler with
  | makeUrl | redirect slug => rfl
  | frontend h | static docRoot | notFound => exact ⟨rfl, nofun, nofun⟩

theorem RedirectHandler.step_shortUrl {h h' : RedirectHandler} {e : RedirectEvent} (moved : h.step e = some h') :
    h'.shortUrl = h.shortUrl := by
  cases RedirectHandler.step_cases moved <;> rfl

theorem Serving.BuiltAs.moves {request : HTTPMessage IP} {handler : RequestHandler} {v v' : Serving IP}
    (built : v.BuiltAs handler) (moves : Serving.Moves setup request fail store v v' store') : v'.BuiltAs handler := by
  cases moves with
  | still _ => exact built
  | makeUrl _ _ _ => exact built
  | redirect _ _ went => exact built.trans (congrArg RequestHandler.redirect (RedirectHandler.step_shortUrl went).symm)

/-- The handler is the one of the route. -/
def Routed (setup : ServerSetup IP) (t : Transaction IP) : Prop :=
  ∃ handler, MyRequestHandlerFactory.onRequest setup.cfg setup.cache t.request = .ok handler ∧
    t.serving.BuiltAs handler

theorem Routed.moves (routed : Routed setup t) (moves : Transaction.Moves setup fail store t t' store') :
    Routed setup t' := by
  obtain ⟨handler, route, built⟩ := routed
  exact ⟨handler, moves.sameRequest.request ▸ route, built.moves moves.serving⟩

/-! ## The charge -/

/-- A protected request without a filter was charged to the address it resolves to. -/
def Charged [IPAddress IP] (cfg : ReadOnlyAppConfig IP) (t : Transaction IP) : Prop :=
  t.filter = none → isProtected t.request = true →
    ∃ ip, t.charged = some ip ∧ resolveClientIp cfg t.request = some ip

theorem Charged.moves [IPAddress IP] {cfg : ReadOnlyAppConfig IP} (charged : Charged cfg t)
    (moves : Transaction.Moves setup fail store t t' store') : Charged cfg t' := by
  have same := moves.sameRequest
  intro unfiltered guarded
  have before : t.filter = none := by
    rw [← Option.not_isSome_iff_eq_none, ← same.filtered, unfiltered]
    exact Bool.false_ne_true
  rw [same.request] at guarded ⊢
  rw [same.charged]
  exact charged before guarded

/-! ## Behind the filter -/

/-- As built while the filter has its upstream, and after that ended by an error before
anything else. -/
def Serving.Unused (setup : ServerSetup IP) (upstream : Bool) : Serving IP → Prop
  | .makeUrl h => h = if upstream then {} else MakeUrlRequestHandler.onError setup.json {}
  | .redirect h => h = { shortUrl := h.shortUrl, deleted := !upstream }
  | .other _ => True

theorem unused_serving (setup : ServerSetup IP) (handler : RequestHandler) :
    (handler.serving : Serving IP).Unused setup true := by
  cases handler with
  | makeUrl | redirect slug => rfl
  | frontend h | static docRoot | notFound => trivial

/-- There is no work for an unused handler. -/
theorem Serving.Unused.no_work {upstream : Bool} {v : Serving IP} (unused : v.Unused setup upstream) (w : Work) :
    v.work setup store w = none := by
  cases v with
  | makeUrl h =>
    rw [show h = _ from unused]
    cases upstream <;> cases w <;> rfl
  | redirect h =>
    rw [show h = _ from unused]
    cases w <;> rfl
  | other h => rfl

/-- The error that the filter passes on. -/
theorem Serving.Unused.onError {v v' : Serving IP} {request : HTTPMessage IP} (unused : v.Unused setup true)
    (went : v.call setup request .onError = some v') : v'.Unused setup false := by
  cases v with
  | makeUrl h =>
    rw [show h = {} from unused] at went
    cases went
    rfl
  | redirect h =>
    rw [show h = { shortUrl := h.shortUrl } from unused] at went
    cases went
    rfl
  | other h =>
    cases went
    trivial

/-- All that an unused create handler has been told is an error. -/
theorem Serving.Unused.makeUrl {upstream : Bool} {h : MakeUrlRequestHandler IP}
    (unused : (Serving.makeUrl h).Unused setup upstream) :
    (∀ e ∈ h.log, e.action = .satisfied none ∨ e.action = .deleteThis) ∧
      h.chain = .notStarted ∧ h.connector = .idle := by
  rw [show h = _ from unused]
  cases upstream with
  | true => exact ⟨fun e mem => (by cases mem), rfl, rfl⟩
  | false =>
    refine ⟨fun e mem => ?_, rfl, rfl⟩
    have two : e = ⟨false, .deleteThis⟩ ∨ e = ⟨false, .satisfied none⟩ := by
      simpa [MakeUrlRequestHandler.onError, MakeUrlRequestHandler.setPromise,
        MakeUrlRequestHandler.record, MakeUrlRequestHandler.deleteThis] using mem
    rcases two with rfl | rfl
    · exact .inr rfl
    · exact .inl rfl

/-- The filter has sent at most its 429, and only after it let its upstream go, which is
unused. -/
def Withheld (setup : ServerSetup IP) (t : Transaction IP) : Prop :=
  ∀ f, t.filter = some f → t.serving.Unused setup f.upstream ∧
    (f.responses = [] ∨ f.upstream = false ∧ f.responses = [tooManyRequests])

theorem Withheld.moves (withheld : Withheld setup t) (moves : Transaction.Moves setup fail store t t' store') :
    Withheld setup t' := by
  intro f' wrapped'
  cases moves with
  | called unwrapped _ =>
    rw [show t.filter = some f' from wrapped'] at unwrapped
    cases unwrapped
  | worked _ went =>
    have unused := (withheld f' wrapped').1
    rw [unused.no_work] at went
    cases went
  | @turnedAway f v wrapped upstream _ went =>
    obtain ⟨unused, sent⟩ := withheld f wrapped
    rw [upstream] at unused sent
    cases wrapped'
    refine ⟨unused.onError went, .inr ⟨rfl, ?_⟩⟩
    rcases sent with none | ⟨gone, -⟩
    · rw [none]
    · cases gone
  | @dropped f v wrapped upstream went =>
    obtain ⟨unused, sent⟩ := withheld f wrapped
    rw [upstream] at unused sent
    cases wrapped'
    refine ⟨unused.onError went, .inl ?_⟩
    rcases sent with none | ⟨gone, -⟩
    · exact none
    · cases gone
  | @filterEnded f wrapped =>
    cases wrapped'
    exact withheld f wrapped
  | filterIgnored _ => exact withheld f' wrapped'

end

/-! ## Over whole runs -/

section

variable {ι IP : Type} [DecidableEq ι] [DecidableEq IP] [IPAddress IP] {setup : ServerSetup IP}
  {ok : Server ι IP → ServerEvent ι IP → Prop} {store : UrlStore} {now : Int} {s : Server ι IP}
  {i : ι} {t : Transaction IP}

/-- How the limiter's answer makes a transaction. -/
theorem accept_cases (cfg : ReadOnlyAppConfig IP) (svc : IPAccessCountService IP) (msg : HTTPMessage IP)
    (now : ClockReadings) (handler : RequestHandler) :
    (∃ charged, Transaction.accept msg (AntiAbuseProtection.onRequest cfg svc now handler msg) =
        ⟨msg, charged, some {}, handler.serving⟩ ∧ isProtected msg = true) ∨
      ∃ charged, Transaction.accept msg (AntiAbuseProtection.onRequest cfg svc now handler msg) =
        ⟨msg, charged, none, handler.serving⟩ ∧
        (isProtected msg = true → ∃ ip, charged = some ip ∧ resolveClientIp cfg msg = some ip) := by
  by_cases guarded : isProtected msg = true
  · rcases protected_cases cfg svc now handler guarded with ⟨-, turned⟩ | ⟨ip, resolved, charged⟩
    · rw [turned]
      exact .inl ⟨none, rfl, guarded⟩
    · rw [charged]
      simp only [chargeAndCheck]
      split
      · exact .inl ⟨some ip, rfl, guarded⟩
      · exact .inr ⟨some ip, rfl, fun _ => ⟨ip, rfl, resolved⟩⟩
  · refine .inr ⟨none, ?_, fun also => absurd also guarded⟩
    unfold AntiAbuseProtection.onRequest
    rw [if_neg guarded]
    rfl

theorem routed_of_run (run : Runs (Server.step setup) ok (.start setup store now) s)
    (here : s.transactions i = some t) : Routed setup t := by
  refine Server.each_transaction ?_ (fun _ _ _ _ _ routed moves => routed.moves moves) run here
  intro svc msg now handler route
  rcases accept_cases setup.cfg svc msg now handler with ⟨_, eq, -⟩ | ⟨_, eq, -⟩ <;>
    exact eq ▸ ⟨handler, route, builtAs_serving handler⟩

theorem charged_of_run (run : Runs (Server.step setup) ok (.start setup store now) s)
    (here : s.transactions i = some t) : Charged setup.cfg t := by
  refine Server.each_transaction ?_ (fun _ _ _ _ _ charged moves => charged.moves moves) run here
  intro svc msg now handler _
  rcases accept_cases setup.cfg svc msg now handler with ⟨charged, eq, -⟩ | ⟨charged, eq, accountable⟩
  · rw [eq]
    intro unfiltered
    cases unfiltered
  · rw [eq]
    exact fun _ => accountable

theorem withheld_of_run (run : Runs (Server.step setup) ok (.start setup store now) s)
    (here : s.transactions i = some t) : Withheld setup t := by
  refine Server.each_transaction ?_ (fun _ _ _ _ _ withheld moves => withheld.moves moves) run here
  intro svc msg now handler _ f wrapped
  rcases accept_cases setup.cfg svc msg now handler with ⟨charged, eq, -⟩ | ⟨charged, eq, -⟩
  · rw [eq] at wrapped ⊢
    cases wrapped
    exact ⟨unused_serving setup handler, .inl rfl⟩
  · rw [eq] at wrapped
    cases wrapped

/-- A create request's handler was built for the create route, which is protected. -/
theorem create_request {h : MakeUrlRequestHandler IP}
    (run : Runs (Server.step setup) ok (.start setup store now) s)
    (here : s.transactions i = some t) (serving : t.serving = .makeUrl h) :
    MyRequestHandlerFactory.onRequest setup.cfg setup.cache t.request = .ok .makeUrl := by
  obtain ⟨handler, route, built⟩ := routed_of_run run here
  rw [serving] at built
  rw [route, show handler = .makeUrl from built]

/-- **A request that is turned away is not served.** In every run of the server, the
filter of a request that the limiter turned away sends at most one response, a 429. The
handler built for the request is told of one error and nothing else: a create handler
reads no parameters, asks no captcha service and touches no slug, and a redirect handler
would look nothing up; but a redirect is never protected, so none is turned away
(`redirect_unfiltered`). -/
theorem turned_away_unserved (setup : ServerSetup IP) (store : UrlStore) (now : Int) (s : Server ι IP)
    (run : Reachable (Server.step setup) (.start setup store now) s) (i : ι) (t : Transaction IP)
    (here : s.transactions i = some t) (f : RateLimitFilter) (turned : t.filter = some f) :
    (f.responses = [] ∨ f.responses = [tooManyRequests]) ∧
    (∀ h, t.serving = .makeUrl h → (∀ e ∈ h.log, e.action = .satisfied none ∨ e.action = .deleteThis) ∧
      h.chain = .notStarted ∧ h.connector = .idle) ∧
    ∀ h, t.serving = .redirect h → h.log = [] := by
  obtain ⟨unused, sent⟩ := withheld_of_run run here f turned
  refine ⟨sent.imp_right And.right, ?_, ?_⟩
  · intro h serving
    rw [serving] at unused
    exact unused.makeUrl
  · intro h serving
    rw [serving] at unused
    rw [show h = _ from unused]

end

/-- The create request that claims to be forwarded gets its 429 only. -/
theorem turned_away_spoofed : ∃ s t f, replay (Server.step sampleSetup)
      (.start sampleSetup (fun _ => none) 0 : Server Unit UInt32)
      [.arrives () spoofedCreate ⟨0, 0, 0⟩, .call () .onRequest] = some s ∧
    s.transactions () = some t ∧ t.filter = some f ∧ f.responses = [tooManyRequests] ∧
    ∀ h, t.serving = .makeUrl h → h.chain = .notStarted ∧ h.connector = .idle := by
  have run := Reachable.of_replay (Server.step sampleSetup)
    (.start sampleSetup (fun _ => none) 0 : Server Unit UInt32)
    [.arrives () spoofedCreate ⟨0, 0, 0⟩, .call () .onRequest] rfl
  refine ⟨_, _, _, rfl, rfl, rfl, rfl, fun h serving => ?_⟩
  exact ((turned_away_unserved sampleSetup (fun _ => none) 0 _ run () _ rfl _ rfl).2.1 h serving).2

end UrlShortener
