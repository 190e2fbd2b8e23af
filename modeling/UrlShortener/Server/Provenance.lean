import UrlShortener.MakeUrl.Progress
import UrlShortener.Routing
import UrlShortener.Server.TurnedAway

/-!
# Where a redirect leads

`Written` says where the content of the database can come from: it was there at the start,
or the log of some create transaction has the write, which went through. `Sourced` is the invariant of the whole
server: everything in the database is written, and so is what a redirect handler holds in
its buffer and what it has sent. With what the captcha gate, the limiter and the route say
about a create transaction this makes every redirect accountable (`redirect_provenance`).
-/

namespace UrlShortener
set_option autoImplicit false
open AtomicStore Transition

/-! ## One redirect handler -/

/-- What a redirect handler does for a request, on the store it looks things up in. -/
inductive RedirectHandler.Looks {IP : Type} (request : HTTPMessage IP) (fail : Option RocksFailure)
    (store : UrlStore) (h : RedirectHandler) : RedirectHandler → Prop where
  | refused (r : Response) : h.stage = .notCalled → r.status ≠ 301 → request.method ≠ some .get ∨ h.shortUrl = [] →
      Looks request fail store h { h.record (.sendWithEOM r) with stage := .finished }
  | queued : h.stage = .notCalled → Looks request fail store h { h with stage := .queuedCpu }
  | ended : Looks request fail store h { h with deleted := true }
  | started : h.stage = .queuedCpu → Looks request fail store h { h.record .lookup with stage := .looking }
  | looked {ok : Bool} {buf : Bytes} : h.stage = .looking → (ok = true → store h.shortUrl = some buf) →
      (∀ v, fail = none → store h.shortUrl = some v → ok = true) →
      Looks request fail store h { h.record (.writeBuf buf) with buf := buf, stage := .queuedEvb ok }
  | responded {ok : Bool} : h.stage = .queuedEvb ok →
      Looks request fail store h
        { h.record (.sendWithEOM (UrlRedirectHandler.respond ok h.buf)) with stage := .finished }

/-- A read that went through leaves what is stored in the buffer. -/
theorem getFast_ok {fail : Option RocksFailure} {store : UrlStore} {buf shortUrl : Bytes}
    (ok : ((ShortenedUrlsDatabase.getFast buf shortUrl).exec (fun _ => fail) 0 store).1.1 = true) :
    store shortUrl = some ((ShortenedUrlsDatabase.getFast buf shortUrl).exec (fun _ => fail) 0 store).1.2 := by
  unfold ShortenedUrlsDatabase.getFast at ok ⊢
  cases fail with
  | some e => cases ok
  | none =>
    rw [exec_get, readReply_none] at ok ⊢
    cases held : store shortUrl with
    | none =>
      rw [held] at ok
      cases ok
    | some v => rfl

/-- A stored slug is found unless the read fails. -/
theorem getFast_found {store : UrlStore} {buf shortUrl v : Bytes} (held : store shortUrl = some v) :
    ((ShortenedUrlsDatabase.getFast buf shortUrl).exec (fun _ => none) 0 store).1.1 = true := by
  unfold ShortenedUrlsDatabase.getFast
  rw [exec_get, readReply_none, held]
  rfl

theorem RedirectHandler.step_looks {IP : Type} {request : HTTPMessage IP} {fail : Option RocksFailure}
    {store : UrlStore} {h h' : RedirectHandler} {e : RedirectEvent} (moved : h.step e = some h')
    (on : e.On request fail store) : RedirectHandler.Looks request fail store h h' := by
  cases e with
  | onRequest method =>
    obtain rfl : method = request.method := on
    simp only [RedirectHandler.step] at moved
    split at moved
    · rename_i first
      obtain ⟨-, moved⟩ := Option.ite_none_left_eq_some.mp moved
      cases moved
      unfold RedirectHandler.onRequest
      split
      · rename_i other
        exact .refused _ first (by decide) (.inl other)
      · split
        · rename_i empty
          exact .refused _ first (by decide) (.inr (List.eq_nil_of_length_eq_zero empty))
        · exact .queued first
    · cases moved
  | requestComplete | onError =>
    obtain ⟨-, moved⟩ := Option.ite_none_left_eq_some.mp moved
    cases moved
    exact .ended
  | cpu =>
    simp only [RedirectHandler.step, RedirectHandler.cpu] at moved
    split at moved
    · rename_i stage
      cases moved
      exact .started stage
    · cases moved
  | db f s =>
    obtain ⟨rfl, rfl⟩ : f = fail ∧ s = store := on
    simp only [RedirectHandler.step, RedirectHandler.db] at moved
    split at moved
    · rename_i stage
      cases moved
      refine .looked stage getFast_ok fun v sound held => ?_
      subst sound
      exact getFast_found held
    · cases moved
  | evb =>
    simp only [RedirectHandler.step, RedirectHandler.evb] at moved
    split at moved
    · rename_i stage
      cases moved
      exact .responded stage
    · cases moved

/-- What the handler found, and where it has redirected to, satisfies `W`. -/
structure RedirectHandler.Traced (W : Bytes → Bytes → Prop) (h : RedirectHandler) : Prop where
  found : h.stage = .queuedEvb true → W h.shortUrl h.buf
  sent : ∀ freed r, ⟨freed, .sendWithEOM r⟩ ∈ h.log → r.status = 301 →
    ∃ v, r = UrlRedirectHandler.respond true v ∧ W h.shortUrl v

namespace RedirectHandler.Traced

variable {W W' : Bytes → Bytes → Prop} {h h' : RedirectHandler}

theorem mono (traced : Traced W h) (more : ∀ slug v, W slug v → W' slug v) : Traced W' h where
  found := fun stage => more _ _ (traced.found stage)
  sent := fun freed r mem moved => by
    obtain ⟨v, same, held⟩ := traced.sent freed r mem moved
    exact ⟨v, same, more _ _ held⟩

/-- What was sent before another action. -/
theorem older (traced : Traced W h) {a : RedirectAction} (other : ∀ r, a ≠ .sendWithEOM r) (freed : Bool)
    (r : Response) (mem : ⟨freed, .sendWithEOM r⟩ ∈ (h.record a).log) (moved : r.status = 301) :
    ∃ v, r = UrlRedirectHandler.respond true v ∧ W h.shortUrl v := by
  rcases List.mem_cons.mp mem with this | old
  · cases this
    exact absurd rfl (other r)
  · exact traced.sent freed r old moved

theorem looks {IP : Type} {request : HTTPMessage IP} {fail : Option RocksFailure} {store : UrlStore}
    (traced : Traced W h) (looks : RedirectHandler.Looks request fail store h h')
    (stored : ∀ slug v, store slug = some v → W slug v) : Traced W h' := by
  cases looks with
  | refused r _ other _ =>
    refine ⟨fun stage => (by cases stage), fun freed r' mem moved => ?_⟩
    rcases List.mem_cons.mp mem with this | old
    · cases this
      exact absurd moved other
    · exact traced.sent freed r' old moved
  | queued _ => exact ⟨fun stage => (by cases stage), traced.sent⟩
  | ended => exact ⟨traced.found, traced.sent⟩
  | started _ => exact ⟨fun stage => (by cases stage), traced.older fun r same => by cases same⟩
  | looked _ found _ =>
    refine ⟨fun stage => ?_, traced.older fun r same => by cases same⟩
    cases stage
    exact stored _ _ (found rfl)
  | @responded ok stage =>
    refine ⟨fun stage => (by cases stage), fun freed r mem moved => ?_⟩
    rcases List.mem_cons.mp mem with this | old
    · cases this
      cases ok with
      | true => exact ⟨h.buf, rfl, traced.found stage⟩
      | false => exact absurd moved (by simp [UrlRedirectHandler.respond])
    · exact traced.sent freed r old moved

end RedirectHandler.Traced

/-! ## The whole server -/

section

variable {ι IP : Type}

/-- The transaction is a create request that has written the URL under the slug. -/
def Transaction.Wrote (t : Transaction IP) (slug longUrl : Bytes) : Prop :=
  ∃ h, t.serving = .makeUrl h ∧ Did h.log (.put slug longUrl none)

theorem Transaction.Wrote.moves {setup : ServerSetup IP} {fail : Option RocksFailure} {store store' : UrlStore}
    {t t' : Transaction IP} {slug longUrl : Bytes} (wrote : t.Wrote slug longUrl)
    (moves : Transaction.Moves setup fail store t t' store') : t'.Wrote slug longUrl := by
  obtain ⟨h, serving, did⟩ := wrote
  have goes := moves.serving
  rw [serving] at goes
  generalize after : t'.serving = v at goes
  cases goes with
  | still _ => exact ⟨h, after, did⟩
  | makeUrl e _ went => exact ⟨_, after, did.mono (MakeUrlRequestHandler.log_suffix went)⟩

/-- The database had the URL under the slug at the start, or a create request wrote it. -/
def Written (store : UrlStore) (s : Server ι IP) (slug longUrl : Bytes) : Prop :=
  store slug = some longUrl ∨ ∃ j t, s.transactions j = some t ∧ t.Wrote slug longUrl

/-- The only way the store changes: the handler writes, and says so in its log. -/
theorem MakeUrlRequestHandler.storeOn_cases {setup : ServerSetup IP} (store : UrlStore)
    {h h' : MakeUrlRequestHandler IP} {e : MakeUrlEvent IP}
    (moved : h.step setup.svc setup.json e = some h') :
    h.storeOn e store = store ∨ ∃ slug longUrl, Did h'.log (.put slug longUrl none) ∧
      h.storeOn e store = Function.update store slug (some longUrl) := by
  cases e with
  | db fail s =>
    cases MakeUrlRequestHandler.step_cases moved with
    | @reads _ _ longUrl slug next stage =>
      refine .inl ?_
      simp only [MakeUrlRequestHandler.storeOn, MakeUrlRequestHandler.storeAfter, stage]
    | @writes _ _ longUrl slug value next stage =>
      simp only [MakeUrlRequestHandler.storeOn, MakeUrlRequestHandler.storeAfter, stage]
      cases fail with
      | some failure => exact .inl rfl
      | none => exact .inr ⟨slug, value, did_first .., rfl⟩
  | _ => exact .inl rfl

theorem Transaction.Moves.stored {setup : ServerSetup IP} {fail : Option RocksFailure} {store store' : UrlStore}
    {t t' : Transaction IP} (moves : Transaction.Moves setup fail store t t' store') :
    store' = store ∨ ∃ slug longUrl, t'.Wrote slug longUrl ∧
      store' = Function.update store slug (some longUrl) := by
  have goes := moves.serving
  generalize t.serving = v at goes
  generalize after : t'.serving = v' at goes
  cases goes with
  | still _ | redirect _ _ _ => exact .inl rfl
  | makeUrl e _ went =>
    rcases MakeUrlRequestHandler.storeOn_cases store went with same | ⟨slug, longUrl, did, eq⟩
    · exact .inl same
    · exact .inr ⟨slug, longUrl, ⟨_, after, did⟩, eq⟩

end

namespace Server

variable {ι IP : Type} [DecidableEq ι] [DecidableEq IP] [IPAddress IP] {setup : ServerSetup IP}
  {store : UrlStore} {s s' : Server ι IP} {e : ServerEvent ι IP} {slug longUrl : Bytes}

/-- What is written stays written. -/
theorem written_step (written : Written store s slug longUrl) (moved : s.step setup e = some s') :
    Written store s' slug longUrl := by
  rcases written with first | ⟨j, t, here, wrote⟩
  · exact .inl first
  · refine .inr ?_
    cases step_cases moved with
    | @arrived i msg now handler free _ =>
      refine ⟨j, t, ?_, wrote⟩
      have other : j ≠ i := by
        rintro rfl
        rw [free] at here
        cases here
      simpa [arrives, other] using here
    | @went _ i u u' store' _ before moves =>
      by_cases same : j = i
      · subst same
        obtain rfl : u = t := Option.some.inj (before.symm.trans here)
        exact ⟨j, u', Function.update_self .., wrote.moves moves⟩
      · exact ⟨j, t, by simpa [Server.moved, same] using here, wrote⟩

/-- Everything in the database, in the buffers and in the redirects sent is written. -/
structure Sourced (store : UrlStore) (s : Server ι IP) : Prop where
  stored : ∀ slug longUrl, s.store slug = some longUrl → Written store s slug longUrl
  redirects : ∀ i t h, s.transactions i = some t → t.serving = .redirect h → h.Traced (Written store s)

omit [DecidableEq ι] [DecidableEq IP] [IPAddress IP] in
/-- A redirect handler is traced after a move of its transaction. -/
theorem traced_moves {W : Bytes → Bytes → Prop} {fail : Option RocksFailure} {store' : UrlStore}
    {t t' : Transaction IP} (moves : Transaction.Moves setup fail s.store t t' store') (stored : ∀ slug v, s.store slug = some v → W slug v)
    (traced : ∀ h, t.serving = .redirect h → h.Traced W) : ∀ h, t'.serving = .redirect h → h.Traced W := by
  intro h' serving
  have goes := moves.serving
  rw [serving] at goes
  generalize before : t.serving = v at goes
  cases goes with
  | still _ => exact traced h' before
  | @redirect h _ e on went => exact (traced h before).looks (RedirectHandler.step_looks went on) stored

omit [DecidableEq IP] [IPAddress IP] in
theorem traced_built (W : Bytes → Bytes → Prop) (msg : HTTPMessage IP)
    (r : FilterResult IP RequestHandler) (h : RedirectHandler)
    (serving : (Transaction.accept msg r).serving = .redirect h) : h.Traced W := by
  have built : ∃ handler : RequestHandler, (handler.serving : Serving IP) = .redirect h := by
    unfold Transaction.accept at serving
    split at serving <;> exact ⟨_, serving⟩
  obtain ⟨handler, built⟩ := built
  cases handler with
  | redirect slug =>
    cases built
    exact ⟨fun stage => (by cases stage), fun freed r mem => (by cases mem)⟩
  | makeUrl | frontend _ | static _ | notFound => cases built

/-- **One event.** -/
theorem Sourced.step (sourced : Sourced store s) (moved : s.step setup e = some s') : Sourced store s' := by
  have kept : ∀ slug longUrl, Written store s slug longUrl → Written store s' slug longUrl :=
    fun _ _ written => written_step written moved
  cases step_cases moved with
  | @arrived i msg now handler free _ =>
    refine ⟨fun slug v held => kept _ _ (sourced.stored slug v held), fun j t h there serving => ?_⟩
    simp only [arrives, Function.update_apply] at there
    split at there
    · cases there
      exact traced_built _ msg _ h serving
    · exact (sourced.redirects j t h there serving).mono kept
  | @went _ i t t' store' _ before moves =>
    refine ⟨fun slug v held => ?_, fun j u h there serving => ?_⟩
    · rcases moves.stored with same | ⟨slug', v', wrote, same⟩
      · subst same
        exact kept _ _ (sourced.stored slug v held)
      · subst same
        simp only [Server.moved, Function.update_apply] at held
        split at held
        · rename_i here
          cases held
          exact .inr ⟨i, t', Function.update_self .., here ▸ wrote⟩
        · exact kept _ _ (sourced.stored slug v held)
    · simp only [Server.moved, Function.update_apply] at there
      split at there
      · cases there
        refine RedirectHandler.Traced.mono ?_ kept
        exact traced_moves moves sourced.stored (fun h serving => sourced.redirects i t h before serving) h serving
      · exact (sourced.redirects j u h there serving).mono kept

theorem sourced_of_run {ok : Server ι IP → ServerEvent ι IP → Prop} {now : Int}
    (run : Runs (Server.step setup) ok (.start setup store now) s) : Sourced store s := by
  refine run.invariant (Sourced store) ⟨fun slug v held => .inl held, fun i t h there => ?_⟩
    fun _ _ _ sourced _ moved => sourced.step moved
  cases there

end Server

/-! ## Who wrote it -/

/-- A redirect is routed by the slug its path requests. -/
theorem redirect_route {IP : Type} {cfg : ReadOnlyAppConfig IP} {cache : FrontendDirCache}
    {msg : HTTPMessage IP} {slug : Bytes}
    (built : MyRequestHandlerFactory.onRequest cfg cache msg = .ok (.redirect slug)) :
    msg.method = some .get ∧ slug ≠ [] ∧ RequestsSlug msg.path slug := by
  have parsed : msg.method = some .get ∧ slug.length > 0 ∧ parseOutRequestStr msg.path = .ok slug := by
    simp only [MyRequestHandlerFactory.onRequest, bind, Except.bind] at built
    split at built
    · cases built
    · split at built
      · cases built
      · split at built
        · cases built
        · split at built
          · split at built <;> cases built
          · split at built
            · cases built
            · rename_i parsed found
              split at built
              · rename_i asked
                cases built
                exact ⟨asked.2, asked.1, found⟩
              · cases built
  obtain ⟨get, long, parsed⟩ := parsed
  have real : slug ≠ [] := List.ne_nil_of_length_pos long
  exact ⟨get, real, (parses_slug_iff real).mp parsed⟩

/-- A create request that was let through, charged, read, approved by the captcha service
and given the slug for its URL has written it. -/
structure Transaction.Created {IP : Type} [IPAddress IP] (setup : ServerSetup IP) (t : Transaction IP)
    (slug longUrl : Bytes) : Prop where
  path : t.request.path = bytes "/api/v1/create"
  method : t.request.method = some .post ∨ t.request.method = some .put
  passed : t.filter = none
  charged : ∃ ip, t.charged = some ip ∧ resolveClientIp setup.cfg t.request = some ip
  wrote : ∃ h, t.serving = .makeUrl h ∧ Did h.log (.put slug longUrl none) ∧ Passed setup.json h.log longUrl
  offered : Offered setup.svc longUrl slug

theorem Passed.mono {json : FollyJson} {log log' : List LogEntry} {longUrl : Bytes}
    (passed : Passed json log longUrl) (older : log <:+ log') : Passed json log' longUrl := by
  obtain ⟨⟨real, token, given, read⟩, reply, d, ended, rest⟩ := passed
  exact ⟨⟨real, token, given, read.mono older⟩, reply, d, ended.mono older, rest⟩

section

variable {ι IP : Type} [DecidableEq ι] [DecidableEq IP] [IPAddress IP] {setup : ServerSetup IP}
  {ok : Server ι IP → ServerEvent ι IP → Prop} {store : UrlStore} {now : Int} {s : Server ι IP}
  {i : ι} {t : Transaction IP}

/-- **A create handler of the server runs as a create handler does.** -/
theorem create_reachable {h : MakeUrlRequestHandler IP}
    (run : Runs (Server.step setup) ok (.start setup store now) s) (here : s.transactions i = some t)
    (serving : t.serving = .makeUrl h) :
    Reachable (MakeUrlRequestHandler.step setup.svc setup.json) {} h := by
  have each : ∀ h, t.serving = .makeUrl h →
      Reachable (MakeUrlRequestHandler.step setup.svc setup.json) {} h := by
    refine Server.each_transaction (P := fun t : Transaction IP => ∀ h, t.serving = .makeUrl h →
      Reachable (MakeUrlRequestHandler.step setup.svc setup.json) {} h) ?_ ?_ run here
    · intro svc msg now handler _ h built
      have same : (handler.serving : Serving IP) = .makeUrl h := by
        rcases accept_cases setup.cfg svc msg now handler with ⟨_, eq, -⟩ | ⟨_, eq, -⟩ <;>
          exact (congrArg Transaction.serving eq).symm.trans built
      cases handler with
      | makeUrl =>
        cases same
        exact .refl
      | redirect _ | frontend _ | static _ | notFound => cases same
    · intro fail store store' t t' reached moves h' after
      have goes := moves.serving
      rw [after] at goes
      generalize before : t.serving = v at goes
      cases goes with
      | still _ => exact reached h' before
      | makeUrl e _ went => exact (reached _ before).snoc trivial went
  exact each h serving

theorem created_of_wrote {slug longUrl : Bytes} (run : Runs (Server.step setup) ok (.start setup store now) s)
    (here : s.transactions i = some t) (wrote : t.Wrote slug longUrl) : t.Created setup slug longUrl := by
  obtain ⟨h, serving, freed, put⟩ := wrote
  have route := create_request run here serving
  have reached := create_reachable run here serving
  have gate : CaptchaGate setup.json h :=
    reached.invariant (CaptchaGate setup.json) (captchaGate_start setup.json) fun _ _ _ inv _ moved => inv.step moved
  have budget : DbBudget setup.svc h :=
    reached.invariant (DbBudget setup.svc) (dbBudget_start setup.svc) fun _ _ _ inv _ moved => inv.step moved
  have unfiltered : t.filter = none := by
    cases wrapped : t.filter with
    | none => rfl
    | some f =>
      -- behind a filter the handler has done nothing
      have unused := (withheld_of_run run here f wrapped).1
      rw [serving] at unused
      rcases unused.makeUrl.1 _ put with same | same <;> cases same
  obtain ⟨newer, older, log⟩ := List.append_of_mem put
  have gated := gate.puts
  rw [log] at gated
  have passed : Passed setup.json h.log longUrl := by
    rw [log]
    exact gated.put.mono ((List.suffix_cons _ _).trans (List.suffix_append _ _))
  exact ⟨(makeUrl_route route).1, (makeUrl_route route).2, unfiltered,
    charged_of_run run here unfiltered (makeUrl_protected route), ⟨h, serving, ⟨freed, put⟩, passed⟩,
    budget.offered slug longUrl none ⟨freed, put⟩⟩

/-- **Every redirect is accountable.** In every run of the server, whatever the clients, the
captcha service and the database do, a 301 answers a GET whose path is `/`, a slug and
perhaps a query; its `Location` was in the database under that slug at the start, or a
create request of the run has put it there: one to the create route that the limiter charged
and let through, that carried the URL and a token, whose captcha the service approved, and
for which the generator offers the slug at one of the tries 2 to 100. -/
theorem redirect_provenance (setup : ServerSetup IP) (store : UrlStore) (now : Int) (s : Server ι IP)
    (run : Reachable (Server.step setup) (.start setup store now) s) (i : ι) (t : Transaction IP)
    (here : s.transactions i = some t) (h : RedirectHandler) (serving : t.serving = .redirect h) (r : Response)
    (sent : r ∈ h.responses) (moved : r.status = 301) :
    ∃ slug longUrl, t.request.method = some .get ∧ RequestsSlug t.request.path slug ∧
      r = UrlRedirectHandler.respond true longUrl ∧
      (store slug = some longUrl ∨
        ∃ j u, s.transactions j = some u ∧ u.Created setup slug longUrl) := by
  obtain ⟨handler, route, built⟩ := routed_of_run run here
  rw [serving] at built
  rw [show handler = .redirect h.shortUrl from built] at route
  obtain ⟨get, -, requested⟩ := redirect_route route
  obtain ⟨⟨freed, a⟩, mem, same⟩ := List.mem_filterMap.mp sent
  have entry : a = .sendWithEOM r := by
    cases a with
    | sendWithEOM r' => exact congrArg RedirectAction.sendWithEOM (Option.some.inj same)
    | lookup | writeBuf _ => cases same
  rw [entry] at mem
  obtain ⟨longUrl, response, written⟩ :=
    ((Server.sourced_of_run run).redirects i t h here serving).sent freed r mem moved
  refine ⟨h.shortUrl, longUrl, get, requested, response, ?_⟩
  rcases written with first | ⟨j, u, there, wrote⟩
  · exact .inl first
  · exact .inr ⟨j, u, there, created_of_wrote run there wrote⟩

end

def createByClient : HTTPMessage UInt32 := ⟨some .post, bytes "/api/v1/create", [], 0xc0000201⟩

def lookupByClient : HTTPMessage UInt32 := ⟨some .get, bytes "/C3Cs6Yf", [], 0xc0000202⟩

/-- A URL is shortened and its slug looked up. -/
theorem redirect_provenance_created : ∃ s t h, replay (Server.step sampleSetup)
      (.start sampleSetup (fun _ => none) 0 : Server Bool UInt32)
      (sampleCreateEvents true createByClient ++ sampleLookupEvents false lookupByClient) = some s ∧
    s.transactions false = some t ∧ t.serving = .redirect h ∧
    h.responses = [UrlRedirectHandler.respond true (bytes "https://a.example/")] ∧
    ∃ slug longUrl, t.request.method = some .get ∧ RequestsSlug t.request.path slug ∧
      UrlRedirectHandler.respond true (bytes "https://a.example/") = UrlRedirectHandler.respond true longUrl ∧
      ((fun _ => none : UrlStore) slug = some longUrl ∨
        ∃ j u, s.transactions j = some u ∧ u.Created sampleSetup slug longUrl) := by
  have run := Reachable.of_replay (Server.step sampleSetup)
    (.start sampleSetup (fun _ => none) 0 : Server Bool UInt32)
    (sampleCreateEvents true createByClient ++ sampleLookupEvents false lookupByClient) rfl
  refine ⟨_, _, _, rfl, rfl, rfl, rfl, ?_⟩
  exact redirect_provenance sampleSetup (fun _ => none) 0 _ run false _ rfl _ rfl _
    List.mem_cons_self rfl

end UrlShortener
