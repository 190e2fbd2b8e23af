import UrlShortener.Logic.Transition
import UrlShortener.MakeUrl.Handler

/-!
# The captcha gate

A create request writes to the store only after the captcha service has approved it,
and it writes the URL of the request. The invariant is on the log and the chain: the
chain gets past the verdict only with a passed captcha in the log (`Chain.Gated`),
`do_shorten_url` writes nothing but its argument (`doShortenUrl_writes`), so every
`put` in the log stands above a passed captcha (`PutsGated`).
-/

namespace UrlShortener
set_option autoImplicit false
open AtomicStore Transition

/-! ## What `do_shorten_url` writes -/

theorem insertSlug_writes (slug longUrl : Bytes) :
    (insertSlug slug longUrl).Writes fun _ v => v = longUrl := by
  unfold insertSlug ShortenedUrlsDatabase.put
  refine ⟨rfl, fun r => ?_⟩
  cases r <;> trivial

theorem shortenLoop_writes (svc : UrlShorteningConfig) (longUrl : Bytes) (remaining : Nat) :
    ∀ slug, (shortenLoop svc longUrl remaining slug).Writes fun _ v => v = longUrl := by
  induction remaining with
  | zero => exact fun slug => insertSlug_writes slug longUrl
  | succ remaining ih =>
    intro dst
    have goes := shortenLoop_step svc longUrl remaining dst
    generalize shortenLoop svc longUrl (remaining + 1) dst = p at goes ⊢
    cases goes with
    | undefined | ranOut => trivial
    | @reads slug next _ round =>
      intro r
      have goes := round r
      generalize next r = p at goes ⊢
      cases goes with
      | failed | present => trivial
      | vacant _ => exact insertSlug_writes slug longUrl
      | taken _ _ => exact ih slug

/-- Whatever the database answers, `do_shorten_url` writes its argument only. -/
theorem doShortenUrl_writes (svc : UrlShorteningConfig) (longUrl : Bytes) :
    (doShortenUrl svc longUrl).Writes fun _ v => v = longUrl :=
  shortenLoop_writes svc longUrl _ _

/-! ## The gate -/

/-- `onEOM` read the URL, with a captcha response. -/
def InputRead (log : List LogEntry) (longUrl : Bytes) : Prop :=
  longUrl ≠ [] ∧ ∃ userCaptchaResponse, userCaptchaResponse ≠ [] ∧
    Did log (.extracted userCaptchaResponse longUrl)

/-- The captcha service replied with status 200 and an object whose `success` is
true. -/
def CaptchaPassed (json : FollyJson) (log : List LogEntry) : Prop :=
  ∃ reply d, Did log (.captchaServiceEOM 200 (some reply)) ∧ json.parseJson reply = some d ∧
    d.isObject = true ∧ (d.get (bytes "success")).isNull = false ∧
    json.asBool (d.get (bytes "success")) = some true

/-- Both. -/
def Passed (json : FollyJson) (log : List LogEntry) (longUrl : Bytes) : Prop :=
  InputRead log longUrl ∧ CaptchaPassed json log

/-- Every `put` of the log stands above a passed captcha. -/
def PutsGated (json : FollyJson) : List LogEntry → Prop
  | [] => True
  | e :: older => (∀ slug v failure, e.action = .put slug v failure → Passed json older v) ∧ PutsGated json older

/-- The chain is where the log lets it be. -/
def Chain.Gated (json : FollyJson) (log : List LogEntry) : Chain → Prop
  | .waiting longUrl => InputRead log longUrl
  | .queuedCpu longUrl success => success = some true → Passed json log longUrl
  | .shortening longUrl rest => Passed json log longUrl ∧ rest.Writes fun _ v => v = longUrl
  | _ => True

theorem captchaVerdict_true {json : FollyJson} {reply : Bytes}
    (verdict : captchaVerdict json reply = some true) :
    ∃ d, json.parseJson reply = some d ∧ d.isObject = true ∧
      (d.get (bytes "success")).isNull = false ∧ json.asBool (d.get (bytes "success")) = some true := by
  unfold captchaVerdict at verdict
  split at verdict
  · cases verdict
  · rename_i d parsed
    split at verdict
    · rename_i shape
      exact ⟨d, parsed, shape.1, by simpa using shape.2, verdict⟩
    · cases verdict

section Log

variable {json : FollyJson} {log : List LogEntry} {longUrl : Bytes}

theorem InputRead.cons (e : LogEntry) (read : InputRead log longUrl) : InputRead (e :: log) longUrl := by
  obtain ⟨real, token, given, did⟩ := read
  exact ⟨real, token, given, did.cons e⟩

theorem Passed.cons (e : LogEntry) (passed : Passed json log longUrl) : Passed json (e :: log) longUrl := by
  obtain ⟨read, reply, d, did, rest⟩ := passed
  exact ⟨read.cons e, reply, d, did.cons e, rest⟩

theorem Chain.Gated.cons (e : LogEntry) {chain : Chain} (gated : chain.Gated json log) :
    chain.Gated json (e :: log) := by
  cases chain with
  | waiting longUrl => exact InputRead.cons e gated
  | queuedCpu longUrl success => exact fun approved => (gated approved).cons e
  | shortening longUrl rest => exact ⟨gated.1.cons e, gated.2⟩
  | notStarted => trivial
  | queuedEvb shortUrl => trivial
  | finished => trivial

/-- The promise lets the chain past the verdict only on a 200 reply. -/
theorem Chain.Gated.complete {chain : Chain} (gated : chain.Gated json log) {result : Option Bytes}
    (reply : ∀ b, result = some b → Did log (.captchaServiceEOM 200 (some b))) :
    (chain.complete json result).Gated json log := by
  cases chain with
  | waiting longUrl =>
    intro approved
    obtain ⟨b, given, verdict⟩ := Option.bind_eq_some_iff.mp approved
    obtain ⟨d, facts⟩ := captchaVerdict_true verdict
    exact ⟨gated, b, d, reply b given, facts⟩
  | notStarted => exact gated
  | queuedCpu longUrl success => exact gated
  | shortening longUrl rest => exact gated
  | queuedEvb shortUrl => exact gated
  | finished => exact gated

end Log

/-- The invariant. The parameters are read once. -/
structure CaptchaGate {IP : Type} (json : FollyJson) (h : MakeUrlRequestHandler IP) : Prop where
  puts : PutsGated json h.log
  chain : h.chain.Gated json h.log
  once : ∀ t u t' u', Did h.log (.extracted t u) → Did h.log (.extracted t' u') → u = u'
  unread : h.ingressComplete = false → ∀ t u, ¬ Did h.log (.extracted t u)

namespace CaptchaGate

variable {IP : Type} {svc : UrlShorteningConfig} {json : FollyJson}
  {h h' : MakeUrlRequestHandler IP}

/-- The invariant is about the log, the chain and whether the input was read. -/
theorem keep (inv : CaptchaGate json h) (log : h'.log = h.log) (chain : h'.chain.Gated json h.log)
    (read : h'.ingressComplete = false → h.ingressComplete = false) : CaptchaGate json h' where
  puts := by
    rw [log]
    exact inv.puts
  chain := by
    rw [log]
    exact chain
  once := by
    rw [log]
    exact inv.once
  unread := by
    rw [log]
    exact fun early => inv.unread (read early)

/-- Other actions change nothing. -/
theorem record (inv : CaptchaGate json h) {a : Action} (noPut : ∀ slug v failure, a ≠ .put slug v failure)
    (noInput : ∀ t u, a ≠ .extracted t u) : CaptchaGate json (h.record a) where
  puts := ⟨fun slug v failure same => absurd same (noPut slug v failure), inv.puts⟩
  chain := inv.chain.cons _
  once := fun t u t' u' did did' => inv.once t u t' u' (did.older (noInput t u)) (did'.older (noInput t' u'))
  unread := fun early t u did => inv.unread early t u (did.older (noInput t u))

/-- The parameters are read. -/
theorem extracted (inv : CaptchaGate json h) (first : h.ingressComplete = false) (t u : Bytes) :
    CaptchaGate json (MakeUrlRequestHandler.record (.extracted t u) { h with ingressComplete := true }) where
  puts := ⟨nofun, inv.puts⟩
  chain := inv.chain.cons _
  once := by
    have only {t' u' : Bytes} (did : Did (⟨h.deleted, .extracted t u⟩ :: h.log) (.extracted t' u')) :
        u' = u := by
      by_contra other
      refine inv.unread first t' u' (did.older ?_)
      intro same
      cases same
      exact other rfl
    intro t₁ u₁ t₂ u₂ did₁ did₂
    rw [only did₁, only did₂]
  unread := nofun

/-- The promise is set. -/
theorem setPromise (inv : CaptchaGate json h) {result : Option Bytes}
    (reply : ∀ b, result = some b → Did h.log (.captchaServiceEOM 200 (some b))) :
    CaptchaGate json (h.setPromise json result) := by
  unfold MakeUrlRequestHandler.setPromise
  split
  · have recorded := inv.record (a := .satisfied result) nofun nofun
    exact recorded.keep rfl (recorded.chain.complete fun b given => (reply b given).cons _) id
  · have recorded := inv.record (a := .alreadySatisfied) nofun nofun
    exact recorded.keep rfl recorded.chain id
  · exact inv.record nofun nofun

/-- The handler is deleted. -/
theorem deleteThis (inv : CaptchaGate json h) : CaptchaGate json (h.deleteThis json) := by
  have recorded := inv.record (a := .deleteThis) nofun nofun
  exact recorded.keep rfl (recorded.chain.complete nofun) id

/-- **Every step keeps the gate.** -/
theorem step {e : MakeUrlEvent IP} (inv : CaptchaGate json h) (moved : h.step svc json e = some h') :
    CaptchaGate json h' := by
  cases MakeUrlRequestHandler.step_cases moved with
  | @called request _ _ =>
    have given : CaptchaGate json { h with headers := some request } := inv.keep rfl inv.chain id
    unfold MakeUrlRequestHandler.onRequest
    simp only
    split
    · exact given.record nofun nofun
    · exact given
  | received _ | connected _ | undefined _ => exact inv.keep rfl inv.chain id
  | ignored _ _ | crashed _ _ => exact inv.keep rfl inv.chain nofun
  | refused _ _ =>
    have read : CaptchaGate json { h with ingressComplete := true } := inv.keep rfl inv.chain nofun
    exact read.record nofun nofun
  | @queryCrashed _ userCaptchaResponse longUrl _ first =>
    have read := inv.extracted first userCaptchaResponse longUrl
    exact read.keep rfl read.chain nofun
  | @queried _ userCaptchaResponse longUrl _ first given real =>
    have read := inv.extracted first userCaptchaResponse longUrl
    exact read.keep rfl ⟨real, _, given, did_first ..⟩ nofun
  | completed _ =>
    have ended : CaptchaGate json { h with clientTerminated := true } := inv.keep rfl inv.chain id
    exact ended.deleteThis
  | failed _ =>
    have ended : CaptchaGate json { h with clientTerminated := true } := inv.keep rfl inv.chain id
    have set : CaptchaGate json (MakeUrlRequestHandler.setPromise json none
        { h with clientTerminated := true }) := ended.setPromise nofun
    unfold MakeUrlRequestHandler.onError
    simp only
    split
    · exact set
    · exact set.deleteThis
  | notConnected _ =>
    have given : CaptchaGate json { h with connector := .failed } := inv.keep rfl inv.chain id
    unfold MakeUrlRequestHandler.connectError
    simp only
    split <;> exact given.record nofun nofun
  | @captchaQuiet callback _ _ | @captchaCrashed callback _ _ =>
    have recorded := inv.record (a := .captcha callback) nofun nofun
    exact recorded.keep rfl recorded.chain id
  | @answered status body result txn _ _ _ _ reply =>
    have recorded := inv.record (a := .captcha .onEOM) nofun nofun
    have called : CaptchaGate json { h.record (.captcha .onEOM) with txnHandler := txn } :=
      recorded.keep rfl recorded.chain id
    refine (called.record (a := .captchaServiceEOM status body) nofun nofun).setPromise ?_
    intro b given
    obtain ⟨rfl, rfl⟩ := reply b given
    exact did_first ..
  | @captchaFailed txn _ _ =>
    have recorded := inv.record (a := .captcha .onError) nofun nofun
    have called : CaptchaGate json { h.record (.captcha .onError) with txnHandler := txn } :=
      recorded.keep rfl recorded.chain id
    exact called.setPromise nofun
  | @shortens longUrl stage =>
    have approved := inv.chain
    rw [stage] at approved
    have recorded := inv.record (a := .shorten longUrl) nofun nofun
    exact recorded.keep rfl ⟨(approved rfl).cons _, doShortenUrl_writes ..⟩ id
  | refusedByCaptcha _ | passesException _ | shortened _ => exact inv.keep rfl trivial id
  | @reads _ _ longUrl slug next stage =>
    have approved := inv.chain
    rw [stage] at approved
    have recorded := inv.record (a := .get slug) nofun nofun
    exact recorded.keep rfl ⟨approved.1.cons _, approved.2 _⟩ id
  | @writes fail _ longUrl slug value next stage =>
    have approved := inv.chain
    rw [stage] at approved
    obtain ⟨passed, same, rest⟩ := approved
    subst same
    have older {t u : Bytes} (did : Did (⟨h.deleted, .put slug value fail⟩ :: h.log) (.extracted t u)) :
        Did h.log (.extracted t u) := did.older nofun
    refine ⟨⟨?_, inv.puts⟩, ⟨passed.cons _, rest _⟩, ?_, ?_⟩
    · intro slug' v failure put
      cases put
      exact passed
    · exact fun t u t' u' did did' => inv.once t u t' u' (older did) (older did')
    · exact fun early t u did => inv.unread early t u (older did)
  | @responds shortUrl _ =>
    have recorded := inv.record (a := .sendWithEOM (chainResponse shortUrl)) nofun nofun
    exact recorded.keep rfl trivial id

end CaptchaGate

theorem captchaGate_start {IP : Type} (json : FollyJson) :
    CaptchaGate json ({} : MakeUrlRequestHandler IP) where
  puts := trivial
  chain := trivial
  once := fun _ _ _ _ did => by
    obtain ⟨_, mem⟩ := did
    cases mem
  unread := fun _ _ _ did => by
    obtain ⟨_, mem⟩ := did
    cases mem

theorem PutsGated.put {json : FollyJson} {newer older : List LogEntry} {freed : Bool}
    {slug longUrl : Bytes} {failure : Option RocksFailure}
    (gated : PutsGated json (newer ++ ⟨freed, .put slug longUrl failure⟩ :: older)) :
    Passed json older longUrl := by
  induction newer with
  | nil => exact gated.1 slug longUrl failure rfl
  | cons e newer ih => exact ih gated.2

/-- **The captcha gate.** In every run of a handler, below each `put` of the log (which
is newest first) stand the parameters `onEOM` read, both non-empty, the URL being the
value written and the only one read; and the end of the captcha transaction with
status 200 and a body that parses to an object whose `success` is true. -/
theorem put_after_captcha {IP : Type} (svc : UrlShorteningConfig) (json : FollyJson)
    (h : MakeUrlRequestHandler IP)
    (run : Reachable (MakeUrlRequestHandler.step svc json) ({} : MakeUrlRequestHandler IP) h)
    (newer older : List LogEntry) (freed : Bool) (slug value : Bytes) (failure : Option RocksFailure)
    (put : h.log = newer ++ ⟨freed, .put slug value failure⟩ :: older) :
    (∃ userCaptchaResponse, Did older (.extracted userCaptchaResponse value) ∧
      userCaptchaResponse ≠ [] ∧ value ≠ []) ∧
    (∀ userCaptchaResponse longUrl, Did h.log (.extracted userCaptchaResponse longUrl) →
      longUrl = value) ∧
    ∃ reply d, Did older (.captchaServiceEOM 200 (some reply)) ∧ json.parseJson reply = some d ∧
      d.isObject = true ∧ (d.get (bytes "success")).isNull = false ∧
      json.asBool (d.get (bytes "success")) = some true := by
  have inv : CaptchaGate json h :=
    run.invariant (CaptchaGate json) (captchaGate_start json) fun _ _ _ inv _ moved => inv.step moved
  have gated := inv.puts
  rw [put] at gated
  obtain ⟨⟨real, token, given, freed', mem⟩, passed⟩ := gated.put
  refine ⟨⟨token, ⟨freed', mem⟩, given, real⟩, fun t u did => ?_, passed⟩
  refine inv.once t u token value did ⟨freed', ?_⟩
  rw [put]
  exact List.mem_append_right _ (List.mem_cons_of_mem _ mem)

/-- An approved request whose first slug is free. -/
theorem put_after_captcha_approved : ∃ h older, replay
      (MakeUrlRequestHandler.step (sampleShortening twoHashes) sampleJson) {}
      (sampleQuery ++ sampleApproval ++ [.cpu, .db none fun _ => none, .db none fun _ => none]) = some h ∧
    h.log = ⟨false, .put (bytes "C3Cs6Yf") (bytes "https://a.example/") none⟩ :: older ∧
    ∃ reply d, Did older (.captchaServiceEOM 200 (some reply)) ∧ sampleJson.parseJson reply = some d ∧
      d.isObject = true ∧ (d.get (bytes "success")).isNull = false ∧
      sampleJson.asBool (d.get (bytes "success")) = some true := by
  have run := Reachable.of_replay (MakeUrlRequestHandler.step (sampleShortening twoHashes) sampleJson) {}
    (sampleQuery ++ sampleApproval ++ [.cpu, .db none fun _ => none, .db none fun _ => none]) rfl
  refine ⟨_, _, rfl, rfl, ?_⟩
  exact (put_after_captcha (sampleShortening twoHashes) sampleJson _ run [] _
    false (bytes "C3Cs6Yf") (bytes "https://a.example/") none rfl).2.2

end UrlShortener
