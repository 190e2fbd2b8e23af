import UrlShortener.Logic.Transition
import UrlShortener.MakeUrl.Handler

/-!
# The body of a create request

`onEOM` is `noexcept`, but `parseJson` throws on text that is not JSON and `asString` on
an array or object, so such a body ends the process (`text_body_crashes`). A request is
answered with 400, or starts its captcha query, exactly where the library reads the
body without throwing and the query can be set up (`onEOM_answers_iff`).
-/

namespace UrlShortener
set_option autoImplicit false
open Transition

variable {IP : Type}

/-- A create request with its body in chunks. -/
def createEvents (request : HTTPMessage IP) (chunks : List Bytes) (throws : Bool) : List (MakeUrlEvent IP) :=
  .onRequest request :: (chunks.map .onBody ++ [.onEOM throws])

/-- The body `onEOM` finds. -/
def receivedBody : List Bytes → Option Bytes
  | [] => none
  | chunk :: rest => some (chunk ++ rest.flatten)

/-- One 400 response and no captcha query, or one query and no response. -/
structure InputAnswered (h : MakeUrlRequestHandler IP) : Prop where
  running : h.terminated = false
  outcome : (h.log = [⟨false, .sendWithEOM badRequest⟩] ∧ h.connector = .idle) ∨
    ∃ userCaptchaResponse longUrl, userCaptchaResponse ≠ [] ∧ longUrl ≠ [] ∧
      h.log = [⟨false, .extracted userCaptchaResponse longUrl⟩] ∧ h.connector = .connecting

/-- The value is an object with both fields. -/
def HasFields (d : Dynamic) : Prop :=
  d.isObject = true ∧ (d.get (bytes "user_captcha_response")).isNull = false ∧
    (d.get (bytes "long_url")).isNull = false

/-- The body is JSON, and its two fields, if it has both, have string values. -/
def Readable (json : FollyJson) (body : Bytes) : Prop :=
  ∃ d, json.parseJson body = some d ∧
    (HasFields d → json.asString (d.get (bytes "user_captcha_response")) ≠ none ∧
      json.asString (d.get (bytes "long_url")) ≠ none)

/-- The body asks for a captcha query. -/
def AsksQuery (json : FollyJson) (body : Bytes) : Prop :=
  ∃ d userCaptchaResponse longUrl, json.parseJson body = some d ∧ HasFields d ∧
    json.asString (d.get (bytes "user_captcha_response")) = some userCaptchaResponse ∧
    json.asString (d.get (bytes "long_url")) = some longUrl ∧ userCaptchaResponse ≠ [] ∧ longUrl ≠ []

/-! ## Reading the body -/

section

variable {json : FollyJson} {body userCaptchaResponse longUrl : Bytes} {d : Dynamic}

theorem parseInput_fields (parsed : json.parseJson body = some d) (fields : HasFields d) :
    parseInput json body = (json.asString (d.get (bytes "user_captcha_response"))).bind fun r =>
      (json.asString (d.get (bytes "long_url"))).map fun u => (r, u) := by
  obtain ⟨object, response, url⟩ := fields
  simp only [parseInput, parsed, object, response, url]
  cases json.asString (d.get (bytes "user_captcha_response")) <;>
    cases json.asString (d.get (bytes "long_url")) <;> rfl

theorem parseInput_no_fields (parsed : json.parseJson body = some d) (fields : ¬ HasFields d) :
    parseInput json body = some ([], []) := by
  have no : ¬ (d.isObject = true ∧ ¬ (d.get (bytes "user_captcha_response")).isNull = true ∧
      ¬ (d.get (bytes "long_url")).isNull = true) := by
    simpa [HasFields] using fields
  rw [parseInput, parsed]
  exact if_neg no

theorem parseInput_eq_none_iff : parseInput json body = none ↔ ¬ Readable json body := by
  cases parsed : json.parseJson body with
  | none =>
    simp [parseInput, Readable, parsed]
  | some d =>
    by_cases fields : HasFields d
    · rw [parseInput_fields parsed fields]
      simp only [Readable, parsed, Option.some.injEq, exists_eq_left', fields, forall_const]
      cases json.asString (d.get (bytes "user_captcha_response")) <;>
        cases json.asString (d.get (bytes "long_url")) <;> simp
    · rw [parseInput_no_fields parsed fields]
      simp [Readable, parsed, fields]

theorem asksQuery_iff : AsksQuery json body ↔
    ∃ r u, parseInput json body = some (r, u) ∧ r ≠ [] ∧ u ≠ [] := by
  constructor
  · rintro ⟨d, r, u, parsed, fields, response, url, nonempty⟩
    refine ⟨r, u, ?_, nonempty⟩
    rw [parseInput_fields parsed fields, response, url]
    rfl
  · rintro ⟨r, u, read, nonempty⟩
    cases parsed : json.parseJson body with
    | none =>
      rw [parseInput, parsed] at read
      cases read
    | some d =>
      by_cases fields : HasFields d
      · rw [parseInput_fields parsed fields] at read
        obtain ⟨r', response, read⟩ := Option.bind_eq_some_iff.mp read
        obtain ⟨u', url, same⟩ := Option.map_eq_some_iff.mp read
        cases same
        exact ⟨d, r, u, parsed, fields, response, url, nonempty⟩
      · rw [parseInput_no_fields parsed fields] at read
        cases read
        exact absurd rfl nonempty.1

end

/-! ## The request up to its end -/

section

variable {svc : UrlShorteningConfig} {json : FollyJson}

theorem step_onBody {h : MakeUrlRequestHandler IP} (running : h.terminated = false)
    (live : h.deleted = false) (called : h.headers.isSome) (chunk : Bytes) :
    h.step svc json (.onBody chunk) = some (h.onBody chunk) := by
  have present : h.headers.isNone = false := by
    cases given : h.headers with
    | none =>
      rw [given] at called
      cases called
    | some _ => rfl
  simp [MakeUrlRequestHandler.step, running, live, present]

/-- Further chunks join the body. -/
theorem replay_more (chunks : List Bytes) : ∀ {h : MakeUrlRequestHandler IP} {before : Bytes},
    h.terminated = false → h.deleted = false → h.headers.isSome → h.body = some before →
    replay (MakeUrlRequestHandler.step svc json) h (chunks.map .onBody) =
      some { h with body := some (before ++ chunks.flatten) } := by
  induction chunks with
  | nil =>
    intro h before _ _ _ body
    simp [replay, ← body]
  | cons chunk rest ih =>
    intro h before running live called body
    rw [List.map_cons, replay, step_onBody running live called, Option.bind_some,
      MakeUrlRequestHandler.onBody, body]
    rw [ih (h := { h with body := some (before ++ chunk) }) running live called rfl]
    simp

/-- The chunks of a request make its body. -/
theorem replay_bodies (chunks : List Bytes) {h : MakeUrlRequestHandler IP} (running : h.terminated = false)
    (live : h.deleted = false) (called : h.headers.isSome) (empty : h.body = none) :
    replay (MakeUrlRequestHandler.step svc json) h (chunks.map .onBody) =
      some { h with body := receivedBody chunks } := by
  cases chunks with
  | nil => simp [replay, receivedBody, ← empty]
  | cons chunk rest =>
    rw [List.map_cons, replay, step_onBody running live called, Option.bind_some,
      MakeUrlRequestHandler.onBody, empty]
    exact replay_more (h := { h with body := some chunk }) rest running live called rfl

/-- The handler in front of `onEOM`. -/
def received (request : HTTPMessage IP) (chunks : List Bytes) : MakeUrlRequestHandler IP :=
  { headers := some request, body := receivedBody chunks, ingressComplete := true }

/-- A create request comes to its `onEOM`. -/
theorem replay_createEvents (request : HTTPMessage IP) (chunks : List Bytes) (throws : Bool)
    (create : request.method = some .post ∨ request.method = some .put) :
    replay (MakeUrlRequestHandler.step svc json) {} (createEvents request chunks throws) =
      some ((received request chunks).onEOM json throws) := by
  have admitted : ({} : MakeUrlRequestHandler IP).onRequest request = { headers := some request } := by
    rcases create with post | put
    · simp [MakeUrlRequestHandler.onRequest, post]
    · simp [MakeUrlRequestHandler.onRequest, put]
  have called : ({} : MakeUrlRequestHandler IP).step svc json (.onRequest request) =
      some { headers := some request } := by
    simp [MakeUrlRequestHandler.step, admitted]
  rw [createEvents, replay, called, Option.bind_some, replay_append,
    replay_bodies (h := { headers := some request }) chunks rfl rfl rfl rfl]
  simp [replay, MakeUrlRequestHandler.step, received]

/-- A request answered with 400 by `onEOM`. -/
theorem inputAnswered_refused {request : HTTPMessage IP} {chunks : List Bytes} :
    InputAnswered ((received request chunks).record (.sendWithEOM badRequest)) :=
  ⟨rfl, .inl ⟨rfl, rfl⟩⟩

/-- What `onEOM` does with a body. -/
theorem onEOM_answers_body {request : HTTPMessage IP} {chunks : List Bytes} {body : Bytes}
    (given : receivedBody chunks = some body) (throws : Bool) :
    InputAnswered ((received request chunks).onEOM json throws) ↔
      Readable json body ∧ (AsksQuery json body → throws = false) := by
  rw [asksQuery_iff]
  cases read : parseInput json body with
  | none =>
    have crashes : (received request chunks).onEOM json throws = (received request chunks).terminate := by
      simp [MakeUrlRequestHandler.onEOM, received, given, read]
    rw [crashes]
    refine ⟨fun answered => ?_, fun h => absurd h.1 (parseInput_eq_none_iff.mp read)⟩
    cases answered.running
  | some parameters =>
    obtain ⟨r, u⟩ := parameters
    have readable : Readable json body := by
      by_contra unreadable
      rw [parseInput_eq_none_iff.mpr unreadable] at read
      cases read
    by_cases empty : r = [] ∨ u = []
    · have refused : (received request chunks).onEOM json throws =
          (received request chunks).record (.sendWithEOM badRequest) := by
        rcases empty with none | none <;>
          simp [MakeUrlRequestHandler.onEOM, received, given, read, none]
      rw [refused]
      refine ⟨fun _ => ⟨readable, ?_⟩, fun _ => inputAnswered_refused⟩
      rintro ⟨r', u', same, nonempty⟩
      cases same
      rcases empty with none | none
      · exact absurd none nonempty.1
      · exact absurd none nonempty.2
    · rw [not_or] at empty
      cases throws with
      | true =>
        have crashes : (received request chunks).onEOM json true =
            ((received request chunks).record (.extracted r u)).terminate := by
          simp [MakeUrlRequestHandler.onEOM, received, given, read, empty]
        rw [crashes]
        constructor
        · intro answered
          cases answered.running
        · intro h
          cases h.2 ⟨r, u, rfl, empty⟩
      | false =>
        have queried : (received request chunks).onEOM json false =
            { (received request chunks).record (.extracted r u) with
              connector := .connecting, chain := .waiting u } := by
          simp [MakeUrlRequestHandler.onEOM, received, given, read, empty]
        rw [queried]
        exact ⟨fun _ => ⟨readable, fun _ => rfl⟩,
          fun _ => ⟨rfl, .inr ⟨r, u, empty.1, empty.2, rfl, rfl⟩⟩⟩

end

/-- **A create request is answered, or starts its query, exactly where the library
reads its body** and the query it asks for can be set up. -/
theorem onEOM_answers_iff (svc : UrlShorteningConfig) (json : FollyJson) (request : HTTPMessage IP)
    (chunks : List Bytes) (throws : Bool) (create : request.method = some .post ∨ request.method = some .put) :
    (∃ h, replay (MakeUrlRequestHandler.step svc json) {} (createEvents request chunks throws) = some h ∧
      InputAnswered h) ↔
    ∀ body, receivedBody chunks = some body →
      Readable json body ∧ (AsksQuery json body → throws = false) := by
  rw [replay_createEvents request chunks throws create]
  simp only [Option.some.injEq, exists_eq_left']
  cases given : receivedBody chunks with
  | none =>
    have refused : (received request chunks).onEOM json throws =
        (received request chunks).record (.sendWithEOM badRequest) := by
      simp [MakeUrlRequestHandler.onEOM, received, given]
    rw [refused]
    refine ⟨fun _ body absent => ?_, fun _ => inputAnswered_refused⟩
    cases absent
  | some body =>
    rw [onEOM_answers_body given]
    exact ⟨fun h body' same => Option.some.inj same ▸ h, fun h => h body rfl⟩

/-- The sample request on the create route. -/
def sampleCreate : HTTPMessage Unit := ⟨some .post, bytes "/api/v1/create", [], ()⟩

theorem sample_body_answered : ∃ h, replay (MakeUrlRequestHandler.step (sampleShortening twoHashes) sampleJson) {}
    (createEvents sampleCreate [sampleBody] false) = some h ∧ InputAnswered h := by
  refine (onEOM_answers_iff (sampleShortening twoHashes) sampleJson sampleCreate [sampleBody] false
    (.inl rfl)).mpr fun body same => ?_
  cases same
  refine ⟨⟨_, rfl, fun _ => ⟨?_, ?_⟩⟩, fun _ => rfl⟩ <;> (intro h; cases h)

/-- A body that is not JSON ends the process, with no response sent. -/
theorem text_body_crashes : ∃ h, replay (MakeUrlRequestHandler.step (sampleShortening twoHashes) sampleJson) {}
    (createEvents sampleCreate [bytes "hello"] false) = some h ∧ h.terminated = true ∧ h.log = [] :=
  ⟨_, rfl, rfl, rfl⟩

end UrlShortener
