import UrlShortener.MakeUrl.Shorten
import UrlShortener.UrlRedirectHandler
import UrlShortener.WebServer

/-!
# From a new slug back to its URL

A slug contains no `/`, so the path made of a slash and the slug passes every test
in front of the redirect route, and the path parser gives the slug back. The
lookup behind the route reads what the insertion wrote.
-/

namespace UrlShortener
set_option autoImplicit false
open AtomicStore

/-- A call that returned a slug left its URL under it. -/
theorem shorten_stores {svc : UrlShorteningConfig} {longUrl slug : Bytes} (nonempty : longUrl ≠ [])
    {s s' : UrlStore} {fail : Nat → Option RocksFailure} (real : slug ≠ [])
    (completes : (doShortenUrl svc longUrl).exec fail 0 s = (.ok slug, s')) :
    s' slug = some longUrl := by
  have written {c : Bytes} {failure : Option RocksFailure}
      (ends : Inserted s longUrl c failure (.ok slug) s') : s' slug = some longUrl := by
    cases ends with
    | failed => exact absurd rfl real
    | written => exact Function.update_self ..
  have ends := shorten_cases svc nonempty s fail
  simp only [completes] at ends
  rcases ends with ⟨n, -, -, -, ends⟩ | ⟨last, -, -, ends⟩
  · cases ends with
    | ranOut => exact absurd rfl real
    | readFailed => exact absurd rfl real
    | present _ _ held => exact held
    | inserted _ _ _ ends => exact written ends
  · exact written ends

/-- A returned slug is short and made of characters of the alphabet. -/
theorem shorten_slug {svc : UrlShorteningConfig} {longUrl slug : Bytes} (nonempty : longUrl ≠ [])
    {s s' : UrlStore} {fail : Nat → Option RocksFailure}
    (completes : (doShortenUrl svc longUrl).exec fail 0 s = (.ok slug, s')) :
    slug.length < 256 ∧ ∀ c ∈ slug, c ∈ alphabet := by
  have offered {n : Nat} (low : 0 < n) (high : n ≤ maxTries)
      (offer : svc.candidate longUrl n = .ok (true, slug)) :
      slug.length < 256 ∧ ∀ c ∈ slug, c ∈ alphabet := by
    obtain ⟨length, chars⟩ := candidate_slug low high offer
    exact ⟨by rw [length]; exact svc.slugLength.toNat_lt, chars⟩
  have empty : ([] : Bytes).length < 256 ∧ ∀ c ∈ ([] : Bytes), c ∈ alphabet := by simp
  have ends := shorten_cases svc nonempty s fail
  simp only [completes] at ends
  rcases ends with ⟨n, low, high, -, ends⟩ | ⟨last, -, offer, ends⟩
  · cases ends with
    | ranOut => exact empty
    | readFailed => exact empty
    | present offer => exact offered (by omega) high offer
    | inserted offer _ _ ends =>
      generalize fail (n - 2 + 1) = failure at ends
      cases ends with
      | failed => exact empty
      | written => exact offered (by omega) high offer
  · generalize fail (maxTries - 1) = failure at ends
    cases ends with
    | failed => exact empty
    | written => exact offered (by decide) (by decide) offer

/-- A slug path starts with nothing that has a slash after its first character. -/
theorem not_startsWith_of_slug {slug lead : Bytes} (chars : ∀ c ∈ slug, c ∈ alphabet)
    (slash : 0x2f ∈ lead.tail) : startsWith (0x2f :: slug) lead = false := by
  apply Bool.eq_false_iff.mpr
  intro starts
  have isPrefix : lead <+: 0x2f :: slug := List.isPrefixOf_iff_prefix.mp starts
  cases lead with
  | nil => cases slash
  | cons c rest =>
    have inner : rest <+: slug := (List.cons_prefix_cons.mp isPrefix).2
    exact slash_not_in_alphabet (chars _ (inner.subset slash))

/-- The factory sends a slug path to the redirect handler. -/
theorem slug_route {IP : Type} {cfg : ReadOnlyAppConfig IP} {cache : FrontendDirCache}
    {msg : HTTPMessage IP} {slug : Bytes} (real : slug ≠ []) (short : slug.length < 256)
    (chars : ∀ c ∈ slug, c ∈ alphabet) (missing : cache slug = none)
    (method : msg.method = some .get) (path : msg.path = 0x2f :: slug) :
    MyRequestHandlerFactory.onRequest cfg cache msg = .ok (.redirect slug) := by
  have last : ∀ b, (0x2f :: slug).getLast? = some b → b ≠ 0x2f := by
    intro b hb
    have member : b ∈ slug := by
      rw [List.getLast?_cons, List.getLast?_eq_some_getLast real] at hb
      exact (Option.some.inj hb) ▸ List.getLast_mem real
    exact fun same => slash_not_in_alphabet (same ▸ chars b member)
  have notStatic := not_startsWith_of_slug chars (by decide : 0x2f ∈ (bytes "/static/").tail)
  have notApi := not_startsWith_of_slug chars (by decide : 0x2f ∈ (bytes "/api/").tail)
  have parsed := parseOutRequestStr_slug (by unfold maxRequestStrLen; omega) chars
  have some : slug.length > 0 := List.length_pos_iff.mpr real
  simp only [MyRequestHandlerFactory.onRequest, path, lookup_eq_none missing last, bind, Except.bind,
    notStatic, notApi, parsed, method, some]
  rfl

/-- **Shortening and redirecting are inverse.** After a call that returned a slug,
a GET of `/` and the slug is not rate limited, is routed to the redirect handler
with exactly that slug, and is answered with a 301 to the URL. -/
theorem shorten_then_redirect {IP : Type} [DecidableEq IP] [IPAddress IP] (cfg : ReadOnlyAppConfig IP)
    (svc : UrlShorteningConfig) (s s' : UrlStore) (longUrl slug : Bytes) (cache : FrontendDirCache)
    (msg : HTTPMessage IP) (nonempty : longUrl ≠ [])
    (completes : (doShortenUrl svc longUrl).exec (fun _ => none) 0 s = (.ok slug, s'))
    (real : slug ≠ []) (missing : cache slug = none) (method : msg.method = some .get)
    (path : msg.path = 0x2f :: slug) :
    isProtected msg = false ∧
    (∀ (limiter : IPAccessCountService IP) now (rh : RequestHandler),
      AntiAbuseProtection.onRequest cfg limiter now rh msg = ⟨.passed rh, limiter, []⟩) ∧
    startsWith msg.path (bytes "/static/") = false ∧ startsWith msg.path (bytes "/api/") = false ∧
    parseOutRequestStr msg.path = .ok slug ∧
    MyRequestHandlerFactory.onRequest cfg cache msg = .ok (.redirect slug) ∧
    (UrlRedirectHandler.onRequest slug msg.method).exec (fun _ => none) 0 s' =
      ({ status := 301, reason := bytes "Moved Permanently",
         headers := [(bytes "Location", longUrl)] }, s') := by
  obtain ⟨short, chars⟩ := shorten_slug nonempty completes
  have held := shorten_stores nonempty real completes
  have notStatic := not_startsWith_of_slug chars (by decide : 0x2f ∈ (bytes "/static/").tail)
  have notApi := not_startsWith_of_slug chars (by decide : 0x2f ∈ (bytes "/api/").tail)
  have open_route : isProtected msg = false := by
    simp only [isProtected, method, path, notApi]
    decide
  refine ⟨open_route, ?_, by rw [path, notStatic], by rw [path, notApi], ?_, ?_, ?_⟩
  · intro limiter now rh
    simp [AntiAbuseProtection.onRequest, open_route]
  · rw [path]
    exact parseOutRequestStr_slug (by unfold maxRequestStrLen; omega) chars
  · exact slug_route real short chars missing method path
  · rw [method]
    exact redirect_exec real held (fun _ => none) rfl

/-- A GET of the given path from an address of the documentation range. -/
def getRequest (path : Bytes) : HTTPMessage UInt32 where
  method := some .get
  path := path
  headers := []
  clientAddress := 0xc0000201

theorem shorten_then_redirect_first :
    isProtected (getRequest (bytes "/C3Cs6Yf")) = false ∧
    (∀ (limiter : IPAccessCountService UInt32) now (rh : RequestHandler),
      AntiAbuseProtection.onRequest {} limiter now rh (getRequest (bytes "/C3Cs6Yf")) =
        ⟨.passed rh, limiter, []⟩) ∧
    startsWith (bytes "/C3Cs6Yf") (bytes "/static/") = false ∧
    startsWith (bytes "/C3Cs6Yf") (bytes "/api/") = false ∧
    parseOutRequestStr (bytes "/C3Cs6Yf") = .ok (bytes "C3Cs6Yf") ∧
    MyRequestHandlerFactory.onRequest {} (fun _ => none) (getRequest (bytes "/C3Cs6Yf")) =
      .ok (.redirect (bytes "C3Cs6Yf")) ∧
    (UrlRedirectHandler.onRequest (bytes "C3Cs6Yf") (some .get)).exec (fun _ => none) 0
        (Function.update (fun _ => none) (bytes "C3Cs6Yf") (some (bytes "https://a.example/"))) =
      ({ status := 301, reason := bytes "Moved Permanently",
         headers := [(bytes "Location", bytes "https://a.example/")] },
        Function.update (fun _ => none) (bytes "C3Cs6Yf") (some (bytes "https://a.example/"))) :=
  shorten_then_redirect {} (sampleShortening twoHashes) (fun _ => none) _ (bytes "https://a.example/")
    (bytes "C3Cs6Yf") (fun _ => none) (getRequest (bytes "/C3Cs6Yf")) (by decide) rfl (by decide) rfl
    rfl rfl

end UrlShortener
