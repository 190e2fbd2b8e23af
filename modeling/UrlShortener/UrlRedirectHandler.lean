import UrlShortener.Db
import UrlShortener.Http

/-!
# `url_shortener_handler.cc`: redirects
-/

namespace UrlShortener
set_option autoImplicit false
open AtomicStore

/-- The response to a finished lookup: the continuation of
`UrlRedirectHandler::onRequest`. -/
def UrlRedirectHandler.respond (ok : Bool) (buf : Bytes) : Response :=
  if ok then
    { status := 301, reason := bytes "Moved Permanently", headers := [(bytes "Location", buf)] }
  else { status := 404, reason := bytes "Not Found" }

/-- `UrlRedirectHandler::onRequest` and the lookup it queues, up to the response. -/
def UrlRedirectHandler.onRequest (shortUrl : Bytes) (method : Option HTTPMethod) : DbProg Response :=
  if method ≠ some .get then return { status := 405, reason := bytes "Method Not Allowed" }
  else if shortUrl.length = 0 then return { status := 400, reason := bytes "Bad Request" }
  else do
    let (ok, buf) ← ShortenedUrlsDatabase.getFast [] shortUrl
    return UrlRedirectHandler.respond ok buf

/-- A stored slug redirects to its URL. -/
theorem redirect_exec {s : UrlStore} {shortUrl longUrl : Bytes} (nonempty : shortUrl ≠ [])
    (held : s shortUrl = some longUrl) (fail : Nat → Option RocksFailure) (sound : fail 0 = none) :
    (UrlRedirectHandler.onRequest shortUrl (some .get)).exec fail 0 s =
      (UrlRedirectHandler.respond true longUrl, s) := by
  have some : ¬ shortUrl.length = 0 := fun h => nonempty (List.eq_nil_of_length_eq_zero h)
  simp only [UrlRedirectHandler.onRequest, if_neg some, ShortenedUrlsDatabase.getFast]
  simp [sound, held]

end UrlShortener
