import UrlShortener.DdosProtection
import UrlShortener.FrontendHandler

/-!
# `web_server.cc`: routing

`MyRequestHandlerFactory::onRequest` picks the handler of a request; the filter of
`ddos_protection.cc` then sees the handler and the request.
-/

namespace UrlShortener
set_option autoImplicit false

/-- The handler the factory builds, with what it is constructed from. -/
inductive RequestHandler where
  | frontend (h : FrontendHandler)
  | static (docRoot : Bytes)
  | makeUrl
  | redirect (shortUrl : Bytes)
  | notFound
  deriving DecidableEq, Repr

variable {IP : Type}

/-- `MyRequestHandlerFactory::onRequest`. -/
def MyRequestHandlerFactory.onRequest (cfg : ReadOnlyAppConfig IP) (cache : FrontendDirCache)
    (msg : HTTPMessage IP) : Except Undefined RequestHandler := do
  match ← FrontendHandler.lookup cache msg.path with
  | some frontend => return .frontend frontend
  | none =>
    if startsWith msg.path (bytes "/static/") && msg.method == some .get then
      return .static cfg.staticFileDocRoot
    else if startsWith msg.path (bytes "/api/") then
      if msg.path = bytes "/api/v1/create" ∧
          (msg.method = some .post ∨ msg.method = some .put) then
        return .makeUrl
      else return .notFound
    else
      let parsed ← parseOutRequestStr msg.path
      if parsed.length > 0 ∧ msg.method = some .get then return .redirect parsed
      else return .notFound

/-- A request gets a `MakeUrlRequestHandler` on the create route only. -/
theorem makeUrl_route {cfg : ReadOnlyAppConfig IP} {cache : FrontendDirCache} {msg : HTTPMessage IP}
    (built : MyRequestHandlerFactory.onRequest cfg cache msg = .ok .makeUrl) :
    msg.path = bytes "/api/v1/create" ∧ (msg.method = some .post ∨ msg.method = some .put) := by
  simp only [MyRequestHandlerFactory.onRequest, bind, Except.bind] at built
  split at built
  · cases built
  · split at built
    · cases built
    · split at built
      · cases built
      · split at built
        · split at built
          · assumption
          · cases built
        · split at built
          · cases built
          · split at built <;> cases built

/-- The create route is protected. -/
theorem makeUrl_protected {cfg : ReadOnlyAppConfig IP} {cache : FrontendDirCache}
    {msg : HTTPMessage IP} (built : MyRequestHandlerFactory.onRequest cfg cache msg = .ok .makeUrl) :
    isProtected msg = true := by
  rcases (makeUrl_route built).2 with post | put
  · simp [isProtected, post]
  · simp [isProtected, put]

end UrlShortener
