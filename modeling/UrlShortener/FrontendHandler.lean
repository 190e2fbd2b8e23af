import UrlShortener.Http
import UrlShortener.MimeType

/-!
# `frontend_handler.cc`: files served from memory
-/

namespace UrlShortener
set_option autoImplicit false

/-- `frontend_dir_cache`: the files of the frontend by relative name. -/
abbrev FrontendDirCache := Bytes → Option Bytes

/-- A handler made by `lookup`. -/
structure FrontendHandler where
  prefoundData : Bytes
  mimeType : MimeType
  deriving DecidableEq, Repr

/-- `FrontendHandler::lookup`, which looks at the first and the last character of
the path. -/
def FrontendHandler.lookup (c : FrontendDirCache) (path : Bytes) :
    Except Undefined (Option FrontendHandler) :=
  match path.head?, path.getLast? with
  | some front, some back =>
    if front ≠ 0x2f then .ok none
    else
      let key := if back = 0x2f then path.drop 1 ++ bytes "index.html" else path.drop 1
      .ok ((c key).map fun data => ⟨data, inferMimeType key⟩)
  | _, _ => .error .outOfRange

/-- `FrontendHandler::onRequest` of a handler made by `lookup`. -/
def FrontendHandler.onRequest (h : FrontendHandler) : Response where
  status := 200
  reason := bytes "OK"
  headers := [(bytes "Content-Type", h.mimeType.string)]
  body := h.prefoundData

/-- A path that ends in no slash is looked up without its first character. -/
theorem lookup_eq_none {c : FrontendDirCache} {rest : Bytes} (missing : c rest = none)
    (last : ∀ b, (0x2f :: rest).getLast? = some b → b ≠ 0x2f) :
    FrontendHandler.lookup c (0x2f :: rest) = .ok none := by
  unfold FrontendHandler.lookup
  cases h : (0x2f :: rest).getLast? with
  | none => simp at h
  | some b => simp [last b h, missing]

end UrlShortener
