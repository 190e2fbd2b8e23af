import Mathlib.Data.List.Infix
import UrlShortener.Http

/-!
# `static_handler.cc`: from the request path to the file

What `StaticHandler::onRequest` does before it looks at the cache: the method, the
request path and the file it stands for are checked, in this order.
-/

namespace UrlShortener
set_option autoImplicit false

/-- `std::filesystem::path::operator/`. -/
def pathAppend (p q : Bytes) : Bytes :=
  if p = [] ∨ q.head? = some 0x2f then q
  else if p.getLast? = some 0x2f then p ++ q
  else p ++ 0x2f :: q

/-- The elements a `std::filesystem::path` iterates over: the root directory, the
file names, and an empty element for a slash after the last of them. -/
def pathElements (p : Bytes) : List Bytes :=
  let names := (p.splitOn 0x2f).filter (· ≠ [])
  let root := if p.head? = some 0x2f then [[0x2f]] else []
  let final := if names ≠ [] ∧ p.getLast? = some 0x2f then [[]] else []
  root ++ names ++ final

/-- `max_file_path_length`. -/
def maxFilePathLength : Nat := 1000

/-- `static_files_url_prefix`. -/
def staticFilesUrlPrefix : Bytes := bytes "/static/"

/-- `validate_static_file_request_path`. -/
def validateStaticFileRequestPath (input : Bytes) : Bool :=
  input.length < maxFilePathLength ∧ ¬ bytes "//" <:+: input ∧ ¬ bytes ".." <:+: input

/-- The loop of `file_is_under_dir` over the elements of the directory and of the
file. -/
def elementsUnder : List Bytes → List Bytes → Bool
  | [], _ => true
  | _ :: _, [] => false
  | parent :: parents, this :: these =>
    if parent ≠ this ∧ parent ≠ [] then false else elementsUnder parents these

/-- `file_is_under_dir`. -/
def fileIsUnderDir (thisFile isUnderThisDir : Bytes) : Bool :=
  elementsUnder (pathElements isUnderThisDir) (pathElements thisFile)

/-- `StaticHandler::expected_file_path`. -/
def StaticHandler.expectedFilePath (path docRoot : Bytes) : Bytes :=
  if startsWith path staticFilesUrlPrefix then
    pathAppend docRoot (path.drop staticFilesUrlPrefix.length)
  else []

/-- The checks of `StaticHandler::onRequest`: the response of the first one that
fails, or the file that was asked for. -/
def StaticHandler.requestedFile {IP : Type} (docRoot : Bytes) (request : HTTPMessage IP) :
    Except Response Bytes :=
  if request.method ≠ some .get then
    .error { status := 405, reason := bytes "Method Not Allowed" }
  else if !validateStaticFileRequestPath request.path then
    .error { status := 400, reason := bytes "malicious input detected" }
  else
    let filePathShouldBe := expectedFilePath request.path docRoot
    if !fileIsUnderDir filePathShouldBe docRoot then
      .error { status := 400, reason := bytes "malicious input detected in request for static asset" }
    else .ok filePathShouldBe

/-- No check fails with a success status. -/
theorem requestedFile_error {IP : Type} {docRoot : Bytes} {request : HTTPMessage IP} {r : Response}
    (failed : StaticHandler.requestedFile docRoot request = .error r) : r.status ≠ 200 := by
  unfold StaticHandler.requestedFile at failed
  simp only at failed
  split at failed
  · cases failed
    decide
  · split at failed
    · cases failed
      decide
    · split at failed
      · cases failed
        decide
      · cases failed

example : StaticHandler.requestedFile (bytes "/srv/www/")
    (⟨some .get, bytes "/static/css/a.css", [], ()⟩ : HTTPMessage Unit) =
    .ok (bytes "/srv/www/css/a.css") := by decide

end UrlShortener
