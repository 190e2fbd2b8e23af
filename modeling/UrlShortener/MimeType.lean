import UrlShortener.Bytes

/-!
# `mime_type.cc`
-/

namespace UrlShortener
set_option autoImplicit false

inductive MimeType where
  | html | js | css | jpeg | png | ico | text | woff2 | woff | webp | json | jsonLd | svg | pdf
  | oggAudio | oggVideo | ogg | opentypeFont | mp3 | mp4 | mpeg | octetStream
  deriving DecidableEq, Repr

/-- `mime_type::string`. -/
def MimeType.string : MimeType → Bytes
  | .html => bytes "text/html"
  | .js => bytes "text/javascript"
  | .css => bytes "text/css"
  | .jpeg => bytes "image/jpeg"
  | .png => bytes "image/png"
  | .ico => bytes "image/vnd.microsoft.icon"
  | .text => bytes "text/plain"
  | .woff2 => bytes "font/woff2"
  | .woff => bytes "font/woff"
  | .webp => bytes "image/webp"
  | .json => bytes "application/json"
  | .jsonLd => bytes "application/ld+json"
  | .svg => bytes "image/svg+xml"
  | .pdf => bytes "application/pdf"
  | .oggAudio => bytes "audio/ogg"
  | .oggVideo => bytes "video/ogg"
  | .ogg => bytes "application/ogg"
  | .opentypeFont => bytes "font/otf"
  | .mp3 => bytes "audio/mpeg"
  | .mp4 => bytes "video/mp4"
  | .mpeg => bytes "video/mpeg"
  | .octetStream => bytes "application/octet-stream"

/-- What follows the last `c`, if there is one, and what comes before it. -/
def splitLast (c : UInt8) (s : Bytes) : Option (Bytes × Bytes) :=
  let after := (s.reverse.takeWhile (· != c)).reverse
  if after.length = s.length then none
  else some (s.take (s.length - after.length - 1), after)

/-- `std::filesystem::path::filename`. -/
def pathFilename (p : Bytes) : Bytes :=
  match splitLast 0x2f p with
  | some (_, name) => name
  | none => p

/-- `std::filesystem::path::extension`: from the last period of the file name on,
unless the name is `.` or `..` or starts with its only period. -/
def pathExtension (p : Bytes) : Bytes :=
  let name := pathFilename p
  if name = bytes ".." then []
  else
    match splitLast 0x2e name with
    | some (stem, ext) => if stem = [] then [] else 0x2e :: ext
    | none => []

/-- `infer_mime_type`, its tests in order. -/
def inferMimeType (filename : Bytes) : MimeType :=
  let ext := pathExtension filename
  if ext = bytes ".html" ∨ ext = bytes ".htm" then .html
  else if ext = bytes ".js" then .js
  else if ext = bytes ".css" then .css
  else if ext = bytes ".woff2" then .woff2
  else if ext = bytes ".woff" then .woff
  else if ext = bytes ".jpeg" ∨ ext = bytes ".jpg" then .jpeg
  else if ext = bytes ".png" then .png
  else if ext = bytes ".svg" then .svg
  else if ext = bytes ".ico" then .ico
  else if ext = bytes ".txt" ∨ ext = bytes ".md" ∨ ext = bytes ".rst" then .text
  else if ext = bytes ".json" then .json
  else if ext = bytes ".jsonld" then .jsonLd
  else if ext = bytes ".otf" then .opentypeFont
  else if ext = bytes ".ogg" then .ogg
  else if ext = bytes ".ogv" then .oggVideo
  else if ext = bytes "oga" then .oggAudio
  else if ext = bytes ".png" then .pdf
  else if ext = bytes ".mp3" then .mp3
  else if ext = bytes ".mpeg" then .mpeg
  else if ext = bytes ".mp4" then .mp4
  else .octetStream

example : inferMimeType (bytes "assets/app.v2.js") = .js := by decide

end UrlShortener
