import UrlShortener.Bytes

/-!
# `folly::dynamic`

The JSON library is outside the repository. `Dynamic` is the value type it
documents; parsing and the coercions are parameters (`FollyJson`), a function that
throws being `none`.
-/

namespace UrlShortener
set_option autoImplicit false

/-- `folly::dynamic`; a double is its bit pattern. -/
inductive Dynamic where
  | null
  | bool (b : Bool)
  | int64 (n : Int)
  | double (bits : UInt64)
  | string (s : Bytes)
  | array (items : List Dynamic)
  | object (fields : List (Bytes × Dynamic))

def Dynamic.isObject : Dynamic → Bool
  | .object _ => true
  | _ => false

def Dynamic.isNull : Dynamic → Bool
  | .null => true
  | _ => false

/-- `operator[]` of a mutable object, which makes a missing value null. -/
def Dynamic.get (d : Dynamic) (key : Bytes) : Dynamic :=
  match d with
  | .object fields => (fields.lookup key).getD .null
  | _ => .null

/-- `folly::parseJson` and the coercions of `folly::dynamic`. -/
structure FollyJson where
  parseJson : Bytes → Option Dynamic
  asString : Dynamic → Option Bytes
  asBool : Dynamic → Option Bool

/-- A create request's body. -/
def sampleBody : Bytes :=
  bytes "\x7b\x22user_captcha_response\x22:\x22t\x22,\x22long_url\x22:\x22https://a.example/\x22\x7d"

/-- A create request's body with another URL. -/
def otherBody : Bytes :=
  bytes "\x7b\x22user_captcha_response\x22:\x22t\x22,\x22long_url\x22:\x22https://b.example/\x22\x7d"

/-- The captcha service's approval. -/
def sampleReply : Bytes := bytes "\x7b\x22success\x22:true\x7d"

/-- The library on these three texts. -/
def sampleJson : FollyJson where
  parseJson text :=
    if text = sampleBody then
      some (.object [(bytes "user_captcha_response", .string (bytes "t")),
        (bytes "long_url", .string (bytes "https://a.example/"))])
    else if text = otherBody then
      some (.object [(bytes "user_captcha_response", .string (bytes "t")),
        (bytes "long_url", .string (bytes "https://b.example/"))])
    else if text = sampleReply then some (.object [(bytes "success", .bool true)])
    else none
  asString
    | .string s => some s
    | _ => none
  asBool
    | .bool b => some b
    | _ => none

end UrlShortener
