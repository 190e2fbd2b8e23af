import UrlShortener.AppConfig.HashKey
import UrlShortener.Logic.FormCoding

/-!
# `make_url_request_handler.cc`: the request to the captcha service

`query_captcha_service` writes the API key and the user's token into a form. Both are
escaped by `folly::uriEscape`, a parameter here of which only the documented default mode
is assumed (`UriEscapes`). The body then decodes to the two fields whatever the token is
(`captcha_query_exact`): a token cannot end its field or begin another.
-/

namespace UrlShortener
set_option autoImplicit false
open FormCoding Numerals

/-! ## The request -/

/-- Letters, digits and `-`, `_`, `.`, `~`. -/
def isUnreserved (c : UInt8) : Bool :=
  isDecimalDigit c || (0x41 ≤ c && c ≤ 0x5a) || (0x61 ≤ c && c ≤ 0x7a) ||
    c == 0x2d || c == 0x5f || c == 0x2e || c == 0x7e

/-- `folly::uriEscape` in its default mode: every other byte is replaced by `%` and its two
hexadecimal digits. -/
def UriEscapes (uriEscape : Bytes → Bytes) : Prop :=
  ∀ s, Escapes (fun c => isUnreserved c = true) s (uriEscape s)

/-- `std::to_string` of a size. -/
def toDecimal (n : Nat) : Bytes :=
  if n = 0 then [0x30] else ((Nat.digits 10 n).map fun d => UInt8.ofNat (0x30 + d)).reverse

/-- `request_headers_to_captcha_service_` and `request_body_to_captcha_service_`, with the
host that is connected to. -/
structure CaptchaServiceRequest where
  host : Bytes
  url : Bytes
  queryString : Bytes
  method : HTTPMethod
  httpVersion : Nat × Nat
  headers : List (Bytes × Bytes)
  body : Bytes

/-- The request that `query_captcha_service` builds. -/
def queryCaptchaService {IP : Type} (uriEscape : Bytes → Bytes) (roAppConfig : ReadOnlyAppConfig IP)
    (captchaUserResponse : Bytes) : CaptchaServiceRequest :=
  let host := bytes "www.google.com"
  let secretEncoded := uriEscape roAppConfig.captchaServiceApiKey
  let responseEncoded := uriEscape captchaUserResponse
  let body := bytes "secret=" ++ secretEncoded ++ bytes "&response=" ++ responseEncoded
  { host
    url := bytes "/recaptcha/api/siteverify"
    queryString := []
    method := .post
    httpVersion := (1, 1)
    headers :=
      [(bytes "Origin", bytes "localhost"), (bytes "Host", host), (bytes "Accept", bytes "application/json"),
        (bytes "User-Agent", roAppConfig.serverUserAgent),
        (bytes "Content-Type", bytes "application/x-www-form-urlencoded"),
        (bytes "Content-Length", toDecimal body.length)]
    body }

/-- The values of a header of the request. -/
def CaptchaServiceRequest.values (request : CaptchaServiceRequest) (name : Bytes) : List Bytes :=
  (request.headers.filter fun h => sameName h.1 name).map Prod.snd

/-! ## Its body and its length -/

theorem marksEscaped : MarksEscaped fun c => isUnreserved c = true where
  percent := by decide
  ampersand := by decide
  equals := by decide

/-- The digits have the value of the size. -/
theorem decimalValue_toDecimal (n : Nat) : decimalValue (toDecimal n) = n := by
  unfold toDecimal
  split
  · rename_i zero
    rw [zero]
    rfl
  · have digits : ∀ d ∈ Nat.digits 10 n, (UInt8.ofNat (0x30 + d)).toNat - 0x30 = d := by
      intro d mem
      have small := Nat.digits_lt_base (by omega) mem
      rw [UInt8.toNat_ofNat_of_lt' (by unfold UInt8.size; omega)]
      omega
    unfold decimalValue ofDigits
    rw [foldl_digits, Nat.mul_zero, Nat.add_zero, List.map_reverse, List.reverse_reverse, List.map_map]
    calc
      _ = Nat.ofDigits 10 ((Nat.digits 10 n).map id) := by
        congr 1
        apply List.map_congr_left
        intro d mem
        exact digits d mem
      _ = n := by rw [List.map_id, Nat.ofDigits_digits]

/-- The body is a form of two fields. -/
theorem body_eq {IP : Type} (uriEscape : Bytes → Bytes) (roAppConfig : ReadOnlyAppConfig IP) (response : Bytes) :
    (queryCaptchaService uriEscape roAppConfig response).body = [0x26].intercalate
      [bytes "secret" ++ 0x3d :: uriEscape roAppConfig.captchaServiceApiKey,
        bytes "response" ++ 0x3d :: uriEscape response] := by
  have secret : bytes "secret=" = bytes "secret" ++ [0x3d] := by decide
  have token : bytes "&response=" = 0x26 :: bytes "response" ++ [0x3d] := by decide
  unfold queryCaptchaService
  dsimp only
  rw [secret, token, List.intercalate_cons_cons, List.intercalate_singleton]
  simp only [List.append_assoc, List.cons_append, List.nil_append]

theorem contentLength_eq {IP : Type} (uriEscape : Bytes → Bytes) (roAppConfig : ReadOnlyAppConfig IP)
    (response : Bytes) :
    let request := queryCaptchaService uriEscape roAppConfig response
    request.values (bytes "Content-Length") = [toDecimal request.body.length] := by
  intro request
  have others : ∀ name ∈ [bytes "Origin", bytes "Host", bytes "Accept", bytes "User-Agent", bytes "Content-Type"],
      sameName name (bytes "Content-Length") = false := by decide
  have own : sameName (bytes "Content-Length") (bytes "Content-Length") = true := by decide
  simp only [List.forall_mem_cons] at others
  obtain ⟨origin, host, accept, agent, type, -⟩ := others
  simp [CaptchaServiceRequest.values, request, queryCaptchaService, origin, host, accept, agent, type, own]

/-- **The captcha query cannot be forged through the token**: its body decodes to the
configured key and the token, and `Content-Length` is the length of the body. -/
theorem captcha_query_exact {IP : Type} (uriEscape : Bytes → Bytes) (escapes : UriEscapes uriEscape)
    (roAppConfig : ReadOnlyAppConfig IP) (captchaUserResponse : Bytes) :
    let request := queryCaptchaService uriEscape roAppConfig captchaUserResponse
    formDecode request.body =
      [(bytes "secret", roAppConfig.captchaServiceApiKey), (bytes "response", captchaUserResponse)] ∧
    request.values (bytes "Content-Length") = [toDecimal request.body.length] ∧
    decimalValue (toDecimal request.body.length) = request.body.length := by
  intro request
  refine ⟨?_, contentLength_eq uriEscape roAppConfig captchaUserResponse, decimalValue_toDecimal _⟩
  have form : request.body = _ := body_eq uriEscape roAppConfig captchaUserResponse
  have secret : ∀ c ∈ bytes "secret", isUnreserved c = true := by decide +kernel
  have response : ∀ c ∈ bytes "response", isUnreserved c = true := by decide +kernel
  rw [form]
  apply formDecode_intercalate marksEscaped
  · refine .cons ?_ (.cons ?_ .nil)
    · exact ⟨_, _, .self secret, escapes _, rfl⟩
    · exact ⟨_, _, .self response, escapes _, rfl⟩
  · exact List.cons_ne_nil _ _

/-- `folly::uriEscape`. -/
def uriEscape (s : Bytes) : Bytes :=
  s.flatMap fun c =>
    if isUnreserved c then [c] else [0x25, hexDigit (c.toNat / 16), hexDigit (c.toNat % 16)]

theorem uriEscape_escapes : UriEscapes uriEscape := by
  have digit : ∀ d < 16, hexDigitValue? (hexDigit d) = some d := by decide
  intro s
  induction s with
  | nil => exact .nil
  | cons c rest ih =>
    unfold uriEscape at ih ⊢
    rw [List.flatMap_cons]
    split
    · rename_i plain
      exact .kept plain ih
    · rename_i special
      have high : c.toNat / 16 < 16 := by
        have := c.toNat_lt
        omega
      exact .byte special (digit _ high) (digit _ (Nat.mod_lt _ (by omega))) ih

/-- A token that tries to end its field. -/
def forgingToken : Bytes := bytes "a&secret=b%=+"

/-- It stays inside it. -/
theorem forging_token_kept :
    let request := queryCaptchaService uriEscape ({ captchaServiceApiKey := bytes "k y" } : ReadOnlyAppConfig UInt32)
      forgingToken
    request.body = bytes "secret=k%20y&response=a%26secret%3db%25%3d%2b" ∧
    formDecode request.body = [(bytes "secret", bytes "k y"), (bytes "response", forgingToken)] ∧
    request.values (bytes "Content-Length") = [bytes "45"] := by
  intro request
  obtain ⟨decoded, length, -⟩ := captcha_query_exact uriEscape uriEscape_escapes
    ({ captchaServiceApiKey := bytes "k y" } : ReadOnlyAppConfig UInt32) forgingToken
  have body : request.body = bytes "secret=k%20y&response=a%26secret%3db%25%3d%2b" := by decide +kernel
  refine ⟨body, decoded, length.trans ?_⟩
  rw [show request.body = _ from body]
  decide +kernel

end UrlShortener
