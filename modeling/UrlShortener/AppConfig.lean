import UrlShortener.UrlShortening

/-!
# `app_config.h`: the read-only configuration

The fields the loaders fill or the request path reads, with the defaults of the
declaration.
-/

namespace UrlShortener
set_option autoImplicit false

/-- What the server uses of `folly::IPAddress`. -/
class IPAddress (IP : Type) where
  /-- `folly::IPAddress::inSubnet`. -/
  inSubnet : IP → IP → UInt8 → Bool
  /-- `folly::IPAddress::tryFromString`. -/
  tryFromString : Bytes → Option IP

/-- `folly::CIDRNetwork`. -/
abbrev CIDRNetwork (IP : Type) := IP × UInt8

/-- `highwayhash::HHKey`. -/
abbrev HHKey := Vector UInt64 4

/-- `ReadOnlyAppConfig`. -/
structure ReadOnlyAppConfig (IP : Type) where
  highwayhashKey : Option HHKey := none
  urlsDbPath : Bytes := []
  grpcServicePort : UInt16 := 50051
  webServerPort : UInt16 := 60022
  slugLength : UInt8 := 7
  alphabet : Bytes := UrlShortener.alphabet
  staticFileDocRoot : Bytes := []
  frontendDocRoot : Bytes := []
  staticFileRequestPathPrefix : Bytes := bytes "/static/"
  rateLimitPerMinute : UInt32 := 60
  ipRateLimiterSecondsTtl : UInt32 := 86400
  urlShortenerServiceBaseUrl : Bytes := bytes "https://prv.ec/"
  webServerBindHost : Bytes := bytes "127.0.0.1"
  trustedCertificatesPath : Bytes := bytes "/etc/ssl/certs/ca-certificates.crt"
  captchaServiceApiKey : Bytes := []
  knownCloudflareCidrs : List Bytes := []
  cfCidrs : List (CIDRNetwork IP) := []
  allowedReverseProxyCidrs : List Bytes := []
  reverseProxyCidrs : List (CIDRNetwork IP) := []
  serverUserAgent : Bytes := bytes "prv.ec - an open source url shortener web service"

/-! ## IPv4 addresses

A concrete `IPAddress`: 32-bit addresses in dotted decimal notation. -/

/-- A decimal octet without a leading zero. -/
def parseOctet (s : Bytes) : Option Nat :=
  let value := s.foldl (fun n c => 10 * n + (c.toNat - 0x30)) 0
  if s ≠ [] ∧ s.length ≤ 3 ∧ (s.all fun c => 0x30 ≤ c && c ≤ 0x39) ∧
      (s.length = 1 ∨ s.head? ≠ some 0x30) ∧ value ≤ 255 then some value
  else none

/-- The pieces of `s` between its periods. -/
def splitPeriods : Bytes → List Bytes
  | [] => [[]]
  | c :: rest =>
    match splitPeriods rest with
    | [] => [[c]]
    | piece :: pieces => if c = 0x2e then [] :: piece :: pieces else (c :: piece) :: pieces

def parseIPv4 (s : Bytes) : Option UInt32 :=
  match (splitPeriods s).map parseOctet with
  | [some a, some b, some c, some d] => some (UInt32.ofNat (((a * 256 + b) * 256 + c) * 256 + d))
  | _ => none

instance : IPAddress UInt32 where
  inSubnet ip subnet cidr :=
    ip.toNat >>> (32 - cidr.toNat) == subnet.toNat >>> (32 - cidr.toNat)
  tryFromString := parseIPv4

example : parseIPv4 (bytes "173.245.48.0") = some 0xadf53000 := by decide

end UrlShortener
