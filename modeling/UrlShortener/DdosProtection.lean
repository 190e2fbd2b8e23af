import Mathlib.Logic.Function.Basic
import UrlShortener.AppConfig
import UrlShortener.Http

/-!
# `ddos_protection.cc`: the rate limiter

`IPAccessCountService` keeps one hit counter per address, one time of the last
recycle and one time of the last addition for the whole table. A request on a
protected route is charged to one address and turned away when the address is
above the configured hits per minute, where the minutes are those since the last
recycle. Times are nanoseconds of the system clock.
-/

namespace UrlShortener
set_option autoImplicit false

/-- `duration_cast<seconds>`. -/
def toSeconds (nanoseconds : Int) : Int := nanoseconds.tdiv 1000000000

/-- The clock readings of one `log_access`: for `time_last_added_`, for the age in
`check_recycle`, and for `time_last_recycled_`. -/
structure ClockReadings where
  added : Int
  checked : Int
  recycled : Int
  deriving DecidableEq, Repr

structure IPAccessCountService (IP : Type) where
  ttl : UInt32
  ipAccessCount : IP → Option UInt32
  timeLastRecycled : Int
  timeLastAdded : Int

section

variable {IP : Type} [DecidableEq IP]

/-- A service constructed at time `now`; nothing was added since
`time_point::min()`. -/
def IPAccessCountService.new (ttl : UInt32) (now : Int) : IPAccessCountService IP where
  ttl := ttl
  ipAccessCount := fun _ => none
  timeLastRecycled := now
  timeLastAdded := -9223372036854775808

/-- The age that `check_recycle` compares has passed the time to live. -/
def IPAccessCountService.expired (svc : IPAccessCountService IP) (now : ClockReadings) : Prop :=
  toSeconds (now.checked - svc.timeLastRecycled) > svc.ttl.toNat

instance (svc : IPAccessCountService IP) (now : ClockReadings) : Decidable (svc.expired now) :=
  inferInstanceAs (Decidable (_ > _))

def IPAccessCountService.recycle (svc : IPAccessCountService IP) (now : ClockReadings) :
    IPAccessCountService IP :=
  { svc with ipAccessCount := fun _ => none, timeLastRecycled := now.recycled }

def IPAccessCountService.checkRecycle (svc : IPAccessCountService IP) (now : ClockReadings) :
    IPAccessCountService IP :=
  if svc.expired now then svc.recycle now else svc

/-- The counter after `try_emplace(ip, 1)` and the increment. -/
def IPAccessCountService.bumped (svc : IPAccessCountService IP) (ip : IP) : UInt32 :=
  match svc.ipAccessCount ip with
  | none => 1
  | some count => count + 1

def IPAccessCountService.logAccess (svc : IPAccessCountService IP) (now : ClockReadings) (ip : IP) :
    IPAccessCountService IP :=
  { svc with
    ipAccessCount := Function.update svc.ipAccessCount ip (some (svc.bumped ip))
    timeLastAdded := now.added }.checkRecycle now

/-- The divisor of `hits_per_minute`: whole minutes, at least one. -/
def minutesOf (overSeconds : Int) : Int := if overSeconds / 60 > 0 then overSeconds / 60 else 1

def IPAccessCountService.hitsPerMinute (svc : IPAccessCountService IP) (ip : IP) : UInt32 :=
  if svc.timeLastAdded < svc.timeLastRecycled then 0
  else
    match svc.ipAccessCount ip with
    | none => 0
    | some hits =>
      if hits = 0 then 0
      else
        let overSeconds := toSeconds (svc.timeLastAdded - svc.timeLastRecycled)
        if overSeconds = 0 then 0
        else UInt32.ofNat ((hits.toNat : Int) / minutesOf overSeconds).toNat

end

/-! ## `AntiAbuseProtection` -/

/-- What the filter's `onRequest` returns for the handler `rh`. -/
inductive Filtered (RH : Type) where
  | rateLimitFilter (rh : RH)
  | passed (rh : RH)
  deriving DecidableEq, Repr

/-- The returned handler, the service after the request, and the address of each
`log_access` made. -/
structure FilterResult (IP RH : Type) where
  handler : Filtered RH
  svc : IPAccessCountService IP
  logged : List IP

section

variable {IP RH : Type} [IPAddress IP]

def cfConnectingIp : Bytes := bytes "CF-Connecting-IP"

def xForwardedFor : Bytes := bytes "X-Forwarded-For"

/-- The address lies in one of the networks. -/
def inAnySubnet (ip : IP) (cidrs : List (CIDRNetwork IP)) : Bool :=
  cidrs.any fun cidr => IPAddress.inSubnet ip cidr.1 cidr.2

def canTrustXForwardedFor (cfg : ReadOnlyAppConfig IP) (msg : HTTPMessage IP) : Bool :=
  inAnySubnet msg.clientAddress cfg.reverseProxyCidrs

def canTrustCfConnectingIp (cfg : ReadOnlyAppConfig IP) (msg : HTTPMessage IP) : Bool :=
  inAnySubnet msg.clientAddress cfg.cfCidrs

omit [IPAddress IP] in
/-- The route test of `AntiAbuseProtection::onRequest`. -/
def isProtected (msg : HTTPMessage IP) : Bool :=
  msg.method == some .post || msg.method == some .put || msg.method == some .delete ||
    startsWith msg.path (bytes "/api/")

/-- The address a protected request is charged to; `none` where the filter turns
the request away before that. -/
def resolveClientIp (cfg : ReadOnlyAppConfig IP) (msg : HTTPMessage IP) : Option IP :=
  if msg.headerExists cfConnectingIp then
    if canTrustCfConnectingIp cfg msg then
      IPAddress.tryFromString (msg.getSingleOrEmpty cfConnectingIp)
    else none
  else if msg.headerExists xForwardedFor then
    if canTrustXForwardedFor cfg msg then
      IPAddress.tryFromString (msg.getSingleOrEmpty xForwardedFor)
    else none
  else some msg.clientAddress

/-- Charge the address and compare its rate with the limit. -/
def chargeAndCheck [DecidableEq IP] (limit : UInt32) (svc : IPAccessCountService IP)
    (now : ClockReadings) (rh : RH) (clientIp : IP) : FilterResult IP RH :=
  let svc := svc.logAccess now clientIp
  if svc.hitsPerMinute clientIp > limit then ⟨.rateLimitFilter rh, svc, [clientIp]⟩
  else ⟨.passed rh, svc, [clientIp]⟩

/-- `AntiAbuseProtection::onRequest`. -/
def AntiAbuseProtection.onRequest [DecidableEq IP] (cfg : ReadOnlyAppConfig IP)
    (svc : IPAccessCountService IP) (now : ClockReadings) (rh : RH) (msg : HTTPMessage IP) :
    FilterResult IP RH :=
  if isProtected msg then
    match resolveClientIp cfg msg with
    | none => ⟨.rateLimitFilter rh, svc, []⟩
    | some clientIp => chargeAndCheck cfg.rateLimitPerMinute svc now rh clientIp
  else ⟨.passed rh, svc, []⟩

end

/-! ## What one request does -/

section

variable {IP RH : Type} [DecidableEq IP]

/-- The service after a charge that does not recycle. -/
theorem logAccess_fresh {svc : IPAccessCountService IP} {now : ClockReadings}
    (fresh : ¬ svc.expired now) (ip : IP) :
    svc.logAccess now ip = { svc with
      ipAccessCount := Function.update svc.ipAccessCount ip (some (svc.bumped ip))
      timeLastAdded := now.added } := by
  unfold IPAccessCountService.logAccess IPAccessCountService.checkRecycle
  exact if_neg fresh

/-- The service after a charge that recycles: the charge itself is forgotten. -/
theorem logAccess_expired {svc : IPAccessCountService IP} {now : ClockReadings}
    (expired : svc.expired now) (ip : IP) :
    svc.logAccess now ip = { svc with
      ipAccessCount := fun _ => none
      timeLastAdded := now.added
      timeLastRecycled := now.recycled } := by
  unfold IPAccessCountService.logAccess IPAccessCountService.checkRecycle
  exact if_pos expired

theorem chargeAndCheck_logged (limit : UInt32) (svc : IPAccessCountService IP) (now : ClockReadings)
    (rh : RH) (ip : IP) : (chargeAndCheck limit svc now rh ip).logged = [ip] := by
  simp only [chargeAndCheck]
  split <;> rfl

theorem chargeAndCheck_svc (limit : UInt32) (svc : IPAccessCountService IP) (now : ClockReadings)
    (rh : RH) (ip : IP) : (chargeAndCheck limit svc now rh ip).svc = svc.logAccess now ip := by
  simp only [chargeAndCheck]
  split <;> rfl

/-- The verdict is the comparison after the charge. -/
theorem chargeAndCheck_passed_iff (limit : UInt32) (svc : IPAccessCountService IP)
    (now : ClockReadings) (rh : RH) (ip : IP) :
    (chargeAndCheck limit svc now rh ip).handler = .passed rh ↔
      (svc.logAccess now ip).hitsPerMinute ip ≤ limit := by
  simp only [chargeAndCheck]
  split
  · rename_i above
    exact ⟨fun same => (nomatch same), fun below => absurd above (UInt32.not_lt.mpr below)⟩
  · rename_i below
    exact ⟨fun _ => UInt32.not_lt.mp below, fun _ => rfl⟩

end

end UrlShortener
