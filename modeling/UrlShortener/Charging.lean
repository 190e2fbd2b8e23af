import UrlShortener.WebServer

/-!
# Whom a create request is charged to

The filter charges a create request to the peer, or to the address a trusted proxy
names in the one header it looks at, or it turns the request away uncharged. There
is no fourth case, whatever headers are sent (`create_charge`).
-/

namespace UrlShortener
set_option autoImplicit false

variable {IP : Type} [DecidableEq IP] [IPAddress IP]

omit [DecidableEq IP] in
/-- The address a request is charged to, with the reason. -/
inductive ChargedTo (cfg : ReadOnlyAppConfig IP) (msg : HTTPMessage IP) : IP → Prop where
  /-- A peer in a Cloudflare network, with one `CF-Connecting-IP` header. -/
  | cloudflare {value : Bytes} {ip : IP} :
      inAnySubnet msg.clientAddress cfg.cfCidrs = true → msg.values cfConnectingIp = [value] →
      IPAddress.tryFromString value = some ip → ChargedTo cfg msg ip
  /-- A peer in a reverse proxy network, with one `X-Forwarded-For` header and no
  `CF-Connecting-IP`. -/
  | forwarded {value : Bytes} {ip : IP} : msg.values cfConnectingIp = [] →
      inAnySubnet msg.clientAddress cfg.reverseProxyCidrs = true → msg.values xForwardedFor = [value] →
      IPAddress.tryFromString value = some ip → ChargedTo cfg msg ip
  /-- Neither header. -/
  | peer : msg.values cfConnectingIp = [] → msg.values xForwardedFor = [] →
      ChargedTo cfg msg msg.clientAddress

omit [DecidableEq IP] [IPAddress IP] in
theorem values_of_not_exists {msg : HTTPMessage IP} {name : Bytes}
    (absent : ¬ msg.headerExists name = true) : msg.values name = [] := by
  simpa [HTTPMessage.headerExists] using absent

omit [DecidableEq IP] in
/-- An address that could be parsed came from a single header. -/
theorem single_of_parsed (unparsable : IPAddress.tryFromString ([] : Bytes) = (none : Option IP))
    {msg : HTTPMessage IP} {name : Bytes} {ip : IP}
    (parsed : IPAddress.tryFromString (msg.getSingleOrEmpty name) = some ip) :
    msg.values name = [msg.getSingleOrEmpty name] := by
  refine getSingleOrEmpty_nonempty fun empty => ?_
  rw [empty, unparsable] at parsed
  cases parsed

omit [DecidableEq IP] in
/-- The resolved address has one of the three reasons. -/
theorem resolveClientIp_chargedTo
    (unparsable : IPAddress.tryFromString ([] : Bytes) = (none : Option IP))
    {cfg : ReadOnlyAppConfig IP} {msg : HTTPMessage IP} {ip : IP}
    (resolved : resolveClientIp cfg msg = some ip) : ChargedTo cfg msg ip := by
  unfold resolveClientIp at resolved
  split at resolved
  · split at resolved
    · rename_i trusted
      exact .cloudflare trusted (single_of_parsed unparsable resolved) resolved
    · cases resolved
  · rename_i noCf
    split at resolved
    · split at resolved
      · rename_i trusted
        exact .forwarded (values_of_not_exists noCf) trusted (single_of_parsed unparsable resolved)
          resolved
      · cases resolved
    · rename_i noForwarded
      cases resolved
      exact .peer (values_of_not_exists noCf) (values_of_not_exists noForwarded)

omit [DecidableEq IP] in
/-- A peer in no trusted network is charged itself. -/
theorem ChargedTo.eq_peer {cfg : ReadOnlyAppConfig IP} {msg : HTTPMessage IP} {ip : IP}
    (charged : ChargedTo cfg msg ip) (noCf : inAnySubnet msg.clientAddress cfg.cfCidrs = false)
    (noProxy : inAnySubnet msg.clientAddress cfg.reverseProxyCidrs = false) :
    ip = msg.clientAddress := by
  cases charged with
  | cloudflare trusted => rw [noCf] at trusted; cases trusted
  | forwarded _ trusted => rw [noProxy] at trusted; cases trusted
  | peer => rfl

/-- A protected request is turned away uncharged or charged to its resolved
address. -/
theorem protected_cases {RH : Type} (cfg : ReadOnlyAppConfig IP) (svc : IPAccessCountService IP)
    (now : ClockReadings) (rh : RH) {msg : HTTPMessage IP} (guarded : isProtected msg = true) :
    let r := AntiAbuseProtection.onRequest cfg svc now rh msg
    (resolveClientIp cfg msg = none ∧ r = ⟨.rateLimitFilter rh, svc, []⟩) ∨
      ∃ ip, resolveClientIp cfg msg = some ip ∧
        r = chargeAndCheck cfg.rateLimitPerMinute svc now rh ip := by
  simp only [AntiAbuseProtection.onRequest, guarded, if_true]
  cases resolveClientIp cfg msg with
  | none => exact .inl ⟨rfl, rfl⟩
  | some ip => exact .inr ⟨ip, rfl, rfl⟩

/-- **A create request is charged to one accountable address or turned away.** And
a peer in no trusted network is let through only charged itself, and never charges
anyone else. -/
theorem create_charge (unparsable : IPAddress.tryFromString ([] : Bytes) = (none : Option IP))
    (cfg : ReadOnlyAppConfig IP) (cache : FrontendDirCache) (svc : IPAccessCountService IP)
    (now : ClockReadings) (msg : HTTPMessage IP)
    (built : MyRequestHandlerFactory.onRequest cfg cache msg = .ok .makeUrl) :
    let r := AntiAbuseProtection.onRequest cfg svc now RequestHandler.makeUrl msg
    ((r.handler = .rateLimitFilter .makeUrl ∧ r.logged = [] ∧ r.svc = svc) ∨
      ∃ ip, r.logged = [ip] ∧ r.svc = svc.logAccess now ip ∧ ChargedTo cfg msg ip) ∧
    (inAnySubnet msg.clientAddress cfg.cfCidrs = false →
      inAnySubnet msg.clientAddress cfg.reverseProxyCidrs = false →
      (r.handler = .passed .makeUrl → r.logged = [msg.clientAddress]) ∧
        ∀ ip ∈ r.logged, ip = msg.clientAddress) := by
  intro r
  rcases protected_cases cfg svc now RequestHandler.makeUrl (makeUrl_protected built) with
    ⟨-, turned⟩ | ⟨ip, resolved, charged⟩
  · have away : r = ⟨.rateLimitFilter .makeUrl, svc, []⟩ := turned
    rw [away]
    exact ⟨.inl ⟨rfl, rfl, rfl⟩, fun _ _ => ⟨fun passed => (nomatch passed), by simp⟩⟩
  · have accountable := resolveClientIp_chargedTo unparsable resolved
    have logged : r.logged = [ip] := by
      rw [show r = _ from charged, chargeAndCheck_logged]
    have after : r.svc = svc.logAccess now ip := by
      rw [show r = _ from charged, chargeAndCheck_svc]
    refine ⟨.inr ⟨ip, logged, after, accountable⟩, fun noCf noProxy => ?_⟩
    have own := accountable.eq_peer noCf noProxy
    rw [logged, own]
    exact ⟨fun _ => rfl, by simp⟩

/-- A create request that claims to be forwarded. -/
def spoofedCreate : HTTPMessage UInt32 where
  method := some .post
  path := bytes "/api/v1/create"
  headers := [(bytes "x-forwarded-for", bytes "203.0.113.7")]
  clientAddress := 0xc0000201

/-- With no trusted network configured it is turned away uncharged. -/
theorem create_charge_spoofed :
    let r := AntiAbuseProtection.onRequest ({} : ReadOnlyAppConfig UInt32)
      (IPAccessCountService.new 86400 0) ⟨0, 0, 0⟩ RequestHandler.makeUrl spoofedCreate
    ((r.handler = .rateLimitFilter .makeUrl ∧ r.logged = [] ∧
        r.svc = IPAccessCountService.new 86400 0) ∨
      ∃ ip, r.logged = [ip] ∧
        r.svc = (IPAccessCountService.new 86400 0).logAccess ⟨0, 0, 0⟩ ip ∧
        ChargedTo {} spoofedCreate ip) ∧
    (inAnySubnet spoofedCreate.clientAddress [] = false →
      inAnySubnet spoofedCreate.clientAddress [] = false →
      (r.handler = .passed .makeUrl → r.logged = [spoofedCreate.clientAddress]) ∧
        ∀ ip ∈ r.logged, ip = spoofedCreate.clientAddress) :=
  create_charge (by decide) {} (fun _ => none) (IPAccessCountService.new 86400 0) ⟨0, 0, 0⟩
    spoofedCreate rfl

end UrlShortener
