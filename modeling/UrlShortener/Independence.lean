import UrlShortener.RateLimit

/-!
# Verdicts between recycles

The limiter has one table and one `time_last_added_` for all addresses. A request that is
charged to `a` overwrites that time before it is read, and reads the counter of `a` only,
so up to the next recycle the others leave no trace in its verdict: it is the one of a
limiter that serves `a` alone (`verdicts_eq_alone`). Two runs in which the requests of `a`
come at the same times therefore give them the same verdicts (`verdicts_independent`).
The verdicts are the ones a limiter run records with its charges (`passedCharges_replay`).
-/

namespace UrlShortener
set_option autoImplicit false
open Transition

variable {IP : Type} [DecidableEq IP]

/-! ## What a client sees of the limiter -/

/-- Two services that `a` cannot tell apart at its next request. -/
structure AgreesOn (a : IP) (svc svc' : IPAccessCountService IP) : Prop where
  counter : svc.ipAccessCount a = svc'.ipAccessCount a
  epoch : svc.timeLastRecycled = svc'.timeLastRecycled

omit [DecidableEq IP] in
/-- The rate of `a` is read from its counter and the two times. -/
theorem AgreesOn.hitsPerMinute {a : IP} {svc svc' : IPAccessCountService IP} (agrees : AgreesOn a svc svc')
    (added : svc.timeLastAdded = svc'.timeLastAdded) : svc.hitsPerMinute a = svc'.hitsPerMinute a := by
  unfold IPAccessCountService.hitsPerMinute
  rw [agrees.counter, agrees.epoch, added]

/-- A charge to another address. -/
theorem AgreesOn.other {a : IP} {svc svc' : IPAccessCountService IP} (agrees : AgreesOn a svc svc')
    {now : ClockReadings} (fresh : ¬ svc.expired now) {ip : IP} (other : ip ≠ a) :
    AgreesOn a (svc.logAccess now ip) svc' := by
  rw [logAccess_fresh fresh]
  constructor
  · dsimp only
    rw [Function.update_of_ne (Ne.symm other), agrees.counter]
  · exact agrees.epoch

/-- A charge to `a` in both. -/
theorem AgreesOn.own {a : IP} {svc svc' : IPAccessCountService IP} (agrees : AgreesOn a svc svc')
    {now now' : ClockReadings} (fresh : ¬ svc.expired now) (fresh' : ¬ svc'.expired now') :
    AgreesOn a (svc.logAccess now a) (svc'.logAccess now' a) := by
  rw [logAccess_fresh fresh, logAccess_fresh fresh']
  constructor
  · unfold IPAccessCountService.bumped
    dsimp only
    rw [agrees.counter, Function.update_self, Function.update_self]
  · exact agrees.epoch

/-- A charge to `a` at the same time in both has the same verdict. -/
theorem AgreesOn.verdict {a : IP} {svc svc' : IPAccessCountService IP} (agrees : AgreesOn a svc svc')
    {now now' : ClockReadings} (fresh : ¬ svc.expired now) (fresh' : ¬ svc'.expired now')
    (same : now.added = now'.added) (limit : UInt32) :
    (chargeAndCheck limit svc now () a).handler = (chargeAndCheck limit svc' now' () a).handler := by
  have rate : (svc.logAccess now a).hitsPerMinute a = (svc'.logAccess now' a).hitsPerMinute a := by
    apply (agrees.own fresh fresh').hitsPerMinute
    rw [logAccess_fresh fresh, logAccess_fresh fresh']
    exact same
  simp only [chargeAndCheck]
  rw [rate]
  split
  · rfl
  · rfl

/-! ## Runs -/

section

variable [IPAddress IP]

omit [DecidableEq IP] in
/-- The address a request is charged to, if it is charged. -/
def chargedAddress (cfg : ReadOnlyAppConfig IP) (msg : HTTPMessage IP) : Option IP :=
  if isProtected msg then resolveClientIp cfg msg else none

/-- The times of the requests charged to `a`. -/
def requestTimes (cfg : ReadOnlyAppConfig IP) (a : IP) (es : List (HTTPMessage IP × ClockReadings)) :
    List Int :=
  (es.filter fun e => chargedAddress cfg e.1 = some a).map fun e => e.2.added

/-- The verdicts on the requests charged to `a`, in their order. -/
def verdicts (cfg : ReadOnlyAppConfig IP) (a : IP) :
    IPAccessCountService IP → List (HTTPMessage IP × ClockReadings) → List (Filtered Unit)
  | _, [] => []
  | svc, e :: es =>
    let r := AntiAbuseProtection.onRequest cfg svc e.2 () e.1
    if chargedAddress cfg e.1 = some a then r.handler :: verdicts cfg a r.svc es
    else verdicts cfg a r.svc es

/-- Every event is early enough that the age of the epoch has not passed the time to live. -/
def NoRecycle (svc : IPAccessCountService IP) (es : List (HTTPMessage IP × ClockReadings)) : Prop :=
  ∀ e ∈ es, ¬ svc.expired e.2

omit [IPAddress IP] in
/-- Readings at `t` that recycle nothing. -/
def freshReadings (svc : IPAccessCountService IP) (t : Int) : ClockReadings :=
  ⟨t, svc.timeLastRecycled, svc.timeLastRecycled⟩

omit [DecidableEq IP] [IPAddress IP] in
theorem not_expired_freshReadings (svc : IPAccessCountService IP) (t : Int) :
    ¬ svc.expired (freshReadings svc t) := by
  unfold IPAccessCountService.expired freshReadings
  rw [Int.sub_self]
  exact Int.not_lt.mpr (Int.natCast_nonneg _)

omit [IPAddress IP] in
/-- The verdicts of a limiter that serves requests of `a` at these times and no others. -/
def verdictsAlone (limit : UInt32) (a : IP) : IPAccessCountService IP → List Int → List (Filtered Unit)
  | _, [] => []
  | svc, t :: times =>
    let r := chargeAndCheck limit svc (freshReadings svc t) () a
    r.handler :: verdictsAlone limit a r.svc times

/-- A request that is charged. -/
theorem onRequest_charged {cfg : ReadOnlyAppConfig IP} {msg : HTTPMessage IP} {ip : IP}
    (charged : chargedAddress cfg msg = some ip) (svc : IPAccessCountService IP) (now : ClockReadings) :
    AntiAbuseProtection.onRequest cfg svc now () msg = chargeAndCheck cfg.rateLimitPerMinute svc now () ip := by
  unfold chargedAddress at charged
  split at charged
  · rename_i guarded
    unfold AntiAbuseProtection.onRequest
    rw [if_pos guarded, charged]
  · cases charged

/-- A request that is not charged leaves the service alone. -/
theorem onRequest_uncharged {cfg : ReadOnlyAppConfig IP} {msg : HTTPMessage IP}
    (uncharged : chargedAddress cfg msg = none) (svc : IPAccessCountService IP) (now : ClockReadings) :
    (AntiAbuseProtection.onRequest cfg svc now () msg).svc = svc ∧
      (AntiAbuseProtection.onRequest cfg svc now () msg).logged = [] := by
  unfold chargedAddress at uncharged
  unfold AntiAbuseProtection.onRequest
  split at uncharged
  · rename_i guarded
    rw [if_pos guarded, uncharged]
    exact ⟨rfl, rfl⟩
  · rename_i free
    rw [if_neg free]
    exact ⟨rfl, rfl⟩

omit [IPAddress IP] in
/-- A charge before the recycle leaves the epoch and the time to live. -/
theorem NoRecycle.after {svc : IPAccessCountService IP} {now : ClockReadings} (fresh : ¬ svc.expired now)
    {es : List (HTTPMessage IP × ClockReadings)} (later : NoRecycle svc es) (ip : IP) :
    NoRecycle (svc.logAccess now ip) es := by
  intro e mem
  rw [logAccess_fresh fresh]
  exact later e mem

/-- **The others leave no trace.** The verdicts on the requests of `a` are those of a limiter
that serves `a` alone. -/
theorem verdicts_eq_alone (cfg : ReadOnlyAppConfig IP) (a : IP) (es : List (HTTPMessage IP × ClockReadings)) :
    ∀ {svc svc' : IPAccessCountService IP}, AgreesOn a svc svc' → NoRecycle svc es →
      verdicts cfg a svc es = verdictsAlone cfg.rateLimitPerMinute a svc' (requestTimes cfg a es) := by
  induction es with
  | nil => exact fun _ _ => rfl
  | cons e es ih =>
    intro svc svc' agrees fresh
    have now : ¬ svc.expired e.2 := fresh e List.mem_cons_self
    have later : NoRecycle svc es := fun e' mem => fresh e' (List.mem_cons_of_mem e mem)
    cases address : chargedAddress cfg e.1 with
    | none =>
      have times : requestTimes cfg a (e :: es) = requestTimes cfg a es := by
        simp [requestTimes, address]
      rw [times, verdicts, if_neg (by simp [address]), (onRequest_uncharged address svc e.2).1]
      exact ih agrees later
    | some ip =>
      by_cases same : ip = a
      · subst same
        have times : requestTimes cfg ip (e :: es) = e.2.added :: requestTimes cfg ip es := by
          simp [requestTimes, address]
        have fresh' := not_expired_freshReadings svc' e.2.added
        rw [times, verdicts, if_pos address, onRequest_charged address, verdictsAlone]
        rw [chargeAndCheck_svc, chargeAndCheck_svc, agrees.verdict now fresh' rfl,
          ih (agrees.own now fresh') (NoRecycle.after now later ip)]
      · have times : requestTimes cfg a (e :: es) = requestTimes cfg a es := by
          simp [requestTimes, address, same]
        rw [times, verdicts, if_neg (by simpa [address] using same), onRequest_charged address]
        rw [chargeAndCheck_svc]
        exact ih (agrees.other now same) (NoRecycle.after now later ip)

omit [IPAddress IP] in
/-- Whether the charges to `a` were let through, newest first. -/
def passedCharges (charges : List (Charge IP)) (a : IP) : List Bool :=
  (charges.filter fun c => c.ip = a).map Charge.passed

/-- A run of the limiter records the verdicts with its charges. -/
theorem passedCharges_replay (cfg : ReadOnlyAppConfig IP) (a : IP)
    (es : List (HTTPMessage IP × ClockReadings)) : ∀ {run run' : LimiterRun IP},
    replay (limiterStep cfg) run es = some run' → passedCharges run'.charges a =
      ((verdicts cfg a run.svc es).map (· == .passed ())).reverse ++ passedCharges run.charges a := by
  induction es with
  | nil =>
    intro run run' replayed
    cases replayed
    rfl
  | cons e es ih =>
    intro run run' replayed
    have later := ih (show replay (limiterStep cfg) _ es = some run' from replayed)
    rw [later, verdicts]
    cases address : chargedAddress cfg e.1 with
    | none =>
      obtain ⟨-, uncharged⟩ := onRequest_uncharged address run.svc e.2
      rw [uncharged, if_neg (by simp)]
      rfl
    | some ip =>
      rw [onRequest_charged address, chargeAndCheck_logged]
      by_cases same : ip = a
      · subst same
        simp [passedCharges]
      · simp [passedCharges, same]

/-- **Clients do not affect each other's verdicts between recycles.** Two limiters with one
start, one time to live and one limit, and requests up to the first recycle: when the requests
of `a` come at the same times, they get the same verdicts, whatever the other requests are. -/
theorem verdicts_independent (cfg cfg' : ReadOnlyAppConfig IP)
    (limit : cfg.rateLimitPerMinute = cfg'.rateLimitPerMinute) (ttl : UInt32) (start : Int) (a : IP)
    (es es' : List (HTTPMessage IP × ClockReadings))
    (fresh : NoRecycle (.new ttl start) es) (fresh' : NoRecycle (.new ttl start) es')
    (same : requestTimes cfg a es = requestTimes cfg' a es') :
    verdicts cfg a (.new ttl start) es = verdicts cfg' a (.new ttl start) es' := by
  rw [verdicts_eq_alone cfg a es ⟨rfl, rfl⟩ fresh, verdicts_eq_alone cfg' a es' ⟨rfl, rfl⟩ fresh', same,
    limit]

/-- A create request of the client at `ip`. -/
def createFrom (ip : UInt32) : HTTPMessage UInt32 := { createRequest with clientAddress := ip }

/-- The third of three requests within two seconds is turned away at a limit of two, with
another client in between or without. -/
theorem verdicts_independent_three :
    let cfg : ReadOnlyAppConfig UInt32 := { rateLimitPerMinute := 2 }
    let own : Int → HTTPMessage UInt32 × ClockReadings := fun t => (createFrom 1, readingsAt t)
    let other : Int → HTTPMessage UInt32 × ClockReadings := fun t => (createFrom 2, readingsAt t)
    verdicts cfg 1 (.new 86400 0) [own 1000000000, own 1500000000, own 2000000000] =
      verdicts cfg 1 (.new 86400 0) [own 1000000000, other 1200000000, own 1500000000,
        other 1600000000, other 1700000000, own 2000000000] ∧
    verdicts cfg 1 (.new 86400 0) [own 1000000000, own 1500000000, own 2000000000] =
      [.passed (), .passed (), .rateLimitFilter ()] := by
  intro cfg own other
  refine ⟨verdicts_independent cfg cfg rfl 86400 0 1 _ _ ?_ ?_ (by decide), by decide⟩
  · intro e mem
    revert e
    decide
  · intro e mem
    revert e
    decide

end

end UrlShortener
