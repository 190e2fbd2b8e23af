import UrlShortener.AccessCounts

/-!
# The limiter told by epochs

The limiter keeps one counter for each address. Told from the requests alone it does this: an
epoch lasts until a charge comes later than the time to live, which is let through, forgotten
and begins the next one; within an epoch an address is turned away once its charges, this one
included, reach more than the limit for every whole minute of the epoch, but never in its
first second. `EpochRun` is that description, and the counters refine it
(`limiter_refines_epochs`): the verdicts depend on nothing else.

What the limit does promise is proved of the description: after the first second an address
has fewer requests let through in an epoch than one above the limit for every whole minute of
it, those of the first second included (`epoch_passes`).
-/

namespace UrlShortener
set_option autoImplicit false
open Transition

variable {IP : Type} [DecidableEq IP]

omit [DecidableEq IP] in
/-- When the epoch began, the charges made in it, newest first, and those before. -/
structure EpochRun (IP : Type) where
  begun : Int
  since : List (Charge IP)
  earlier : List (Charge IP)

namespace EpochRun

/-- The charges of the address in the epoch. -/
def callsOf (run : EpochRun IP) (ip : IP) : Nat := run.since.countP fun c => c.ip = ip

omit [DecidableEq IP] in
/-- The epoch has outlived the time to live. -/
def Over (ttl : UInt32) (run : EpochRun IP) (now : ClockReadings) : Prop :=
  toSeconds (now.checked - run.begun) > ttl.toNat

omit [DecidableEq IP] in
instance (ttl : UInt32) (run : EpochRun IP) (now : ClockReadings) : Decidable (run.Over ttl now) :=
  inferInstanceAs (Decidable (_ > _))

/-- The address has used up the epoch so far. -/
def Exhausted (limit : UInt32) (run : EpochRun IP) (now : ClockReadings) (ip : IP) : Prop :=
  1 ≤ toSeconds (now.added - run.begun) ∧
    (limit.toNat + 1) * max 1 ((now.added - run.begun) / minute) ≤ (run.callsOf ip + 1 : Nat)

instance (limit : UInt32) (run : EpochRun IP) (now : ClockReadings) (ip : IP) :
    Decidable (run.Exhausted limit now ip) :=
  inferInstanceAs (Decidable (_ ∧ _))

/-- A charge. -/
def charge (ttl limit : UInt32) (now : ClockReadings) (ip : IP) (run : EpochRun IP) : EpochRun IP :=
  if run.Over ttl now then ⟨now.recycled, [], ⟨ip, now.added, true⟩ :: (run.since ++ run.earlier)⟩
  else { run with since := ⟨ip, now.added, decide ¬ run.Exhausted limit now ip⟩ :: run.since }

/-- A request. -/
def request [IPAddress IP] (cfg : ReadOnlyAppConfig IP) (run : EpochRun IP)
    (e : HTTPMessage IP × ClockReadings) : EpochRun IP :=
  if isProtected e.1 then
    match resolveClientIp cfg e.1 with
    | none => run
    | some ip => run.charge cfg.ipRateLimiterSecondsTtl cfg.rateLimitPerMinute e.2 ip
  else run

/-- The requests in turn, from a limiter constructed at `now`. -/
def ofRequests [IPAddress IP] (cfg : ReadOnlyAppConfig IP) (now : Int)
    (es : List (HTTPMessage IP × ClockReadings)) : EpochRun IP :=
  es.foldl (request cfg) ⟨now, [], []⟩

end EpochRun

omit [DecidableEq IP] in
/-- Clocks that do not go back. -/
def OrderedFrom : Int → List (HTTPMessage IP × ClockReadings) → Prop
  | _, [] => True
  | last, e :: es => last ≤ e.2.added ∧ e.2.added ≤ e.2.checked ∧ e.2.checked ≤ e.2.recycled ∧
      OrderedFrom e.2.recycled es

/-- The counters are the charges of the epoch. -/
structure Refines (cfg : ReadOnlyAppConfig IP) (run : LimiterRun IP) (spec : EpochRun IP) : Prop where
  charges : run.charges = spec.since ++ spec.earlier
  begun : run.svc.timeLastRecycled = spec.begun
  ttl : run.svc.ttl = cfg.ipRateLimiterSecondsTtl
  table : run.svc.Tallies spec.callsOf
  past : run.svc.timeLastRecycled ≤ run.lastReading

namespace Refines

variable {cfg : ReadOnlyAppConfig IP} {run : LimiterRun IP} {spec : EpochRun IP} {now : ClockReadings}

theorem start (cfg : ReadOnlyAppConfig IP) (now : Int) : Refines cfg (.start cfg now) ⟨now, [], []⟩ where
  charges := rfl
  begun := rfl
  ttl := rfl
  table := fun _ => rfl
  past := Int.le_refl now

theorem over_iff (refines : Refines cfg run spec) :
    run.svc.expired now ↔ spec.Over cfg.ipRateLimiterSecondsTtl now := by
  unfold IPAccessCountService.expired EpochRun.Over
  rw [refines.begun, refines.ttl]

theorem bumped (refines : Refines cfg run spec) (few : run.charges.length + 1 < UInt32.size) (ip : IP) :
    (run.svc.bumped ip).toNat = spec.callsOf ip + 1 := by
  have bound : spec.callsOf ip ≤ spec.since.length := List.countP_le_length
  have total : run.charges.length = spec.since.length + spec.earlier.length := by
    rw [refines.charges, List.length_append]
  rw [refines.table.bumped, UInt32.toNat_ofNat_of_lt' (by omega)]

/-- The verdicts agree. -/
theorem turnsAway_iff (refines : Refines cfg run spec) (few : run.charges.length + 1 < UInt32.size)
    (order : run.lastReading ≤ now.added) (limit : UInt32) (ip : IP) :
    TurnsAway limit run.svc now ip ↔
      ¬ spec.Over cfg.ipRateLimiterSecondsTtl now ∧ spec.Exhausted limit now ip := by
  have past := refines.past
  have begun := refines.begun
  unfold TurnsAway EpochRun.Exhausted
  rw [refines.over_iff, refines.bumped few, minutesOf_toSeconds (by omega), begun]

/-- **A charge.** -/
theorem charge (refines : Refines cfg run spec) (few : run.charges.length + 1 < UInt32.size)
    (order : run.lastReading ≤ now.added) (checked : now.added ≤ now.checked)
    (recycled : now.checked ≤ now.recycled) (ip : IP) :
    let r := chargeAndCheck cfg.rateLimitPerMinute run.svc now () ip
    Refines cfg
      { svc := r.svc
        charges := r.logged.map (fun ip => ⟨ip, now.added, r.handler == .passed ()⟩) ++ run.charges
        lastReading := now.recycled }
      (spec.charge cfg.ipRateLimiterSecondsTtl cfg.rateLimitPerMinute now ip) := by
  intro r
  have past := refines.past
  have verdict : r.handler = .passed () ↔ ¬ TurnsAway cfg.rateLimitPerMinute run.svc now ip :=
    chargeAndCheck_passed_iff_not_turnsAway _ run.svc now () ip (by omega)
  rw [refines.turnsAway_iff few order] at verdict
  have logged : r.logged = [ip] := chargeAndCheck_logged ..
  have after : r.svc = run.svc.logAccess now ip := chargeAndCheck_svc ..
  rw [logged, after]
  unfold EpochRun.charge
  by_cases outlived : spec.Over cfg.ipRateLimiterSecondsTtl now
  · have passed : r.handler = .passed () := verdict.mpr fun away => away.1 outlived
    rw [if_pos outlived, logAccess_expired (refines.over_iff.mpr outlived), passed]
    refine ⟨?_, rfl, refines.ttl, fun _ => rfl, Int.le_refl _⟩
    simp only [List.map_cons, List.map_nil, BEq.rfl, List.cons_append, List.nil_append, refines.charges]
  · have passed : (r.handler == .passed ()) = decide ¬ spec.Exhausted cfg.rateLimitPerMinute now ip := by
      rw [Bool.eq_iff_iff, beq_iff_eq, verdict, decide_eq_true_eq]
      exact not_congr ⟨And.right, fun away => ⟨outlived, away⟩⟩
    rw [if_neg outlived, logAccess_fresh (fun expired => outlived (refines.over_iff.mp expired)), passed]
    have table := refines.table.charged (fun expired => outlived (refines.over_iff.mp expired)) ip
    rw [logAccess_fresh (fun expired => outlived (refines.over_iff.mp expired))] at table
    refine ⟨?_, refines.begun, refines.ttl, fun ip' => ?_, ?_⟩
    · simp only [List.map_cons, List.map_nil, List.cons_append, List.nil_append, refines.charges]
    · rw [table ip']
      simp [EpochRun.callsOf, List.countP_cons]
    · dsimp only
      omega

/-- **A request.** -/
theorem request [IPAddress IP] {e : HTTPMessage IP × ClockReadings} {run' : LimiterRun IP}
    (refines : Refines cfg run spec) (few : run.charges.length + 1 < UInt32.size)
    (order : run.lastReading ≤ e.2.added) (checked : e.2.added ≤ e.2.checked)
    (recycled : e.2.checked ≤ e.2.recycled) (moved : limiterStep cfg run e = some run') :
    Refines cfg run' (spec.request cfg e) ∧ run'.charges.length ≤ run.charges.length + 1 ∧
      run'.lastReading = e.2.recycled := by
  have past := refines.past
  simp only [limiterStep, Option.some.injEq] at moved
  subst moved
  have waits : run.svc.timeLastRecycled ≤ e.2.recycled := by omega
  unfold EpochRun.request
  by_cases guarded : isProtected e.1
  · rw [if_pos guarded]
    rcases protected_cases cfg run.svc e.2 () guarded with ⟨unresolved, turned⟩ | ⟨ip, resolved, charged⟩
    · rw [unresolved, turned]
      exact ⟨⟨refines.charges, refines.begun, refines.ttl, refines.table, waits⟩, by simp, rfl⟩
    · rw [resolved, charged]
      refine ⟨refines.charge few order checked recycled ip, ?_, rfl⟩
      rw [chargeAndCheck_logged]
      simp
  · rw [if_neg guarded]
    unfold AntiAbuseProtection.onRequest
    rw [if_neg guarded]
    exact ⟨⟨refines.charges, refines.begun, refines.ttl, refines.table, waits⟩, by simp, rfl⟩

theorem requests [IPAddress IP] {es : List (HTTPMessage IP × ClockReadings)} {run' : LimiterRun IP}
    (refines : Refines cfg run spec) (ordered : OrderedFrom run.lastReading es)
    (few : run.charges.length + es.length < UInt32.size)
    (moved : replay (limiterStep cfg) run es = some run') :
    Refines cfg run' (es.foldl (EpochRun.request cfg) spec) := by
  induction es generalizing run spec with
  | nil =>
    cases moved
    exact refines
  | cons e es ih =>
    obtain ⟨mid, first, rest⟩ := Option.bind_eq_some_iff.mp moved
    obtain ⟨order, checked, recycled, later⟩ := ordered
    rw [List.length_cons] at few
    obtain ⟨next, grown, reading⟩ := refines.request (by omega) order checked recycled first
    exact ih next (reading ▸ later) (by omega) rest

end Refines

/-- **The counters do what the epochs say.** For every sequence of fewer than `2 ^ 32`
requests at clocks that do not go back, the limiter charges the addresses, and lets through
or turns away the requests, as `EpochRun` does, and its last recycle is the beginning of the
epoch. -/
theorem limiter_refines_epochs [IPAddress IP] (cfg : ReadOnlyAppConfig IP) (now : Int)
    (es : List (HTTPMessage IP × ClockReadings)) (run : LimiterRun IP) (ordered : OrderedFrom now es)
    (few : es.length < UInt32.size) (moved : replay (limiterStep cfg) (.start cfg now) es = some run) :
    run.charges = (EpochRun.ofRequests cfg now es).since ++ (EpochRun.ofRequests cfg now es).earlier ∧
      run.svc.timeLastRecycled = (EpochRun.ofRequests cfg now es).begun := by
  have refined := (Refines.start cfg now).requests ordered (by simpa [LimiterRun.start] using few) moved
  exact ⟨refined.charges, refined.begun⟩

/-- Seven requests in the third second under a limit of five: the last two are turned away. -/
theorem limiter_refines_epochs_seven : ∃ run, replay (limiterStep fivePerMinute) (.start fivePerMinute 0)
      (List.replicate 7 (createRequest, readingsAt 2000000000)) = some run ∧
    run.charges.map (·.passed) = [false, false, true, true, true, true, true] ∧
    run.charges = (EpochRun.ofRequests fivePerMinute 0
        (List.replicate 7 (createRequest, readingsAt 2000000000))).since ++
      (EpochRun.ofRequests fivePerMinute 0
        (List.replicate 7 (createRequest, readingsAt 2000000000))).earlier := by
  have ordered : OrderedFrom 0 (List.replicate 7 (createRequest, readingsAt 2000000000)) := by
    simp [OrderedFrom, readingsAt, List.replicate]
  refine ⟨_, rfl, by decide +kernel, ?_⟩
  exact (limiter_refines_epochs fivePerMinute 0 _ _ ordered (by decide) rfl).1

/-! ## What the limit promises -/

/-- In the epoch an address has had requests let through in the first second only, or fewer
than one above the limit for every whole minute up to `last`. -/
structure Steady (limit : UInt32) (last : Int) (spec : EpochRun IP) : Prop where
  past : spec.begun ≤ last
  times : ∀ c ∈ spec.since, spec.begun ≤ c.time ∧ c.time ≤ last
  rate : ∀ ip, (∀ c ∈ spec.since, c.ip = ip → c.passed = true → toSeconds (c.time - spec.begun) = 0) ∨
    (passedFor spec.since ip : Int) < (limit.toNat + 1) * max 1 ((last - spec.begun) / minute)

/-- The bound grows with time. -/
theorem minutes_mono (limit : UInt32) {d d' : Int} (later : d ≤ d') :
    ((limit.toNat : Int) + 1) * max 1 (d / minute) ≤ (limit.toNat + 1) * max 1 (d' / minute) := by
  have quotient : d / minute ≤ d' / minute := Int.ediv_le_ediv (by decide) later
  exact Int.mul_le_mul_of_nonneg_left (by omega) (by omega)

/-- What was made before an early charge was early. -/
theorem toSeconds_early {d d' : Int} (since : 0 ≤ d) (before : d ≤ d') (early : toSeconds d' = 0) :
    toSeconds d = 0 := by
  have seconds : toSeconds d = d / 1000000000 := Int.tdiv_eq_ediv_of_nonneg since
  have seconds' : toSeconds d' = d' / 1000000000 := Int.tdiv_eq_ediv_of_nonneg (by omega)
  omega

omit [DecidableEq IP] in
theorem passedFor_le_callsOf [DecidableEq IP] (spec : EpochRun IP) (ip : IP) :
    passedFor spec.since ip ≤ spec.callsOf ip := by
  unfold passedFor EpochRun.callsOf
  apply List.countP_mono_left
  intro c _ both
  simpa using (of_decide_eq_true both).1

namespace Steady

variable {ttl limit : UInt32} {last : Int} {spec : EpochRun IP} {now : ClockReadings}

theorem start (limit : UInt32) (now : Int) : Steady limit now (⟨now, [], []⟩ : EpochRun IP) where
  past := Int.le_refl now
  times := fun c mem => by cases mem
  rate := fun ip => .inl fun c mem => by cases mem

theorem later {last' : Int} (steady : Steady limit last spec) (more : last ≤ last') : Steady limit last' spec where
  past := by
    have := steady.past
    omega
  times := fun c mem => by
    have := steady.times c mem
    omega
  rate := fun ip => (steady.rate ip).imp_right fun few => by
    have := minutes_mono limit (show last - spec.begun ≤ last' - spec.begun by omega)
    omega

/-- **A charge.** -/
theorem charge (steady : Steady limit last spec) (order : last ≤ now.added) (checked : now.added ≤ now.checked)
    (recycled : now.checked ≤ now.recycled) (ip : IP) :
    Steady limit now.recycled (spec.charge ttl limit now ip) := by
  have past := steady.past
  unfold EpochRun.charge
  split
  · exact ⟨Int.le_refl _, fun c mem => (by cases mem), fun ip => .inl fun c mem => by cases mem⟩
  · refine ⟨by dsimp only; omega, fun c mem => ?_, fun ip' => ?_⟩
    · rcases List.mem_cons.mp mem with rfl | old
      · dsimp only
        omega
      · have := steady.times c old
        dsimp only
        omega
    · by_cases early : toSeconds (now.added - spec.begun) = 0
      · -- everything in the epoch was charged in its first second
        refine .inl fun c mem _ _ => ?_
        rcases List.mem_cons.mp mem with rfl | old
        · exact early
        · have := steady.times c old
          exact toSeconds_early (by dsimp only; omega) (by dsimp only; omega) early
      · have second := toSeconds_nonneg (d := now.added - spec.begun) (by omega)
        have grown := minutes_mono limit (show now.added - spec.begun ≤ now.recycled - spec.begun by omega)
        have grown' := minutes_mono limit (show last - spec.begun ≤ now.recycled - spec.begun by omega)
        simp only [passedFor, List.countP_cons]
        by_cases own : ip = ip' ∧ ¬ spec.Exhausted limit now ip
        · -- the limiter has counted this request and every one before
          obtain ⟨rfl, allowed⟩ := own
          refine .inr ?_
          have within : ((spec.callsOf ip + 1 : Nat) : Int) <
              (limit.toNat + 1) * max 1 ((now.added - spec.begun) / minute) := by
            by_contra above
            exact allowed ⟨by omega, by omega⟩
          have counted := passedFor_le_callsOf spec ip
          simp only [passedFor] at counted
          simp only [allowed, not_false_eq_true, decide_true, and_self, if_true]
          omega
        · have unchanged : (decide (ip = ip' ∧ decide (¬ spec.Exhausted limit now ip) = true)) = false := by
            simpa using own
          rw [unchanged]
          simp only [Bool.false_eq_true, if_false, Nat.add_zero]
          rcases steady.rate ip' with first | few
          · refine .inl fun c mem same passed => ?_
            rcases List.mem_cons.mp mem with rfl | old
            · exact absurd ⟨same, by simpa using passed⟩ own
            · exact first c old same passed
          · simp only [passedFor] at few
            exact .inr (by omega)

/-- **A request.** -/
theorem request [IPAddress IP] {cfg : ReadOnlyAppConfig IP} {e : HTTPMessage IP × ClockReadings}
    (steady : Steady cfg.rateLimitPerMinute last spec) (order : last ≤ e.2.added)
    (checked : e.2.added ≤ e.2.checked) (recycled : e.2.checked ≤ e.2.recycled) :
    Steady cfg.rateLimitPerMinute e.2.recycled (spec.request cfg e) := by
  unfold EpochRun.request
  split
  · split
    · exact steady.later (by omega)
    · exact steady.charge order checked recycled _
  · exact steady.later (by omega)

end Steady

/-- The requests in turn. -/
theorem steady_requests [IPAddress IP] {cfg : ReadOnlyAppConfig IP} {es : List (HTTPMessage IP × ClockReadings)}
    {run run' : LimiterRun IP} {spec : EpochRun IP} (steady : Steady cfg.rateLimitPerMinute run.lastReading spec)
    (ordered : OrderedFrom run.lastReading es) (moved : replay (limiterStep cfg) run es = some run') :
    Steady cfg.rateLimitPerMinute run'.lastReading (es.foldl (EpochRun.request cfg) spec) := by
  induction es generalizing run spec with
  | nil =>
    cases moved
    exact steady
  | cons e es ih =>
    obtain ⟨mid, first, rest⟩ := Option.bind_eq_some_iff.mp moved
    obtain ⟨order, checked, recycled, later⟩ := ordered
    cases first
    exact ih (steady.request order checked recycled) later rest

/-- **What the limit promises.** For every sequence of fewer than `2 ^ 32` requests at clocks
that do not go back and every address: either all its requests that were let through since
the last recycle came in the first second of the epoch, or there are fewer of them than one
above the limit for every whole minute since the recycle (or for one). -/
theorem epoch_passes [IPAddress IP] (cfg : ReadOnlyAppConfig IP) (now : Int)
    (es : List (HTTPMessage IP × ClockReadings)) (run : LimiterRun IP) (ordered : OrderedFrom now es)
    (few : es.length < UInt32.size) (moved : replay (limiterStep cfg) (.start cfg now) es = some run) (ip : IP) :
    ∃ since earlier, run.charges = since ++ earlier ∧
      since = (EpochRun.ofRequests cfg now es).since ∧
      ((∀ c ∈ since, c.ip = ip → c.passed = true → toSeconds (c.time - run.svc.timeLastRecycled) = 0) ∨
        (passedFor since ip : Int) < (cfg.rateLimitPerMinute.toNat + 1) *
          max 1 ((run.lastReading - run.svc.timeLastRecycled) / minute)) := by
  have refined := (Refines.start cfg now).requests ordered (by simpa [LimiterRun.start] using few) moved
  have steady : Steady cfg.rateLimitPerMinute run.lastReading (EpochRun.ofRequests cfg now es) :=
    steady_requests (Steady.start cfg.rateLimitPerMinute now) ordered moved
  refine ⟨_, _, refined.charges, rfl, ?_⟩
  rw [refined.begun]
  exact steady.rate ip

/-- Of the seven requests five are let through. -/
theorem epoch_passes_seven : ∃ run, replay (limiterStep fivePerMinute) (.start fivePerMinute 0)
      (List.replicate 7 (createRequest, readingsAt 2000000000)) = some run ∧
    passedFor run.charges createRequest.clientAddress = 5 ∧
    ∃ since earlier, run.charges = since ++ earlier ∧
      since = (EpochRun.ofRequests fivePerMinute 0
        (List.replicate 7 (createRequest, readingsAt 2000000000))).since ∧
      ((∀ c ∈ since, c.ip = createRequest.clientAddress → c.passed = true →
          toSeconds (c.time - run.svc.timeLastRecycled) = 0) ∨
        (passedFor since createRequest.clientAddress : Int) < (5 + 1) *
          max 1 ((run.lastReading - run.svc.timeLastRecycled) / minute)) := by
  have ordered : OrderedFrom 0 (List.replicate 7 (createRequest, readingsAt 2000000000)) := by
    simp [OrderedFrom, readingsAt, List.replicate]
  refine ⟨_, rfl, by decide +kernel, ?_⟩
  exact epoch_passes fivePerMinute 0 _ _ ordered (by decide) rfl createRequest.clientAddress

end UrlShortener
