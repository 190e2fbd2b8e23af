import Mathlib.Data.List.Basic
import UrlShortener.Charging
import UrlShortener.Logic.Transition

/-!
# The limit per minute

The configuration promises a maximum number of requests per address and minute.
The limiter compares something else: the hits since the last recycle divided by
the whole minutes since then, with no check in the first second. What it turns
away is exactly `TurnsAway`, a condition on the table before the request. The counters
of the table are the charges since the last recycle (`Counted`), so a request beyond
the limit is turned away where the limiter looks at the minute before it (`Checked`):
no recycle is due or lies between, and the epoch is a second and not yet two minutes
old. A run whose requests beyond the limit all come there keeps the promise
(`limit_per_minute`); six requests in the first second of an epoch do not
(`burst_passes`).
-/

namespace UrlShortener
set_option autoImplicit false
open Transition

/-- Sixty seconds. -/
def minute : Int := 60000000000

/-- A charged request: the address, the reading for `time_last_added_`, and whether
it was let through. -/
structure Charge (IP : Type) where
  ip : IP
  time : Int
  passed : Bool
  deriving DecidableEq, Repr

/-- The limiter in a run, with the charges made so far, newest first, and the last
clock reading. -/
structure LimiterRun (IP : Type) where
  svc : IPAccessCountService IP
  charges : List (Charge IP)
  lastReading : Int

variable {IP : Type} [DecidableEq IP]

omit [DecidableEq IP] in
/-- A limiter constructed at `now`. -/
def LimiterRun.start (cfg : ReadOnlyAppConfig IP) (now : Int) : LimiterRun IP where
  svc := .new cfg.ipRateLimiterSecondsTtl now
  charges := []
  lastReading := now

/-- One request. -/
def limiterStep [IPAddress IP] (cfg : ReadOnlyAppConfig IP) (run : LimiterRun IP)
    (e : HTTPMessage IP × ClockReadings) : Option (LimiterRun IP) :=
  let r := AntiAbuseProtection.onRequest cfg run.svc e.2 () e.1
  some
    { svc := r.svc
      charges := r.logged.map (fun ip => ⟨ip, e.2.added, r.handler == .passed ()⟩) ++ run.charges
      lastReading := e.2.recycled }

/-- How many requests of `ip` were let through in the 60 seconds from `a` on. -/
def passedWithin (charges : List (Charge IP)) (ip : IP) (a : Int) : Nat :=
  (charges.filter fun c => c.ip = ip ∧ a ≤ c.time ∧ c.time ≤ a + minute ∧ c.passed = true).length

/-- How many requests of `ip` were let through from 60 seconds before `t` on. -/
def recentlyPassed (charges : List (Charge IP)) (ip : IP) (t : Int) : Nat :=
  charges.countP fun c => c.ip = ip ∧ t - minute ≤ c.time ∧ c.passed = true

/-- The requests let through for `ip`. -/
def passedFor (charges : List (Charge IP)) (ip : IP) : Nat :=
  charges.countP fun c => c.ip = ip ∧ c.passed = true

/-- The table before the request makes the limiter turn it away: no recycle is due,
a second of the epoch has passed, and the counter, this request included, is above
the limit times the whole minutes of the epoch. -/
def TurnsAway (limit : UInt32) (svc : IPAccessCountService IP) (now : ClockReadings) (ip : IP) : Prop :=
  ¬ svc.expired now ∧ 1 ≤ toSeconds (now.added - svc.timeLastRecycled) ∧
    (limit.toNat + 1) * minutesOf (toSeconds (now.added - svc.timeLastRecycled)) ≤
      (svc.bumped ip).toNat

/-- A protected request, read at clocks that do not go back. -/
def InOrder (run : LimiterRun IP) (e : HTTPMessage IP × ClockReadings) : Prop :=
  isProtected e.1 = true ∧ run.lastReading ≤ e.2.added ∧ e.2.added ≤ e.2.checked ∧
    e.2.checked ≤ e.2.recycled

omit [DecidableEq IP] in
instance (run : LimiterRun IP) (e : HTTPMessage IP × ClockReadings) : Decidable (InOrder run e) :=
  inferInstanceAs (Decidable (_ ∧ _))

/-- The limiter looks at the minute before the request: no recycle is due, at least a second
and less than two minutes have passed since the last one, the requests of the address let
through in that minute all came after it, and the counter has room. -/
structure Checked (run : LimiterRun IP) (now : ClockReadings) (ip : IP) : Prop where
  notDue : ¬ run.svc.expired now
  second : 1 ≤ toSeconds (now.added - run.svc.timeLastRecycled)
  young : now.added - run.svc.timeLastRecycled < 2 * minute
  after : ∀ c ∈ run.charges, c.ip = ip → now.added - minute ≤ c.time → c.passed = true →
    run.svc.timeLastRecycled < c.time
  room : run.charges.countP (fun c => c.ip = ip) + 1 < UInt32.size

/-- A request in order; if its address has had the limit let through within the last minute,
the limiter looks at that minute. -/
def ExcessChecked [IPAddress IP] (cfg : ReadOnlyAppConfig IP) (run : LimiterRun IP)
    (e : HTTPMessage IP × ClockReadings) : Prop :=
  InOrder run e ∧ ∀ ip, resolveClientIp cfg e.1 = some ip →
    recentlyPassed run.charges ip e.2.added < cfg.rateLimitPerMinute.toNat ∨ Checked run e.2 ip

/-! ## What the limiter turns away -/

theorem minutesOf_pos (overSeconds : Int) : 0 < minutesOf overSeconds := by
  unfold minutesOf
  split <;> omega

omit [DecidableEq IP] in
theorem toSeconds_nonneg {d : Int} (h : 0 ≤ d) : 0 ≤ toSeconds d :=
  Int.tdiv_nonneg h (by omega)

/-- The divisor is the whole minutes, at least one. -/
theorem minutesOf_toSeconds {d : Int} (since : 0 ≤ d) : minutesOf (toSeconds d) = max 1 (d / minute) := by
  have seconds : toSeconds d = d / 1000000000 := Int.tdiv_eq_ediv_of_nonneg since
  unfold minutesOf minute
  rw [seconds]
  split <;> omega

/-- The rate of a count over at least a second. -/
theorem rate_gt_iff (limit count : UInt32) {m : Int} (positive : 0 < m) :
    UInt32.ofNat ((count.toNat : Int) / m).toNat > limit ↔
      ((limit.toNat : Int) + 1) * m ≤ (count.toNat : Int) := by
  have quotient : (0 : Int) ≤ (count.toNat : Int) / m := Int.ediv_nonneg (by omega) (by omega)
  have below : (count.toNat : Int) / m ≤ count.toNat := Int.ediv_le_self _ (by omega)
  have small := count.toNat_lt
  rw [gt_iff_lt, UInt32.lt_iff_toNat_lt, UInt32.toNat_ofNat_of_lt' (by unfold UInt32.size; omega),
    ← Int.le_ediv_iff_mul_le positive]
  omega

/-- **The verdict.** A charge is let through exactly unless `TurnsAway`. -/
theorem chargeAndCheck_passed_iff_not_turnsAway {RH : Type} (limit : UInt32)
    (svc : IPAccessCountService IP) (now : ClockReadings) (rh : RH) (ip : IP)
    (order : svc.timeLastRecycled ≤ now.added) :
    (chargeAndCheck limit svc now rh ip).handler = .passed rh ↔ ¬ TurnsAway limit svc now ip := by
  rw [chargeAndCheck_passed_iff, ← UInt32.not_lt]
  apply not_congr
  by_cases expired : svc.expired now
  · -- the recycle empties the table
    have zero : (svc.logAccess now ip).hitsPerMinute ip = 0 := by
      rw [logAccess_expired expired]
      unfold IPAccessCountService.hitsPerMinute
      split <;> rfl
    rw [zero]
    exact ⟨fun above => absurd above (UInt32.not_lt_zero), fun away => absurd expired away.1⟩
  · rw [logAccess_fresh expired]
    simp only [IPAccessCountService.hitsPerMinute, Function.update_self, TurnsAway]
    rw [if_neg (by omega)]
    have since := toSeconds_nonneg (d := now.added - svc.timeLastRecycled) (by omega)
    have minutes := minutesOf_pos (toSeconds (now.added - svc.timeLastRecycled))
    by_cases wrapped : svc.bumped ip = 0
    · rw [if_pos wrapped, wrapped]
      refine ⟨fun above => absurd above UInt32.not_lt_zero, fun away => ?_⟩
      have := away.2.2
      have : 0 < ((limit.toNat : Int) + 1) * minutesOf (toSeconds (now.added - svc.timeLastRecycled)) :=
        Int.mul_pos (by omega) minutes
      simp only [UInt32.toNat_zero] at *
      omega
    · rw [if_neg wrapped]
      by_cases early : toSeconds (now.added - svc.timeLastRecycled) = 0
      · rw [if_pos early]
        exact ⟨fun above => absurd above UInt32.not_lt_zero, fun away => absurd away.2.1 (by omega)⟩
      · rw [if_neg early, ← gt_iff_lt, rate_gt_iff _ _ minutes]
        exact ⟨fun above => ⟨expired, by omega, above⟩, fun away => away.2.2⟩

/-! ## What the counters hold -/

namespace IPAccessCountService

/-- The table holds the number of calls of every address. -/
def Tallies (svc : IPAccessCountService IP) (calls : IP → Nat) : Prop :=
  ∀ ip, svc.ipAccessCount ip = if calls ip = 0 then none else some (UInt32.ofNat (calls ip))

variable {svc : IPAccessCountService IP} {calls : IP → Nat} {now : ClockReadings}

omit [DecidableEq IP] in
/-- The next counter is the number of calls with this one. -/
theorem Tallies.bumped (tallies : svc.Tallies calls) (ip : IP) : svc.bumped ip = UInt32.ofNat (calls ip + 1) := by
  unfold IPAccessCountService.bumped
  rw [tallies ip]
  by_cases zero : calls ip = 0
  · rw [if_pos zero, zero]
    rfl
  · rw [if_neg zero, UInt32.ofNat_add]
    rfl

/-- A charge is counted. -/
theorem Tallies.charged (tallies : svc.Tallies calls) (fresh : ¬ svc.expired now) (ip : IP) :
    (svc.logAccess now ip).Tallies fun ip' => calls ip' + if ip = ip' then 1 else 0 := by
  intro ip'
  rw [logAccess_fresh fresh]
  by_cases same : ip = ip'
  · subst same
    simp [tallies.bumped]
  · simp [Function.update_of_ne (Ne.symm same), tallies ip', same]

/-- The charge that recycles is forgotten with the others. -/
theorem Tallies.recycled (expired : svc.expired now) (ip : IP) : (svc.logAccess now ip).Tallies fun _ => 0 := by
  intro ip'
  rw [logAccess_expired expired]
  rfl

end IPAccessCountService

/-- The charges of the address. -/
def callsOf (charges : List (Charge IP)) (ip : IP) : Nat := charges.countP fun c => c.ip = ip

theorem callsOf_cons (c : Charge IP) (charges : List (Charge IP)) :
    callsOf (c :: charges) = fun ip => callsOf charges ip + if c.ip = ip then 1 else 0 := by
  funext ip
  simp [callsOf, List.countP_cons]

/-- The counters are the charges since the last recycle; no charge and no recycle lies in the
future, and what was charged before the recycle was charged no later. -/
structure Counted (run : LimiterRun IP) (since earlier : List (Charge IP)) : Prop where
  charges : run.charges = since ++ earlier
  table : run.svc.Tallies (callsOf since)
  earlier : ∀ c ∈ earlier, c.time ≤ run.svc.timeLastRecycled
  past : ∀ c ∈ run.charges, c.time ≤ run.lastReading
  epoch : run.svc.timeLastRecycled ≤ run.lastReading

namespace Counted

variable {run : LimiterRun IP} {since earlier : List (Charge IP)} {now : ClockReadings}

theorem start (cfg : ReadOnlyAppConfig IP) (now : Int) : Counted (.start cfg now) [] [] where
  charges := rfl
  table := fun _ => rfl
  earlier := fun c mem => by cases mem
  past := fun c mem => by cases mem
  epoch := Int.le_refl now

/-- What the counter of the address holds, if the charges of the address fit. -/
theorem bumped (counted : Counted run since earlier) {ip : IP} (room : callsOf run.charges ip + 1 < UInt32.size) :
    (run.svc.bumped ip).toNat = callsOf since ip + 1 := by
  have fewer : callsOf since ip ≤ callsOf run.charges ip := by
    simp only [callsOf, counted.charges, List.countP_append]
    exact Nat.le_add_right _ _
  rw [counted.table.bumped, UInt32.toNat_ofNat_of_lt' (by omega)]

/-- The requests of the last minute that came after the last recycle are in the counter. -/
theorem recentlyPassed_le (counted : Counted run since earlier) {ip : IP} (checked : Checked run now ip) :
    recentlyPassed run.charges ip now.added ≤ callsOf since ip := by
  have gone : recentlyPassed earlier ip now.added = 0 := by
    refine List.countP_eq_zero.mpr fun c mem recent => ?_
    obtain ⟨same, recent, passed⟩ := of_decide_eq_true recent
    have charged : c ∈ run.charges := by
      rw [counted.charges]
      exact List.mem_append_right _ mem
    have after := checked.after c charged same recent passed
    have before := counted.earlier c mem
    omega
  have split : recentlyPassed run.charges ip now.added = recentlyPassed since ip now.added := by
    rw [counted.charges, recentlyPassed, List.countP_append]
    exact Nat.add_eq_left.mpr gone
  rw [split]
  refine List.countP_mono_left fun c _ recent => ?_
  simpa using (of_decide_eq_true recent).1

/-- **A request beyond the limit is turned away** where the limiter looks at the minute before
it: its counter is then above the limit, and divided by one. -/
theorem turnsAway (counted : Counted run since earlier) {ip : IP} (checked : Checked run now ip)
    (order : run.lastReading ≤ now.added) {limit : UInt32}
    (excess : limit.toNat ≤ recentlyPassed run.charges ip now.added) : TurnsAway limit run.svc now ip := by
  have epoch := counted.epoch
  have young := checked.young
  have recent := counted.recentlyPassed_le checked
  have one : minutesOf (toSeconds (now.added - run.svc.timeLastRecycled)) = 1 := by
    rw [minutesOf_toSeconds (by omega)]
    unfold minute at young ⊢
    omega
  refine ⟨checked.notDue, checked.second, ?_⟩
  rw [one, counted.bumped checked.room]
  omega

/-- **A charge** is counted, or begins an epoch. -/
theorem charge (counted : Counted run since earlier) (order : run.lastReading ≤ now.added)
    (checked : now.added ≤ now.checked) (recycled : now.checked ≤ now.recycled) (ip : IP) (passed : Bool) :
    ∃ since earlier, Counted
      { svc := run.svc.logAccess now ip
        charges := ⟨ip, now.added, passed⟩ :: run.charges
        lastReading := now.recycled } since earlier := by
  have epoch := counted.epoch
  have past : ∀ c ∈ ⟨ip, now.added, passed⟩ :: run.charges, c.time ≤ now.recycled := by
    intro c mem
    rcases List.mem_cons.mp mem with rfl | old
    · dsimp only
      omega
    · have := counted.past c old
      omega
  by_cases expired : run.svc.expired now
  · have begun : (run.svc.logAccess now ip).timeLastRecycled = now.recycled := by rw [logAccess_expired expired]
    refine ⟨[], ⟨ip, now.added, passed⟩ :: run.charges, rfl, ?_, ?_, past, Int.le_of_eq begun⟩
    · exact IPAccessCountService.Tallies.recycled expired ip
    · rw [begun]
      exact past
  · have begun : (run.svc.logAccess now ip).timeLastRecycled = run.svc.timeLastRecycled := by
      rw [logAccess_fresh expired]
    refine ⟨⟨ip, now.added, passed⟩ :: since, earlier, ?_, ?_, ?_, past, ?_⟩
    · rw [counted.charges, List.cons_append]
    · rw [callsOf_cons]
      exact counted.table.charged expired ip
    · rw [begun]
      exact counted.earlier
    · rw [begun]
      dsimp only
      omega

end Counted

/-! ## Runs -/

/-- The promise, with the counters that keep it. -/
structure LimitKept (limit : UInt32) (run : LimiterRun IP) : Prop where
  counted : ∃ since earlier, Counted run since earlier
  perMinute : ∀ ip a, passedWithin run.charges ip a ≤ limit.toNat

/-- What was let through within a window that ends at `t` or later is recent at `t`. -/
theorem passedWithin_le_recentlyPassed (charges : List (Charge IP)) (ip : IP) {a t : Int}
    (inWindow : t ≤ a + minute) : passedWithin charges ip a ≤ recentlyPassed charges ip t := by
  unfold passedWithin recentlyPassed
  rw [← List.countP_eq_length_filter]
  refine List.countP_mono_left fun c _ within => ?_
  simp only [decide_eq_true_eq] at within ⊢
  exact ⟨within.1, by omega, within.2.2.2⟩

theorem passedWithin_cons (c : Charge IP) (charges : List (Charge IP)) (ip : IP) (a : Int) :
    passedWithin (c :: charges) ip a = passedWithin charges ip a +
      if c.ip = ip ∧ a ≤ c.time ∧ c.time ≤ a + minute ∧ c.passed = true then 1 else 0 := by
  unfold passedWithin
  rw [List.filter_cons]
  split
  · rename_i member
    rw [if_pos (by simpa using member), List.length_cons]
  · rename_i member
    rw [if_neg (by simpa using member), Nat.add_zero]

/-- **One request.** -/
theorem limitKept_step [IPAddress IP] (cfg : ReadOnlyAppConfig IP) (run : LimiterRun IP)
    (e : HTTPMessage IP × ClockReadings) (run' : LimiterRun IP)
    (kept : LimitKept cfg.rateLimitPerMinute run) (excess : ExcessChecked cfg run e)
    (moved : limiterStep cfg run e = some run') : LimitKept cfg.rateLimitPerMinute run' := by
  obtain ⟨⟨guarded, after, checked, recycled⟩, covered⟩ := excess
  obtain ⟨since, earlier, counted⟩ := kept.counted
  have epoch := counted.epoch
  simp only [limiterStep, Option.some.injEq] at moved
  subst moved
  rcases protected_cases cfg run.svc e.2 () guarded with ⟨-, turned⟩ | ⟨ip, resolved, charged⟩
  · rw [turned]
    refine ⟨⟨since, earlier, counted.charges, counted.table, counted.earlier, fun c member => ?_, ?_⟩,
      kept.perMinute⟩
    · have := counted.past c member
      dsimp only
      omega
    · dsimp only
      omega
  · have verdict := chargeAndCheck_passed_iff_not_turnsAway cfg.rateLimitPerMinute run.svc e.2 ()
      ip (by omega)
    rw [charged]
    simp only [chargeAndCheck_logged, chargeAndCheck_svc, List.map_cons, List.map_nil,
      List.cons_append, List.nil_append]
    refine ⟨counted.charge after checked recycled ip _, fun ip' a => ?_⟩
    rw [passedWithin_cons]
    have old := kept.perMinute ip' a
    split
    · rename_i member
      obtain ⟨same, low, high, passed⟩ := member
      dsimp only at same low high passed
      subst same
      -- the request was let through, so its address had some of the limit left
      have through := verdict.mp (beq_iff_eq.mp passed)
      have left : recentlyPassed run.charges ip e.2.added < cfg.rateLimitPerMinute.toNat := by
        rcases covered ip resolved with left | looked
        · exact left
        · by_contra above
          exact through (counted.turnsAway looked after (Nat.le_of_not_lt above))
      have window := passedWithin_le_recentlyPassed run.charges ip high
      omega
    · exact old

/-- **The limit holds per minute while the limiter looks at the minute before every request
beyond it.** In every run of protected requests in order whose requests beyond the limit are
`Checked`, no address has more requests let through in any 60 seconds than the configured
limit. -/
theorem limit_per_minute [IPAddress IP] (cfg : ReadOnlyAppConfig IP) (now : Int) (run : LimiterRun IP)
    (reached : Runs (limiterStep cfg) (ExcessChecked cfg) (.start cfg now) run) (ip : IP) (a : Int) :
    passedWithin run.charges ip a ≤ cfg.rateLimitPerMinute.toNat := by
  have start : LimitKept cfg.rateLimitPerMinute (LimiterRun.start cfg now) :=
    ⟨⟨[], [], Counted.start cfg now⟩, by simp [LimiterRun.start, passedWithin]⟩
  exact (reached.invariant (LimitKept cfg.rateLimitPerMinute) start (limitKept_step cfg)).perMinute ip a

/-- A request that comes when a recycle is due, or in the first second after one, is let
through, whatever was charged before. -/
theorem passed_of_unchecked {limit : UInt32} {svc : IPAccessCountService IP} {now : ClockReadings}
    (order : svc.timeLastRecycled ≤ now.added)
    (unchecked : svc.expired now ∨ toSeconds (now.added - svc.timeLastRecycled) < 1) (ip : IP) :
    (chargeAndCheck limit svc now () ip).handler = .passed () := by
  rw [chargeAndCheck_passed_iff_not_turnsAway limit svc now () ip order]
  rintro ⟨fresh, second, -⟩
  rcases unchecked with due | early
  · exact fresh due
  · omega

/-! ## Runs on fixed inputs -/

/-- The sample configuration's limit. -/
def fivePerMinute : ReadOnlyAppConfig UInt32 := { rateLimitPerMinute := 5 }

def createRequest : HTTPMessage UInt32 where
  method := some .post
  path := bytes "/api/v1/create"
  headers := []
  clientAddress := 0xc0000201

/-- All clocks read `t`. -/
def readingsAt (t : Int) : ClockReadings := ⟨t, t, t⟩

/-- A test of `Checked`. -/
def checkedTest (run : LimiterRun IP) (now : ClockReadings) (ip : IP) : Bool :=
  !decide (run.svc.expired now) && decide (1 ≤ toSeconds (now.added - run.svc.timeLastRecycled)) &&
    decide (now.added - run.svc.timeLastRecycled < 2 * minute) &&
    run.charges.all (fun c => !decide (c.ip = ip ∧ now.added - minute ≤ c.time ∧ c.passed = true) ||
      decide (run.svc.timeLastRecycled < c.time)) &&
    decide (run.charges.countP (fun c => c.ip = ip) + 1 < UInt32.size)

theorem checked_of_test {run : LimiterRun IP} {now : ClockReadings} {ip : IP}
    (passed : checkedTest run now ip = true) : Checked run now ip := by
  simp only [checkedTest, Bool.and_eq_true, Bool.not_eq_true', decide_eq_false_iff_not, decide_eq_true_eq,
    List.all_eq_true, Bool.or_eq_true] at passed
  obtain ⟨⟨⟨⟨notDue, second⟩, young⟩, after⟩, room⟩ := passed
  exact ⟨notDue, second, young, fun c mem same recent through =>
    (after c mem).resolve_left fun out => out ⟨same, recent, through⟩, room⟩

/-- A test of `ExcessChecked`. -/
def excessCheckedTest [IPAddress IP] (cfg : ReadOnlyAppConfig IP) (run : LimiterRun IP)
    (e : HTTPMessage IP × ClockReadings) : Bool :=
  decide (InOrder run e) && match resolveClientIp cfg e.1 with
    | none => true
    | some ip => decide (recentlyPassed run.charges ip e.2.added < cfg.rateLimitPerMinute.toNat) ||
        checkedTest run e.2 ip

theorem excessChecked_of_test [IPAddress IP] (cfg : ReadOnlyAppConfig IP) (run : LimiterRun IP)
    (e : HTTPMessage IP × ClockReadings) (passed : excessCheckedTest cfg run e = true) : ExcessChecked cfg run e := by
  simp only [excessCheckedTest, Bool.and_eq_true, decide_eq_true_eq] at passed
  refine ⟨passed.1, fun ip resolved => ?_⟩
  have tested := passed.2
  rw [resolved] at tested
  simp only [Bool.or_eq_true, decide_eq_true_eq] at tested
  exact tested.imp_right checked_of_test

/-- Seven requests in the third second under a limit of five: the last two are turned away. -/
theorem limit_per_minute_seven : ∃ run, replay (limiterStep fivePerMinute) (.start fivePerMinute 0)
      (List.replicate 7 (createRequest, readingsAt 2000000000)) = some run ∧
    run.charges.map (·.passed) = [false, false, true, true, true, true, true] ∧
    passedWithin run.charges createRequest.clientAddress 0 ≤ 5 := by
  have reached : Runs (limiterStep fivePerMinute) (ExcessChecked fivePerMinute) (.start fivePerMinute 0) _ :=
    Runs.of_guarded_replay (limiterStep fivePerMinute) (excessCheckedTest fivePerMinute)
      (excessChecked_of_test fivePerMinute) (.start fivePerMinute 0)
      (List.replicate 7 (createRequest, readingsAt 2000000000)) rfl
  exact ⟨_, rfl, by decide +kernel, limit_per_minute fivePerMinute 0 _ reached _ _⟩

/-- Six requests half a second after the start all pass a limit of five. -/
theorem burst_passes : ∃ run, replay (limiterStep fivePerMinute) (.start fivePerMinute 0)
      (List.replicate 6 (createRequest, readingsAt 500000000)) = some run ∧
    passedWithin run.charges createRequest.clientAddress 0 = 6 ∧
    ¬ passedWithin run.charges createRequest.clientAddress 0 ≤ fivePerMinute.rateLimitPerMinute.toNat :=
  ⟨_, rfl, rfl, by decide⟩

end UrlShortener
