import UrlShortener.RateLimit

/-!
# What the limiter counts

Between two recycles the table holds, for each address, the number of its calls since
the last one (`Tallied`), but not the call that triggered it: `check_recycle` comes after
the increment and clears it as well. And `hits_per_minute` is 0 throughout the first
second after a recycle. A call is counted exactly where neither is in the way
(`counted_exactly_iff`).
-/

namespace UrlShortener
set_option autoImplicit false
open Transition

variable {IP : Type} [DecidableEq IP]

/-- The limiter after a sequence of `log_access` calls. -/
structure AccessRun (IP : Type) where
  svc : IPAccessCountService IP
  /-- The address whose call triggered the last recycle, if there was one. -/
  trigger : Option IP
  /-- The calls after that one, newest first. -/
  later : List IP
  /-- All calls made. -/
  calls : Nat
  lastReading : Int

omit [DecidableEq IP] in
def AccessRun.start (ttl : UInt32) (now : Int) : AccessRun IP where
  svc := .new ttl now
  trigger := none
  later := []
  calls := 0
  lastReading := now

/-- The calls since the last recycle, the one that triggered it included. -/
def AccessRun.epoch (run : AccessRun IP) : List IP := run.later ++ run.trigger.toList

def AccessRun.logAccess (run : AccessRun IP) (ip : IP) (now : ClockReadings) : AccessRun IP where
  svc := run.svc.logAccess now ip
  trigger := if run.svc.expired now then some ip else run.trigger
  later := if run.svc.expired now then [] else ip :: run.later
  calls := run.calls + 1
  lastReading := now.recycled

def accessStep (run : AccessRun IP) (e : IP × ClockReadings) : Option (AccessRun IP) :=
  some (run.logAccess e.1 e.2)

/-- Clocks that do not go back, and fewer calls than a counter has values. -/
structure CallInOrder (run : AccessRun IP) (e : IP × ClockReadings) : Prop where
  added : run.lastReading ≤ e.2.added
  checked : e.2.added ≤ e.2.checked
  recycled : e.2.checked ≤ e.2.recycled
  few : run.calls + 1 < UInt32.size

/-- After a call of `ip` at `t` the table has the number of its calls in the epoch, and
the rate is that number over the whole minutes of the epoch, or over one. -/
def CountedExactly (run : AccessRun IP) (ip : IP) (t : Int) : Prop :=
  ∃ count, run.svc.ipAccessCount ip = some count ∧ count.toNat = run.epoch.count ip ∧
    ((run.svc.hitsPerMinute ip).toNat : Int) =
      run.epoch.count ip / max 1 ((t - run.svc.timeLastRecycled) / minute)

/-! ## The table -/

/-- The table counts the calls after the one that triggered the last recycle. -/
structure Tallied (run : AccessRun IP) : Prop where
  table : run.svc.Tallies fun ip => run.later.count ip
  few : run.later.length ≤ run.calls
  epoch : run.svc.timeLastRecycled ≤ run.lastReading

theorem Tallied.start (ttl : UInt32) (now : Int) : Tallied (.start ttl now : AccessRun IP) where
  table := fun _ => rfl
  few := Nat.le_refl 0
  epoch := Int.le_refl now

/-- **One call.** -/
theorem Tallied.logAccess {run : AccessRun IP} (tallied : Tallied run) {ip : IP} {now : ClockReadings}
    (order : CallInOrder run (ip, now)) : Tallied (run.logAccess ip now) := by
  have added := order.added
  have checked := order.checked
  have recycled := order.recycled
  have few := tallied.few
  have epoch := tallied.epoch
  dsimp only at added checked recycled
  by_cases expired : run.svc.expired now
  · constructor
    · simp only [AccessRun.logAccess, if_pos expired]
      exact IPAccessCountService.Tallies.recycled expired ip
    · simp only [AccessRun.logAccess, if_pos expired]
      exact Nat.zero_le _
    · simp only [AccessRun.logAccess, logAccess_expired expired]
      exact Int.le_refl _
  · constructor
    · simp only [AccessRun.logAccess, if_neg expired, List.count_cons, beq_iff_eq]
      exact tallied.table.charged expired ip
    · simp only [AccessRun.logAccess, if_neg expired, List.length_cons]
      omega
    · simp only [AccessRun.logAccess, logAccess_fresh expired]
      omega

/-! ## The rate -/

omit [DecidableEq IP] in
/-- The rate of an address in the table, a second or more after the last recycle. -/
theorem hitsPerMinute_late {svc : IPAccessCountService IP} {ip : IP} {count : UInt32}
    (present : svc.ipAccessCount ip = some count) (positive : count ≠ 0)
    (order : svc.timeLastRecycled ≤ svc.timeLastAdded)
    (late : toSeconds (svc.timeLastAdded - svc.timeLastRecycled) ≠ 0) :
    ((svc.hitsPerMinute ip).toNat : Int) =
      count.toNat / max 1 ((svc.timeLastAdded - svc.timeLastRecycled) / minute) := by
  have divisor := minutesOf_pos (toSeconds (svc.timeLastAdded - svc.timeLastRecycled))
  have quotient : 0 ≤ (count.toNat : Int) / minutesOf (toSeconds (svc.timeLastAdded - svc.timeLastRecycled)) :=
    Int.ediv_nonneg (by omega) (by omega)
  have below := Int.ediv_le_self (a := count.toNat)
    (minutesOf (toSeconds (svc.timeLastAdded - svc.timeLastRecycled))) (by omega)
  have small := count.toNat_lt
  simp only [IPAccessCountService.hitsPerMinute, present]
  rw [if_neg (by omega), if_neg positive, if_neg late,
    UInt32.toNat_ofNat_of_lt' (by unfold UInt32.size; omega), Int.toNat_of_nonneg quotient,
    minutesOf_toSeconds (by omega)]

omit [DecidableEq IP] in
/-- In the first second the rate is 0. -/
theorem hitsPerMinute_early {svc : IPAccessCountService IP} (ip : IP)
    (early : toSeconds (svc.timeLastAdded - svc.timeLastRecycled) = 0) : svc.hitsPerMinute ip = 0 := by
  unfold IPAccessCountService.hitsPerMinute
  split
  · rfl
  · split
    · rfl
    · split
      · rfl
      · exact if_pos early

/-! ## Calls counted exactly -/

/-- After a call that triggers no recycle the table counts it. -/
theorem Tallied.entry {run : AccessRun IP} (tallied : Tallied run) {ip : IP} {now : ClockReadings}
    (order : CallInOrder run (ip, now)) (fresh : ¬ run.svc.expired now) :
    ∃ count, (run.logAccess ip now).svc.ipAccessCount ip = some count ∧
      count.toNat = run.later.count ip + 1 := by
  have few := tallied.few
  have total := order.few
  have bound : run.later.count ip ≤ run.later.length := List.count_le_length
  refine ⟨UInt32.ofNat (run.later.count ip + 1), ?_, UInt32.toNat_ofNat_of_lt' (by omega)⟩
  simp only [AccessRun.logAccess, logAccess_fresh fresh, Function.update_self, tallied.table.bumped]

/-- The epoch has one call more, and the call that triggered its recycle. -/
theorem count_epoch {run : AccessRun IP} {now : ClockReadings} (fresh : ¬ run.svc.expired now) (ip : IP) :
    (run.logAccess ip now).epoch.count ip = run.later.count ip + 1 + run.trigger.toList.count ip := by
  simp [AccessRun.epoch, AccessRun.logAccess, if_neg fresh]
  omega

theorem trigger_count_eq_zero_iff {run : AccessRun IP} {ip : IP} :
    run.trigger.toList.count ip = 0 ↔ run.trigger ≠ some ip := by
  rw [List.count_eq_zero, Option.mem_toList]

/-- In the first second no whole minute has passed. -/
theorem minutes_early {d : Int} (since : 0 ≤ d) (early : toSeconds d = 0) : max 1 (d / minute) = 1 := by
  rw [← minutesOf_toSeconds since, early]
  rfl

/-- **A call is counted exactly where it triggers no recycle, the epoch was not begun by
its own address, and a second of the epoch has passed.** -/
theorem counted_exactly_iff (ttl : UInt32) (start : Int) (run : AccessRun IP)
    (reached : Runs accessStep CallInOrder (.start ttl start) run) (ip : IP) (now : ClockReadings)
    (order : CallInOrder run (ip, now)) :
    CountedExactly (run.logAccess ip now) ip now.added ↔
      ¬ run.svc.expired now ∧ run.trigger ≠ some ip ∧
        1 ≤ toSeconds (now.added - run.svc.timeLastRecycled) := by
  have tallied : Tallied run := by
    refine reached.invariant Tallied (Tallied.start ttl start) fun a e b inv ok moved => ?_
    cases moved
    exact inv.logAccess ok
  have added := order.added
  have epoch := tallied.epoch
  dsimp only at added
  by_cases expired : run.svc.expired now
  · -- the recycle clears the call it is triggered by
    constructor
    · rintro ⟨count, present, -⟩
      simp only [AccessRun.logAccess, logAccess_expired expired] at present
      cases present
    · rintro ⟨fresh, -⟩
      exact absurd expired fresh
  · obtain ⟨own, table, value⟩ := tallied.entry order expired
    have times : (run.logAccess ip now).svc.timeLastAdded = now.added ∧
        (run.logAccess ip now).svc.timeLastRecycled = run.svc.timeLastRecycled := by
      simp only [AccessRun.logAccess, logAccess_fresh expired, and_self]
    have since := toSeconds_nonneg (d := now.added - run.svc.timeLastRecycled) (by omega)
    unfold CountedExactly
    rw [count_epoch expired, times.2]
    constructor
    · rintro ⟨count, present, counted, rate⟩
      rw [table] at present
      cases present
      refine ⟨expired, trigger_count_eq_zero_iff.mp (by omega), ?_⟩
      by_contra late
      have early : toSeconds (now.added - run.svc.timeLastRecycled) = 0 := by omega
      have zero : (run.logAccess ip now).svc.hitsPerMinute ip = 0 :=
        hitsPerMinute_early ip (by rw [times.1, times.2, early])
      rw [zero, minutes_early (by omega) early, Int.ediv_one, UInt32.toNat_zero] at rate
      omega
    · rintro ⟨-, other, late⟩
      have none := trigger_count_eq_zero_iff.mpr other
      have positive : own ≠ 0 := by
        rintro rfl
        rw [UInt32.toNat_zero] at value
        omega
      refine ⟨own, table, by omega, ?_⟩
      rw [hitsPerMinute_late table positive (by omega) (by rw [times.1, times.2]; omega), value, times.1,
        times.2, none, Nat.add_zero]

def someClient : UInt32 := 0xc0000201

def otherClient : UInt32 := 0xc0000202

/-- A test of `CallInOrder`. -/
def callInOrderTest (run : AccessRun IP) (e : IP × ClockReadings) : Bool :=
  decide (run.lastReading ≤ e.2.added) && decide (e.2.added ≤ e.2.checked) &&
    decide (e.2.checked ≤ e.2.recycled) && decide (run.calls + 1 < UInt32.size)

omit [DecidableEq IP] in
theorem callInOrder_of_test (run : AccessRun IP) (e : IP × ClockReadings) (passed : callInOrderTest run e = true) :
    CallInOrder run e := by
  simp only [callInOrderTest, Bool.and_eq_true, decide_eq_true_eq] at passed
  obtain ⟨⟨⟨added, checked⟩, recycled⟩, few⟩ := passed
  exact ⟨added, checked, recycled, few⟩

/-- Three calls in the first minute, a fourth one that recycles, and four after it: the next
call of the first address is its third in the epoch and is counted exactly. -/
theorem call_after_recycle : ∃ run, replay accessStep (.start 60 0)
      [(someClient, readingsAt 2000000000), (otherClient, readingsAt 3000000000),
        (someClient, readingsAt 4000000000), (otherClient, readingsAt 61000000000),
        (someClient, readingsAt 61000000000), (otherClient, readingsAt 62000000000),
        (someClient, readingsAt 63000000000), (otherClient, readingsAt 64000000000)] = some run ∧
    run.trigger = some otherClient ∧ run.epoch.count someClient = 2 ∧
    CountedExactly (run.logAccess someClient (readingsAt 65000000000)) someClient 65000000000 := by
  have reached : Runs accessStep CallInOrder (.start 60 0) _ :=
    Runs.of_guarded_replay accessStep callInOrderTest callInOrder_of_test (.start 60 0)
      [(someClient, readingsAt 2000000000), (otherClient, readingsAt 3000000000),
        (someClient, readingsAt 4000000000), (otherClient, readingsAt 61000000000),
        (someClient, readingsAt 61000000000), (otherClient, readingsAt 62000000000),
        (someClient, readingsAt 63000000000), (otherClient, readingsAt 64000000000)] rfl
  refine ⟨_, rfl, rfl, by decide, ?_⟩
  exact (counted_exactly_iff 60 0 _ reached someClient (readingsAt 65000000000)
    (callInOrder_of_test _ _ rfl)).mpr ⟨by decide, by decide, by decide⟩

/-- A call half a second after the start has the rate 0, and one after a day and two
seconds leaves no entry. -/
theorem calls_uncounted :
    CallInOrder (.start 86400 0) (someClient, readingsAt 500000000) ∧
    ¬ CountedExactly ((AccessRun.start 86400 0).logAccess someClient (readingsAt 500000000)) someClient
      500000000 ∧
    CallInOrder (.start 86400 0) (someClient, readingsAt 86402000000000) ∧
    ¬ CountedExactly ((AccessRun.start 86400 0).logAccess someClient (readingsAt 86402000000000))
      someClient 86402000000000 := by
  refine ⟨⟨by decide, by decide, by decide, by decide⟩, ?_,
    ⟨by decide, by decide, by decide, by decide⟩, ?_⟩
  · rintro ⟨count, -, -, rate⟩
    exact absurd rate (by decide)
  · rintro ⟨count, present, -⟩
    have expired : (AccessRun.start 86400 0 : AccessRun UInt32).svc.expired (readingsAt 86402000000000) :=
      by decide
    simp only [AccessRun.logAccess, logAccess_expired expired] at present
    cases present

end UrlShortener
