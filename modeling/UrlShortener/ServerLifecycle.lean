import UrlShortener.DdosProtection
import UrlShortener.Logic.Transition
import UrlShortener.StaticHandler

/-!
# Starting and stopping the workers

proxygen calls `onServerStart` and `onServerStop` of the one filter and the one factory
once for each worker thread, but each start overwrites the service and the cache of the
one before, and each stop deletes what the last start made. As long as a worker starts
only while no other is running every service is deleted once and a running worker finds
its own (`workers_in_turn`), so a single worker is safe (`single_worker`); a start next
to a running worker leaves a service that is never deleted (`leaked_of_overlap`).
-/

namespace UrlShortener
set_option autoImplicit false
open Transition

/-- A service on the heap, and how often it has been deleted. -/
structure ServiceCell (IP : Type) where
  svc : IPAccessCountService IP
  deletions : Nat := 0

inductive WorkerPhase where
  | notStarted | running | stopped
  deriving DecidableEq, Repr

/-- What the workers `ι` share: the members of `AntiAbuseProtection` and
`MyRequestHandlerFactory` that starting and stopping write. -/
structure SharedServices (ι IP : Type) where
  phase : ι → WorkerPhase
  /-- All services, in the order of their creation. -/
  heap : List (ServiceCell IP)
  /-- The pointer, an index of the heap. -/
  ipAccessCountSvc : Option Nat
  staticFileCache : Option StaticFileCache
  /-- The worker on whose event base the timer runs. -/
  timer : Option ι

/-- No worker has started. -/
def SharedServices.start {ι IP : Type} : SharedServices ι IP := ⟨fun _ => .notStarted, [], none, none, none⟩

inductive WorkerEvent (ι IP : Type) where
  | onServerStart (w : ι) (now : Int)
  | onServerStop (w : ι)
  | onRequest (w : ι) (now : ClockReadings) (msg : HTTPMessage IP)

section

variable {ι IP : Type}

def AntiAbuseProtection.onServerStart (cfg : ReadOnlyAppConfig IP) (now : Int) (s : SharedServices ι IP) :
    SharedServices ι IP :=
  { s with
    heap := s.heap ++ [{ svc := .new cfg.ipRateLimiterSecondsTtl now }]
    ipAccessCountSvc := some s.heap.length }

/-- The pointer keeps its value; a null one is a failed `CHECK`. -/
def AntiAbuseProtection.onServerStop (s : SharedServices ι IP) : Option (SharedServices ι IP) :=
  s.ipAccessCountSvc.map fun p =>
    { s with heap := s.heap.modify p fun cell => { cell with deletions := cell.deletions + 1 } }

def MyRequestHandlerFactory.onServerStart (w : ι) (s : SharedServices ι IP) : SharedServices ι IP :=
  { s with staticFileCache := some fun _ => none, timer := some w }

def MyRequestHandlerFactory.onServerStop (s : SharedServices ι IP) : SharedServices ι IP :=
  { s with staticFileCache := none, timer := none }

/-- What a request does to the service it finds, deleted or not. -/
def AntiAbuseProtection.serve [IPAddress IP] [DecidableEq IP] (cfg : ReadOnlyAppConfig IP)
    (now : ClockReadings) (msg : HTTPMessage IP) (s : SharedServices ι IP) : Option (SharedServices ι IP) :=
  s.ipAccessCountSvc.map fun p =>
    { s with heap := s.heap.modify p fun cell =>
        { cell with svc := (AntiAbuseProtection.onRequest cfg cell.svc now () msg).svc } }

/-- One call. A worker starts once, then takes requests, then stops once. -/
def SharedServices.step [DecidableEq ι] [IPAddress IP] [DecidableEq IP] (cfg : ReadOnlyAppConfig IP)
    (s : SharedServices ι IP) : WorkerEvent ι IP → Option (SharedServices ι IP)
  | .onServerStart w now =>
    if s.phase w = .notStarted then
      some (MyRequestHandlerFactory.onServerStart w (AntiAbuseProtection.onServerStart cfg now
        { s with phase := Function.update s.phase w .running }))
    else none
  | .onServerStop w =>
    if s.phase w = .running then
      (AntiAbuseProtection.onServerStop { s with phase := Function.update s.phase w .stopped }).map
        MyRequestHandlerFactory.onServerStop
    else none
  | .onRequest w now msg =>
    if s.phase w = .running then AntiAbuseProtection.serve cfg now msg s else none

/-- The shared services are usable. -/
structure ServicesSound (s : SharedServices ι IP) : Prop where
  /-- A running worker finds a service that was not deleted, and a cache. -/
  usable : ∀ w, s.phase w = .running →
    ∃ p cell, s.ipAccessCountSvc = some p ∧ s.heap[p]? = some cell ∧ cell.deletions = 0 ∧
      s.staticFileCache ≠ none
  /-- Each service is deleted exactly once, all of them when all workers have stopped. -/
  deletedOnce : (∀ cell ∈ s.heap, cell.deletions ≤ 1) ∧
    ((∀ w, s.phase w = .stopped) → ∀ cell ∈ s.heap, cell.deletions = 1)
  /-- No start has replaced a service with counts in it. -/
  countsKept : ∀ p cell, s.heap[p]? = some cell → cell.deletions = 0 →
    (∃ ip, cell.svc.ipAccessCount ip ≠ none) → s.ipAccessCountSvc = some p

/-- A worker starts only while no other is running. -/
def StartsInTurn (s : SharedServices ι IP) : WorkerEvent ι IP → Prop
  | .onServerStart _ _ => ∀ w, s.phase w ≠ .running
  | _ => True

/-- Between two workers all services have been deleted; while one runs, all but the
last. -/
inductive InTurn (s : SharedServices ι IP) : Prop where
  | idle : (∀ w, s.phase w ≠ .running) → (∀ cell ∈ s.heap, cell.deletions = 1) → InTurn s
  | running {w : ι} {before : List (ServiceCell IP)} {cell : ServiceCell IP} : s.phase w = .running →
      (∀ w', s.phase w' = .running → w' = w) → s.heap = before ++ [cell] →
      s.ipAccessCountSvc = some before.length → cell.deletions = 0 →
      (∀ c ∈ before, c.deletions = 1) → s.staticFileCache ≠ none → InTurn s

namespace InTurn

variable {s s' : SharedServices ι IP}

/-- The services of a system in turn are sound. -/
theorem sound (inv : InTurn s) : ServicesSound s := by
  cases inv with
  | idle none deleted =>
    refine ⟨fun w running => absurd running (none w), ⟨fun cell mem => ?_, fun _ => deleted⟩, ?_⟩
    · rw [deleted cell mem]
    · intro p cell here live
      rw [deleted cell (List.mem_of_getElem? here)] at live
      cases live
  | @running w before cell here only heap pointer live deleted cache =>
    refine ⟨fun _ _ => ⟨before.length, cell, pointer, ?_, live, cache⟩, ⟨fun c mem => ?_, fun stopped => ?_⟩, ?_⟩
    · rw [heap]
      exact List.getElem?_concat_length
    · rw [heap] at mem
      rcases List.mem_append.mp mem with old | new
      · rw [deleted c old]
      · rw [List.mem_singleton.mp new, live]
        exact Nat.zero_le 1
    · rw [stopped w] at here
      cases here
    · intro p c found alive _
      rw [heap] at found
      rcases Nat.lt_or_ge p before.length with inside | last
      · rw [List.getElem?_append_left inside] at found
        rw [deleted c (List.mem_of_getElem? found)] at alive
        cases alive
      · have bound := (List.getElem?_eq_some_iff.mp found).1
        rw [List.length_append, List.length_singleton] at bound
        rw [pointer, show p = before.length by omega]

/-- Changing the last service only. -/
theorem modify_last (before : List (ServiceCell IP)) (cell : ServiceCell IP)
    (f : ServiceCell IP → ServiceCell IP) :
    (before ++ [cell]).modify before.length f = before ++ [f cell] := by
  induction before with
  | nil => rfl
  | cons first before ih => exact congrArg (first :: ·) ih

variable [DecidableEq ι]

/-- After a worker's phase has changed, who runs. -/
theorem running_update {w w' : ι} {phase : WorkerPhase}
    (running : Function.update s.phase w phase w' = .running) :
    (w' = w ∧ phase = .running) ∨ (w' ≠ w ∧ s.phase w' = .running) := by
  by_cases same : w' = w
  · subst same
    rw [Function.update_self] at running
    exact .inl ⟨rfl, running⟩
  · rw [Function.update_of_ne same] at running
    exact .inr ⟨same, running⟩

/-- A worker starts while none is running. -/
theorem started (cfg : ReadOnlyAppConfig IP) (inv : InTurn s) (alone : ∀ w, s.phase w ≠ .running) (w : ι)
    (now : Int) : InTurn (MyRequestHandlerFactory.onServerStart w (AntiAbuseProtection.onServerStart cfg now
      { s with phase := Function.update s.phase w .running })) := by
  cases inv with
  | running here _ _ _ _ _ _ => exact absurd here (alone _)
  | idle _ deleted =>
    refine .running (Function.update_self ..) (fun w' running => ?_) rfl rfl rfl deleted (Option.some_ne_none _)
    rcases running_update running with ⟨same, -⟩ | ⟨-, other⟩
    · exact same
    · exact absurd other (alone w')

/-- The running worker stops. -/
theorem stopped (inv : InTurn s) {w : ι} (running : s.phase w = .running)
    (moved : (AntiAbuseProtection.onServerStop { s with phase := Function.update s.phase w .stopped }).map
      MyRequestHandlerFactory.onServerStop = some s') : InTurn s' := by
  cases inv with
  | idle none _ => exact absurd running (none w)
  | @running w' before cell here only heap pointer live deleted _ =>
    obtain rfl := only w running
    simp only [AntiAbuseProtection.onServerStop, pointer, heap, modify_last, Option.map_some,
      Option.some.injEq] at moved
    subst moved
    refine .idle (fun other running => ?_) (fun c mem => ?_)
    · rcases running_update running with ⟨-, absurd_⟩ | ⟨different, other⟩
      · cases absurd_
      · exact different (only _ other)
    · rcases List.mem_append.mp mem with old | new
      · exact deleted c old
      · rw [List.mem_singleton.mp new, live]

omit [DecidableEq ι] in
/-- The running worker takes a request. -/
theorem served [IPAddress IP] [DecidableEq IP] {cfg : ReadOnlyAppConfig IP} {now : ClockReadings}
    {msg : HTTPMessage IP} (inv : InTurn s) {w : ι} (running : s.phase w = .running)
    (moved : AntiAbuseProtection.serve cfg now msg s = some s') : InTurn s' := by
  cases inv with
  | idle none _ => exact absurd running (none w)
  | running here only heap pointer live deleted cache =>
    simp only [AntiAbuseProtection.serve, pointer, heap, modify_last, Option.map_some,
      Option.some.injEq] at moved
    subst moved
    exact .running here only rfl rfl live deleted cache

variable [IPAddress IP] [DecidableEq IP] {cfg : ReadOnlyAppConfig IP}

/-- **One call.** -/
theorem step {e : WorkerEvent ι IP} (inv : InTurn s) (turn : StartsInTurn s e)
    (moved : s.step cfg e = some s') : InTurn s' := by
  cases e with
  | onServerStart w now =>
    simp only [SharedServices.step, Option.ite_none_right_eq_some, Option.some.injEq] at moved
    obtain ⟨-, rfl⟩ := moved
    exact inv.started cfg turn w now
  | onServerStop w =>
    simp only [SharedServices.step, Option.ite_none_right_eq_some] at moved
    exact inv.stopped moved.1 moved.2
  | onRequest w now msg =>
    simp only [SharedServices.step, Option.ite_none_right_eq_some] at moved
    exact inv.served moved.1 moved.2

end InTurn

variable [DecidableEq ι] [IPAddress IP] [DecidableEq IP]

/-- **The shared services are sound in every run in which the workers run one at a
time.** -/
theorem workers_in_turn (cfg : ReadOnlyAppConfig IP) (s : SharedServices ι IP)
    (run : Runs (SharedServices.step cfg) StartsInTurn .start s) : ServicesSound s := by
  have start : InTurn (.start : SharedServices ι IP) :=
    .idle (fun w running => by cases running) fun cell mem => by cases mem
  exact (run.invariant InTurn start fun _ _ _ inv turn moved => inv.step turn moved).sound

/-- **A single worker is always in turn.** -/
theorem single_worker [Subsingleton ι] (cfg : ReadOnlyAppConfig IP) (s : SharedServices ι IP)
    (run : Reachable (SharedServices.step cfg) .start s) : ServicesSound s := by
  have start : InTurn (.start : SharedServices ι IP) :=
    .idle (fun w running => by cases running) fun cell mem => by cases mem
  refine (run.invariant InTurn start fun a e b inv _ moved => inv.step ?_ moved).sound
  cases e with
  | onServerStart w now =>
    simp only [SharedServices.step, Option.ite_none_right_eq_some] at moved
    intro w' running
    rw [Subsingleton.elim w' w, moved.1] at running
    cases running
  | _ => trivial

/-! ## A start next to a running worker -/

/-- The service is there, was not deleted and is not the current one. -/
def Leaked (p : Nat) (s : SharedServices ι IP) : Prop :=
  ∃ cell current, s.heap[p]? = some cell ∧ cell.deletions = 0 ∧ s.ipAccessCountSvc = some current ∧ p < current

omit [DecidableEq ι] [IPAddress IP] [DecidableEq IP] in
/-- Writing to the current service leaves a leaked one alone. -/
theorem Leaked.modify {p : Nat} {s : SharedServices ι IP} (leaked : Leaked p s)
    (f : Nat → ServiceCell IP → ServiceCell IP) :
    ∃ current cell, s.ipAccessCountSvc = some current ∧ (s.heap.modify current (f current))[p]? = some cell ∧
      cell.deletions = 0 ∧ p < current := by
  obtain ⟨cell, current, here, live, pointer, older⟩ := leaked
  refine ⟨current, cell, pointer, ?_, live, older⟩
  rw [List.getElem?_modify_ne _ _ (Nat.ne_of_gt older)]
  exact here

/-- A leaked service stays leaked. -/
theorem Leaked.step {cfg : ReadOnlyAppConfig IP} {p : Nat} {s s' : SharedServices ι IP}
    {e : WorkerEvent ι IP} (leaked : Leaked p s) (moved : s.step cfg e = some s') : Leaked p s' := by
  cases e with
  | onServerStart w now =>
    simp only [SharedServices.step, Option.ite_none_right_eq_some, Option.some.injEq] at moved
    obtain ⟨-, rfl⟩ := moved
    obtain ⟨cell, current, here, live, -, -⟩ := leaked
    have inside := (List.getElem?_eq_some_iff.mp here).1
    exact ⟨cell, s.heap.length, (List.getElem?_append_left inside).trans here, live, rfl, inside⟩
  | onServerStop w =>
    simp only [SharedServices.step, Option.ite_none_right_eq_some] at moved
    obtain ⟨current, cell, pointer, here, live, older⟩ :=
      leaked.modify fun _ cell => { cell with deletions := cell.deletions + 1 }
    simp only [AntiAbuseProtection.onServerStop, pointer, Option.map_some, Option.some.injEq] at moved
    obtain ⟨-, rfl⟩ := moved
    exact ⟨cell, current, here, live, rfl, older⟩
  | onRequest w now msg =>
    simp only [SharedServices.step, Option.ite_none_right_eq_some] at moved
    obtain ⟨current, cell, pointer, here, live, older⟩ := leaked.modify fun _ cell =>
      { cell with svc := (AntiAbuseProtection.onRequest cfg cell.svc now () msg).svc }
    simp only [AntiAbuseProtection.serve, pointer, Option.map_some, Option.some.injEq] at moved
    obtain ⟨-, rfl⟩ := moved
    exact ⟨cell, current, here, live, rfl, older⟩

/-- **A start next to a running worker leaks its service**: it is never deleted. -/
theorem leaked_of_overlap {cfg : ReadOnlyAppConfig IP} {s s' last : SharedServices ι IP} {w w' : ι} {now : Int}
    (inv : InTurn s) (running : s.phase w = .running)
    (moved : s.step cfg (.onServerStart w' now) = some s')
    (run : Reachable (SharedServices.step cfg) s' last) : ∃ cell ∈ last.heap, cell.deletions = 0 := by
  cases inv with
  | idle none _ => exact absurd running (none w)
  | @running _ before cell _ _ heap _ live _ _ =>
    have leaked : Leaked before.length s' := by
      simp only [SharedServices.step, Option.ite_none_right_eq_some, Option.some.injEq] at moved
      obtain ⟨-, rfl⟩ := moved
      refine ⟨cell, s.heap.length, ?_, live, rfl, ?_⟩
      · simp [MyRequestHandlerFactory.onServerStart, AntiAbuseProtection.onServerStart, heap]
      · rw [heap, List.length_append]
        exact Nat.lt_succ_self _
    obtain ⟨found, _, here, undeleted, -⟩ :=
      run.invariant (Leaked before.length) leaked fun _ _ _ leaked _ moved => leaked.step moved
    exact ⟨found, List.mem_of_getElem? here, undeleted⟩

end

/-! ## Two workers -/

/-- A create request from 127.0.0.1. -/
def localCreate : HTTPMessage UInt32 := ⟨some .post, bytes "/api/v1/create", [], 0x7f000001⟩

/-- A test of `StartsInTurn` for two workers. -/
def startsInTurnTest (s : SharedServices Bool UInt32) : WorkerEvent Bool UInt32 → Bool
  | .onServerStart _ _ => s.phase false != .running && s.phase true != .running
  | _ => true

theorem startsInTurn_of_test (s : SharedServices Bool UInt32) (e : WorkerEvent Bool UInt32)
    (passed : startsInTurnTest s e = true) : StartsInTurn s e := by
  cases e with
  | onServerStart w now =>
    simp only [startsInTurnTest, Bool.and_eq_true, bne_iff_ne, ne_eq] at passed
    intro w'
    cases w' with
    | false => exact passed.1
    | true => exact passed.2
  | _ => trivial

theorem second_worker_after_first : ∃ s, replay (SharedServices.step {}) .start
      [.onServerStart false 0, .onRequest false ⟨1, 1, 1⟩ localCreate, .onServerStop false,
        .onServerStart true 2, .onRequest true ⟨3, 3, 3⟩ localCreate] = some s ∧
    s.heap.map (·.deletions) = [1, 0] ∧ ServicesSound s := by
  have run : Runs (SharedServices.step {}) StartsInTurn .start _ :=
    Runs.of_guarded_replay (SharedServices.step {}) startsInTurnTest startsInTurn_of_test .start
    [.onServerStart false 0, .onRequest false ⟨1, 1, 1⟩ localCreate, .onServerStop false,
      .onServerStart true 2, .onRequest true ⟨3, 3, 3⟩ localCreate] rfl
  exact ⟨_, rfl, rfl, workers_in_turn {} _ run⟩

/-- Two workers at once. The second start discards the count of the first worker's
request; after the first stop the second worker finds a deleted service and no cache;
after the second one that service has been deleted twice and the other never. -/
theorem two_workers_at_once :
    (∃ s, replay (SharedServices.step {}) .start
        [.onServerStart false 0, .onRequest false ⟨1, 1, 1⟩ localCreate, .onServerStart true 2] = some s ∧
      s.heap.map (fun cell => (cell.deletions, cell.svc.ipAccessCount 0x7f000001)) =
        [(0, some 1), (0, none)] ∧ s.ipAccessCountSvc = some 1) ∧
    (∃ s, replay (SharedServices.step ({} : ReadOnlyAppConfig UInt32)) (.start : SharedServices Bool UInt32)
        [.onServerStart false 0, .onServerStart true 2, .onServerStop false] = some s ∧
      s.phase true = .running ∧ s.heap.map (·.deletions) = [0, 1] ∧ s.ipAccessCountSvc = some 1 ∧
      s.staticFileCache = none) ∧
    (∃ s, replay (SharedServices.step ({} : ReadOnlyAppConfig UInt32)) (.start : SharedServices Bool UInt32)
        [.onServerStart false 0, .onServerStart true 2, .onServerStop false, .onServerStop true] = some s ∧
      s.heap.map (·.deletions) = [0, 2]) :=
  ⟨⟨_, rfl, rfl, rfl⟩, ⟨_, rfl, rfl, rfl, rfl, rfl⟩, _, rfl, rfl⟩

end UrlShortener
