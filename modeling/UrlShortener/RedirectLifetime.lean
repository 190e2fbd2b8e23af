import UrlShortener.Logic.Transition
import UrlShortener.UrlRedirectHandler

/-!
# The life of a redirect handler

`onRequest` queues the lookup on the CPU pool and its continuation on the event base,
both with a raw reference to the handler; `requestComplete` and `onError` delete it
whatever is still queued, so a client that aborts during the lookup leaves both to run
on freed memory (`abort_during_lookup`). If the request ends only while no lookup is
under way, nothing runs after the deletion (`redirect_unused_after_delete`); from any
other end the run can go on to a use (`reachesFreedRedirect_of_underway`).
-/

namespace UrlShortener
set_option autoImplicit false
open AtomicStore Transition

/-- What a redirect handler does. -/
inductive RedirectAction where
  /-- The lookup job calls `get_fast` on `buf_` and `short_url_`. -/
  | lookup
  /-- The read of `short_url_` leaves this in `buf_`. -/
  | writeBuf (buf : Bytes)
  | sendWithEOM (r : Response)
  deriving DecidableEq, Repr

/-- An action, and whether the handler had been deleted before it. -/
structure RedirectEntry where
  freed : Bool
  action : RedirectAction
  deriving DecidableEq, Repr

/-- Where the request stands. -/
inductive RedirectStage where
  | notCalled
  /-- The lookup is queued on the CPU pool. -/
  | queuedCpu
  /-- In `get_fast`. -/
  | looking
  /-- The continuation is queued on the event base. -/
  | queuedEvb (ok : Bool)
  | finished

/-- The lookup or its continuation is still to come. -/
def RedirectStage.Underway : RedirectStage → Prop
  | .notCalled => False
  | .queuedCpu => True
  | .looking => True
  | .queuedEvb _ => True
  | .finished => False

/-- `UrlRedirectHandler` and its work on the two executors. -/
structure RedirectHandler where
  shortUrl : Bytes
  buf : Bytes := []
  stage : RedirectStage := .notCalled
  deleted : Bool := false
  /-- Newest first. -/
  log : List RedirectEntry := []

inductive RedirectEvent where
  | onRequest (method : Option HTTPMethod)
  | requestComplete
  | onError
  /-- The CPU pool starts the lookup. -/
  | cpu
  /-- `get_fast` runs on the store `s`, with failure `fail`. -/
  | db (fail : Option RocksFailure) (s : UrlStore)
  /-- The event base runs the continuation. -/
  | evb

namespace RedirectHandler

def record (a : RedirectAction) (h : RedirectHandler) : RedirectHandler :=
  { h with log := ⟨h.deleted, a⟩ :: h.log }

def onRequest (method : Option HTTPMethod) (h : RedirectHandler) : RedirectHandler :=
  if method ≠ some .get then
    { h.record (.sendWithEOM { status := 405, reason := bytes "Method Not Allowed" }) with
      stage := .finished }
  else if h.shortUrl.length = 0 then
    { h.record (.sendWithEOM { status := 400, reason := bytes "Bad Request" }) with stage := .finished }
  else { h with stage := .queuedCpu }

def cpu (h : RedirectHandler) : Option RedirectHandler :=
  match h.stage with
  | .queuedCpu => some { h.record .lookup with stage := .looking }
  | _ => none

def db (fail : Option RocksFailure) (s : UrlStore) (h : RedirectHandler) : Option RedirectHandler :=
  match h.stage with
  | .looking =>
    let (ok, buf) := ((ShortenedUrlsDatabase.getFast h.buf h.shortUrl).exec (fun _ => fail) 0 s).1
    some { h.record (.writeBuf buf) with buf := buf, stage := .queuedEvb ok }
  | _ => none

def evb (h : RedirectHandler) : Option RedirectHandler :=
  match h.stage with
  | .queuedEvb ok =>
    some { h.record (.sendWithEOM (UrlRedirectHandler.respond ok h.buf)) with stage := .finished }
  | _ => none

/-- One step. proxygen calls `onRequest` once and first, and nothing after
`requestComplete` or `onError`, which delete the handler. -/
def step (h : RedirectHandler) : RedirectEvent → Option RedirectHandler
  | .onRequest method =>
    match h.stage with
    | .notCalled => if h.deleted then none else some (h.onRequest method)
    | _ => none
  | .requestComplete => if h.deleted then none else some { h with deleted := true }
  | .onError => if h.deleted then none else some { h with deleted := true }
  | .cpu => h.cpu
  | .db fail s => h.db fail s
  | .evb => h.evb

/-- The responses sent. -/
def responses (h : RedirectHandler) : List Response :=
  h.log.filterMap fun e =>
    match e.action with
    | .sendWithEOM r => some r
    | _ => none

/-- Everything a step can do. -/
inductive Moves (h : RedirectHandler) : RedirectEvent → RedirectHandler → Prop where
  | refused {method : Option HTTPMethod} (r : Response) : h.stage = .notCalled → h.deleted = false →
      Moves h (.onRequest method) { h.record (.sendWithEOM r) with stage := .finished }
  | queued {method : Option HTTPMethod} : h.stage = .notCalled → h.deleted = false →
      Moves h (.onRequest method) { h with stage := .queuedCpu }
  | ended {e : RedirectEvent} : e = .requestComplete ∨ e = .onError → h.deleted = false →
      Moves h e { h with deleted := true }
  | worked {e : RedirectEvent} {a : RedirectAction} {buf : Bytes} {stage : RedirectStage} :
      h.stage.Underway → stage.Underway → (∀ r, a ≠ .sendWithEOM r) →
      Moves h e { h.record a with buf := buf, stage := stage }
  | responded {ok : Bool} : h.stage = .queuedEvb ok →
      Moves h .evb { h.record (.sendWithEOM (UrlRedirectHandler.respond ok h.buf)) with stage := .finished }

section

variable {h h' : RedirectHandler} {e : RedirectEvent}

theorem onRequest_moves {method : Option HTTPMethod} (first : h.stage = .notCalled)
    (live : h.deleted = false) : Moves h (.onRequest method) (h.onRequest method) := by
  unfold onRequest
  split
  · exact .refused _ first live
  · split
    · exact .refused _ first live
    · exact .queued first live

theorem cpu_moves (moved : h.cpu = some h') : Moves h .cpu h' := by
  unfold cpu at moved
  split at moved <;> rename_i stage
  · cases moved
    refine .worked ?_ trivial (fun r same => ?_)
    · rw [stage]
      trivial
    · cases same
  · cases moved

theorem db_moves {fail : Option RocksFailure} {s : UrlStore} (moved : h.db fail s = some h') :
    Moves h (.db fail s) h' := by
  unfold db at moved
  split at moved <;> rename_i stage
  · cases moved
    refine .worked ?_ trivial (fun r same => ?_)
    · rw [stage]
      trivial
    · cases same
  · cases moved

/-- **Everything a step can do.** -/
theorem step_cases (moved : h.step e = some h') : Moves h e h' := by
  cases e with
  | onRequest method =>
    simp only [step] at moved
    split at moved
    · rename_i first
      simp only [Option.ite_none_left_eq_some, Option.some.injEq] at moved
      obtain ⟨live, rfl⟩ := moved
      exact onRequest_moves first (by simpa using live)
    · cases moved
  | requestComplete =>
    simp only [step, Option.ite_none_left_eq_some, Option.some.injEq] at moved
    obtain ⟨live, rfl⟩ := moved
    exact .ended (.inl rfl) (by simpa using live)
  | onError =>
    simp only [step, Option.ite_none_left_eq_some, Option.some.injEq] at moved
    obtain ⟨live, rfl⟩ := moved
    exact .ended (.inr rfl) (by simpa using live)
  | cpu => exact cpu_moves moved
  | db fail s => exact db_moves moved
  | evb =>
    simp only [step, evb] at moved
    split at moved
    · rename_i ok stage
      cases moved
      exact .responded stage
    · cases moved

end

end RedirectHandler

/-- The events of a lookup that nothing disturbs. -/
def lookupEvents (fail : Option RocksFailure) (store : UrlStore) : List RedirectEvent :=
  [.onRequest (some .get), .cpu, .db fail store, .evb]

/-- An undisturbed handler answers as the program `UrlRedirectHandler.onRequest`. -/
theorem lookup_refines {shortUrl : Bytes} (nonempty : shortUrl ≠ []) (fail : Option RocksFailure)
    (store : UrlStore) : ∃ h,
      replay RedirectHandler.step { shortUrl } (lookupEvents fail store) = some h ∧ h.responses =
        [((UrlRedirectHandler.onRequest shortUrl (some .get)).exec (fun _ => fail) 0 store).1] := by
  have length : shortUrl.length ≠ 0 := fun h => nonempty (List.eq_nil_of_length_eq_zero h)
  have first : RedirectHandler.step { shortUrl } (.onRequest (some .get)) =
      some { shortUrl, stage := .queuedCpu } := by
    simp [RedirectHandler.step, RedirectHandler.onRequest, length]
  have answers : ((UrlRedirectHandler.onRequest shortUrl (some .get)).exec (fun _ => fail) 0 store).1 =
      UrlRedirectHandler.respond ((ShortenedUrlsDatabase.getFast [] shortUrl).exec (fun _ => fail) 0 store).1.1
        ((ShortenedUrlsDatabase.getFast [] shortUrl).exec (fun _ => fail) 0 store).1.2 := by
    simp only [UrlRedirectHandler.onRequest, if_neg length, ShortenedUrlsDatabase.getFast]
    cases failure : fail with
    | some e => simp
    | none => cases held : store shortUrl <;> simp [held]
  rw [answers]
  exact ⟨_, by rw [lookupEvents, replay, first]; rfl, rfl⟩

/-! ## At most one response -/

/-- No response is sent before the end, and one at most then. -/
structure RedirectAnswered (h : RedirectHandler) : Prop where
  before : h.stage ≠ .finished → h.responses = []
  once : h.responses.length ≤ 1

namespace RedirectAnswered

variable {h h' : RedirectHandler} {e : RedirectEvent}

/-- The response at the end. -/
theorem answered (inv : RedirectAnswered h) (unfinished : h.stage ≠ .finished) (r : Response) :
    RedirectAnswered { h.record (.sendWithEOM r) with stage := .finished } where
  before := fun unfinished => absurd rfl unfinished
  once := by
    have first : (h.record (.sendWithEOM r)).responses = [r] := by
      rw [show (h.record (.sendWithEOM r)).responses = r :: h.responses from rfl, inv.before unfinished]
    change (h.record (.sendWithEOM r)).responses.length ≤ 1
    rw [first]
    exact Nat.le_refl 1

theorem step (inv : RedirectAnswered h) (moved : h.step e = some h') : RedirectAnswered h' := by
  cases RedirectHandler.step_cases moved with
  | refused r first _ => exact inv.answered (fun last => by rw [first] at last; cases last) r
  | queued first _ =>
    refine ⟨fun _ => inv.before fun last => ?_, inv.once⟩
    rw [first] at last
    cases last
  | ended _ _ => exact ⟨inv.before, inv.once⟩
  | @worked _ a buf stage under _ silent =>
    have same : (h.record a).responses = h.responses := by
      cases a with
      | sendWithEOM r => exact absurd rfl (silent r)
      | lookup | writeBuf _ => rfl
    have none : h.responses = [] := by
      refine inv.before fun last => ?_
      rw [last] at under
      exact under
    refine ⟨fun _ => same.trans none, ?_⟩
    change (h.record a).responses.length ≤ 1
    rw [same]
    exact inv.once
  | responded stage => exact inv.answered (fun last => by rw [stage] at last; cases last) _

end RedirectAnswered

/-! ## Nothing runs after the deletion -/

/-- The request ends only while no lookup is under way. -/
def EndsIdle (h : RedirectHandler) (e : RedirectEvent) : Prop :=
  e = .requestComplete ∨ e = .onError → ¬ h.stage.Underway

/-- Nothing was done on the deleted handler, and a deleted handler has no lookup under
way. -/
structure RedirectLife (h : RedirectHandler) : Prop where
  alive : ∀ e ∈ h.log, e.freed = false
  idle : h.deleted = true → ¬ h.stage.Underway

namespace RedirectLife

variable {h h' : RedirectHandler} {e : RedirectEvent}

/-- A live handler records actions on a live handler. -/
theorem record_alive (inv : RedirectLife h) (live : h.deleted = false) (a : RedirectAction) :
    ∀ e ∈ (h.record a).log, e.freed = false := by
  intro e mem
  rcases List.mem_cons.mp mem with rfl | old
  · exact live
  · exact inv.alive e old

/-- **One step.** -/
theorem step (inv : RedirectLife h) (ends : EndsIdle h e) (moved : h.step e = some h') :
    RedirectLife h' := by
  have live_of (under : h.stage.Underway) : h.deleted = false := by
    by_contra dead
    exact inv.idle (by simpa using dead) under
  cases RedirectHandler.step_cases moved with
  | refused r _ live => exact ⟨inv.record_alive live _, fun _ => id⟩
  | queued _ live =>
    refine ⟨inv.alive, fun dead => ?_⟩
    rw [show h.deleted = true from dead] at live
    cases live
  | ended last _ => exact ⟨inv.alive, fun _ => ends last⟩
  | worked under _ _ =>
    have live := live_of under
    refine ⟨inv.record_alive live _, fun dead => ?_⟩
    rw [show h.deleted = true from dead] at live
    cases live
  | responded stage =>
    have under : h.stage.Underway := by
      rw [stage]
      trivial
    exact ⟨inv.record_alive (live_of under) _, fun _ => id⟩

end RedirectLife

/-- **No job or continuation on a deleted handler, and at most one response, if every
request ends idle.** -/
theorem redirect_unused_after_delete (shortUrl : Bytes) (h : RedirectHandler)
    (run : Runs RedirectHandler.step EndsIdle { shortUrl } h) :
    (∀ e ∈ h.log, e.freed = false) ∧ h.responses.length ≤ 1 := by
  have life : RedirectLife h := by
    refine run.invariant RedirectLife ⟨fun e mem => ?_, fun deleted => ?_⟩
      fun _ _ _ inv ends moved => inv.step ends moved
    · cases mem
    · cases deleted
  have answered : RedirectAnswered h :=
    run.invariant RedirectAnswered ⟨fun _ => rfl, Nat.zero_le 1⟩ fun _ _ _ inv _ moved => inv.step moved
  exact ⟨life.alive, answered.once⟩

theorem redirect_then_complete : ∃ h, replay RedirectHandler.step { shortUrl := bytes "C3Cs6Yf" }
      (lookupEvents none (fun _ => none) ++ [.requestComplete]) = some h ∧
    h.deleted = true ∧ (∀ e ∈ h.log, e.freed = false) ∧ h.responses.length ≤ 1 := by
  have goesOn : ∀ e ∈ lookupEvents none fun _ => none, ∀ h, EndsIdle h e := by
    intro e mem h
    rintro (rfl | rfl) <;> simp [lookupEvents] at mem
  have run := Runs.of_replay RedirectHandler.step { shortUrl := bytes "C3Cs6Yf" }
    (lookupEvents none fun _ => none) rfl goesOn
  have ended := run.snoc (e := .requestComplete) (fun _ => id) rfl
  exact ⟨_, rfl, rfl, redirect_unused_after_delete (bytes "C3Cs6Yf") _ ended⟩

/-- The client aborts before the lookup has run: the job reads `short_url_`, writes
`buf_` and responds on freed memory. -/
theorem abort_during_lookup : ∃ h,
    replay RedirectHandler.step { shortUrl := bytes "C3Cs6Yf" }
      [.onRequest (some .get), .onError, .cpu, .db none fun _ => none, .evb] = some h ∧
    ⟨true, .lookup⟩ ∈ h.log ∧ ⟨true, .writeBuf []⟩ ∈ h.log ∧
    ⟨true, .sendWithEOM (UrlRedirectHandler.respond false [])⟩ ∈ h.log :=
  ⟨_, rfl, by decide⟩

/-! ## Any other end leads to a use -/

/-- **A handler deleted while its lookup is under way is used in the next step.** -/
theorem reachesFreedRedirect_of_underway {h : RedirectHandler} (deleted : h.deleted = true)
    (under : h.stage.Underway) : ∃ e h', h.step e = some h' ∧ ∃ entry ∈ h'.log, entry.freed = true := by
  have used (e : RedirectEvent) (a : RedirectAction) {h' : RedirectHandler} (moved : h.step e = some h')
      (log : h'.log = (h.record a).log) : ∃ e h', h.step e = some h' ∧ ∃ entry ∈ h'.log, entry.freed = true := by
    refine ⟨e, h', moved, ⟨h.deleted, a⟩, ?_, deleted⟩
    rw [log]
    exact List.mem_cons_self
  cases stage : h.stage with
  | notCalled | finished =>
    rw [stage] at under
    exact under.elim
  | queuedCpu =>
    have moved := show h.step .cpu = h.cpu from rfl
    simp only [RedirectHandler.cpu, stage] at moved
    exact used .cpu .lookup moved rfl
  | looking =>
    have moved := show h.step (.db none fun _ => none) = h.db none fun _ => none from rfl
    simp only [RedirectHandler.db, stage] at moved
    exact used _ (.writeBuf _) moved rfl
  | queuedEvb ok =>
    have moved := show h.step .evb = h.evb from rfl
    simp only [RedirectHandler.evb, stage] at moved
    exact used .evb _ moved rfl

end UrlShortener
