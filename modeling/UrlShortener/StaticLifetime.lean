import UrlShortener.StaticFlow

/-!
# The life of a static handler

`check_for_completion` deletes a finished handler unless `read_file_scheduled_` is set.
The flag covers the first reader up to its last callback (`FirstReader`), but a resumed
reader is not under it, so a request that ends then deletes the handler under a queued
job (`abort_while_resumed`). If a request ends only while the flag is set or nothing is
outstanding, no deletion leaves a reader or a callback behind
(`static_outlives_readers`); from any other end one does (`leftBehind_of_end`). With the
readers marked by what started them (`Origins`) the same condition is one on the order of
the events: no request ends while a reader that a resume started is outstanding
(`endsCovered_iff_endsInTurn`).
-/

namespace UrlShortener
set_option autoImplicit false
open Transition

variable {IP : Type}

/-- No reader job is queued or running and no callback is posted. -/
def StaticHandler.Settled (h : StaticHandler IP) : Prop := h.readers = [] ∧ h.posted = []

/-- The request ends only while the flag is set or nothing is outstanding. -/
def EndsCovered (h : StaticHandler IP) (e : StaticEvent IP) : Prop :=
  match e with
  | .requestComplete => h.readFileScheduled = true ∨ h.Settled
  | .onError => h.readFileScheduled = true ∨ h.Settled
  | _ => True

/-- The first reader is active, or has left its last callback behind, the last of all. -/
inductive FirstReader (readers : List Reader) (posted : List StaticCallback) : Prop where
  | active {r : Reader} : readers = [r] → .readerDone ∉ posted → FirstReader readers posted
  | done {before : List StaticCallback} : readers = [] → posted = before ++ [.readerDone] →
      .readerDone ∉ before → FirstReader readers posted

theorem FirstReader.outstanding {readers : List Reader} {posted : List StaticCallback}
    (first : FirstReader readers posted) : ¬ (readers = [] ∧ posted = []) := by
  rintro ⟨idle, empty⟩
  cases first with
  | active here _ =>
    rw [idle] at here
    cases here
  | @done before _ last _ =>
    rw [empty] at last
    cases before <;> cases last

/-- The flag stands for the first reader: while it is set nothing else is outstanding. -/
structure FlagCovers (h : StaticHandler IP) : Prop where
  uncalled : h.request = none → h.Settled ∧ h.file = none
  sane : .posting .readerDone ∉ h.readers
  flagged : h.readFileScheduled = true → FirstReader h.readers h.posted

namespace FlagCovers

variable {files : Bytes → Option Bytes} {h h' : StaticHandler IP}

theorem start : FlagCovers ({} : StaticHandler IP) where
  uncalled := fun _ => ⟨⟨rfl, rfl⟩, rfl⟩
  sane := fun mem => by cases mem
  flagged := fun flag => by cases flag

/-- A step that starts no reader, moves none and runs no callback. -/
theorem same (inv : FlagCovers h) (request : h'.request = h.request) (file : h'.file = h.file)
    (readers : h'.readers = h.readers) (posted : h'.posted = h.posted)
    (flag : h'.readFileScheduled = h.readFileScheduled) : FlagCovers h' where
  uncalled := by
    unfold StaticHandler.Settled
    rw [request, file, readers, posted]
    exact inv.uncalled
  sane := readers ▸ inv.sane
  flagged := by
    rw [flag, readers, posted]
    exact inv.flagged

/-- A handler with something outstanding has been called. -/
theorem called (inv : FlagCovers h) (unsettled : ¬ h.Settled) : h.request ≠ none :=
  fun none => unsettled (inv.uncalled none).1

/-- The request comes. -/
theorem onRequest (inv : FlagCovers h) (first : h.request = none) (docRoot : Bytes) (cache : StaticFileCache)
    (request : HTTPMessage IP) :
    FlagCovers ({ h with request := some request }.onRequest files docRoot cache request) := by
  obtain ⟨⟨idle, empty⟩, shut⟩ := inv.uncalled first
  rcases StaticHandler.onRequest_cases files docRoot cache request { h with request := some request } with
    ⟨r, eq, -⟩ | ⟨path, content, -, -, -, eq⟩ <;> rw [eq]
  · exact ⟨fun none => absurd none (Option.some_ne_none _), inv.sane, inv.flagged⟩
  · refine ⟨fun none => absurd none (Option.some_ne_none _), ?_, fun _ => ?_⟩
    · rw [idle]
      intro mem
      cases List.mem_singleton.mp mem
    · refine .active (r := .loopHead) ?_ ?_
      · rw [idle]
        rfl
      · rw [empty]
        exact List.not_mem_nil

/-- The client resumes. -/
theorem resumed (inv : FlagCovers h) : FlagCovers h.onEgressResumed := by
  rw [StaticHandler.onEgressResumed_eq]
  by_cases due : h.readFileScheduled = false ∧ h.file.isSome
  · rw [if_pos due]
    refine ⟨fun none => ?_, ?_, fun set => ?_⟩
    · have shut := (inv.uncalled none).2
      rw [shut] at due
      cases due.2
    · intro mem
      rcases List.mem_append.mp mem with old | new
      · exact inv.sane old
      · cases List.mem_singleton.mp new
    · rw [show h.readFileScheduled = true from set] at due
      cases due.1
  · rw [if_neg due]
    exact inv.same rfl rfl rfl rfl rfl

/-- What a step of a job leaves alone. -/
theorem reads_frame {r : Reader} {next : Option Reader} (reads : StaticHandler.Reads h r next h') :
    h'.request = h.request ∧ h'.readFileScheduled = h.readFileScheduled ∧ h'.finished = h.finished ∧
      h'.deleted = h.deleted := by
  cases reads <;> exact ⟨rfl, rfl, rfl, rfl⟩

/-- A reader goes on. -/
theorem reader (inv : FlagCovers h) {k : Nat} {rc : Option Nat} (moved : h.runReader k rc = some h') :
    FlagCovers h' := by
  obtain ⟨r, next, h'', job, went, rfl⟩ := StaticHandler.runReader_eq moved
  have reads := StaticHandler.readFile_cases went
  have called : h.request ≠ none := by
    refine inv.called ?_
    rintro ⟨idle, -⟩
    rw [idle] at job
    cases job
  obtain ⟨request, flag, -, -⟩ := reads_frame reads
  refine ⟨fun none => absurd (request.symm.trans none) called, fun mem => ?_, fun set => ?_⟩
  · cases next with
    | none => exact inv.sane (List.mem_of_mem_eraseIdx mem)
    | some r' =>
      rcases List.mem_or_eq_of_mem_set mem with old | new
      · exact inv.sane old
      · exact reads.inLoop (congrArg some new.symm)
  · cases inv.flagged (flag.symm.trans set) with
    | done gone _ _ =>
      rw [gone] at job
      cases job
    | active here last =>
      obtain ⟨rfl, rfl⟩ : k = 0 ∧ r = _ := by
        rw [here] at job
        cases k with
        | zero => exact ⟨rfl, (Option.some.inj job).symm⟩
        | succ k => cases job
      rw [here]
      cases reads with
      | enters _ | ends | stops _ | chunk _ _ _ => exact .active rfl last
      | @posts cb r' _ =>
        refine .active rfl fun mem => ?_
        rcases List.mem_append.mp mem with old | new
        · exact last old
        · refine inv.sane ?_
          rw [here, List.mem_singleton.mp new]
          exact List.mem_singleton_self _
      | leaves => exact .done rfl rfl last

/-- A handler with a callback posted has been called. -/
theorem called_of_posted (inv : FlagCovers h) {cb : StaticCallback} {rest : List StaticCallback}
    (posted : h.posted = cb :: rest) : h.request ≠ none := by
  refine inv.called ?_
  rintro ⟨-, empty⟩
  rw [posted] at empty
  cases empty

/-- A callback that is not the last one is run. -/
theorem shown (inv : FlagCovers h) {cb : StaticCallback} {rest : List StaticCallback}
    (posted : h.posted = cb :: rest) (goesOn : cb ≠ .readerDone) (downstream : List Egress) :
    FlagCovers { h with posted := rest, downstream := downstream } := by
  refine ⟨fun none => absurd none (inv.called_of_posted posted), inv.sane, fun set => ?_⟩
  cases inv.flagged set with
  | active here last =>
    rw [posted] at last
    exact .active here fun mem => last (List.mem_cons_of_mem _ mem)
  | @done before gone last once =>
    rw [posted] at last
    cases before with
    | nil =>
      cases last
      exact absurd rfl goesOn
    | cons first before =>
      cases last
      exact .done gone rfl fun mem => once (List.mem_cons_of_mem _ mem)

/-- Under the flag the first reader's last callback leaves nothing behind. -/
theorem settled_of_readerDone (inv : FlagCovers h) (set : h.readFileScheduled = true)
    {rest : List StaticCallback} (posted : h.posted = .readerDone :: rest) : h.readers = [] ∧ rest = [] := by
  cases inv.flagged set with
  | active _ last =>
    rw [posted] at last
    exact absurd List.mem_cons_self last
  | @done before gone last once =>
    rw [posted] at last
    cases before with
    | nil =>
      cases last
      exact ⟨gone, rfl⟩
    | cons first before =>
      cases last
      exact absurd List.mem_cons_self once

/-- The event loop runs a callback. -/
theorem callback (inv : FlagCovers h) {cache cache' : StaticFileCache}
    (moved : h.runCallback cache = some (cache', h')) : FlagCovers h' := by
  cases StaticHandler.runCallback_cases moved with
  | abort posted | eom posted | chunk posted _ => exact inv.shown posted (fun same => by cases same) _
  | readerDone posted =>
    refine ⟨fun none => absurd none (inv.called_of_posted posted), ?_, fun set => by cases set⟩
    split
    · intro mem
      rcases List.mem_append.mp mem with old | new
      · exact inv.sane old
      · cases List.mem_singleton.mp new
    · exact inv.sane

/-- **One step**, whenever the request ends. -/
theorem step (inv : FlagCovers h) {docRoot : Bytes} {cache cache' : StaticFileCache} {e : StaticEvent IP}
    (moved : h.step files docRoot cache e = some (cache', h')) : FlagCovers h' := by
  cases StaticHandler.step_cases moved with
  | asked _ first => exact inv.onRequest first docRoot cache _
  | paused _ => exact inv.same rfl rfl rfl rfl rfl
  | resumed _ => exact inv.resumed
  | ended _ _ =>
    rw [StaticHandler.finish_deletes]
    exact inv.same rfl rfl rfl rfl rfl
  | reader went => exact inv.reader went
  | callback went => exact inv.callback went

end FlagCovers

/-- An ended request is covered by the flag, and a deleted handler has nothing outstanding. -/
structure Outlives (h : StaticHandler IP) : Prop where
  covers : FlagCovers h
  ended : h.finished = true → h.deleted = false → h.readFileScheduled = true
  deleted : h.deleted = true → h.Settled ∧ h.finished = true

namespace Outlives

variable {files : Bytes → Option Bytes} {h h' : StaticHandler IP}

theorem start : Outlives ({} : StaticHandler IP) where
  covers := .start
  ended := fun finished => by cases finished
  deleted := fun deleted => by cases deleted

/-- A handler with something outstanding has not been deleted. -/
theorem live (inv : Outlives h) (unsettled : ¬ h.Settled) : h.deleted = false := by
  by_contra dead
  exact unsettled (inv.deleted (by simpa using dead)).1

theorem live_of_running (inv : Outlives h) (running : h.finished = false) : h.deleted = false := by
  by_contra dead
  have finished := (inv.deleted (by simpa using dead)).2
  rw [running] at finished
  cases finished

/-- A handler that is running after the step. -/
theorem of_running (covers : FlagCovers h') (running : h'.finished = false) (live : h'.deleted = false) :
    Outlives h' where
  covers := covers
  ended := fun finished => by
    rw [running] at finished
    cases finished
  deleted := fun dead => by
    rw [live] at dead
    cases dead

/-- A step of an undeleted handler that does not end the request. -/
theorem going (inv : Outlives h) (covers : FlagCovers h') (flag : h'.readFileScheduled = h.readFileScheduled)
    (finished : h'.finished = h.finished) (live : h.deleted = false) (live' : h'.deleted = h.deleted) :
    Outlives h' where
  covers := covers
  ended := by
    rw [finished, live', flag]
    exact inv.ended
  deleted := fun dead => by
    rw [live', live] at dead
    cases dead

/-- The request comes. -/
theorem onRequest (inv : Outlives h) (running : h.finished = false) (first : h.request = none)
    (docRoot : Bytes) (cache : StaticFileCache) (request : HTTPMessage IP) :
    Outlives ({ h with request := some request }.onRequest files docRoot cache request) := by
  have covers : FlagCovers ({ h with request := some request }.onRequest files docRoot cache request) :=
    inv.covers.onRequest first docRoot cache request
  have live := inv.live_of_running running
  refine of_running covers ?_ ?_ <;>
    rcases StaticHandler.onRequest_cases files docRoot cache request { h with request := some request } with
      ⟨r, eq, -⟩ | ⟨path, content, -, -, -, eq⟩ <;> rw [eq]
  · exact running
  · exact running
  · exact live
  · exact live

/-- The request ends. -/
theorem finish (inv : Outlives h) (running : h.finished = false)
    (covered : h.readFileScheduled = true ∨ h.Settled) : Outlives h.finish := by
  have live := inv.live_of_running running
  rw [StaticHandler.finish_deletes, live, Bool.false_or]
  refine ⟨inv.covers.same rfl rfl rfl rfl rfl, fun _ kept => ?_, fun dead => ?_⟩
  · simpa using kept
  · have unset : h.readFileScheduled = false := by simpa using dead
    refine ⟨covered.resolve_left ?_, rfl⟩
    rw [unset]
    decide

/-- A reader goes on. -/
theorem reader (inv : Outlives h) {k : Nat} {rc : Option Nat} (moved : h.runReader k rc = some h') :
    Outlives h' := by
  have covers := inv.covers.reader moved
  obtain ⟨r, next, h'', job, went, rfl⟩ := StaticHandler.runReader_eq moved
  have live : h.deleted = false := by
    refine inv.live ?_
    rintro ⟨idle, -⟩
    rw [idle] at job
    cases job
  obtain ⟨-, flag, finished, deleted⟩ := FlagCovers.reads_frame (StaticHandler.readFile_cases went)
  exact inv.going covers flag finished live deleted

/-- A reader's last callback is run. -/
theorem readerDone (inv : Outlives h) {rest : List StaticCallback} (posted : h.posted = .readerDone :: rest)
    (live : h.deleted = false) {cache cache' : StaticFileCache}
    (moved : h.runCallback cache = some (cache', h')) : Outlives h' := by
  have covers := inv.covers.callback moved
  rw [StaticHandler.readerDone_eq posted] at moved
  cases moved
  refine ⟨covers, fun finished kept => ?_, fun dead => ?_⟩
  · rw [show h.finished = true from finished, Bool.or_true] at kept
    cases kept
  · have finished : h.finished = true := by
      rw [live, Bool.false_or] at dead
      exact dead
    -- the flag was still set, so this is the first reader
    obtain ⟨gone, rfl⟩ := inv.covers.settled_of_readerDone (inv.ended finished live) posted
    refine ⟨⟨?_, rfl⟩, finished⟩
    simp [finished, gone]

/-- The event loop runs a callback. -/
theorem callback (inv : Outlives h) {cache cache' : StaticFileCache}
    (moved : h.runCallback cache = some (cache', h')) : Outlives h' := by
  have covers := inv.covers.callback moved
  have live {cb : StaticCallback} {rest : List StaticCallback} (posted : h.posted = cb :: rest) :
      h.deleted = false := by
    apply inv.live
    rintro ⟨-, empty⟩
    rw [posted] at empty
    cases empty
  cases StaticHandler.runCallback_cases moved with
  | abort posted | eom posted | chunk posted _ => exact inv.going covers rfl rfl (live posted) rfl
  | readerDone posted => exact inv.readerDone posted (live posted) moved

/-- **One step.** -/
theorem step (inv : Outlives h) {docRoot : Bytes} {cache cache' : StaticFileCache} {e : StaticEvent IP}
    (ends : EndsCovered h e) (moved : h.step files docRoot cache e = some (cache', h')) : Outlives h' := by
  have covers := inv.covers.step moved
  cases StaticHandler.step_cases moved with
  | asked running first => exact inv.onRequest running first docRoot cache _
  | paused running => exact inv.going covers rfl rfl (inv.live_of_running running) rfl
  | resumed running =>
    rw [StaticHandler.onEgressResumed_eq] at covers ⊢
    exact inv.going covers rfl rfl (inv.live_of_running running) rfl
  | ended last running => rcases last with rfl | rfl <;> exact inv.finish running ends
  | reader went => exact inv.reader went
  | callback went => exact inv.callback went

end Outlives

/-- **A handler outlives its readers, if its request ends only while the flag is set or
nothing is outstanding.** -/
theorem static_outlives_readers (files : Bytes → Option Bytes) (docRoot : Bytes) (h : StaticHandler IP)
    (run : Runs (StaticHandler.flowStep files docRoot) (fun h e => EndsCovered h e.2)
      ({} : StaticHandler IP) h) : h.deleted = true → h.readers = [] ∧ h.posted = [] := by
  have inv : Outlives h := by
    refine run.invariant Outlives Outlives.start fun a e b inv ends moved => ?_
    obtain ⟨⟨cache', b'⟩, went, same⟩ := Option.map_eq_some_iff.mp moved
    cases same
    exact inv.step ends went
  exact fun dead => (inv.deleted dead).1

/-- A test of `EndsCovered`. -/
def endsCoveredTest (h : StaticHandler IP) : StaticEvent IP → Bool
  | .requestComplete => h.readFileScheduled || h.readers.isEmpty && h.posted.isEmpty
  | .onError => h.readFileScheduled || h.readers.isEmpty && h.posted.isEmpty
  | _ => true

theorem endsCovered_of_test (h : StaticHandler IP) (e : StaticEvent IP)
    (passed : endsCoveredTest h e = true) : EndsCovered h e := by
  cases e with
  | requestComplete | onError =>
    simpa [endsCoveredTest, EndsCovered, StaticHandler.Settled] using passed
  | _ => trivial

/-- A client that aborts while the first reader runs. -/
theorem abort_while_flagged : ∃ h, replay (StaticHandler.flowStep oneFile (bytes "/srv")) ({} : StaticHandler Unit)
      ([.onRequest getFile, .onError, .reader 0 none, .reader 0 none, .callback].map
        fun e => (fun _ => none, e)) = some h ∧
    h.deleted = true ∧ (h.deleted = true → h.readers = [] ∧ h.posted = []) := by
  have run : Runs (StaticHandler.flowStep oneFile (bytes "/srv")) (fun h e => EndsCovered h e.2)
      {} _ := Runs.of_guarded_replay (StaticHandler.flowStep oneFile (bytes "/srv"))
    (fun h e => endsCoveredTest h e.2) (fun h e => endsCovered_of_test h e.2) ({} : StaticHandler Unit)
    ([.onRequest getFile, .onError, .reader 0 none, .reader 0 none, .callback].map
      fun e => (fun _ => none, e)) rfl
  exact ⟨_, rfl, rfl, static_outlives_readers oneFile (bytes "/srv") _ run⟩

/-- A client that aborts after a resume deletes the handler under its queued reader,
which then posts to it. -/
theorem abort_while_resumed :
    (∃ h, replay (StaticHandler.flowStep oneFile (bytes "/srv")) {}
        (pausedAtOnce ++ [(fun _ => none, .onError)]) = some h ∧
      h.deleted = true ∧ h.readers = [.loopHead]) ∧
    ∃ h, replay (StaticHandler.flowStep oneFile (bytes "/srv")) {}
        (pausedAtOnce ++ [.onError, .reader 0 none, .reader 0 none].map fun e => (fun _ => none, e)) = some h ∧
      h.deleted = true ∧ h.posted = [.readerDone] :=
  ⟨⟨_, rfl, rfl, rfl⟩, _, rfl, rfl, rfl⟩

/-- **From any other end the handler is deleted with something outstanding.** -/
theorem leftBehind_of_end {h : StaticHandler IP} {e : StaticEvent IP} (running : h.finished = false)
    (last : e = .requestComplete ∨ e = .onError) (uncovered : ¬ EndsCovered h e)
    (files : Bytes → Option Bytes) (docRoot : Bytes) (cache : StaticFileCache) :
    ∃ h', h.flowStep files docRoot (cache, e) = some h' ∧ h'.deleted = true ∧ ¬ h'.Settled := by
  have ends : h.flowStep files docRoot (cache, e) = some h.finish := by
    rcases last with rfl | rfl <;> simp [StaticHandler.flowStep, StaticHandler.step, running]
  have open_ : ¬ (h.readFileScheduled = true ∨ h.Settled) := by
    rcases last with rfl | rfl <;> exact uncovered
  rw [not_or] at open_
  refine ⟨_, ends, ?_, ?_⟩
  · simp [StaticHandler.finish_deletes, open_.1]
  · rw [StaticHandler.finish_deletes]
    exact open_.2

/-! ## Who started the readers -/

/-- What started a reader: the request, or a resume (the client's, or a last callback's). -/
inductive Origin where
  | request
  | resume
  deriving DecidableEq, Repr

/-- The origins of the readers, and of the readers that posted the callbacks. -/
structure Origins where
  readers : List Origin := []
  posted : List Origin := []

namespace Origins

/-- The origins when the readers of `h'` are those of `h` and perhaps one that `origin` started. -/
def started (o : Origins) (h h' : StaticHandler IP) (origin : Origin) : List Origin :=
  if h.readers.length < h'.readers.length then o.readers ++ [origin] else o.readers

/-- The origins after an event that leads from `h` to `h'`. -/
def after (o : Origins) (h h' : StaticHandler IP) : StaticEvent IP → Origins
  | .onRequest _ => { o with readers := o.started h h' .request }
  | .onEgressResumed => { o with readers := o.started h h' .resume }
  | .reader k _ =>
    { readers := if h'.readers.length < h.readers.length then o.readers.eraseIdx k else o.readers
      posted := if h.posted.length < h'.posted.length then o.posted ++ o.readers[k]?.toList else o.posted }
  | .callback => { readers := o.started h h' .resume, posted := o.posted.tail }
  | .onEgressPaused => o
  | .requestComplete => o
  | .onError => o

/-- Every origin is the one that the flag tells. -/
def Told (o : Origins) (h : StaticHandler IP) : Prop :=
  let origin : Origin := if h.readFileScheduled then .request else .resume
  o.readers = .replicate h.readers.length origin ∧ o.posted = .replicate h.posted.length origin

end Origins

/-- A step of a handler, with the origins of its readers beside it. -/
def StaticHandler.originStep (files : Bytes → Option Bytes) (docRoot : Bytes) (s : StaticHandler IP × Origins)
    (e : StaticFileCache × StaticEvent IP) : Option (StaticHandler IP × Origins) :=
  (s.1.flowStep files docRoot e).map fun h' => (h', s.2.after s.1 h' e.2)

/-- The request does not end while a reader that a resume started is active or has a callback
posted. -/
def EndsInTurn (s : StaticHandler IP × Origins) (e : StaticEvent IP) : Prop :=
  e = .requestComplete ∨ e = .onError → .resume ∉ s.2.readers ∧ .resume ∉ s.2.posted

namespace Origins

variable {files : Bytes → Option Bytes} {h h' : StaticHandler IP} {o : Origins}

/-- A step that starts no reader, moves none and runs no callback. -/
theorem Told.same (told : o.Told h) (readers : h'.readers = h.readers) (posted : h'.posted = h.posted)
    (flag : h'.readFileScheduled = h.readFileScheduled) : o.Told h' := by
  unfold Told
  rw [readers, posted, flag]
  exact told

theorem started_same (readers : h'.readers = h.readers) (origin : Origin) : o.started h h' origin = o.readers := by
  rw [started, if_neg (by rw [readers]; exact Nat.lt_irrefl _)]

theorem started_more {r : Reader} (readers : h'.readers = h.readers ++ [r]) (origin : Origin) :
    o.started h h' origin = o.readers ++ [origin] := by
  rw [started, if_pos (by simp [readers])]

/-- The request comes, to a handler with nothing outstanding. -/
theorem Told.onRequest (told : o.Told h) (settled : h.Settled) (docRoot : Bytes) (cache : StaticFileCache)
    (request : HTTPMessage IP) :
    let h' := { h with request := some request }.onRequest files docRoot cache request
    (o.after h h' (.onRequest request)).Told h' := by
  obtain ⟨readers, posted⟩ := told
  rw [settled.1] at readers
  rw [settled.2] at posted
  intro h'
  rcases StaticHandler.onRequest_cases files docRoot cache request { h with request := some request } with
    ⟨r, eq, -⟩ | ⟨path, content, -, -, -, eq⟩
  · rw [show h' = _ from eq]
    refine ⟨(started_same rfl _).trans ?_, posted.trans ?_⟩
    · simpa [StaticHandler.send, settled.1] using readers
    · simp [StaticHandler.send, settled.2]
  · rw [show h' = _ from eq]
    refine ⟨(started_more rfl _).trans ?_, posted.trans ?_⟩
    · simp [readers, settled.1]
    · simp [settled.2]

/-- The client resumes. -/
theorem Told.resumed (told : o.Told h) : (o.after h h.onEgressResumed .onEgressResumed).Told h.onEgressResumed := by
  rw [StaticHandler.onEgressResumed_eq]
  by_cases due : h.readFileScheduled = false ∧ h.file.isSome
  · rw [if_pos due]
    obtain ⟨readers, posted⟩ := told
    rw [due.1] at readers posted
    refine ⟨(started_more rfl _).trans ?_, posted.trans ?_⟩
    · simp [readers, due.1, List.replicate_add]
    · simp [due.1]
  · rw [if_neg due]
    exact ⟨(started_same rfl _).trans told.1, told.2⟩

/-- A reader goes on. -/
theorem Told.reader (told : o.Told h) {k : Nat} {rc : Option Nat} (moved : h.runReader k rc = some h') :
    (o.after h h' (.reader k rc)).Told h' := by
  obtain ⟨readers, posted⟩ := told
  obtain ⟨r, next, h'', job, went, rfl⟩ := StaticHandler.runReader_eq moved
  have active : k < h.readers.length := (List.getElem?_eq_some_iff.mp job).1
  cases StaticHandler.readFile_cases went with
  | enters _ | ends | stops _ | chunk _ _ _ => simp [after, Told, readers, posted]
  | posts _ => simp [after, Told, readers, posted, active, List.replicate_add]
  | leaves =>
    have fewer : h.readers.length - 1 < h.readers.length := by omega
    simp [after, Told, readers, posted, active, fewer, List.length_eraseIdx_of_lt, List.eraseIdx_replicate,
      List.replicate_add]

/-- The event loop runs a callback. -/
theorem Told.callback (told : o.Told h) (covers : FlagCovers h) {cache cache' : StaticFileCache}
    (moved : h.runCallback cache = some (cache', h')) : (o.after h h' .callback).Told h' := by
  obtain ⟨readers, posted⟩ := told
  cases StaticHandler.runCallback_cases moved with
  | abort next | eom next | chunk next _ =>
    rw [next] at posted
    exact ⟨(started_same rfl _).trans readers, congrArg List.tail posted⟩
  | @readerDone rest next =>
    -- the flag is clear now, and was set before only if nothing else is outstanding
    have left : o.readers = .replicate h.readers.length .resume ∧ o.posted.tail = .replicate rest.length .resume := by
      rw [next] at posted
      cases set : h.readFileScheduled with
      | true =>
        obtain ⟨idle, rfl⟩ := covers.settled_of_readerDone set next
        rw [idle] at readers ⊢
        exact ⟨readers, congrArg List.tail posted⟩
      | false =>
        rw [set] at readers posted
        exact ⟨readers, congrArg List.tail posted⟩
    refine ⟨?_, left.2⟩
    by_cases due : h.finished = false ∧ h.paused = false ∧ h.file.isSome
    · refine (started_more (if_pos due) _).trans ?_
      simp [left.1, due, List.replicate_add]
    · refine (started_same (if_neg due) _).trans ?_
      simp [left.1, due]

/-- **One step**, whenever the request ends. -/
theorem Told.step (told : o.Told h) (covers : FlagCovers h) {docRoot : Bytes} {cache cache' : StaticFileCache}
    {e : StaticEvent IP} (moved : h.step files docRoot cache e = some (cache', h')) : (o.after h h' e).Told h' := by
  cases StaticHandler.step_cases moved with
  | asked _ first => exact told.onRequest (covers.uncalled first).1 docRoot cache _
  | paused _ => exact told.same rfl rfl rfl
  | resumed _ => exact told.resumed
  | ended last _ =>
    rw [StaticHandler.finish_deletes]
    rcases last with rfl | rfl <;> exact told.same rfl rfl rfl
  | reader went => exact told.reader went
  | callback went => exact told.callback covers went

/-- The flag or nothing at all covers an end exactly when no reader of a resume is outstanding. -/
theorem Told.endsCovered_iff (told : o.Told h) (e : StaticEvent IP) : EndsCovered h e ↔ EndsInTurn (h, o) e := by
  have covered : (h.readFileScheduled = true ∨ h.Settled) ↔ .resume ∉ o.readers ∧ .resume ∉ o.posted := by
    obtain ⟨readers, posted⟩ := told
    rw [readers, posted]
    cases set : h.readFileScheduled <;> simp [StaticHandler.Settled, List.mem_replicate]
  cases e with
  | requestComplete => exact covered.trans ⟨fun free _ => free, fun free => free (.inl rfl)⟩
  | onError => exact covered.trans ⟨fun free _ => free, fun free => free (.inr rfl)⟩
  | onRequest _ | onEgressPaused | onEgressResumed | reader _ _ | callback =>
    exact ⟨fun _ last => (by rcases last with last | last <;> cases last), fun _ => trivial⟩

end Origins

section

variable {files : Bytes → Option Bytes} {docRoot : Bytes}

/-- A step with origins is a step of the handler. -/
theorem StaticHandler.originStep_cases {s s' : StaticHandler IP × Origins} {e : StaticFileCache × StaticEvent IP}
    (moved : StaticHandler.originStep files docRoot s e = some s') :
    s'.2 = s.2.after s.1 s'.1 e.2 ∧ ∃ cache', s.1.step files docRoot e.1 e.2 = some (cache', s'.1) := by
  obtain ⟨h', flows, rfl⟩ := Option.map_eq_some_iff.mp moved
  obtain ⟨⟨cache', h''⟩, went, same⟩ := Option.map_eq_some_iff.mp flows
  cases same
  exact ⟨rfl, cache', went⟩

/-- **One step** of the handler and of the origins. -/
theorem told_step {s s' : StaticHandler IP × Origins} {e : StaticFileCache × StaticEvent IP}
    (inv : FlagCovers s.1 ∧ s.2.Told s.1) (moved : StaticHandler.originStep files docRoot s e = some s') :
    FlagCovers s'.1 ∧ s'.2.Told s'.1 := by
  obtain ⟨origins, cache', went⟩ := StaticHandler.originStep_cases moved
  refine ⟨inv.1.step went, ?_⟩
  rw [origins]
  exact inv.2.step inv.1 went

/-- **The two conditions are one**: in every run, `EndsCovered` admits an event exactly if no
reader that a resume started is outstanding at an end. -/
theorem endsCovered_iff_endsInTurn {s : StaticHandler IP × Origins}
    (run : Reachable (StaticHandler.originStep files docRoot) ({}, {}) s) (e : StaticEvent IP) :
    EndsCovered s.1 e ↔ EndsInTurn s e := by
  have inv : FlagCovers s.1 ∧ s.2.Told s.1 :=
    run.invariant (fun s => FlagCovers s.1 ∧ s.2.Told s.1) ⟨.start, rfl, rfl⟩ fun _ _ _ inv _ moved =>
      told_step inv moved
  exact inv.2.endsCovered_iff e

/-- **By the order of the events**: a handler outlives its readers, if its request does not end
while a reader that a resume started is outstanding. -/
theorem outlives_of_endsInTurn {s : StaticHandler IP × Origins}
    (run : Runs (StaticHandler.originStep files docRoot) (fun s e => EndsInTurn s e.2) ({}, {}) s) :
    s.1.deleted = true → s.1.Settled := by
  have inv : (FlagCovers s.1 ∧ s.2.Told s.1) ∧ Outlives s.1 := by
    refine run.invariant (fun s => (FlagCovers s.1 ∧ s.2.Told s.1) ∧ Outlives s.1)
      ⟨⟨.start, rfl, rfl⟩, .start⟩ fun _ e _ inv ends moved => ?_
    obtain ⟨-, cache', went⟩ := StaticHandler.originStep_cases moved
    exact ⟨told_step inv.1 moved, inv.2.step ((inv.1.2.endsCovered_iff e.2).mpr ends) went⟩
  exact fun dead => (inv.2.deleted dead).1

/-- Every run of a handler is one with origins. -/
theorem origins_of_run {ok : StaticHandler IP → StaticFileCache × StaticEvent IP → Prop} {h : StaticHandler IP}
    (run : Runs (StaticHandler.flowStep files docRoot) ok {} h) :
    ∃ o, Runs (StaticHandler.originStep files docRoot) (fun s e => ok s.1 e) ({}, {}) (h, o) := by
  induction run with
  | refl => exact ⟨{}, .refl⟩
  | snoc _ admitted moved ih =>
    obtain ⟨o, before⟩ := ih
    exact ⟨_, before.snoc admitted (by rw [StaticHandler.originStep, moved]; rfl)⟩

end

end UrlShortener
