import Mathlib.Algebra.GroupWithZero.Nat
import UrlShortener.StaticFlow

/-!
# A static response makes progress

While `read_file_scheduled_` is set `onEgressResumed` leaves a new reader to the last callback
of the one before it, and otherwise it starts one itself. No resume is lost that way: in every
run a handler that is not paused and has its file open has a reader, or the last callback of
one posted (`Awake`), so that something of it can go on (`static_never_stalls`). With one
reader at a time every such step uses up some of `workLeft`, to which the request adds seven
and four for each byte of its file and every resume three (`static_finishes`).
-/

namespace UrlShortener
set_option autoImplicit false
open Transition

variable {IP : Type}

/-- A step of a reader or of the event loop, none of the client. -/
def StaticEvent.ofServer : StaticEvent IP → Bool
  | .reader _ _ => true
  | .callback => true
  | _ => false

def StaticEvent.resumes : StaticEvent IP → Bool
  | .onEgressResumed => true
  | _ => false

/-- A reader is active, or the last callback of one is posted, which looks at `paused_` again. -/
def StaticHandler.Watched (h : StaticHandler IP) : Prop := h.readers ≠ [] ∨ .readerDone ∈ h.posted

/-- A handler with work to do that is not paused is watched. -/
structure Awake (files : Bytes → Option Bytes) (h : StaticHandler IP) : Prop where
  flagged : h.readFileScheduled = true → h.Watched
  reading : h.file.isSome → h.paused = false → h.Watched
  found : h.file.isSome → files h.requestedFilePath ≠ none
  finished : h.finished = true → h.paused = true
  deleted : h.deleted = true → h.finished = true

/-- What a step of a job leaves alone. -/
structure JobFrame (h h' : StaticHandler IP) : Prop where
  request : h'.request = h.request
  path : h'.requestedFilePath = h.requestedFilePath
  paused : h'.paused = h.paused
  finished : h'.finished = h.finished
  deleted : h'.deleted = h.deleted
  file : h'.file.isSome → h.file.isSome

theorem StaticHandler.Reads.jobFrame {h h' : StaticHandler IP} {r : Reader} {next : Option Reader}
    (reads : StaticHandler.Reads h r next h') : JobFrame h h' := by
  cases reads with
  | enters _ | ends | posts _ | leaves => exact ⟨rfl, rfl, rfl, rfl, rfl, id⟩
  | stops _ => exact ⟨rfl, rfl, rfl, rfl, rfl, fun none => by cases none⟩
  | chunk isOpen _ _ => exact ⟨rfl, rfl, rfl, rfl, rfl, fun _ => by rw [isOpen]; rfl⟩

namespace Awake

variable {files : Bytes → Option Bytes} {h h' : StaticHandler IP}

theorem start : Awake files ({} : StaticHandler IP) where
  flagged := fun flag => by cases flag
  reading := fun isOpen => by cases isOpen
  found := fun isOpen => by cases isOpen
  finished := fun finished => by cases finished
  deleted := fun deleted => by cases deleted

/-- The request comes. -/
theorem onRequest (awake : Awake files h) (docRoot : Bytes) (cache : StaticFileCache) (request : HTTPMessage IP) :
    Awake files ({ h with request := some request }.onRequest files docRoot cache request) := by
  rcases StaticHandler.onRequest_cases files docRoot cache request { h with request := some request } with
    ⟨r, eq, -⟩ | ⟨path, content, -, -, found, eq⟩ <;> rw [eq]
  · exact ⟨awake.flagged, awake.reading, awake.found, awake.finished, awake.deleted⟩
  · have watched : h.readers ++ [.loopHead] ≠ [] := by simp
    exact ⟨fun _ => .inl watched, fun _ _ => .inl watched,
      fun _ => by simp [found], awake.finished, awake.deleted⟩

/-- The client resumes: with the flag set the handler is watched already. -/
theorem resumed (awake : Awake files h) (running : h.finished = false) : Awake files h.onEgressResumed := by
  rw [StaticHandler.onEgressResumed_eq]
  have watched (isOpen : h.file.isSome) :
      (if h.readFileScheduled = false ∧ h.file.isSome then h.readers ++ [.loopHead] else h.readers) ≠ [] ∨
        .readerDone ∈ h.posted := by
    cases flag : h.readFileScheduled with
    | false => simp [isOpen]
    | true => simpa [StaticHandler.Watched] using awake.flagged flag
  refine ⟨fun flag => ?_, fun isOpen _ => watched isOpen, awake.found, fun finished => ?_, awake.deleted⟩
  · rw [show h.readFileScheduled = true from flag]
    simpa [StaticHandler.Watched] using awake.flagged flag
  · rw [running] at finished
    cases finished

/-- The request ends. -/
theorem finish (awake : Awake files h) : Awake files h.finish := by
  rw [StaticHandler.finish_deletes]
  exact ⟨awake.flagged, fun _ running => (by cases running), awake.found, fun _ => rfl, fun _ => rfl⟩

/-- A reader goes on, or leaves its last callback behind. -/
theorem reader (awake : Awake files h) {k : Nat} {rc : Option Nat} (moved : h.runReader k rc = some h') :
    Awake files h' := by
  obtain ⟨r, next, h'', job, went, rfl⟩ := StaticHandler.runReader_eq moved
  have reads := StaticHandler.readFile_cases went
  have frame := reads.jobFrame
  have watched : StaticHandler.Watched { h'' with readers := next.elim (h.readers.eraseIdx k) (h.readers.set k) } := by
    cases next with
    | some r' =>
      refine .inl fun gone => ?_
      obtain ⟨inside, -⟩ := List.getElem?_eq_some_iff.mp job
      have empty : (h.readers.set k r').length = 0 := congrArg List.length gone
      rw [List.length_set] at empty
      omega
    | none =>
      cases reads
      exact .inr (List.mem_append_right _ (List.mem_singleton_self _))
  refine ⟨fun _ => watched, fun _ _ => watched, fun isOpen => ?_, fun finished => ?_, fun deleted => ?_⟩
  · exact frame.path ▸ awake.found (frame.file isOpen)
  · exact frame.paused.trans (awake.finished (frame.finished ▸ finished))
  · exact frame.finished.trans (awake.deleted (frame.deleted ▸ deleted))

/-- The event loop runs a callback: the last one of a reader starts another if it must. -/
theorem callback (awake : Awake files h) {cache cache' : StaticFileCache}
    (moved : h.runCallback cache = some (cache', h')) : Awake files h' := by
  have still {cb : StaticCallback} {rest : List StaticCallback} (posted : h.posted = cb :: rest)
      (goesOn : cb ≠ .readerDone) (watched : h.Watched) : h.readers ≠ [] ∨ .readerDone ∈ rest := by
    refine watched.imp_right fun mem => ?_
    rw [posted] at mem
    exact (List.mem_cons.mp mem).resolve_left fun same => goesOn same.symm
  cases StaticHandler.runCallback_cases moved with
  | abort posted | eom posted | chunk posted _ =>
    exact ⟨fun flag => still posted (fun same => by cases same) (awake.flagged flag),
      fun isOpen running => still posted (fun same => by cases same) (awake.reading isOpen running),
      awake.found, awake.finished, awake.deleted⟩
  | readerDone posted =>
    refine ⟨fun flag => (by cases flag), fun isOpen running => .inl ?_, awake.found, awake.finished, fun dead => ?_⟩
    · have unfinished : h.finished = false := by
        by_contra finished
        have paused := awake.finished (by simpa using finished)
        rw [show h.paused = false from running] at paused
        cases paused
      rw [if_pos ⟨unfinished, running, isOpen⟩]
      simp
    · rcases Bool.or_eq_true_iff.mp dead with before | finished
      · exact awake.deleted before
      · exact finished

/-- **One step.** -/
theorem step (awake : Awake files h) {docRoot : Bytes} {cache cache' : StaticFileCache} {e : StaticEvent IP}
    (moved : h.step files docRoot cache e = some (cache', h')) : Awake files h' := by
  cases StaticHandler.step_cases moved with
  | asked _ _ => exact awake.onRequest docRoot cache _
  | paused _ =>
    exact ⟨awake.flagged, fun _ running => (by cases running), awake.found, fun _ => rfl, awake.deleted⟩
  | resumed running => exact awake.resumed running
  | ended _ _ => exact awake.finish
  | reader went => exact awake.reader went
  | callback went => exact awake.callback went

end Awake

/-! ## What can go on -/

section

variable {h : StaticHandler IP} {docRoot : Bytes}

/-- The first reader can go on, without a failing read, unless the file it is in front of
reading has been closed. -/
theorem reader_goes_on {r : Reader} {rest : List Reader} (here : h.readers = r :: rest)
    (readable : r = .reading → h.file.isSome) (files : Bytes → Option Bytes) (cache : StaticFileCache) :
    ∃ rc next, h.flowStep files docRoot (cache, .reader 0 rc) = some next ∧ (rc = none → r ≠ .reading) := by
  have goes (rc : Option Nat) {next : Option Reader} {h' : StaticHandler IP} (went : h.readFile rc r = some (next, h')) :
      ∃ h'', h.flowStep files docRoot (cache, .reader 0 rc) = some h'' := by
    cases next <;>
      exact ⟨_, by simp only [StaticHandler.flowStep, StaticHandler.step, StaticHandler.runReader, here, went,
        List.getElem?_cons_zero, bind, Option.bind, pure, Option.map]; rfl⟩
  cases r with
  | loopHead | posting cb | leaving =>
    obtain ⟨next, moved⟩ := goes none rfl
    exact ⟨none, next, moved, fun _ same => by cases same⟩
  | reading =>
    obtain ⟨f, isOpen⟩ := Option.isSome_iff_exists.mp (readable rfl)
    by_cases atEnd : f.content.length ≤ f.offset
    · have went : h.readFile (some 0) .reading = some (some (.posting .eom), { h with file := none }) := by
        simp [StaticHandler.readFile, StaticHandler.read, isOpen, atEnd]
      obtain ⟨next, moved⟩ := goes _ went
      exact ⟨some 0, next, moved, fun none => by cases none⟩
    · have inside : f.offset + 1 ≤ f.content.length := by omega
      have went : h.readFile (some 1) .reading =
          some (some (.posting (.chunk f.offset ((f.content.drop f.offset).take 1))),
            { h with file := some { f with offset := f.offset + 1 } }) := by
        simp [StaticHandler.readFile, StaticHandler.read, isOpen, inside]
      obtain ⟨next, moved⟩ := goes _ went
      exact ⟨some 1, next, moved, fun none => by cases none⟩

/-- A posted callback can run; the `CHECK` of a chunk holds once the file was found. -/
theorem callback_goes_on (posted : h.posted ≠ []) (path : h.requestedFilePath ≠ []) (files : Bytes → Option Bytes)
    (cache : StaticFileCache) : ∃ next, h.flowStep files docRoot (cache, .callback) = some next := by
  obtain ⟨cb, rest, posted⟩ := List.exists_cons_of_ne_nil posted
  cases cb with
  | abort | eom | chunk _ _ =>
    exact ⟨_, by simp only [StaticHandler.flowStep, StaticHandler.step, StaticHandler.runCallback, posted,
      if_neg path]; rfl⟩
  | readerDone =>
    exact ⟨_, by simp only [StaticHandler.flowStep, StaticHandler.step, StaticHandler.readerDone_eq posted]; rfl⟩

end

/-- **No resume is lost.** In every run, with any number of readers and with reads that fail,
a handler whose file is open and which is not paused has a reader or a callback that can go
on; there is no file with an empty name. -/
theorem static_never_stalls (files : Bytes → Option Bytes) (noEmpty : files [] = none) (docRoot : Bytes)
    (h : StaticHandler IP) (run : Reachable (StaticHandler.flowStep files docRoot) ({} : StaticHandler IP) h)
    (isOpen : h.file.isSome) (running : h.paused = false) (cache : StaticFileCache) :
    ∃ e next, e.ofServer = true ∧ h.flowStep files docRoot (cache, e) = some next := by
  have awake : Awake files h := by
    refine run.invariant (Awake files) Awake.start fun a e b awake _ moved => ?_
    obtain ⟨⟨cache', b'⟩, went, same⟩ := Option.map_eq_some_iff.mp moved
    cases same
    exact awake.step went
  rcases awake.reading isOpen running with active | last
  · obtain ⟨r, rest, here⟩ := List.exists_cons_of_ne_nil active
    obtain ⟨rc, next, moved, -⟩ := reader_goes_on here (fun _ => isOpen) files cache
    exact ⟨.reader 0 rc, next, rfl, moved⟩
  · have path : h.requestedFilePath ≠ [] := by
      intro empty
      have found := awake.found isOpen
      rw [empty] at found
      exact found noEmpty
    obtain ⟨next, moved⟩ := callback_goes_on (List.ne_nil_of_mem last) path files cache
    exact ⟨.callback, next, rfl, moved⟩

/-- A handler paused and resumed at once, and then again while its second reader is queued:
it has three. -/
theorem static_never_stalls_resumed : ∃ h, replay (StaticHandler.flowStep oneFile (bytes "/srv")) {}
      (pausedAtOnce ++ [.onEgressPaused, .onEgressResumed, .onEgressResumed].map fun e => (fun _ => none, e)) = some h ∧
    h.readers.length = 3 ∧
    ∃ e next, e.ofServer = true ∧ h.flowStep oneFile (bytes "/srv") (fun _ => none, e) = some next := by
  have run := Reachable.of_replay (StaticHandler.flowStep oneFile (bytes "/srv")) ({} : StaticHandler Unit)
    (pausedAtOnce ++ [.onEgressPaused, .onEgressResumed, .onEgressResumed].map fun e => (fun _ => none, e)) rfl
  exact ⟨_, rfl, rfl, static_never_stalls oneFile (by decide) (bytes "/srv") _ run rfl rfl _⟩

/-! ## What is left to do -/

/-- What a reader still costs: its own steps up to the next condition of the loop or to the
end, and the callbacks it posts there. -/
def Reader.left : Reader → Nat
  | .loopHead => 3
  | .reading => 2
  | .posting _ => 5
  | .leaving => 2

/-- The reads that are left of an open file, each of a byte, and the one that finds the end. -/
def OpenFile.left (f : OpenFile) : Nat := f.content.length - f.offset + 1

namespace StaticHandler

/-- Three for the reader that will be started without another resume. -/
def owed (h : StaticHandler IP) : Nat :=
  if h.file.isSome ∧ h.paused = false ∧ ∀ r ∈ h.readers, r = .leaving then 3 else 0

/-- The steps of the readers and of the event loop that are left. -/
def workLeft (h : StaticHandler IP) : Nat :=
  4 * h.file.elim 0 OpenFile.left + (h.readers.map Reader.left).sum + h.posted.length + h.owed

/-- What the request granted for its file. -/
def granted (files : Bytes → Option Bytes) (h : StaticHandler IP) : Nat :=
  if h.request.isSome then (files h.requestedFilePath).elim 0 fun content => 4 * content.length + 7 else 0

/-- The response is a whole one, or the headers, the file in chunks and one EOM at the end. -/
def Answered (files : Bytes → Option Bytes) (h : StaticHandler IP) : Prop :=
  (∃ r, h.downstream = [.response r]) ∨
    ∃ chunks : List Bytes, h.downstream = .headers 200 (bytes "OK") :: (chunks.map .body ++ [.eom]) ∧
      files h.requestedFilePath = some chunks.flatten

variable {h h' : StaticHandler IP}

theorem owed_le (h : StaticHandler IP) : h.owed ≤ 3 := by
  unfold owed
  split
  · exact Nat.le_refl 3
  · exact Nat.zero_le 3

theorem owed_of_paused (paused : h.paused = true) : h.owed = 0 :=
  if_neg fun due => by
    rw [paused] at due
    cases due.2.1

theorem owed_of_shut (shut : h.file = none) : h.owed = 0 :=
  if_neg fun due => by
    rw [shut] at due
    cases due.1

/-- Nothing is owed while a reader is in the loop. -/
theorem owed_of_reader {r : Reader} (active : r ∈ h.readers) (inLoop : r ≠ .leaving) : h.owed = 0 :=
  if_neg fun due => inLoop (due.2.2 r active)

theorem owed_of_leaving (isOpen : h.file.isSome) (running : h.paused = false) (out : ∀ r ∈ h.readers, r = .leaving) :
    h.owed = 3 :=
  if_pos ⟨isOpen, running, out⟩

theorem owed_congr (file : h'.file = h.file) (paused : h'.paused = h.paused) (readers : h'.readers = h.readers) :
    h'.owed = h.owed := by
  unfold owed
  simp only [file, paused, readers]

theorem granted_congr (files : Bytes → Option Bytes) (request : h'.request = h.request)
    (path : h'.requestedFilePath = h.requestedFilePath) : granted files h' = granted files h := by
  unfold granted
  rw [request, path]

theorem granted_le (files : Bytes → Option Bytes) (h : StaticHandler IP) :
    h.granted files ≤ (files h.requestedFilePath).elim 0 fun content => 4 * content.length + 7 := by
  unfold granted
  split
  · exact Nat.le_refl _
  · exact Nat.zero_le _

end StaticHandler

section

variable {files : Bytes → Option Bytes} {h h' : StaticHandler IP}

/-- The file of the request pays for the first reader and for all reads. -/
theorem StreamsInOrder.onRequest_pays (inv : StreamsInOrder files h) (first : h.request = none) (docRoot : Bytes)
    (cache : StaticFileCache) (request : HTTPMessage IP) :
    let h' := { h with request := some request }.onRequest files docRoot cache request
    h'.workLeft + h.granted files ≤ h.workLeft + h'.granted files := by
  intro h'
  cases inv with
  | answered called _ _ _ _ => exact absurd first called
  | streaming s _ _ | ended s _ _ _ => exact absurd first s.called
  | uncalled _ shut idle empty _ =>
    have nothing : h.granted files = 0 := by simp [StaticHandler.granted, first]
    rcases StaticHandler.onRequest_cases files docRoot cache request { h with request := some request } with
      ⟨r, eq, -⟩ | ⟨path, content, -, -, found, eq⟩
    · have owed : h'.owed = 0 := StaticHandler.owed_of_shut (by simp only [h', eq, StaticHandler.send, shut])
      have left : h'.workLeft = 0 := by
        simp only [StaticHandler.workLeft, owed]
        simp [h', eq, StaticHandler.send, shut, idle, empty]
      omega
    · have owed : h'.owed = 0 := by
        refine StaticHandler.owed_of_reader (r := .loopHead) ?_ fun same => by cases same
        simp [h', eq]
      have left : h'.workLeft = 4 * (content.length + 1) + 3 := by
        simp only [StaticHandler.workLeft, owed]
        simp [h', eq, idle, empty, OpenFile.left, Reader.left]
      have grant : h'.granted files = 4 * content.length + 7 := by
        simp [h', eq, StaticHandler.granted, found]
      omega

/-- No reader is about to post an abort. -/
theorem StreamsInOrder.no_abort (inv : StreamsInOrder files h) : .posting .abort ∉ h.readers := by
  intro mem
  have inScript : Egress.abort ∈ h.script := by
    refine List.mem_append_right _ (List.mem_flatMap.mpr ⟨_, mem, ?_⟩)
    exact List.mem_singleton_self _
  cases inv with
  | uncalled _ _ idle _ _ | answered _ _ idle _ _ =>
    rw [idle] at mem
    cases mem
  | streaming s _ _ | ended s _ _ _ =>
    rw [s.script] at inScript
    simp at inScript

theorem StaticHandler.workLeft_single {r : Reader} (here : h.readers = [r]) :
    h.workLeft = 4 * h.file.elim 0 OpenFile.left + r.left + h.posted.length + h.owed := by
  simp [StaticHandler.workLeft, here]

/-- A read uses up what the file is charged for it. -/
theorem StreamsInOrder.read_pays {r : Reader} {h'' : StaticHandler IP}
    (reads : StaticHandler.Reads h .reading (some r) h'') (isOpen : h.file ≠ none) :
    r.left = 5 ∧ r ≠ .leaving ∧ h''.posted = h.posted ∧
      h''.file.elim 0 OpenFile.left + 1 ≤ h.file.elim 0 OpenFile.left := by
  cases reads with
  | stops _ =>
    obtain ⟨f, isOpen⟩ := Option.ne_none_iff_exists'.mp isOpen
    refine ⟨rfl, fun same => (by cases same), rfl, ?_⟩
    simp [isOpen, OpenFile.left]
  | @chunk f n isOpen positive fits =>
    refine ⟨rfl, fun same => (by cases same), rfl, ?_⟩
    simp only [isOpen, Option.elim_some, OpenFile.left]
    omega

/-- **A step of a reader uses something up.** -/
theorem StreamsInOrder.reader_pays (inv : StreamsInOrder files h) (one : OneReader h) {k : Nat} {rc : Option Nat}
    (moved : h.runReader k rc = some h') : 1 + h'.workLeft ≤ h.workLeft := by
  obtain ⟨r, next, h'', job, went, rfl⟩ := StaticHandler.runReader_eq moved
  obtain ⟨rfl, here⟩ := one.only_reader job
  have inLoop (out : r ≠ .leaving) : h.owed = 0 :=
    StaticHandler.owed_of_reader (by rw [here]; exact List.mem_singleton_self r) out
  rw [here, StaticHandler.workLeft_single here]
  cases r with
  | loopHead =>
    cases went
    by_cases enters : h.file.isSome ∧ ¬ h.paused
    · rw [if_pos enters, StaticHandler.workLeft_single rfl,
        StaticHandler.owed_of_reader (List.mem_singleton_self _) fun same => (by cases same)]
      simp only [Reader.left]
      omega
    · -- the reader leaves because the file is closed or the client has paused
      rw [if_neg enters, StaticHandler.workLeft_single rfl]
      have owed : StaticHandler.owed { h with readers := [.leaving] } = 0 :=
        if_neg fun due => enters ⟨due.1, by simpa using due.2.1⟩
      simp only [Option.elim_some, List.set_cons_zero, owed, Reader.left]
      omega
  | reading =>
    have reads := StaticHandler.readFile_cases went
    have isOpen : h.file ≠ none := by
      intro shut
      simp only [StaticHandler.readFile, StaticHandler.read, shut] at went
      cases went
    cases next with
    | none => cases reads
    | some r' =>
      obtain ⟨cost, busy, posted, used⟩ := read_pays reads isOpen
      rw [StaticHandler.workLeft_single rfl, StaticHandler.owed_of_reader (List.mem_singleton_self _) busy, cost, posted]
      simp only [Reader.left]
      omega
  | posting cb =>
    cases went
    have goesOn : cb ≠ .abort := fun aborts => inv.no_abort (by rw [here, aborts]; exact List.mem_singleton_self _)
    rw [if_neg goesOn, StaticHandler.workLeft_single rfl,
      StaticHandler.owed_of_reader (List.mem_singleton_self _) fun same => (by cases same)]
    simp only [Reader.left, List.length_append, List.length_singleton]
    omega
  | leaving =>
    cases went
    have owed : StaticHandler.owed { h with posted := h.posted ++ [.readerDone], readers := [] } ≤ h.owed := by
      unfold StaticHandler.owed
      simp [here]
    simp only [StaticHandler.workLeft, Option.elim_none, List.eraseIdx_cons_zero, List.map_nil, List.sum_nil, Reader.left,
      List.length_append, List.length_singleton]
    omega

/-- A callback that starts no reader. -/
theorem StaticHandler.workLeft_next {cb : StaticCallback} {rest : List StaticCallback} (posted : h.posted = cb :: rest)
    (left : h'.posted = rest) (file : h'.file = h.file) (paused : h'.paused = h.paused) (readers : h'.readers = h.readers) :
    1 + h'.workLeft = h.workLeft := by
  unfold StaticHandler.workLeft
  rw [StaticHandler.owed_congr file paused readers, file, readers, left, posted, List.length_cons]
  omega

/-- **A callback uses something up**; the last one of a reader what was owed for the next. -/
theorem callback_pays (one : OneReader h) {cache cache' : StaticFileCache}
    (moved : h.runCallback cache = some (cache', h')) : 1 + h'.workLeft ≤ h.workLeft := by
  cases StaticHandler.runCallback_cases moved with
  | abort posted | eom posted | chunk posted _ => exact Nat.le_of_eq (StaticHandler.workLeft_next posted rfl rfl rfl rfl)
  | readerDone posted =>
    by_cases resumes : h.finished = false ∧ h.paused = false ∧ h.file.isSome
    · have idle := (one.alone_of_readerDone posted).1
      have owed : h.owed = 3 := StaticHandler.owed_of_leaving resumes.2.2 resumes.2.1 (by simp [idle])
      rw [if_pos resumes, idle, List.nil_append, StaticHandler.workLeft_single rfl,
        StaticHandler.owed_of_reader (List.mem_singleton_self _) fun same => (by cases same)]
      simp only [StaticHandler.workLeft, owed, idle, posted, Reader.left, List.map_nil, List.sum_nil, List.length_cons]
      omega
    · rw [if_neg resumes]
      exact Nat.le_of_eq (StaticHandler.workLeft_next posted rfl rfl rfl rfl)

/-- A step that changes no more than the flags. -/
theorem StaticHandler.workLeft_flags {n : Nat} (file : h'.file = h.file) (readers : h'.readers = h.readers)
    (posted : h'.posted = h.posted) (owed : h'.owed ≤ n) : h'.workLeft ≤ h.workLeft + n := by
  unfold StaticHandler.workLeft
  rw [file, readers, posted]
  omega

/-- A resume adds a reader, or lets the last callback of one add it. -/
theorem resumed_pays (ok : ResumesAlone h .onEgressResumed) :
    h.onEgressResumed.workLeft ≤ h.workLeft + 3 := by
  rw [StaticHandler.onEgressResumed_eq]
  by_cases due : h.readFileScheduled = false ∧ h.file.isSome
  · have idle := ok.idle due
    rw [if_pos due, idle.1, List.nil_append, StaticHandler.workLeft_single rfl,
      StaticHandler.owed_of_reader (List.mem_singleton_self _) fun same => (by cases same)]
    simp only [StaticHandler.workLeft, Reader.left]
    omega
  · rw [if_neg due]
    exact StaticHandler.workLeft_flags rfl rfl rfl (StaticHandler.owed_le _)

/-- **One step** is paid for out of what is left, by the request or by a resume. -/
theorem StreamsInOrder.pays (inv : StreamsInOrder files h) (one : OneReader h) {docRoot : Bytes}
    {cache cache' : StaticFileCache} {e : StaticEvent IP} (ok : ResumesAlone h e) (moved : h.step files docRoot cache e = some (cache', h')) :
    (if e.ofServer then 1 else 0) + h'.workLeft + h.granted files ≤
      h.workLeft + h'.granted files + 3 * (if e.resumes then 1 else 0) := by
  cases StaticHandler.step_cases moved with
  | @asked request _ first =>
    have paid := inv.onRequest_pays first docRoot cache request
    simp only [StaticEvent.ofServer, StaticEvent.resumes, Bool.false_eq_true, if_false]
    omega
  | paused _ =>
    have less : StaticHandler.workLeft { h with paused := true } ≤ h.workLeft + 0 :=
      StaticHandler.workLeft_flags rfl rfl rfl (StaticHandler.owed_of_paused rfl).le
    have grant : StaticHandler.granted files { h with paused := true } = h.granted files :=
      StaticHandler.granted_congr files rfl rfl
    simp only [StaticEvent.ofServer, StaticEvent.resumes, Bool.false_eq_true, if_false]
    omega
  | resumed _ =>
    have added := resumed_pays ok
    have same := StaticHandler.onEgressResumed_sameOutput h
    have grant := StaticHandler.granted_congr files same.request same.path
    simp only [StaticEvent.ofServer, StaticEvent.resumes, Bool.false_eq_true, if_true, if_false]
    omega
  | ended last _ =>
    have less : h.finish.workLeft ≤ h.workLeft + 0 := by
      rw [StaticHandler.finish_deletes]
      exact StaticHandler.workLeft_flags rfl rfl rfl (StaticHandler.owed_of_paused rfl).le
    have same := StaticHandler.finish_sameOutput h
    have grant := StaticHandler.granted_congr files same.request same.path
    have client : e.ofServer = false ∧ e.resumes = false := by rcases last with rfl | rfl <;> exact ⟨rfl, rfl⟩
    simp only [client, Bool.false_eq_true, if_false]
    omega
  | reader went =>
    have used := inv.reader_pays one went
    obtain ⟨r, next, mid, -, reads, -, eq⟩ := StaticHandler.runReader_cases went
    have frame := reads.jobFrame
    have grant : h'.granted files = h.granted files := by
      rw [eq]
      exact StaticHandler.granted_congr files frame.request frame.path
    simp only [StaticEvent.ofServer, StaticEvent.resumes, Bool.false_eq_true, if_true, if_false]
    omega
  | callback went =>
    have used := callback_pays one went
    have grant : h'.granted files = h.granted files := by
      cases StaticHandler.runCallback_cases went <;> exact StaticHandler.granted_congr files rfl rfl
    simp only [StaticEvent.ofServer, StaticEvent.resumes, Bool.false_eq_true, if_true, if_false]
    omega

/-! ## The whole response -/

/-- A handler that has been asked and need not wait for the client has answered, or it goes on. -/
theorem StreamsInOrder.goes_on (inv : StreamsInOrder files h) (awake : Awake files h) (noEmpty : files [] = none)
    (docRoot : Bytes) (called : h.request ≠ none) (resumed : h.file.isSome → h.paused = false)
    (cache : StaticFileCache) :
    h.Answered files ∨ ∃ e next, e.ofServer = true ∧ ResumesAlone h e ∧
      h.flowStep files docRoot (cache, e) = some next := by
  have goes (path : h.requestedFilePath ≠ []) (readable : .reading ∈ h.readers → h.file.isSome)
      (busy : h.readers ≠ [] ∨ h.posted ≠ []) :
      ∃ e next, e.ofServer = true ∧ ResumesAlone h e ∧ h.flowStep files docRoot (cache, e) = some next := by
    by_cases idle : h.readers = []
    · obtain ⟨next, moved⟩ := callback_goes_on (busy.resolve_left fun active => active idle) path files cache
      exact ⟨.callback, next, rfl, ⟨fun _ same => (by cases same), fun same => by cases same⟩, moved⟩
    · obtain ⟨r, rest, here⟩ := List.exists_cons_of_ne_nil idle
      obtain ⟨rc, next, moved, reads⟩ := reader_goes_on here
        (fun same => readable (by rw [here, same]; exact List.mem_cons_self)) files cache
      refine ⟨.reader 0 rc, next, rfl, ⟨fun k same => ?_, fun same => by cases same⟩, moved⟩
      cases same
      rw [here]
      exact fun same => reads rfl (Option.some.inj same)
  have pathOf {content : Bytes} (found : files h.requestedFilePath = some content) : h.requestedFilePath ≠ [] := by
    intro empty
    rw [empty, noEmpty] at found
    cases found
  cases inv with
  | uncalled none _ _ _ _ => exact absurd none called
  | answered _ _ _ _ sent => exact .inl (.inl ⟨_, sent⟩)
  | streaming s isOpen _ =>
    have isOpen : h.file.isSome := by rw [isOpen]; rfl
    have busy := (awake.reading isOpen (resumed isOpen)).imp_right List.ne_nil_of_mem
    exact .inr (goes (pathOf s.found) (fun _ => isOpen) busy)
  | ended s shut idle read =>
    by_cases busy : h.readers ≠ [] ∨ h.posted ≠ []
    · exact .inr (goes (pathOf s.found) (fun mem => absurd mem idle) busy)
    · -- nothing is left of the script but what was sent
      obtain ⟨noReader, noCallback⟩ := not_or.mp busy
      have all := s.script
      rw [StaticHandler.script, not_not.mp noReader, not_not.mp noCallback, List.flatMap_nil, List.flatMap_nil,
        List.append_nil, List.append_nil] at all
      exact .inl (.inr ⟨_, all, s.found.trans (congrArg some read.symm)⟩)

end

/-- **A static request is answered, if no resume comes while a reader is at work outside the
flag.** The readers and the event loop take at most seven steps, four for each byte of the file
and three for each resume; and once asked, a handler that is not paused while its file is open
has sent a whole response, or the headers, the whole file in chunks and one EOM, or goes on. -/
theorem static_finishes (files : Bytes → Option Bytes) (noEmpty : files [] = none) (docRoot : Bytes)
    (es : List (StaticFileCache × StaticEvent IP)) (h : StaticHandler IP)
    (trace : Trace (StaticHandler.flowStep files docRoot) (fun h e => ResumesAlone h e.2) ({} : StaticHandler IP) es h) :
    (es.countP (·.2.ofServer) ≤
      ((files h.requestedFilePath).elim 0 fun content => 4 * content.length + 7) + 3 * es.countP (·.2.resumes)) ∧
    (h.request ≠ none → (h.file.isSome → h.paused = false) → ∀ cache,
      h.Answered files ∨ ∃ e next, e.ofServer = true ∧ ResumesAlone h e ∧
        h.flowStep files docRoot (cache, e) = some next) := by
  have paid := trace.amortized (fun h => (StreamsInOrder files h ∧ OneReader h) ∧ Awake files h)
    ⟨⟨StreamsInOrder.start, OneReader.start⟩, Awake.start⟩ (·.2.ofServer) (·.2.resumes)
    StaticHandler.workLeft (StaticHandler.granted files) 3 fun a e b inv ok moved => by
      obtain ⟨⟨cache', b'⟩, went, same⟩ := Option.map_eq_some_iff.mp moved
      cases same
      obtain ⟨⟨inOrder, one⟩, awake⟩ := inv
      exact ⟨⟨⟨inOrder.step one ok went, one.step inOrder.unasked ok went⟩, awake.step went⟩,
        inOrder.pays one ok went⟩
  obtain ⟨⟨⟨inOrder, -⟩, awake⟩, count⟩ := paid
  refine ⟨?_, fun called resumed cache => inOrder.goes_on awake noEmpty docRoot called resumed cache⟩
  have start : StaticHandler.workLeft ({} : StaticHandler IP) = 0 := rfl
  have grant := StaticHandler.granted_le files h
  omega

/-- The file of one byte, paused at once and resumed: eleven steps of at most fourteen. -/
theorem static_finishes_resumed : ∃ h, replay (StaticHandler.flowStep oneFile (bytes "/srv")) ({} : StaticHandler Unit)
      (pausedAtOnce ++ readsOn) = some h ∧ h.request ≠ none ∧ h.finished = false ∧ h.file = none ∧
    ((pausedAtOnce ++ readsOn).countP (·.2.ofServer) ≤
      ((oneFile h.requestedFilePath).elim 0 fun content => 4 * content.length + 7) +
        3 * (pausedAtOnce ++ readsOn).countP (·.2.resumes)) ∧
    ∀ cache, h.Answered oneFile ∨ ∃ e next, e.ofServer = true ∧ ResumesAlone h e ∧
      h.flowStep oneFile (bytes "/srv") (cache, e) = some next := by
  have trace : Trace (StaticHandler.flowStep oneFile (bytes "/srv")) (fun h e => ResumesAlone h e.2) {} _ _ :=
    Trace.of_guarded_replay (StaticHandler.flowStep oneFile (bytes "/srv"))
      (fun h e => resumesAloneTest h e.2) (fun h e => resumesAlone_of_test h e.2) ({} : StaticHandler Unit)
      (pausedAtOnce ++ readsOn) rfl
  have finishes := static_finishes oneFile (by decide) (bytes "/srv") _ _ trace
  exact ⟨_, rfl, Option.some_ne_none _, rfl, rfl, finishes.1,
    finishes.2 (Option.some_ne_none _) fun isOpen => by cases isOpen⟩

end UrlShortener
