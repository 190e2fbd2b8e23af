import UrlShortener.StaticPath

/-!
# `static_handler.cc`: the static file handler

A `StaticHandler` answers from the cache, or opens the file and lets a reader job
on the CPU pool post the chunks to its event loop, where each chunk is appended to
the cache and sent. A reader is modelled by where it stands in `read_file`; the
jobs of a handler share its open file, and what they post runs in posting order.
`StaticHandler.step` is one step of a handler: a downstream event, a reader going
on, or the next posted callback. `step_effect` says what a step does to the body
of the response.
-/

namespace UrlShortener
set_option autoImplicit false

/-- `StaticFileCache`, by path. -/
abbrev StaticFileCache := Bytes → Option Bytes

/-- `StaticFileCache::append_data`. -/
def StaticFileCache.appendData (cache : StaticFileCache) (filePath buf : Bytes) : StaticFileCache :=
  match cache filePath with
  | none => Function.update cache filePath (some buf)
  | some data => Function.update cache filePath (some (data ++ buf))

/-- `folly::File` on a regular file: its content and the shared offset. -/
structure OpenFile where
  content : Bytes
  offset : Nat
  deriving DecidableEq, Repr

/-- What a reader runs in the event base thread. The offset a chunk was read from is
not part of the lambda; no step looks at it. -/
inductive StaticCallback where
  | abort
  | eom
  | chunk (start : Nat) (body : Bytes)
  | readerDone
  deriving DecidableEq, Repr

/-- Where a `read_file` job stands. -/
inductive Reader where
  /-- Queued, or at the condition of the loop. -/
  | loopHead
  /-- In front of `readNoInt`. -/
  | reading
  /-- In front of a `runInEventBaseThread` in the loop. -/
  | posting (cb : StaticCallback)
  /-- Out of the loop. -/
  | leaving
  deriving DecidableEq, Repr

/-- What is sent downstream. -/
inductive Egress where
  /-- A whole response, with EOM. -/
  | response (r : Response)
  | headers (status : Nat) (reason : Bytes)
  | body (data : Bytes)
  | eom
  | abort
  deriving DecidableEq, Repr

/-- What is added to the streamed body. -/
def Egress.chunk : Egress → Bytes
  | .body data => data
  | _ => []

/-- What the callback will add to the streamed body. -/
def StaticCallback.data : StaticCallback → Bytes
  | .chunk _ body => body
  | _ => []

/-- A handler: the members the methods use, its reader jobs, the callbacks they have
posted, what was sent downstream and the request it was called with. -/
structure StaticHandler (IP : Type) where
  requestedFilePath : Bytes := []
  file : Option OpenFile := none
  readFileScheduled : Bool := false
  paused : Bool := false
  finished : Bool := false
  deleted : Bool := false
  readers : List Reader := []
  posted : List StaticCallback := []
  downstream : List Egress := []
  request : Option (HTTPMessage IP) := none

inductive StaticEvent (IP : Type) where
  | onRequest (request : HTTPMessage IP)
  | onEgressPaused
  | onEgressResumed
  | requestComplete
  | onError
  /-- The `k`-th reader goes on; `rc` is what `readNoInt` returns if it reads, a
  negative result being `none`. -/
  | reader (k : Nat) (rc : Option Nat)
  /-- The event loop runs the next posted callback. -/
  | callback

namespace StaticHandler

variable {IP : Type}

def send (h : StaticHandler IP) (e : Egress) : StaticHandler IP :=
  { h with downstream := h.downstream ++ [e] }

/-- `getGlobalCPUExecutor()->add` of `read_file`. -/
def addReader (h : StaticHandler IP) : StaticHandler IP :=
  { h with readers := h.readers ++ [.loopHead] }

def onEgressResumed (h : StaticHandler IP) : StaticHandler IP :=
  let h := { h with paused := false }
  if h.readFileScheduled = false ∧ h.file.isSome then h.addReader else h

/-- `check_for_completion`: whether it deleted the handler. -/
def checkForCompletion (h : StaticHandler IP) : Bool × StaticHandler IP :=
  if h.finished ∧ ¬ h.readFileScheduled then (true, { h with deleted := true }) else (false, h)

/-- `requestComplete` and `onError`. -/
def finish (h : StaticHandler IP) : StaticHandler IP :=
  (checkForCompletion { h with finished := true, paused := true }).2

/-- `StaticHandler::onRequest`; `files` is what opening a file finds. -/
def onRequest (files : Bytes → Option Bytes) (docRoot : Bytes) (cache : StaticFileCache)
    (request : HTTPMessage IP) (h : StaticHandler IP) : StaticHandler IP :=
  match requestedFile docRoot request with
  | .error r => h.send (.response r)
  | .ok filePathShouldBe =>
    match cache filePathShouldBe with
    | some cachedFile =>
      h.send (.response { status := 200, reason := bytes "OK", body := cachedFile })
    | none =>
      match files filePathShouldBe with
      | none => h.send (.response { status := 404, reason := bytes "Not Found" })
      | some content =>
        let h := { h with file := some ⟨content, 0⟩, requestedFilePath := filePathShouldBe }
        let h := h.send (.headers 200 (bytes "OK"))
        { h with readFileScheduled := true }.addReader

/-- `readNoInt` and the branches on its result, which is 0 at the end of the file only and
may be any part of what is left before it. No step is possible from a null `file_`. -/
def read (rc : Option Nat) (h : StaticHandler IP) : Option (Reader × StaticHandler IP) :=
  match h.file with
  | none => none
  | some f =>
    match rc with
    | none => some (.posting .abort, { h with file := none })
    | some 0 =>
      if f.content.length ≤ f.offset then some (.posting .eom, { h with file := none }) else none
    | some n =>
      if f.offset + n ≤ f.content.length then
        some (.posting (.chunk f.offset ((f.content.drop f.offset).take n)),
          { h with file := some { f with offset := f.offset + n } })
      else none

/-- A step of `read_file`: where the job stands after it, if it has not ended. -/
def readFile (rc : Option Nat) (h : StaticHandler IP) :
    Reader → Option (Option Reader × StaticHandler IP)
  | .loopHead => some (if h.file.isSome ∧ ¬ h.paused then some .reading else some .leaving, h)
  | .reading => (h.read rc).map fun (r, h) => (some r, h)
  | .posting cb =>
    some (some (if cb = .abort then .leaving else .loopHead), { h with posted := h.posted ++ [cb] })
  | .leaving => some (none, { h with posted := h.posted ++ [.readerDone] })

/-- The `k`-th reader job goes on. -/
def runReader (k : Nat) (rc : Option Nat) (h : StaticHandler IP) : Option (StaticHandler IP) := do
  let r ← h.readers[k]?
  let (next, h) ← h.readFile rc r
  match next with
  | some r => return { h with readers := h.readers.set k r }
  | none => return { h with readers := h.readers.eraseIdx k }

/-- The event loop runs the next posted callback. -/
def runCallback (cache : StaticFileCache) (h : StaticHandler IP) :
    Option (StaticFileCache × StaticHandler IP) :=
  match h.posted with
  | [] => none
  | cb :: rest =>
    let h := { h with posted := rest }
    match cb with
    | .abort => some (cache, h.send .abort)
    | .eom => some (cache, h.send .eom)
    | .chunk _ body =>
      -- CHECK(!requested_file_path_.empty())
      if h.requestedFilePath = [] then none
      else some (cache.appendData h.requestedFilePath body, h.send (.body body))
    | .readerDone =>
      let (deleted, h) := checkForCompletion { h with readFileScheduled := false }
      some (cache, if !deleted ∧ !h.paused then h.onEgressResumed else h)

/-- One step of a handler. After `requestComplete` or `onError` proxygen makes no
further call; `onRequest` is called once. The callbacks of a deleted handler still
run, as if its memory were intact. -/
def step (files : Bytes → Option Bytes) (docRoot : Bytes) (cache : StaticFileCache)
    (h : StaticHandler IP) : StaticEvent IP → Option (StaticFileCache × StaticHandler IP)
  | .onRequest request =>
    if h.finished = false ∧ h.request.isNone then
      some (cache, { h with request := some request }.onRequest files docRoot cache request)
    else none
  | .onEgressPaused => if h.finished then none else some (cache, { h with paused := true })
  | .onEgressResumed => if h.finished then none else some (cache, h.onEgressResumed)
  | .requestComplete => if h.finished then none else some (cache, h.finish)
  | .onError => if h.finished then none else some (cache, h.finish)
  | .reader k rc => (h.runReader k rc).map fun h => (cache, h)
  | .callback => h.runCallback cache

/-! ## The streamed body -/

/-- The chunks sent downstream. -/
def sentBody (h : StaticHandler IP) : Bytes := h.downstream.flatMap Egress.chunk

/-- The chunks sent, then those posted and not yet sent. -/
def streamed (h : StaticHandler IP) : Bytes := h.sentBody ++ h.posted.flatMap StaticCallback.data

/-- `h'` serves the same request and has sent the same responses and chunks as `h`. -/
structure SameOutput (h h' : StaticHandler IP) : Prop where
  request : h'.request = h.request
  path : h'.requestedFilePath = h.requestedFilePath
  sentBody : h'.sentBody = h.sentBody
  responses : ∀ r, .response r ∈ h'.downstream → .response r ∈ h.downstream

/-- The output is that of a handler with the same request, file name and egress. -/
theorem SameOutput.of_downstream {h h' : StaticHandler IP} (request : h'.request = h.request)
    (path : h'.requestedFilePath = h.requestedFilePath) (downstream : h'.downstream = h.downstream) :
    SameOutput h h' := by
  refine ⟨request, path, ?_, fun r => ?_⟩
  · unfold StaticHandler.sentBody
    rw [downstream]
  · rw [downstream]
    exact id

/-- A request is answered at once, successfully only from the cache, or the file is
opened and a reader added. -/
theorem onRequest_cases (files : Bytes → Option Bytes) (docRoot : Bytes) (cache : StaticFileCache)
    (request : HTTPMessage IP) (h : StaticHandler IP) :
    (∃ r, h.onRequest files docRoot cache request = h.send (.response r) ∧
      (r.status = 200 → ∃ path, requestedFile docRoot request = .ok path ∧ cache path = some r.body)) ∨
    (∃ path content, requestedFile docRoot request = .ok path ∧ cache path = none ∧
      files path = some content ∧ h.onRequest files docRoot cache request =
        { h with
          file := some ⟨content, 0⟩, requestedFilePath := path, readFileScheduled := true
          readers := h.readers ++ [.loopHead]
          downstream := h.downstream ++ [.headers 200 (bytes "OK")] }) := by
  unfold onRequest
  split
  · rename_i r refused
    exact .inl ⟨r, rfl, fun success => absurd success (requestedFile_error refused)⟩
  · rename_i path asked
    split
    · rename_i cachedFile hit
      exact .inl ⟨_, rfl, fun _ => ⟨path, asked, hit⟩⟩
    · rename_i miss
      split
      · exact .inl ⟨_, rfl, nofun⟩
      · rename_i content found
        exact .inr ⟨path, content, asked, miss, found, rfl⟩

/-- The first output of a handler: no chunk, and a success response only from the
cache. -/
theorem onRequest_output (files : Bytes → Option Bytes) (docRoot : Bytes) (cache : StaticFileCache)
    (request : HTTPMessage IP) {h : StaticHandler IP} (first : h.downstream = []) :
    let h' := h.onRequest files docRoot cache request
    h'.request = h.request ∧ h'.sentBody = [] ∧ ∀ r, .response r ∈ h'.downstream → r.status = 200 →
      ∃ path, requestedFile docRoot request = .ok path ∧ cache path = some r.body := by
  intro h'
  rcases onRequest_cases files docRoot cache request h with ⟨r, eq, fromCache⟩ | ⟨_, _, -, -, -, eq⟩
  · have egress : h'.downstream = [.response r] := by simp [h', eq, send, first]
    refine ⟨by simp only [h', eq, send], by simp [sentBody, egress, Egress.chunk], ?_⟩
    intro r' answered
    rw [egress, List.mem_singleton, Egress.response.injEq] at answered
    rwa [answered]
  · have egress : h'.downstream = [.headers 200 (bytes "OK")] := by simp [h', eq, first]
    refine ⟨by simp only [h', eq], by simp [sentBody, egress, Egress.chunk], ?_⟩
    intro r answered
    rw [egress, List.mem_singleton] at answered
    cases answered

/-- Resuming adds a reader if none is scheduled and the file is open. -/
theorem onEgressResumed_eq (h : StaticHandler IP) : h.onEgressResumed =
    { h with
      paused := false
      readers := if h.readFileScheduled = false ∧ h.file.isSome then h.readers ++ [.loopHead] else h.readers } := by
  unfold onEgressResumed addReader
  simp only
  split <;> rfl

/-- Resuming may add a reader, if the file is open. -/
theorem onEgressResumed_cases (h : StaticHandler IP) :
    h.onEgressResumed = { h with paused := false } ∨
      h.file.isSome ∧ h.onEgressResumed = { h with paused := false, readers := h.readers ++ [.loopHead] } := by
  rw [onEgressResumed_eq]
  by_cases due : h.readFileScheduled = false ∧ h.file.isSome
  · exact .inr ⟨due.2, by rw [if_pos due]⟩
  · exact .inl (by rw [if_neg due])

/-- `requestComplete` and `onError` delete the handler unless a reader is scheduled. -/
theorem finish_deletes (h : StaticHandler IP) : h.finish =
    { h with finished := true, paused := true, deleted := h.deleted || !h.readFileScheduled } := by
  unfold finish checkForCompletion
  cases scheduled : h.readFileScheduled <;> simp

/-- `requestComplete` and `onError` mark the handler and may delete it. -/
theorem finish_eq (h : StaticHandler IP) :
    ∃ deleted, h.finish = { h with finished := true, paused := true, deleted := deleted } :=
  ⟨_, finish_deletes h⟩

/-- What is left of a step of `read_file` when the reader's own place is set aside. -/
inductive Reads (h : StaticHandler IP) : Reader → Option Reader → StaticHandler IP → Prop where
  | enters : h.file.isSome → Reads h .loopHead (some .reading) h
  | ends : Reads h .loopHead (some .leaving) h
  | stops {cb : StaticCallback} : cb = .abort ∨ cb = .eom →
      Reads h .reading (some (.posting cb)) { h with file := none }
  | chunk {f : OpenFile} {n : Nat} : h.file = some f → 0 < n → f.offset + n ≤ f.content.length →
      Reads h .reading (some (.posting (.chunk f.offset ((f.content.drop f.offset).take n))))
        { h with file := some { f with offset := f.offset + n } }
  | posts {cb : StaticCallback} {r : Reader} : r = .leaving ∨ r = .loopHead →
      Reads h (.posting cb) (some r) { h with posted := h.posted ++ [cb] }
  | leaves : Reads h .leaving none { h with posted := h.posted ++ [.readerDone] }

/-- What a read that does not fail finds. -/
theorem read_cases {h h' : StaticHandler IP} {f : OpenFile} (isOpen : h.file = some f) {n : Nat} {r : Reader}
    (got : h.read (some n) = some (r, h')) :
    (f.content.length ≤ f.offset ∧ r = .posting .eom ∧ h' = { h with file := none }) ∨
    (0 < n ∧ f.offset + n ≤ f.content.length ∧
      r = .posting (.chunk f.offset ((f.content.drop f.offset).take n)) ∧
      h' = { h with file := some { f with offset := f.offset + n } }) := by
  simp only [read, isOpen] at got
  split at got
  · rename_i none
    cases none
  · split at got
    · rename_i atEnd
      cases got
      exact .inl ⟨atEnd, rfl, rfl⟩
    · cases got
  · rename_i nonzero same
    cases same
    split at got
    · rename_i fits
      cases got
      exact .inr ⟨Nat.pos_of_ne_zero nonzero, fits, rfl, rfl⟩
    · cases got

/-- Everything a step of `read_file` can do. -/
theorem readFile_cases {h h' : StaticHandler IP} {rc : Option Nat} {r : Reader} {next : Option Reader}
    (moved : h.readFile rc r = some (next, h')) : Reads h r next h' := by
  cases r with
  | loopHead =>
    simp only [readFile, Option.some.injEq, Prod.mk.injEq] at moved
    obtain ⟨rfl, rfl⟩ := moved
    split
    · rename_i open_
      exact .enters open_.1
    · exact .ends
  | reading =>
    simp only [readFile, Option.map_eq_some_iff] at moved
    obtain ⟨⟨r', h''⟩, got, same⟩ := moved
    cases same
    unfold read at got
    split at got
    · cases got
    · rename_i f isOpen
      split at got
      · cases got
        exact .stops (.inl rfl)
      · split at got
        · cases got
          exact .stops (.inr rfl)
        · cases got
      · rename_i n nonzero
        split at got
        · rename_i fits
          cases got
          exact .chunk isOpen (Nat.pos_of_ne_zero nonzero) fits
        · cases got
  | posting cb =>
    cases moved
    refine .posts ?_
    split
    · exact .inl rfl
    · exact .inr rfl
  | leaving =>
    cases moved
    exact .leaves

/-- A step of a job leaves the other jobs where they stand. -/
theorem Reads.readers {h h' : StaticHandler IP} {r : Reader} {next : Option Reader}
    (reads : Reads h r next h') : h'.readers = h.readers := by
  cases reads <;> rfl

/-- Inside the loop no job is about to post its last callback. -/
theorem Reads.inLoop {h h' : StaticHandler IP} {r : Reader} {next : Option Reader}
    (reads : Reads h r next h') : next ≠ some (.posting .readerDone) := by
  intro same
  cases reads with
  | stops last =>
    cases same
    rcases last with last | last <;> cases last
  | posts after =>
    cases same
    rcases after with after | after <;> cases after
  | _ => cases same

theorem Reads.sameOutput {h h' : StaticHandler IP} {r : Reader} {next : Option Reader}
    (reads : Reads h r next h') : SameOutput h h' := by
  cases reads <;> exact .of_downstream rfl rfl rfl

/-- A step of a job leaves the other jobs where they stand. -/
theorem readFile_readers {h h' : StaticHandler IP} {rc : Option Nat} {r : Reader} {next : Option Reader}
    (moved : h.readFile rc r = some (next, h')) : h'.readers = h.readers :=
  (readFile_cases moved).readers

/-- The `k`-th job goes on or ends. -/
theorem runReader_eq {h h' : StaticHandler IP} {k : Nat} {rc : Option Nat}
    (moved : h.runReader k rc = some h') :
    ∃ r next h'', h.readers[k]? = some r ∧ h.readFile rc r = some (next, h'') ∧ h' =
      { h'' with readers := next.elim (h.readers.eraseIdx k) (h.readers.set k) } := by
  unfold runReader at moved
  simp only [Option.bind_eq_bind, Option.bind_eq_some_iff] at moved
  obtain ⟨r, job, ⟨next, h''⟩, went, left⟩ := moved
  refine ⟨r, next, h'', job, went, ?_⟩
  cases next <;> (cases left; rw [readFile_readers went]; rfl)

/-- Everything the `k`-th job can do. -/
theorem runReader_cases {h h' : StaticHandler IP} {k : Nat} {rc : Option Nat}
    (moved : h.runReader k rc = some h') :
    ∃ r next h'', h.readers[k]? = some r ∧ Reads h r next h'' ∧
      (∀ x ∈ h'.readers, x ∈ h.readers ∨ next = some x) ∧ h' = { h'' with readers := h'.readers } := by
  obtain ⟨r, next, h'', job, went, rfl⟩ := runReader_eq moved
  refine ⟨r, next, h'', job, readFile_cases went, fun x hx => ?_, rfl⟩
  cases next with
  | some r' =>
    rcases List.mem_or_eq_of_mem_set hx with old | new
    · exact .inl old
    · exact .inr (congrArg some new.symm)
  | none => exact .inl (List.mem_of_mem_eraseIdx hx)

/-- What a step does to the output of the handler and to the cache. -/
inductive Effect (files : Bytes → Option Bytes) (docRoot : Bytes) (cache : StaticFileCache)
    (h : StaticHandler IP) : StaticEvent IP → StaticFileCache → StaticHandler IP → Prop where
  | asked {request : HTTPMessage IP} : h.request = none →
      Effect files docRoot cache h (.onRequest request) cache
        ({ h with request := some request }.onRequest files docRoot cache request)
  | appends {start : Nat} {body : Bytes} {rest : List StaticCallback} :
      h.posted = .chunk start body :: rest →
      Effect files docRoot cache h .callback (cache.appendData h.requestedFilePath body)
        (send { h with posted := rest } (.body body))
  | silent {e : StaticEvent IP} {h' : StaticHandler IP} : SameOutput h h' →
      Effect files docRoot cache h e cache h'

theorem onEgressResumed_sameOutput (h : StaticHandler IP) : SameOutput h h.onEgressResumed := by
  rcases onEgressResumed_cases h with eq | ⟨-, eq⟩ <;> rw [eq] <;> exact .of_downstream rfl rfl rfl

theorem finish_sameOutput (h : StaticHandler IP) : SameOutput h h.finish := by
  obtain ⟨deleted, eq⟩ := finish_eq h
  rw [eq]
  exact .of_downstream rfl rfl rfl

/-- What ends a response is no part of its body. -/
theorem send_sameOutput {h : StaticHandler IP} {e : Egress} (last : e = .abort ∨ e = .eom)
    (rest : List StaticCallback) : SameOutput h (send { h with posted := rest } e) := by
  refine ⟨rfl, rfl, ?_, ?_⟩
  · rcases last with rfl | rfl <;> simp [send, sentBody, Egress.chunk]
  · rcases last with rfl | rfl <;> simp [send]

/-- The last callback of a reader: the flag is cleared, then a finished handler deletes
itself and one that is not paused reads on. -/
theorem readerDone_eq {h : StaticHandler IP} {rest : List StaticCallback}
    (next : h.posted = .readerDone :: rest) (cache : StaticFileCache) :
    h.runCallback cache = some (cache,
      { h with
        posted := rest
        readFileScheduled := false
        deleted := h.deleted || h.finished
        readers :=
          if h.finished = false ∧ h.paused = false ∧ h.file.isSome then h.readers ++ [.loopHead]
          else h.readers }) := by
  simp only [runCallback, next, checkForCompletion, onEgressResumed_eq]
  cases finished : h.finished <;> cases paused : h.paused <;> simp

/-- Everything the next callback can do. -/
inductive Runs (cache : StaticFileCache) (h : StaticHandler IP) : StaticFileCache → StaticHandler IP → Prop where
  | abort {rest : List StaticCallback} : h.posted = .abort :: rest →
      Runs cache h cache (send { h with posted := rest } .abort)
  | eom {rest : List StaticCallback} : h.posted = .eom :: rest →
      Runs cache h cache (send { h with posted := rest } .eom)
  | chunk {start : Nat} {body : Bytes} {rest : List StaticCallback} : h.posted = .chunk start body :: rest →
      h.requestedFilePath ≠ [] →
      Runs cache h (cache.appendData h.requestedFilePath body) (send { h with posted := rest } (.body body))
  | readerDone {rest : List StaticCallback} : h.posted = .readerDone :: rest →
      Runs cache h cache
        { h with
          posted := rest
          readFileScheduled := false
          deleted := h.deleted || h.finished
          readers :=
            if h.finished = false ∧ h.paused = false ∧ h.file.isSome then h.readers ++ [.loopHead]
            else h.readers }

theorem runCallback_cases {h h' : StaticHandler IP} {cache cache' : StaticFileCache}
    (moved : h.runCallback cache = some (cache', h')) : Runs cache h cache' h' := by
  cases posted : h.posted with
  | nil =>
    simp only [runCallback, posted] at moved
    cases moved
  | cons cb rest =>
    cases cb with
    | abort =>
      simp only [runCallback, posted] at moved
      cases moved
      exact .abort posted
    | eom =>
      simp only [runCallback, posted] at moved
      cases moved
      exact .eom posted
    | chunk start body =>
      simp only [runCallback, posted, Option.ite_none_left_eq_some, Option.some.injEq, Prod.mk.injEq] at moved
      obtain ⟨path, rfl, rfl⟩ := moved
      exact .chunk posted path
    | readerDone =>
      rw [readerDone_eq posted] at moved
      cases moved
      exact .readerDone posted

/-- Everything a step can do. -/
inductive Steps (files : Bytes → Option Bytes) (docRoot : Bytes) (cache : StaticFileCache)
    (h : StaticHandler IP) : StaticEvent IP → StaticFileCache → StaticHandler IP → Prop where
  | asked {request : HTTPMessage IP} : h.finished = false → h.request = none →
      Steps files docRoot cache h (.onRequest request) cache
        ({ h with request := some request }.onRequest files docRoot cache request)
  | paused : h.finished = false →
      Steps files docRoot cache h .onEgressPaused cache { h with paused := true }
  | resumed : h.finished = false → Steps files docRoot cache h .onEgressResumed cache h.onEgressResumed
  | ended {e : StaticEvent IP} : e = .requestComplete ∨ e = .onError → h.finished = false →
      Steps files docRoot cache h e cache h.finish
  | reader {k : Nat} {rc : Option Nat} {h' : StaticHandler IP} : h.runReader k rc = some h' →
      Steps files docRoot cache h (.reader k rc) cache h'
  | callback {cache' : StaticFileCache} {h' : StaticHandler IP} :
      h.runCallback cache = some (cache', h') → Steps files docRoot cache h .callback cache' h'

section

variable {files : Bytes → Option Bytes} {docRoot : Bytes} {cache cache' : StaticFileCache}
  {h h' : StaticHandler IP} {e : StaticEvent IP}

theorem step_cases (moved : h.step files docRoot cache e = some (cache', h')) :
    Steps files docRoot cache h e cache' h' := by
  cases e with
  | onRequest request =>
    simp only [step, Option.ite_none_right_eq_some, Option.some.injEq, Prod.mk.injEq] at moved
    obtain ⟨⟨running, first⟩, rfl, rfl⟩ := moved
    exact .asked running (by simpa using first)
  | onEgressPaused =>
    simp only [step, Option.ite_none_left_eq_some, Option.some.injEq, Prod.mk.injEq] at moved
    obtain ⟨running, rfl, rfl⟩ := moved
    exact .paused (by simpa using running)
  | onEgressResumed =>
    simp only [step, Option.ite_none_left_eq_some, Option.some.injEq, Prod.mk.injEq] at moved
    obtain ⟨running, rfl, rfl⟩ := moved
    exact .resumed (by simpa using running)
  | requestComplete =>
    simp only [step, Option.ite_none_left_eq_some, Option.some.injEq, Prod.mk.injEq] at moved
    obtain ⟨running, rfl, rfl⟩ := moved
    exact .ended (.inl rfl) (by simpa using running)
  | onError =>
    simp only [step, Option.ite_none_left_eq_some, Option.some.injEq, Prod.mk.injEq] at moved
    obtain ⟨running, rfl, rfl⟩ := moved
    exact .ended (.inr rfl) (by simpa using running)
  | reader k rc =>
    simp only [step, Option.map_eq_some_iff] at moved
    obtain ⟨h'', went, same⟩ := moved
    cases same
    exact .reader went
  | callback => exact .callback moved

/-- What running a callback does to the output and to the cache. -/
theorem runCallback_effect (moved : h.runCallback cache = some (cache', h')) :
    Effect files docRoot cache h .callback cache' h' := by
  cases runCallback_cases moved with
  | abort _ => exact .silent (send_sameOutput (.inl rfl) _)
  | eom _ => exact .silent (send_sameOutput (.inr rfl) _)
  | chunk posted _ => exact .appends posted
  | readerDone _ => exact .silent (.of_downstream rfl rfl rfl)

/-- What a step does to the output of the handler and to the cache. -/
theorem step_effect (moved : h.step files docRoot cache e = some (cache', h')) :
    Effect files docRoot cache h e cache' h' := by
  cases step_cases moved with
  | asked _ first => exact .asked first
  | paused _ => exact .silent (.of_downstream rfl rfl rfl)
  | resumed _ => exact .silent (onEgressResumed_sameOutput h)
  | ended _ _ => exact .silent (finish_sameOutput h)
  | reader went =>
    obtain ⟨r, next, mid, -, reads, -, eq⟩ := runReader_cases went
    have out := reads.sameOutput
    rw [eq]
    exact .silent ⟨out.request, out.path, out.sentBody, out.responses⟩
  | callback went => exact runCallback_effect went

end

end StaticHandler

/-- A document root with one file. -/
def oneFile (path : Bytes) : Option Bytes :=
  if path = bytes "/srv/a.txt" then some (bytes "a") else none

def getFile : HTTPMessage Unit := ⟨some .get, bytes "/static/a.txt", [], ()⟩

end UrlShortener
