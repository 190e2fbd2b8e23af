import UrlShortener.Logic.Transition
import UrlShortener.StaticHandler

/-!
# Responses from the static file cache

The static handlers of a server share the cache. The entry of a file is made by its
first chunk and grows chunk by chunk, so a response from the cache is the whole file
only if the fill has ended and was not disturbed. `Undisturbed` says which steps
leave it alone: a request finds an entry only after some handler has sent as many
bytes as the file has, a chunk is appended only while no other handler has sent any
of the file, and the readers of a handler post their chunks in the order they read
them. Runs of such steps keep `WholeFill`, so each response from the cache is whole
(`cached_response_whole`); one after two fills at a time is not
(`second_fill_duplicates`).
-/

namespace UrlShortener
set_option autoImplicit false
open Transition

/-- The handlers of a server and their cache. -/
structure StaticServer (ι IP : Type) where
  cache : StaticFileCache
  handlers : ι → StaticHandler IP

/-- Handler `e.1` takes a step. -/
def StaticServer.step {ι IP : Type} [DecidableEq ι] (files : Bytes → Option Bytes) (docRoot : Bytes)
    (s : StaticServer ι IP) (e : ι × StaticEvent IP) : Option (StaticServer ι IP) :=
  ((s.handlers e.1).step files docRoot s.cache e.2).map fun (cache, h) =>
    ⟨cache, Function.update s.handlers e.1 h⟩

/-- Nothing is cached and no handler has been called. -/
def StaticServer.start {ι IP : Type} : StaticServer ι IP := ⟨fun _ => none, fun _ => {}⟩

/-- The step does not disturb the fill of a cache entry. -/
structure Undisturbed {ι IP : Type} (files : Bytes → Option Bytes) (docRoot : Bytes)
    (s : StaticServer ι IP) (e : ι × StaticEvent IP) : Prop where
  /-- A request for a file that is in the cache comes when the file has been sent. -/
  filled : ∀ request path, e.2 = .onRequest request →
    StaticHandler.requestedFile docRoot request = .ok path → s.cache path ≠ none →
    ∃ j content, (s.handlers j).requestedFilePath = path ∧ files path = some content ∧
      content.length ≤ (s.handlers j).sentBody.length
  /-- A chunk is appended while no other handler has sent any of the file. -/
  alone : ∀ start body rest, e.2 = .callback → (s.handlers e.1).posted = .chunk start body :: rest →
    ∀ j, j ≠ e.1 → (s.handlers j).requestedFilePath = (s.handlers e.1).requestedFilePath →
    (s.handlers j).sentBody = []
  /-- A chunk is posted where the chunks posted before it end. -/
  inOrder : ∀ k rc start body, e.2 = .reader k rc →
    (s.handlers e.1).readers[k]? = some (.posting (.chunk start body)) →
    start = (s.handlers e.1).streamed.length

/-! ## One handler -/

/-- What the handler streams is the start of its file. -/
structure Streaming {IP : Type} (files : Bytes → Option Bytes) (h : StaticHandler IP) : Prop where
  opened : ∀ f, h.file = some f → files h.requestedFilePath = some f.content
  read : ∀ start body, .posting (.chunk start body) ∈ h.readers →
    body ≠ [] ∧ ∃ content, files h.requestedFilePath = some content ∧ body <+: content.drop start
  posted : ∀ start body, .chunk start body ∈ h.posted → body ≠ []
  streamed : ∀ content, files h.requestedFilePath = some content → h.streamed <+: content
  uncalled : h.request = none → h.file = none ∧ h.readers = [] ∧ h.posted = [] ∧ h.downstream = []

/-- Appending the bytes that follow a start of the file gives a start of the file. -/
theorem append_prefix {start body content : Bytes} (before : start <+: content)
    (next : body <+: content.drop start.length) : start ++ body <+: content := by
  obtain ⟨rest, rfl⟩ := before
  rw [List.drop_left] at next
  exact (List.prefix_append_right_inj start).mpr next

section

variable {IP : Type} {files : Bytes → Option Bytes} {h h' : StaticHandler IP}

theorem streaming_uncalled : Streaming files ({} : StaticHandler IP) where
  opened := fun f isOpen => by cases isOpen
  read := fun start body reading => by cases reading
  posted := fun start body pending => by cases pending
  streamed := fun content _ => List.nil_prefix
  uncalled := fun _ => ⟨rfl, rfl, rfl, rfl⟩

/-- A step that keeps the request and the output, reads only from the open file and
posts only what continues the stream. -/
theorem Streaming.keep (inv : Streaming files h) (request : h'.request = h.request)
    (path : h'.requestedFilePath = h.requestedFilePath)
    (file : ∀ f, h'.file = some f → ∃ g, h.file = some g ∧ g.content = f.content)
    (read : ∀ start body, .posting (.chunk start body) ∈ h'.readers →
      .posting (.chunk start body) ∈ h.readers ∨
        body ≠ [] ∧ ∃ f, h.file = some f ∧ body <+: f.content.drop start)
    (posted : ∀ start body, .chunk start body ∈ h'.posted →
      .chunk start body ∈ h.posted ∨ .posting (.chunk start body) ∈ h.readers)
    (streamed : ∀ content, files h.requestedFilePath = some content → h'.streamed <+: content)
    (uncalled : h.request = none → h'.readers = [] ∧ h'.posted = [] ∧ h'.downstream = []) :
    Streaming files h' where
  opened := by
    intro f isOpen
    obtain ⟨g, was, same⟩ := file f isOpen
    rw [path, inv.opened g was, same]
  read := by
    intro start body reading
    rw [path]
    rcases read start body reading with old | ⟨real, f, isOpen, part⟩
    · exact inv.read start body old
    · exact ⟨real, f.content, inv.opened f isOpen, part⟩
  posted := by
    intro start body pending
    rcases posted start body pending with old | reading
    · exact inv.posted start body old
    · exact (inv.read start body reading).1
  streamed := by
    rw [path]
    exact streamed
  uncalled := by
    intro none
    rw [request] at none
    obtain ⟨readers, pending, egress⟩ := uncalled none
    refine ⟨?_, readers, pending, egress⟩
    cases isOpen : h'.file with
    | none => rfl
    | some f =>
      obtain ⟨g, was, -⟩ := file f isOpen
      rw [(inv.uncalled none).1] at was
      cases was

/-- Changing nothing but the flags and adding at most idle readers. -/
theorem Streaming.same (inv : Streaming files h) (request : h'.request = h.request)
    (path : h'.requestedFilePath = h.requestedFilePath) (file : h'.file = h.file)
    (readers : h'.readers = h.readers ∨ h'.readers = h.readers ++ [.loopHead] ∧ h.file.isSome)
    (posted : h'.posted = h.posted) (downstream : h'.downstream = h.downstream) :
    Streaming files h' := by
  refine inv.keep request path (fun f isOpen => ⟨f, file ▸ isOpen, rfl⟩) ?_ ?_ ?_ ?_
  · intro start body reading
    rcases readers with eq | ⟨eq, -⟩
    · exact .inl (eq ▸ reading)
    · rw [eq] at reading
      exact .inl (by simpa using reading)
  · intro start body pending
    exact .inl (posted ▸ pending)
  · intro content found
    have same : h'.streamed = h.streamed := by
      unfold StaticHandler.streamed StaticHandler.sentBody
      rw [posted, downstream]
    rw [same]
    exact inv.streamed content found
  · intro none
    obtain ⟨shut, idle, pending, egress⟩ := inv.uncalled none
    refine ⟨?_, posted.trans pending, downstream.trans egress⟩
    rcases readers with eq | ⟨-, isOpen⟩
    · exact eq.trans idle
    · rw [shut] at isOpen
      cases isOpen

/-- A reader job goes on. -/
theorem Streaming.reader (inv : Streaming files h) {k : Nat} {rc : Option Nat}
    (moved : h.runReader k rc = some h')
    (inOrder : ∀ start body, h.readers[k]? = some (.posting (.chunk start body)) →
      start = h.streamed.length) : Streaming files h' := by
  obtain ⟨r, next, mid, job, reads, members, eq⟩ := StaticHandler.runReader_cases moved
  generalize h'.readers = readers at members eq
  subst eq
  have called : h.request ≠ none := by
    intro none
    rw [(inv.uncalled none).2.1] at job
    cases job
  have holds {start : Nat} {body : Bytes} (mem : .posting (.chunk start body) ∈ readers) :
      .posting (.chunk start body) ∈ h.readers ∨ next = some (.posting (.chunk start body)) :=
    members _ mem
  cases reads with
  | enters _ | ends =>
    refine inv.keep rfl rfl (fun f isOpen => ⟨f, isOpen, rfl⟩) (fun start body mem => ?_)
      (fun _ _ pending => .inl pending) inv.streamed (fun none => absurd none called)
    exact .inl ((holds mem).resolve_right fun same => by cases same)
  | stops last =>
    refine inv.keep rfl rfl (fun f shut => by cases shut) (fun start body mem => ?_)
      (fun _ _ pending => .inl pending) inv.streamed (fun none => absurd none called)
    refine .inl ((holds mem).resolve_right ?_)
    rcases last with rfl | rfl <;> (intro same; cases same)
  | chunk isOpen positive fits =>
    rename_i f n
    refine inv.keep rfl rfl ?_ (fun start body mem => ?_)
      (fun _ _ pending => .inl pending) inv.streamed (fun none => absurd none called)
    · intro g now
      cases now
      exact ⟨f, isOpen, rfl⟩
    · rcases holds mem with old | new
      · exact .inl old
      · cases new
        refine .inr ⟨?_, f, isOpen, List.take_prefix ..⟩
        rw [ne_eq, ← List.length_eq_zero_iff, List.length_take, List.length_drop]
        omega
  | posts after =>
    rename_i cb next
    refine inv.keep rfl rfl (fun f isOpen => ⟨f, isOpen, rfl⟩) (fun start body mem => ?_) ?_ ?_
      (fun none => absurd none called)
    · refine .inl ((holds mem).resolve_right ?_)
      rcases after with rfl | rfl <;> (intro same; cases same)
    · intro start body pending
      rcases List.mem_append.mp pending with old | new
      · exact .inl old
      · rw [List.mem_singleton] at new
        subst new
        exact .inr (List.mem_of_getElem? job)
    · intro content found
      have grown : StaticHandler.streamed { h with posted := h.posted ++ [cb], readers := readers } =
          h.streamed ++ cb.data := by
        simp [StaticHandler.streamed, StaticHandler.sentBody]
      rw [grown]
      cases cb with
      | chunk start body =>
        obtain ⟨-, content', found', part⟩ := inv.read start body (List.mem_of_getElem? job)
        rw [found] at found'
        cases found'
        rw [inOrder start body job] at part
        exact append_prefix (inv.streamed content found) part
      | abort => simpa [StaticCallback.data] using inv.streamed content found
      | eom => simpa [StaticCallback.data] using inv.streamed content found
      | readerDone => simpa [StaticCallback.data] using inv.streamed content found
  | leaves =>
    refine inv.keep rfl rfl (fun f isOpen => ⟨f, isOpen, rfl⟩) (fun start body mem => ?_) ?_ ?_
      (fun none => absurd none called)
    · exact .inl ((holds mem).resolve_right fun same => by cases same)
    · intro start body pending
      exact .inl (by simpa using pending)
    · intro content found
      simpa [StaticHandler.streamed, StaticHandler.sentBody, StaticCallback.data] using
        inv.streamed content found

/-- The event loop runs a callback. -/
theorem Streaming.callback (inv : Streaming files h) {cache cache' : StaticFileCache}
    (moved : h.runCallback cache = some (cache', h')) : Streaming files h' := by
  have called {cb : StaticCallback} {rest : List StaticCallback} (pending : h.posted = cb :: rest) :
      h.request ≠ none := by
    intro none
    rw [(inv.uncalled none).2.2.1] at pending
    cases pending
  have sends {cb : StaticCallback} {rest : List StaticCallback} (pending : h.posted = cb :: rest) (e : Egress)
      (same : e.chunk = cb.data) : Streaming files (StaticHandler.send { h with posted := rest } e) := by
    refine inv.keep rfl rfl (fun f isOpen => ⟨f, isOpen, rfl⟩) (fun _ _ reading => .inl reading) ?_ ?_
      (fun none => absurd none (called pending))
    · intro start body mem
      exact .inl (pending ▸ List.mem_cons_of_mem _ mem)
    · intro content found
      have moves : (StaticHandler.send { h with posted := rest } e).streamed = h.streamed := by
        simp [StaticHandler.send, StaticHandler.streamed, StaticHandler.sentBody, pending, same]
      rw [moves]
      exact inv.streamed content found
  cases StaticHandler.runCallback_cases moved with
  | abort pending => exact sends pending .abort rfl
  | eom pending => exact sends pending .eom rfl
  | chunk pending _ => exact sends pending (.body _) rfl
  | readerDone pending =>
    refine inv.keep rfl rfl (fun f isOpen => ⟨f, isOpen, rfl⟩) ?_ ?_ ?_
      (fun none => absurd none (called pending))
    · intro start body reading
      dsimp only at reading
      split at reading
      · exact .inl (by simpa using reading)
      · exact .inl reading
    · intro start body mem
      exact .inl (pending ▸ List.mem_cons_of_mem _ mem)
    · intro content found
      simpa [StaticHandler.streamed, StaticHandler.sentBody, pending, StaticCallback.data] using
        inv.streamed content found

/-- The handler is called: nothing has been streamed. -/
theorem Streaming.onRequest (inv : Streaming files h) (uncalled : h.request = none) (docRoot : Bytes)
    (cache : StaticFileCache) (request : HTTPMessage IP) :
    Streaming files ({ h with request := some request }.onRequest files docRoot cache request) := by
  obtain ⟨shut, idle, pending, egress⟩ := inv.uncalled uncalled
  rcases StaticHandler.onRequest_cases files docRoot cache request { h with request := some request } with
    ⟨r, eq, -⟩ | ⟨path, content, -, -, found, eq⟩ <;> rw [eq]
  · refine ⟨?_, ?_, ?_, ?_, fun none => by cases none⟩ <;>
      simp [StaticHandler.send, StaticHandler.streamed, StaticHandler.sentBody, shut, idle, pending,
        egress, Egress.chunk]
  · refine ⟨?_, ?_, ?_, ?_, fun none => by cases none⟩ <;>
      simp [StaticHandler.streamed, StaticHandler.sentBody, idle, pending, egress, Egress.chunk, found]

/-- **One step of a handler.** -/
theorem Streaming.step (inv : Streaming files h) {docRoot : Bytes} {cache cache' : StaticFileCache}
    {e : StaticEvent IP} (moved : h.step files docRoot cache e = some (cache', h'))
    (inOrder : ∀ k rc start body, e = .reader k rc →
      h.readers[k]? = some (.posting (.chunk start body)) → start = h.streamed.length) :
    Streaming files h' := by
  cases StaticHandler.step_cases moved with
  | @asked request _ uncalled => exact inv.onRequest uncalled docRoot cache request
  | paused _ => exact inv.same rfl rfl rfl (.inl rfl) rfl rfl
  | resumed _ =>
    rcases StaticHandler.onEgressResumed_cases h with eq | ⟨isOpen, eq⟩ <;> rw [eq]
    · exact inv.same rfl rfl rfl (.inl rfl) rfl rfl
    · exact inv.same rfl rfl rfl (.inr ⟨rfl, isOpen⟩) rfl rfl
  | ended _ _ =>
    obtain ⟨deleted, eq⟩ := StaticHandler.finish_eq h
    rw [eq]
    exact inv.same rfl rfl rfl (.inl rfl) rfl rfl
  | @reader k rc _ went => exact inv.reader went fun start body job => inOrder k rc start body rfl job
  | callback went => exact inv.callback went

end

/-! ## The cache -/

section

variable {ι IP : Type} {files : Bytes → Option Bytes} {docRoot : Bytes}

/-- Every entry holds what the one handler that fills it has sent, and every response
from the cache is the whole file. -/
structure WholeFill (files : Bytes → Option Bytes) (docRoot : Bytes) (s : StaticServer ι IP) :
    Prop where
  streaming : ∀ i, Streaming files (s.handlers i)
  filled : ∀ i, (s.handlers i).sentBody ≠ [] →
    s.cache (s.handlers i).requestedFilePath = some (s.handlers i).sentBody
  filler : ∀ path data, s.cache path = some data →
    data ≠ [] ∧ ∃ i, (s.handlers i).requestedFilePath = path ∧ (s.handlers i).sentBody = data
  served : ∀ i request r, (s.handlers i).request = some request →
    .response r ∈ (s.handlers i).downstream → r.status = 200 →
    ∃ path, StaticHandler.requestedFile docRoot request = .ok path ∧ files path = some r.body

theorem wholeFill_start : WholeFill files docRoot (StaticServer.start : StaticServer ι IP) where
  streaming := fun _ => streaming_uncalled
  filled := fun _ sent => absurd rfl sent
  filler := fun _ _ held => by cases held
  served := fun _ _ _ asked => by cases asked

theorem Streaming.sentBody {h : StaticHandler IP} (inv : Streaming files h) {content : Bytes}
    (found : files h.requestedFilePath = some content) : h.sentBody <+: content :=
  (List.prefix_append ..).trans (inv.streamed content found)

theorem Streaming.sentBody_uncalled {h : StaticHandler IP} (inv : Streaming files h)
    (uncalled : h.request = none) : h.sentBody = [] := by
  obtain ⟨-, -, -, egress⟩ := inv.uncalled uncalled
  unfold StaticHandler.sentBody
  rw [egress]
  rfl

/-- **An entry found after the file has been sent is the whole file.** -/
theorem WholeFill.hit {s : StaticServer ι IP} (inv : WholeFill files docRoot s) {path data : Bytes}
    (held : s.cache path = some data)
    (sent : ∃ j content, (s.handlers j).requestedFilePath = path ∧ files path = some content ∧
      content.length ≤ (s.handlers j).sentBody.length) : files path = some data := by
  obtain ⟨j, content, rfl, found, enough⟩ := sent
  have whole : (s.handlers j).sentBody = content :=
    ((inv.streaming j).sentBody found).eq_of_length_le enough
  rw [found]
  by_cases empty : content = []
  · -- an empty file has no chunk, so nobody can have made the entry
    obtain ⟨real, i, same, filled⟩ := inv.filler _ _ held
    have part := (inv.streaming i).sentBody (same ▸ found)
    rw [filled, empty] at part
    exact absurd (List.prefix_nil.mp part) real
  · have entry := inv.filled j (whole ▸ empty)
    rw [held, whole] at entry
    exact entry.symm

end

section

variable {ι IP : Type} [DecidableEq ι] {files : Bytes → Option Bytes} {docRoot : Bytes}
  {s : StaticServer ι IP} {i : ι} {h : StaticHandler IP}

/-- A handler that sends no chunk keeps the cache as it should be. -/
theorem WholeFill.silent (inv : WholeFill files docRoot s) (streaming : Streaming files h)
    (sent : h.sentBody = (s.handlers i).sentBody)
    (path : h.requestedFilePath = (s.handlers i).requestedFilePath ∨ h.sentBody = [])
    (served : ∀ request r, h.request = some request → .response r ∈ h.downstream → r.status = 200 →
      ∃ path, StaticHandler.requestedFile docRoot request = .ok path ∧ files path = some r.body) :
    WholeFill files docRoot ⟨s.cache, Function.update s.handlers i h⟩ where
  streaming := by
    intro j
    by_cases same : j = i
    · subst same
      simpa using streaming
    · simpa [same] using inv.streaming j
  filled := by
    intro j
    by_cases same : j = i
    · subst same
      simp only [Function.update_self]
      intro real
      rcases path with path | none
      · rw [path, sent]
        exact inv.filled j (sent ▸ real)
      · exact absurd none real
    · simpa [same] using inv.filled j
  filler := by
    intro p data held
    obtain ⟨real, j, name, filled⟩ := inv.filler p data held
    refine ⟨real, j, ?_⟩
    by_cases same : j = i
    · subst same
      simp only [Function.update_self]
      rw [sent]
      rcases path with path | none
      · exact ⟨path.trans name, filled⟩
      · rw [← filled, ← sent] at real
        exact absurd none real
    · simpa [same] using ⟨name, filled⟩
  served := by
    intro j
    by_cases same : j = i
    · subst same
      simpa using served
    · simpa [same] using inv.served j

/-- A chunk is appended by the only handler that fills the entry. -/
theorem WholeFill.appends (inv : WholeFill files docRoot s) (streaming : Streaming files h) {body : Bytes}
    (real : body ≠ []) (sent : h.sentBody = (s.handlers i).sentBody ++ body)
    (request : h.request = (s.handlers i).request)
    (path : h.requestedFilePath = (s.handlers i).requestedFilePath)
    (responses : ∀ r, .response r ∈ h.downstream → .response r ∈ (s.handlers i).downstream)
    (alone : ∀ j, j ≠ i → (s.handlers j).requestedFilePath = (s.handlers i).requestedFilePath →
      (s.handlers j).sentBody = []) :
    WholeFill files docRoot ⟨s.cache.appendData (s.handlers i).requestedFilePath body,
      Function.update s.handlers i h⟩ := by
  have grown : s.cache.appendData (s.handlers i).requestedFilePath body =
      Function.update s.cache (s.handlers i).requestedFilePath (some h.sentBody) := by
    unfold StaticFileCache.appendData
    split
    · rename_i missing
      have first : (s.handlers i).sentBody = [] := by
        by_contra started
        rw [inv.filled i started] at missing
        cases missing
      rw [sent, first, List.nil_append]
    · rename_i data held
      obtain ⟨started, j, name, filled⟩ := inv.filler _ _ held
      have same : j = i := by
        by_contra other
        exact started (filled ▸ alone j other name)
      rw [sent, ← filled, same]
  have nonempty : h.sentBody ≠ [] := by
    rw [sent]
    exact fun none => real (List.append_eq_nil_iff.mp none).2
  rw [grown]
  refine ⟨fun j => ?_, fun j => ?_, fun p data held => ?_, fun j => ?_⟩
  · by_cases same : j = i
    · subst same
      simpa using streaming
    · simpa [same] using inv.streaming j
  · by_cases same : j = i
    · subst same
      intro _
      simp [path]
    · simp only [Function.update_of_ne same]
      intro started
      have name : (s.handlers j).requestedFilePath ≠ (s.handlers i).requestedFilePath :=
        fun name => started (alone j same name)
      rw [Function.update_of_ne name]
      exact inv.filled j started
  · change Function.update s.cache _ (some h.sentBody) p = some data at held
    by_cases name : p = (s.handlers i).requestedFilePath
    · subst name
      rw [Function.update_self] at held
      cases held
      exact ⟨nonempty, i, by simp [path]⟩
    · rw [Function.update_of_ne name] at held
      obtain ⟨started, j, named, filled⟩ := inv.filler p data held
      have other : j ≠ i := fun same => name (by rw [← named, same])
      exact ⟨started, j, by simpa [other] using ⟨named, filled⟩⟩
  · by_cases same : j = i
    · subst same
      intro req r asked answered
      simp only [Function.update_self] at asked answered
      exact inv.served j req r (request ▸ asked) (responses r answered)
    · simpa [same] using inv.served j

/-- **One undisturbed step.** -/
theorem WholeFill.step (inv : WholeFill files docRoot s) {e : ι × StaticEvent IP}
    {s' : StaticServer ι IP} (undisturbed : Undisturbed files docRoot s e)
    (moved : s.step files docRoot e = some s') : WholeFill files docRoot s' := by
  obtain ⟨i, event⟩ := e
  simp only [StaticServer.step, Option.map_eq_some_iff] at moved
  obtain ⟨⟨cache, h⟩, went, same⟩ := moved
  cases same
  have streaming := (inv.streaming i).step went fun k rc start body here =>
    undisturbed.inOrder k rc start body here
  cases StaticHandler.step_effect went with
  | asked uncalled =>
    rename_i request
    obtain ⟨-, -, -, egress⟩ := (inv.streaming i).uncalled uncalled
    obtain ⟨called, nothing, fromCache⟩ := StaticHandler.onRequest_output files docRoot s.cache request
      (h := { s.handlers i with request := some request }) egress
    have before := (inv.streaming i).sentBody_uncalled uncalled
    refine inv.silent streaming (nothing.trans before.symm) (.inr nothing) ?_
    intro req r asked answered success
    cases called.symm.trans asked
    obtain ⟨path, target, held⟩ := fromCache r answered success
    have sent := undisturbed.filled request path rfl target (by rw [held]; nofun)
    exact ⟨path, target, inv.hit held sent⟩
  | appends posted =>
    rename_i start body rest
    have real : body ≠ [] := (inv.streaming i).posted start body (by simp [posted])
    refine inv.appends streaming real ?_ rfl rfl ?_ (undisturbed.alone start body rest rfl posted)
    · simp [StaticHandler.send, StaticHandler.sentBody, Egress.chunk]
    · intro r answered
      simpa [StaticHandler.send] using answered
  | silent out =>
    refine inv.silent streaming out.sentBody (.inl out.path) ?_
    intro req r asked answered
    exact inv.served i req r (out.request ▸ asked) (out.responses r answered)

/-- **Every response from the cache is the whole file while the fills are
undisturbed.** -/
theorem cached_response_whole (files : Bytes → Option Bytes) (docRoot : Bytes) (s : StaticServer ι IP)
    (run : Runs (StaticServer.step files docRoot) (Undisturbed files docRoot) .start s) (i : ι)
    (request : HTTPMessage IP) (r : Response) (asked : (s.handlers i).request = some request)
    (answered : .response r ∈ (s.handlers i).downstream) (success : r.status = 200) :
    ∃ path, StaticHandler.requestedFile docRoot request = .ok path ∧ files path = some r.body := by
  have whole := run.invariant (WholeFill files docRoot) wholeFill_start
    fun a e b inv undisturbed moved => inv.step undisturbed moved
  exact whole.served i request r asked answered success

end

/-! ## A file of one byte -/

/-- A handler is called. -/
theorem undisturbed_onRequest {ι IP : Type} {files : Bytes → Option Bytes} {docRoot : Bytes}
    {s : StaticServer ι IP} {i : ι} {request : HTTPMessage IP}
    (filled : ∀ path, StaticHandler.requestedFile docRoot request = .ok path → s.cache path ≠ none →
      ∃ j content, (s.handlers j).requestedFilePath = path ∧ files path = some content ∧
        content.length ≤ (s.handlers j).sentBody.length) :
    Undisturbed files docRoot s (i, .onRequest request) where
  filled := by
    intro req path same
    cases same
    exact filled path
  alone := nofun
  inOrder := nofun

/-- A job that holds no chunk, or the next one, goes on. -/
theorem undisturbed_reader {ι IP : Type} {files : Bytes → Option Bytes} {docRoot : Bytes}
    {s : StaticServer ι IP} {i : ι} {k : Nat} {rc : Option Nat} {r : Option Reader}
    (job : (s.handlers i).readers[k]? = r)
    (next : ∀ start body, r = some (.posting (.chunk start body)) →
      start = (s.handlers i).streamed.length) :
    Undisturbed files docRoot s (i, .reader k rc) where
  filled := nofun
  alone := nofun
  inOrder := by
    intro k' rc' start body same holds
    cases same
    exact next start body (job ▸ holds)

/-- The first handler fills the entry, the second is answered from it. -/
theorem cached_response_whole_second : ∃ s, replay (StaticServer.step oneFile (bytes "/srv")) .start
      [(false, .onRequest getFile), (false, .reader 0 none), (false, .reader 0 (some 1)),
        (false, .reader 0 none), (false, .callback), (true, .onRequest getFile)] = some s ∧
    ∃ path, StaticHandler.requestedFile (bytes "/srv") getFile = .ok path ∧
      oneFile path = some (bytes "a") := by
  refine ⟨_, rfl, ?_⟩
  refine cached_response_whole oneFile (bytes "/srv") _
    (.snoc (e := (true, .onRequest getFile)) (.snoc (e := (false, .callback))
    (.snoc (e := (false, .reader 0 none)) (.snoc (e := (false, .reader 0 (some 1)))
    (.snoc (e := (false, .reader 0 none)) (.snoc (e := (false, .onRequest getFile)) .refl
    ?asked rfl) ?head rfl) ?read rfl) ?post rfl) ?append rfl) ?hit rfl)
    true getFile ⟨200, bytes "OK", [], bytes "a"⟩ rfl (by exact .head _) rfl
  case asked => exact undisturbed_onRequest fun _ _ held => absurd rfl held
  case head => exact undisturbed_reader rfl nofun
  case read => exact undisturbed_reader rfl nofun
  case post =>
    refine undisturbed_reader rfl fun start body holds => ?_
    cases holds
    rfl
  case append =>
    refine ⟨nofun, fun start body rest _ _ j other _ => ?_, nofun⟩
    cases j with
    | false => exact absurd rfl other
    | true => rfl
  case hit =>
    refine undisturbed_onRequest fun path target _ => ?_
    cases target
    exact ⟨false, bytes "a", rfl, rfl, Nat.le_refl 1⟩

/-- Two requests miss, both readers append the file, and a third request is answered
with its content twice. -/
theorem second_fill_duplicates : ∃ s, replay (StaticServer.step oneFile (bytes "/srv")) .start
      [((0 : Nat), .onRequest getFile), (1, .onRequest getFile), (0, .reader 0 none),
        (0, .reader 0 (some 1)), (0, .reader 0 none), (0, .callback), (1, .reader 0 none),
        (1, .reader 0 (some 1)), (1, .reader 0 none), (1, .callback), (2, .onRequest getFile)] =
        some s ∧
    (s.handlers 2).downstream = [.response ⟨200, bytes "OK", [], bytes "aa"⟩] ∧
    StaticHandler.requestedFile (bytes "/srv") getFile = .ok (bytes "/srv/a.txt") ∧
    oneFile (bytes "/srv/a.txt") ≠ some (bytes "aa") :=
  ⟨_, rfl, rfl, rfl, by decide⟩

end UrlShortener
