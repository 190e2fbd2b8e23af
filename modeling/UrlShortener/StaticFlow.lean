import UrlShortener.Logic.Transition
import UrlShortener.StaticHandler

/-!
# Streaming under flow control

What a handler has sent, posted and is about to post is its `script`: a header, the
chunks read so far and, once the file has ended, the EOM. As long as one reader is
active at a time every step keeps the script or adds to its end (`StreamsInOrder.step`), so
the chunks are delivered in order and the EOM comes last (`stream_in_order`). Only the
first reader sets `read_file_scheduled_`; a resumed one does not, and a second resume
starts another next to it (`two_readers_at_once`). If the client resumes only while the flag
is set, the file closed or no reader at work, then no reader is started next to another,
the one that a last callback starts included (`OneReader.step`); any other resume leads to
two of them (`two_readers_of_resume`).
-/

namespace UrlShortener
set_option autoImplicit false
open Transition

variable {IP : Type}

/-- What the callback will send. -/
def StaticCallback.egress : StaticCallback → List Egress
  | .abort => [.abort]
  | .eom => [.eom]
  | .chunk _ body => [.body body]
  | .readerDone => []

/-- What the reader is about to post. -/
def Reader.egress : Reader → List Egress
  | .posting cb => cb.egress
  | _ => []

/-- What was sent, posted and read, in that order. -/
def StaticHandler.script (h : StaticHandler IP) : List Egress :=
  h.downstream ++ h.posted.flatMap StaticCallback.egress ++ h.readers.flatMap Reader.egress

/-- The response has ended. -/
def Egress.isEnd : Egress → Bool
  | .response _ => true
  | .eom => true
  | _ => false

/-- No reader is active and the last callback of none is posted. -/
def StaticHandler.Idle (h : StaticHandler IP) : Prop := h.readers = [] ∧ .readerDone ∉ h.posted

/-- No read fails, and the client resumes only while the flag is set, the file is closed or
no reader is at work. -/
structure ResumesAlone (h : StaticHandler IP) (e : StaticEvent IP) : Prop where
  reads : ∀ k, e = .reader k none → h.readers[k]? ≠ some .reading
  alone : e = .onEgressResumed → h.readFileScheduled = true ∨ h.file = none ∨ h.Idle

/-- A resume that starts a reader finds none at work. -/
theorem ResumesAlone.idle {h : StaticHandler IP} (ok : ResumesAlone h .onEgressResumed)
    (due : h.readFileScheduled = false ∧ h.file.isSome) : h.Idle := by
  rcases ok.alone rfl with set | shut | idle
  · rw [set] at due
    cases due.1
  · rw [shut] at due
    cases due.2
  · exact idle

/-- One reader at most is active, the chunks sent are the start of the file, and the
response ends once, a streamed one after the whole file. -/
structure DeliveredInOrder (files : Bytes → Option Bytes) (h : StaticHandler IP) : Prop where
  oneReader : h.readers.length ≤ 1
  inOrder : ∀ content, files h.requestedFilePath = some content → h.sentBody <+: content
  endsOnce : (h.downstream.filter Egress.isEnd).length ≤ 1
  complete : .eom ∈ h.downstream → files h.requestedFilePath = some h.sentBody

/-- The script of a file. -/
structure Scripted (files : Bytes → Option Bytes) (h : StaticHandler IP) (content : Bytes)
    (chunks : List Bytes) (last : List Egress) : Prop where
  called : h.request ≠ none
  found : files h.requestedFilePath = some content
  script : h.script = .headers 200 (bytes "OK") :: (chunks.map .body ++ last)

/-- One reader at most is active or has its last callback posted. -/
structure OneReader (h : StaticHandler IP) : Prop where
  sane : .posting .readerDone ∉ h.readers
  single : h.readers.length + h.posted.count .readerDone ≤ 1

/-- Where a handler stands with one reader at a time. -/
inductive StreamsInOrder (files : Bytes → Option Bytes) (h : StaticHandler IP) : Prop where
  | uncalled : h.request = none → h.file = none → h.readers = [] → h.posted = [] → h.downstream = [] →
      StreamsInOrder files h
  | answered {r : Response} : h.request ≠ none → h.file = none → h.readers = [] → h.posted = [] →
      h.downstream = [.response r] → StreamsInOrder files h
  | streaming {f : OpenFile} {chunks : List Bytes} : Scripted files h f.content chunks [] →
      h.file = some f → chunks.flatten = f.content.take f.offset → StreamsInOrder files h
  | ended {content : Bytes} {chunks : List Bytes} : Scripted files h content chunks [.eom] →
      h.file = none → .reading ∉ h.readers → chunks.flatten = content → StreamsInOrder files h

namespace OneReader

variable {h h' : StaticHandler IP}

theorem start : OneReader ({} : StaticHandler IP) where
  sane := fun mem => by cases mem
  single := Nat.zero_le 1

/-- A step that starts no reader and ends none. -/
theorem same (one : OneReader h) (readers : h'.readers = h.readers) (posted : h'.posted = h.posted) : OneReader h' where
  sane := readers ▸ one.sane
  single := by
    rw [readers, posted]
    exact one.single

/-- A reader is started where none is at work. -/
theorem added (idle : h.Idle) (readers : h'.readers = h.readers ++ [.loopHead])
    (posted : h'.posted.count .readerDone = h.posted.count .readerDone) : OneReader h' where
  sane := by
    rw [readers, idle.1]
    intro mem
    cases List.mem_singleton.mp mem
  single := by
    rw [readers, idle.1, posted, List.count_eq_zero_of_not_mem idle.2]
    exact Nat.le_refl 1

/-- One active reader is the only one. -/
theorem only_reader (one : OneReader h) {k : Nat} {r : Reader} (job : h.readers[k]? = some r) :
    k = 0 ∧ h.readers = [r] := by
  have single := one.single
  obtain ⟨first, readers⟩ : ∃ first, h.readers = [first] := by
    have positive := List.length_pos_of_mem (List.mem_of_getElem? job)
    exact List.length_eq_one_iff.mp (by omega)
  rw [readers] at job
  cases k with
  | zero =>
    cases job
    exact ⟨rfl, readers⟩
  | succ k => cases job

/-- A last callback leaves no reader behind, and no other last callback. -/
theorem alone_of_readerDone (one : OneReader h) {rest : List StaticCallback} (posted : h.posted = .readerDone :: rest) :
    h.readers = [] ∧ .readerDone ∉ rest := by
  have single := one.single
  rw [posted, List.count_cons_self] at single
  exact ⟨List.length_eq_zero_iff.mp (by omega), List.count_eq_zero.mp (by omega)⟩

/-- The reader goes on, or leaves its last callback behind. -/
theorem reader (one : OneReader h) {k : Nat} {rc : Option Nat} (moved : h.runReader k rc = some h') :
    OneReader h' := by
  obtain ⟨r, next, h'', job, went, rfl⟩ := StaticHandler.runReader_eq moved
  have reads := StaticHandler.readFile_cases went
  obtain ⟨rfl, here⟩ := one.only_reader job
  have sane : .posting .readerDone ∉ next.elim (h.readers.eraseIdx 0) (h.readers.set 0) := by
    rw [here]
    cases next with
    | none => exact List.not_mem_nil
    | some r' => exact fun mem => reads.inLoop (congrArg some (List.mem_singleton.mp mem).symm)
  have single := one.single
  refine ⟨sane, ?_⟩
  rw [here] at single ⊢
  cases reads with
  | enters _ | ends | stops _ | chunk _ _ _ => exact single
  | @posts cb r' _ =>
    have goesOn : cb ≠ .readerDone := by
      rintro rfl
      exact one.sane (by rw [here]; exact List.mem_singleton_self _)
    rw [List.count_append, List.count_singleton, if_neg (by simpa using goesOn)]
    exact single
  | leaves =>
    rw [List.count_append, List.count_singleton_self]
    simpa [Nat.add_comm] using single

/-- The event loop runs a callback: the last one of a reader may start another, alone. -/
theorem callback (one : OneReader h) {cache cache' : StaticFileCache}
    (moved : h.runCallback cache = some (cache', h')) : OneReader h' := by
  have shown {cb : StaticCallback} {rest : List StaticCallback} (posted : h.posted = cb :: rest)
      (downstream : List Egress) : OneReader { h with posted := rest, downstream := downstream } := by
    have fewer : rest.count .readerDone ≤ h.posted.count .readerDone := by
      rw [posted]
      exact List.count_le_count_cons
    exact ⟨one.sane, Nat.le_trans (Nat.add_le_add_left fewer _) one.single⟩
  cases StaticHandler.runCallback_cases moved with
  | abort posted | eom posted | chunk posted _ => exact shown posted _
  | @readerDone rest posted =>
    by_cases resumes : h.finished = false ∧ h.paused = false ∧ h.file.isSome
    · have idle : StaticHandler.Idle { h with posted := rest } := one.alone_of_readerDone posted
      exact added idle (if_pos resumes) rfl
    · exact (shown posted h.downstream).same (if_neg resumes) rfl

/-- The request comes. -/
theorem onRequest (unasked : h.readers = [] ∧ h.posted = []) (files : Bytes → Option Bytes) (docRoot : Bytes)
    (cache : StaticFileCache) (request : HTTPMessage IP) :
    OneReader ({ h with request := some request }.onRequest files docRoot cache request) := by
  have idle : h.Idle := by
    refine ⟨unasked.1, ?_⟩
    rw [unasked.2]
    exact List.not_mem_nil
  rcases StaticHandler.onRequest_cases files docRoot cache request { h with request := some request } with
    ⟨r, eq, -⟩ | ⟨path, content, -, -, -, eq⟩ <;> rw [eq]
  · refine ⟨?_, ?_⟩
    · rw [show StaticHandler.readers _ = h.readers from rfl, unasked.1]
      exact List.not_mem_nil
    · simp [StaticHandler.send, unasked]
  · exact added idle rfl rfl

/-- **One step.** -/
theorem step (one : OneReader h) (unasked : h.request = none → h.readers = [] ∧ h.posted = [])
    {files : Bytes → Option Bytes} {docRoot : Bytes} {cache cache' : StaticFileCache} {e : StaticEvent IP}
    (ok : ResumesAlone h e) (moved : h.step files docRoot cache e = some (cache', h')) : OneReader h' := by
  cases StaticHandler.step_cases moved with
  | asked _ first => exact onRequest (unasked first) files docRoot cache _
  | paused _ => exact one.same rfl rfl
  | resumed _ =>
    rw [StaticHandler.onEgressResumed_eq]
    by_cases due : h.readFileScheduled = false ∧ h.file.isSome
    · exact added (ok.idle due) (if_pos due) rfl
    · exact one.same (if_neg due) rfl
  | ended _ _ =>
    rw [StaticHandler.finish_deletes]
    exact one.same rfl rfl
  | reader went => exact one.reader went
  | callback went => exact one.callback went

end OneReader

namespace StreamsInOrder

variable {files : Bytes → Option Bytes} {h h' : StaticHandler IP}

theorem start : StreamsInOrder files ({} : StaticHandler IP) := .uncalled rfl rfl rfl rfl rfl

/-- Changing the flags. -/
theorem flags (inv : StreamsInOrder files h) (request : h'.request = h.request)
    (path : h'.requestedFilePath = h.requestedFilePath) (file : h'.file = h.file)
    (readers : h'.readers = h.readers) (posted : h'.posted = h.posted)
    (downstream : h'.downstream = h.downstream) : StreamsInOrder files h' := by
  have script : h'.script = h.script := by
    unfold StaticHandler.script
    rw [readers, posted, downstream]
  cases inv with
  | uncalled none shut idle empty silent =>
    exact .uncalled (request.trans none) (file.trans shut) (readers.trans idle) (posted.trans empty)
      (downstream.trans silent)
  | answered called shut idle empty sent =>
    exact .answered (request ▸ called) (file.trans shut) (readers.trans idle) (posted.trans empty)
      (downstream.trans sent)
  | streaming s isOpen read =>
    exact .streaming ⟨request ▸ s.called, path ▸ s.found, script ▸ s.script⟩ (file.trans isOpen) read
  | ended s shut idle read =>
    exact .ended ⟨request ▸ s.called, path ▸ s.found, script ▸ s.script⟩ (file.trans shut) (readers ▸ idle) read

/-- A handler at work goes on without changing its script. -/
theorem goesOn (inv : StreamsInOrder files h) (busy : h.file ≠ none ∨ h.readers ≠ [] ∨ h.posted ≠ [])
    (request : h'.request = h.request) (path : h'.requestedFilePath = h.requestedFilePath)
    (file : h'.file = h.file) (script : h'.script = h.script)
    (reading : .reading ∈ h'.readers → h.file ≠ none ∨ .reading ∈ h.readers) : StreamsInOrder files h' := by
  cases inv with
  | uncalled _ shut idle empty _ | answered _ shut idle empty _ =>
    rcases busy with isOpen | running | pending
    · exact absurd shut isOpen
    · exact absurd idle running
    · exact absurd empty pending
  | streaming s isOpen read =>
    exact .streaming ⟨request ▸ s.called, path ▸ s.found, script ▸ s.script⟩ (file.trans isOpen) read
  | ended s shut idle read =>
    refine .ended ⟨request ▸ s.called, path ▸ s.found, script ▸ s.script⟩ (file.trans shut) (fun mem => ?_) read
    rcases reading mem with isOpen | before
    · exact isOpen shut
    · exact idle before

/-- A reader is started when none is active. -/
theorem readerAdded (inv : StreamsInOrder files h) (idle : h.readers = []) (isOpen : h.file.isSome)
    (request : h'.request = h.request) (path : h'.requestedFilePath = h.requestedFilePath)
    (file : h'.file = h.file) (readers : h'.readers = h.readers ++ [.loopHead])
    (posted : h'.posted.flatMap StaticCallback.egress = h.posted.flatMap StaticCallback.egress)
    (downstream : h'.downstream = h.downstream) : StreamsInOrder files h' := by
  rw [idle, List.nil_append] at readers
  refine inv.goesOn (.inl (Option.isSome_iff_ne_none.mp isOpen)) request path file ?_ ?_
  · simp [StaticHandler.script, posted, downstream, readers, idle, Reader.egress]
  · rw [readers]
    intro mem
    cases List.mem_singleton.mp mem

/-- Nothing is outstanding before the request. -/
theorem unasked (inv : StreamsInOrder files h) (first : h.request = none) : h.readers = [] ∧ h.posted = [] := by
  cases inv with
  | uncalled _ _ idle empty _ | answered _ _ idle empty _ => exact ⟨idle, empty⟩
  | streaming s _ _ | ended s _ _ _ => exact absurd first s.called

/-- The reader reads a chunk or finds the end of the file. -/
theorem reads (inv : StreamsInOrder files h) (here : h.readers = [.reading]) {rc : Nat} {r : Reader}
    {h'' : StaticHandler IP} (got : h.read (some rc) = some (r, h'')) :
    StreamsInOrder files { h'' with readers := [r] } := by
  cases inv with
  | uncalled _ _ idle _ _ | answered _ _ idle _ _ =>
    rw [idle] at here
    cases here
  | ended _ _ idle _ =>
    rw [here] at idle
    exact absurd (List.mem_singleton_self _) idle
  | @streaming f chunks s isOpen read =>
    have before : h.downstream ++ h.posted.flatMap StaticCallback.egress =
        .headers 200 (bytes "OK") :: chunks.map .body := by
      simpa [StaticHandler.script, here, Reader.egress] using s.script
    rcases StaticHandler.read_cases isOpen got with ⟨atEnd, rfl, rfl⟩ | ⟨positive, fits, rfl, rfl⟩
    · refine @StreamsInOrder.ended IP files _ f.content chunks ⟨s.called, s.found, ?_⟩ rfl ?_ ?_
      · simp only [StaticHandler.script, before]
        rfl
      · intro mem
        cases List.mem_singleton.mp mem
      · rw [read, List.take_of_length_le atEnd]
    · refine @StreamsInOrder.streaming IP files _ { f with offset := f.offset + rc }
        (chunks ++ [(f.content.drop f.offset).take rc])
        ⟨s.called, s.found, ?_⟩ rfl ?_
      · simp only [StaticHandler.script, before]
        simp [Reader.egress, StaticCallback.egress]
      · rw [List.flatten_append, read, List.take_add]
        simp

/-- The reader goes on. -/
theorem reader (inv : StreamsInOrder files h) (one : OneReader h) {k : Nat} {rc : Option Nat}
    (succeeds : rc = none → h.readers[k]? ≠ some .reading) (moved : h.runReader k rc = some h') :
    StreamsInOrder files h' := by
  obtain ⟨r, next, h'', job, went, rfl⟩ := StaticHandler.runReader_eq moved
  obtain ⟨rfl, here⟩ := one.only_reader job
  have busy : h.file ≠ none ∨ h.readers ≠ [] ∨ h.posted ≠ [] := by
    rw [here]
    exact .inr (.inl (List.cons_ne_nil _ _))
  rw [here]
  cases r with
  | loopHead =>
    cases went
    split
    · rename_i enters
      refine inv.goesOn busy rfl rfl rfl ?_ fun _ => .inl (Option.isSome_iff_ne_none.mp enters.1)
      simp [StaticHandler.script, here, Reader.egress]
    · refine inv.goesOn busy rfl rfl rfl ?_ fun mem => ?_
      · simp [StaticHandler.script, here, Reader.egress]
      · cases List.mem_singleton.mp mem
  | reading =>
    simp only [StaticHandler.readFile, Option.map_eq_some_iff] at went
    obtain ⟨⟨r', mid⟩, got, same⟩ := went
    cases same
    cases rc with
    | none => exact absurd job (succeeds rfl)
    | some rc => exact inv.reads here got
  | posting cb =>
    cases went
    refine inv.goesOn busy rfl rfl rfl ?_ fun mem => ?_
    · simp only [StaticHandler.script, here]
      split <;> simp [Reader.egress]
    · split at mem <;> cases List.mem_singleton.mp mem
  | leaving =>
    cases went
    refine inv.goesOn busy rfl rfl rfl ?_ fun mem => ?_
    · simp [StaticHandler.script, here, Reader.egress, StaticCallback.egress]
    · cases mem

/-- The event loop runs a callback. -/
theorem callback (inv : StreamsInOrder files h) (one : OneReader h) {cache cache' : StaticFileCache}
    (moved : h.runCallback cache = some (cache', h')) : StreamsInOrder files h' := by
  have busy {cb : StaticCallback} {rest : List StaticCallback} (posted : h.posted = cb :: rest) :
      h.file ≠ none ∨ h.readers ≠ [] ∨ h.posted ≠ [] := by
    rw [posted]
    exact .inr (.inr (List.cons_ne_nil _ _))
  cases StaticHandler.runCallback_cases moved with
  | abort posted | eom posted | chunk posted _ =>
    refine inv.goesOn (busy posted) rfl rfl rfl ?_ .inr
    simp [StaticHandler.script, StaticHandler.send, posted, StaticCallback.egress]
  | readerDone posted =>
    by_cases resumes : h.finished = false ∧ h.paused = false ∧ h.file.isSome
    · refine inv.readerAdded (one.alone_of_readerDone posted).1 resumes.2.2 rfl rfl rfl (by rw [if_pos resumes]) ?_ rfl
      rw [posted]
      rfl
    · refine inv.goesOn (busy posted) rfl rfl rfl ?_ (by rw [if_neg resumes]; exact .inr)
      simp only [StaticHandler.script, posted, if_neg resumes]
      rfl

/-- The request comes. -/
theorem onRequest (inv : StreamsInOrder files h) (first : h.request = none) (docRoot : Bytes)
    (cache : StaticFileCache) (request : HTTPMessage IP) :
    StreamsInOrder files ({ h with request := some request }.onRequest files docRoot cache request) := by
  cases inv with
  | answered called _ _ _ _ => exact absurd first called
  | streaming s _ _ | ended s _ _ _ => exact absurd first s.called
  | uncalled _ shut idle empty silent =>
    rcases StaticHandler.onRequest_cases files docRoot cache request { h with request := some request } with
      ⟨r, eq, -⟩ | ⟨path, content, -, -, found, eq⟩ <;> rw [eq]
    · refine .answered (r := r) (Option.some_ne_none _) shut idle empty ?_
      simp [StaticHandler.send, silent]
    · refine @StreamsInOrder.streaming IP files _ ⟨content, 0⟩ [] ⟨Option.some_ne_none _, found, ?_⟩ rfl ?_
      · simp [StaticHandler.script, silent, empty, idle, Reader.egress]
      · simp

/-- **One step.** -/
theorem step (inv : StreamsInOrder files h) (one : OneReader h) {docRoot : Bytes} {cache cache' : StaticFileCache}
    {e : StaticEvent IP} (ok : ResumesAlone h e) (moved : h.step files docRoot cache e = some (cache', h')) :
    StreamsInOrder files h' := by
  cases StaticHandler.step_cases moved with
  | asked _ first => exact inv.onRequest first docRoot cache _
  | paused _ => exact inv.flags rfl rfl rfl rfl rfl rfl
  | resumed _ =>
    rw [StaticHandler.onEgressResumed_eq]
    by_cases due : h.readFileScheduled = false ∧ h.file.isSome
    · exact inv.readerAdded (ok.idle due).1 due.2 rfl rfl rfl (by rw [if_pos due]) rfl rfl
    · exact inv.flags rfl rfl rfl (by rw [if_neg due]) rfl rfl
  | ended _ _ =>
    rw [StaticHandler.finish_deletes]
    exact inv.flags rfl rfl rfl rfl rfl rfl
  | @reader k rc _ went => exact inv.reader one (fun fails => ok.reads k (by rw [fails])) went
  | callback went => exact inv.callback one went

/-! ## What is delivered -/

/-- What stands at the end only is in a prefix only if the prefix is all. -/
theorem eq_of_last_mem {α : Type} {xs ys zs : List α} {a : α} (parts : xs ++ ys = zs ++ [a])
    (only : a ∉ zs) (mem : a ∈ xs) : xs = zs ++ [a] := by
  rcases List.eq_nil_or_concat ys with rfl | ⟨ys', b, rfl⟩
  · rw [← parts, List.append_nil]
  · rw [List.concat_eq_append, ← List.append_assoc] at parts
    have before := (List.append_inj' parts rfl).1
    exact absurd (before ▸ List.mem_append_left _ mem) only

/-- The chunks of a script. -/
theorem chunks_of_script (chunks : List Bytes) (last : List Egress) (silent : last.flatMap Egress.chunk = []) :
    (Egress.headers 200 (bytes "OK") :: (chunks.map Egress.body ++ last)).flatMap Egress.chunk =
      chunks.flatten := by
  rw [List.flatMap_cons, List.flatMap_append, silent, List.append_nil, List.flatMap_map]
  simp [Egress.chunk]

/-- The part of the script that was sent. -/
theorem sent_of_script {content : Bytes} {chunks : List Bytes} {last : List Egress}
    (s : Scripted files h content chunks last) (silent : last.flatMap Egress.chunk = []) :
    h.sentBody <+: chunks.flatten := by
  rw [← chunks_of_script chunks last silent, ← s.script, StaticHandler.script, List.append_assoc,
    List.flatMap_append]
  exact List.prefix_append _ _

/-- The ends of a script. -/
theorem sent_ends {content : Bytes} {chunks : List Bytes} {last : List Egress}
    (s : Scripted files h content chunks last) :
    (h.downstream.filter Egress.isEnd).length ≤ (last.filter Egress.isEnd).length := by
  have silent : (chunks.map Egress.body).filter Egress.isEnd = [] := by simp [Egress.isEnd]
  have ends : h.script.filter Egress.isEnd = last.filter Egress.isEnd := by
    rw [s.script, List.filter_cons_of_neg (by decide), List.filter_append, silent, List.nil_append]
  rw [← ends, StaticHandler.script, List.append_assoc, List.filter_append, List.length_append]
  omega

/-- **A handler in order has delivered in order.** -/
theorem delivered (inv : StreamsInOrder files h) (one : OneReader h) : DeliveredInOrder files h := by
  have single : h.readers.length ≤ 1 := Nat.le_trans (Nat.le_add_right _ _) one.single
  cases inv with
  | uncalled _ _ _ _ silent =>
    refine ⟨single, fun content _ => ?_, by rw [silent]; exact Nat.zero_le 1, ?_⟩
    · rw [StaticHandler.sentBody, silent]
      exact List.nil_prefix
    · rw [silent]
      intro mem
      cases mem
  | @answered r _ _ _ _ sent =>
    refine ⟨single, fun content _ => ?_, by rw [sent]; exact Nat.le_refl 1, ?_⟩
    · rw [StaticHandler.sentBody, sent]
      exact List.nil_prefix
    · rw [sent]
      intro mem
      cases List.mem_singleton.mp mem
  | @streaming f chunks s isOpen read =>
    refine ⟨single, fun content found => ?_, Nat.le_trans (sent_ends s) (Nat.zero_le 1), fun mem => ?_⟩
    · obtain rfl : f.content = content := Option.some.inj (s.found.symm.trans found)
      have sent := sent_of_script s rfl
      rw [read] at sent
      exact sent.trans (List.take_prefix ..)
    · have inScript : Egress.eom ∈ h.script := by
        rw [StaticHandler.script, List.append_assoc]
        exact List.mem_append_left _ mem
      rw [s.script] at inScript
      simp at inScript
  | @ended content chunks s shut idle read =>
    refine ⟨single, fun content' found => ?_, Nat.le_trans (sent_ends s) (Nat.le_refl 1), fun mem => ?_⟩
    · obtain rfl : content = content' := Option.some.inj (s.found.symm.trans found)
      have sent := sent_of_script s rfl
      rwa [read] at sent
    · have parts := s.script
      rw [StaticHandler.script, List.append_assoc, ← List.cons_append] at parts
      have all := eq_of_last_mem parts (by simp) mem
      have sent : h.sentBody = chunks.flatten := by
        rw [StaticHandler.sentBody, all, List.cons_append]
        exact chunks_of_script chunks [.eom] rfl
      rw [sent, read, s.found]

end StreamsInOrder

/-- A step of a handler, the shared cache holding whatever it holds then. -/
def StaticHandler.flowStep (files : Bytes → Option Bytes) (docRoot : Bytes) (h : StaticHandler IP)
    (e : StaticFileCache × StaticEvent IP) : Option (StaticHandler IP) :=
  (h.step files docRoot e.1 e.2).map Prod.snd

/-- **A file is streamed in order and whole, if the client resumes only while the flag is set,
the file is closed or no reader is at work.** -/
theorem stream_in_order (files : Bytes → Option Bytes) (docRoot : Bytes) (h : StaticHandler IP)
    (run : Runs (StaticHandler.flowStep files docRoot) (fun h e => ResumesAlone h e.2)
      ({} : StaticHandler IP) h) : DeliveredInOrder files h := by
  have inv : StreamsInOrder files h ∧ OneReader h := by
    refine run.invariant (fun h => StreamsInOrder files h ∧ OneReader h) ⟨StreamsInOrder.start, OneReader.start⟩
      fun a e b inv ok moved => ?_
    obtain ⟨⟨cache', b'⟩, went, same⟩ := Option.map_eq_some_iff.mp moved
    cases same
    exact ⟨inv.1.step inv.2 ok went, inv.2.step inv.1.unasked ok went⟩
  exact inv.1.delivered inv.2

/-- A test of `ResumesAlone`. -/
def resumesAloneTest (h : StaticHandler IP) : StaticEvent IP → Bool
  | .reader k none => h.readers[k]? != some .reading
  | .onEgressResumed =>
    h.readFileScheduled || h.file.isNone || h.readers.isEmpty && !h.posted.contains .readerDone
  | _ => true

theorem resumesAlone_of_test (h : StaticHandler IP) (e : StaticEvent IP)
    (passed : resumesAloneTest h e = true) : ResumesAlone h e := by
  refine ⟨fun k same => ?_, fun same => ?_⟩
  · subst same
    simpa [resumesAloneTest] using passed
  · subst same
    simpa [resumesAloneTest, StaticHandler.Idle, or_assoc] using passed

/-- A request that is paused and resumed before anything is read. -/
def pausedAtOnce : List (StaticFileCache × StaticEvent Unit) :=
  [.onRequest getFile, .onEgressPaused, .reader 0 none, .reader 0 none, .callback, .onEgressResumed].map
    fun e => (fun _ => none, e)

/-- The resumed reader reads the file. -/
def readsOn : List (StaticFileCache × StaticEvent Unit) :=
  [.reader 0 none, .reader 0 (some 1), .reader 0 none, .callback, .reader 0 none, .reader 0 (some 0),
    .reader 0 none, .callback].map fun e => (fun _ => none, e)

theorem resumed_stream_in_order : ∃ h, replay (StaticHandler.flowStep oneFile (bytes "/srv"))
      ({} : StaticHandler Unit) (pausedAtOnce ++ readsOn) = some h ∧
    h.downstream = [.headers 200 (bytes "OK"), .body (bytes "a"), .eom] ∧ DeliveredInOrder oneFile h := by
  have run : Runs (StaticHandler.flowStep oneFile (bytes "/srv")) (fun h e => ResumesAlone h e.2)
      {} _ := Runs.of_guarded_replay (StaticHandler.flowStep oneFile (bytes "/srv"))
    (fun h e => resumesAloneTest h e.2) (fun h e => resumesAlone_of_test h e.2) ({} : StaticHandler Unit)
    (pausedAtOnce ++ readsOn) rfl
  exact ⟨_, rfl, rfl, stream_in_order oneFile (bytes "/srv") _ run⟩

/-- After a second pause and resume two readers are active. One reads the file, the
other finds its end and sends the EOM before the chunk. -/
theorem two_readers_at_once : ∃ h, replay (StaticHandler.flowStep oneFile (bytes "/srv"))
      ({} : StaticHandler Unit) (pausedAtOnce ++ [.onEgressPaused, .onEgressResumed, .reader 0 none,
        .reader 1 none, .reader 0 (some 1), .reader 1 (some 0), .reader 1 none, .callback].map
          fun e => (fun _ => none, e)) = some h ∧
    h.readers = [.posting (.chunk 0 (bytes "a")), .loopHead] ∧
    h.downstream = [.headers 200 (bytes "OK"), .eom] ∧ ¬ DeliveredInOrder oneFile h := by
  refine ⟨_, rfl, rfl, rfl, fun inOrder => ?_⟩
  have one := inOrder.oneReader
  revert one
  decide

section

variable (files : Bytes → Option Bytes) (docRoot : Bytes) (cache : StaticFileCache)

/-- The callbacks up to a last one run; it starts a reader on a handler that is not paused. -/
theorem restart_of_readerDone {rest : List StaticCallback} : ∀ {before : List StaticCallback} {h : StaticHandler IP},
    h.posted = before ++ .readerDone :: rest → .readerDone ∉ before → h.finished = false → h.paused = false →
      h.file.isSome → h.requestedFilePath ≠ [] →
        ∃ h', replay (StaticHandler.flowStep files docRoot) h (List.replicate (before.length + 1) (cache, .callback)) =
          some h' ∧ h'.readers = h.readers ++ [.loopHead] := by
  intro before
  induction before with
  | nil =>
    intro h posted _ running resumed isOpen _
    have last := StaticHandler.readerDone_eq posted cache
    rw [if_pos ⟨running, resumed, isOpen⟩] at last
    refine ⟨_, by simp only [List.length_nil, List.replicate_succ, List.replicate_zero, replay,
      StaticHandler.flowStep, StaticHandler.step, last]; rfl, rfl⟩
  | cons cb before ih =>
    intro h posted first running resumed isOpen path
    have rest_first : .readerDone ∉ before := fun mem => first (List.mem_cons_of_mem _ mem)
    have shown (e : Egress) (moved : h.flowStep files docRoot (cache, .callback) =
        some (StaticHandler.send { h with posted := before ++ .readerDone :: rest } e)) :
        ∃ h', replay (StaticHandler.flowStep files docRoot) h
            (List.replicate ((cb :: before).length + 1) (cache, .callback)) = some h' ∧
          h'.readers = h.readers ++ [.loopHead] := by
      obtain ⟨h', rerun, readers⟩ := ih (h := StaticHandler.send { h with posted := before ++ .readerDone :: rest } e)
        rfl rest_first running resumed isOpen path
      refine ⟨h', ?_, readers⟩
      rw [List.length_cons, List.replicate_succ, replay, moved]
      exact rerun
    cases cb with
    | readerDone => exact absurd List.mem_cons_self first
    | abort =>
      exact shown .abort (by simp only [StaticHandler.flowStep, StaticHandler.step, StaticHandler.runCallback, posted]; rfl)
    | eom =>
      exact shown .eom (by simp only [StaticHandler.flowStep, StaticHandler.step, StaticHandler.runCallback, posted]; rfl)
    | chunk start body =>
      exact shown (.body body) (by simp only [StaticHandler.flowStep, StaticHandler.step, StaticHandler.runCallback,
        posted, List.cons_append, if_neg path]; rfl)

/-- **Any other resume leads to two readers**, at once or when the callbacks that are posted
have run. -/
theorem two_readers_of_resume {h : StaticHandler IP} (running : h.finished = false) (path : h.requestedFilePath ≠ [])
    (refused : ¬ ResumesAlone h .onEgressResumed) :
    ∃ n h', replay (StaticHandler.flowStep files docRoot) h
        ((cache, .onEgressResumed) :: List.replicate n (cache, .callback)) = some h' ∧ 2 ≤ h'.readers.length := by
  have due : (h.readFileScheduled = false ∧ h.file.isSome) ∧ ¬ h.Idle := by
    by_contra covered
    refine refused ⟨fun k same => (by cases same), fun _ => ?_⟩
    by_contra others
    obtain ⟨unset, others⟩ := not_or.mp others
    obtain ⟨isOpen, busy⟩ := not_or.mp others
    exact covered ⟨⟨by simpa using unset, Option.isSome_iff_ne_none.mpr isOpen⟩, busy⟩
  have resumed : h.flowStep files docRoot (cache, .onEgressResumed) =
      some { h with paused := false, readers := h.readers ++ [.loopHead] } := by
    simp only [StaticHandler.flowStep, StaticHandler.step, running, StaticHandler.onEgressResumed_eq, if_pos due.1]
    rfl
  by_cases active : h.readers = []
  · have mem : .readerDone ∈ h.posted := by
      by_contra gone
      exact due.2 ⟨active, gone⟩
    obtain ⟨before, rest, posted, first⟩ := List.eq_append_cons_of_mem mem
    obtain ⟨h', rerun, readers⟩ := restart_of_readerDone files docRoot cache
      (h := { h with paused := false, readers := h.readers ++ [.loopHead] }) posted first running rfl due.1.2 path
    refine ⟨before.length + 1, h', ?_, ?_⟩
    · rw [replay, resumed]
      exact rerun
    · rw [readers, active]
      exact Nat.le_refl 2
  · refine ⟨0, { h with paused := false, readers := h.readers ++ [.loopHead] }, ?_, ?_⟩
    · rw [replay, resumed]
      rfl
    · have positive := List.length_pos_of_ne_nil active
      rw [List.length_append, List.length_singleton]
      omega

end

end UrlShortener
