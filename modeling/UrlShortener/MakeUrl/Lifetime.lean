import UrlShortener.Logic.Transition
import UrlShortener.MakeUrl.Handler

/-!
# Callbacks on a deleted create handler

`requestComplete` and `onError` delete the handler whatever is still to come. The
continuations of the chain and the callbacks of the captcha transaction hold a raw
reference to it, so one that is outstanding then runs on freed memory
(`abort_while_connecting`). If the request ends only when the chain has not started or
has finished and the transaction is detached (`Unreferenced`), a deleted handler takes no
step at all (`Unreferenced.still`), and no action of the log is one on a deleted handler.
From any other end the run can go on to such an action (`reachesFreed_of_referenced`).
-/

namespace UrlShortener
set_option autoImplicit false
open AtomicStore Transition

variable {IP : Type} {svc : UrlShorteningConfig} {json : FollyJson}

/-- Nothing is outstanding that holds a reference to the handler. -/
def Unreferenced (h : MakeUrlRequestHandler IP) : Prop :=
  (h.chain = .notStarted ∨ h.chain = .finished) ∧ h.txnHandler.attached = false

/-- The request ends only when the handler is unreferenced. -/
def EndsUnreferenced (h : MakeUrlRequestHandler IP) (e : MakeUrlEvent IP) : Prop :=
  e = .requestComplete ∨ e = .onError → Unreferenced h

/-- Nothing was done on the deleted handler, and a deleted handler is unreferenced. -/
structure Lifetime (h : MakeUrlRequestHandler IP) : Prop where
  alive : ∀ e ∈ h.log, e.freed = false
  unreferenced : h.deleted = true → Unreferenced h ∧ h.connector ≠ .connecting

/-- A deleted handler that is unreferenced takes no step. -/
theorem Unreferenced.still {h h' : MakeUrlRequestHandler IP} (unreferenced : Unreferenced h)
    (deleted : h.deleted = true) (idle : h.connector ≠ .connecting) {e : MakeUrlEvent IP} :
    h.step svc json e ≠ some h' := by
  intro moved
  obtain ⟨chain, detached⟩ := unreferenced
  have stage {c : Chain} (here : h.chain = c) : c = .notStarted ∨ c = .finished := here ▸ chain
  cases MakeUrlRequestHandler.step_cases moved with
  | called live | received live | ignored live | refused live | crashed live | queryCrashed live
  | queried live | completed live | failed live =>
    rw [deleted] at live
    cases live
  | connected pending | notConnected pending => exact idle pending
  | captchaQuiet _ attached | captchaCrashed _ attached | answered attached | captchaFailed attached =>
    rw [detached] at attached
    cases attached
  | shortens here | refusedByCaptcha here | passesException here | shortened here | undefined here
  | reads here | writes here | responds here =>
    rcases stage here with none | ended
    · cases none
    · cases ended

namespace Lifetime

variable {h h' : MakeUrlRequestHandler IP}

/-- A live handler records actions on a live handler. -/
theorem record_alive (alive : ∀ e ∈ h.log, e.freed = false) (live : h.deleted = false) (a : Action) :
    ∀ e ∈ (h.record a).log, e.freed = false := by
  intro e mem
  rcases List.mem_cons.mp mem with rfl | old
  · exact live
  · exact alive e old

/-- What leaves the handler alive keeps the invariant. -/
theorem of_live (alive : ∀ e ∈ h'.log, e.freed = false) (live : h'.deleted = false) : Lifetime h' :=
  ⟨alive, fun deleted => by rw [live] at deleted; cases deleted⟩

theorem setPromise (alive : ∀ e ∈ h.log, e.freed = false) (live : h.deleted = false)
    (result : Option Bytes) : Lifetime (h.setPromise json result) := by
  rcases MakeUrlRequestHandler.setPromise_cases json result h with ⟨-, eq⟩ | ⟨-, eq⟩ | ⟨-, eq⟩ <;>
    rw [eq] <;> exact of_live (record_alive alive live _) live

/-- The handler is deleted when it is unreferenced. -/
theorem erased (alive : ∀ e ∈ h.log, e.freed = false) (live : h.deleted = false)
    (unreferenced : Unreferenced h) : Lifetime (h.erased json) where
  alive := record_alive alive live .deleteThis
  unreferenced := by
    intro _
    refine ⟨⟨?_, unreferenced.2⟩, ?_⟩
    · rcases unreferenced.1 with chain | chain <;> simp [MakeUrlRequestHandler.erased, chain, Chain.complete]
    · simp only [MakeUrlRequestHandler.erased]
      split
      · intro pending
        cases pending
      · assumption

/-- **One step.** -/
theorem step {e : MakeUrlEvent IP} (inv : Lifetime h) (ends : EndsUnreferenced h e)
    (moved : h.step svc json e = some h') : Lifetime h' := by
  have live : h.deleted = false := by
    by_contra dead
    have deleted : h.deleted = true := by simpa using dead
    obtain ⟨unreferenced, idle⟩ := inv.unreferenced deleted
    exact unreferenced.still deleted idle moved
  have recorded (a : Action) := record_alive inv.alive live a
  cases MakeUrlRequestHandler.step_cases moved with
  | called _ _ =>
    unfold MakeUrlRequestHandler.onRequest
    simp only
    split
    · exact of_live (recorded _) live
    · exact of_live inv.alive live
  | received _ | connected _ | refusedByCaptcha _ | passesException _ | shortened _ | undefined _ =>
    exact of_live inv.alive live
  | ignored _ _ | crashed _ _ => exact of_live inv.alive live
  | refused _ _ | queryCrashed _ _ | captchaQuiet _ _ | captchaCrashed _ _ =>
    exact of_live (recorded _) live
  | queried _ _ _ _ => exact of_live (recorded _) live
  | shortens _ | reads _ | writes _ | responds _ => exact of_live (recorded _) live
  | completed _ => exact erased inv.alive live (ends (.inl rfl))
  | failed _ running =>
    rcases MakeUrlRequestHandler.onError_cases json h running with ⟨-, eq⟩ | ⟨a, -, eq⟩ <;> rw [eq]
    · exact of_live (recorded _) live
    · exact erased (recorded a) live (ends (.inr rfl))
  | notConnected _ =>
    unfold MakeUrlRequestHandler.connectError
    simp only
    split <;> exact of_live (recorded _) live
  | answered _ _ _ _ _ =>
    refine setPromise ?_ ?_ _
    · refine record_alive ?_ ?_ _
      · exact recorded (.captcha .onEOM)
      · exact live
    · exact live
  | captchaFailed _ _ =>
    refine setPromise ?_ ?_ _
    · exact recorded (.captcha .onError)
    · exact live

end Lifetime

theorem endsUnreferenced_of_goesOn {h : MakeUrlRequestHandler IP} {e : MakeUrlEvent IP}
    (first : e ≠ .requestComplete) (second : e ≠ .onError) : EndsUnreferenced h e := by
  rintro (same | same)
  · exact absurd same first
  · exact absurd same second

/-- **No callback on a deleted handler, if every request ends unreferenced.** -/
theorem no_action_after_delete (svc : UrlShorteningConfig) (json : FollyJson)
    (h : MakeUrlRequestHandler IP)
    (run : Runs (MakeUrlRequestHandler.step svc json) EndsUnreferenced ({} : MakeUrlRequestHandler IP) h) :
    ∀ e ∈ h.log, e.freed = false := by
  have start : Lifetime ({} : MakeUrlRequestHandler IP) := Lifetime.of_live nofun rfl
  have inv := run.invariant Lifetime start fun _ _ _ inv ends moved => inv.step ends moved
  exact inv.alive

/-- A request that ends after its response. -/
theorem no_action_after_delete_refusal : ∃ h, replay
      (MakeUrlRequestHandler.step (sampleShortening twoHashes) sampleJson) {}
      (sampleQuery ++ sampleRefusal ++ [.cpu, .evb] ++ [.requestComplete]) = some h ∧
    h.deleted = true ∧ ∀ e ∈ h.log, e.freed = false := by
  have goesOn : ∀ e ∈ sampleQuery ++ sampleRefusal ++ [.cpu, .evb], ∀ h, EndsUnreferenced h e := by
    intro e mem h
    refine endsUnreferenced_of_goesOn ?_ ?_ <;> rintro rfl <;> simp [sampleQuery, sampleRefusal] at mem
  have run := Runs.of_replay (MakeUrlRequestHandler.step (sampleShortening twoHashes) sampleJson) {}
    (sampleQuery ++ sampleRefusal ++ [.cpu, .evb]) rfl goesOn
  have ended := run.snoc (e := .requestComplete) (fun _ => ⟨.inr rfl, rfl⟩) rfl
  refine ⟨_, rfl, rfl, ?_⟩
  exact no_action_after_delete (sampleShortening twoHashes) sampleJson _ ended

/-- The client aborts while the handler connects to the captcha service: the promise
breaks, and the end of the chain responds on freed memory. -/
theorem abort_while_connecting : ∃ h, replay
      (MakeUrlRequestHandler.step (sampleShortening twoHashes) sampleJson) {}
      (sampleQuery ++ [.onError, .cpu, .evb]) = some h ∧
    ⟨true, .sendWithEOM (chainResponse none)⟩ ∈ h.log :=
  ⟨_, rfl, by decide⟩

/-! ## Any other end leads to a use -/

/-- Some continuation of the run uses a deleted handler. -/
def ReachesFreed (svc : UrlShorteningConfig) (json : FollyJson) (h : MakeUrlRequestHandler IP) : Prop :=
  ∃ h', Reachable (MakeUrlRequestHandler.step svc json) h h' ∧ ∃ e ∈ h'.log, e.freed = true

section

variable {h h' : MakeUrlRequestHandler IP} {e : MakeUrlEvent IP}

theorem reachesFreed_of_step (moved : h.step svc json e = some h') (later : ReachesFreed svc json h') :
    ReachesFreed svc json h := by
  obtain ⟨last, run, used⟩ := later
  have first : Reachable (MakeUrlRequestHandler.step svc json) h h' := Runs.refl.snoc trivial moved
  exact ⟨last, first.trans run, used⟩

/-- A step of a deleted handler that records an action uses it. -/
theorem reachesFreed_of_use (deleted : h.deleted = true) (moved : h.step svc json e = some h')
    (a : Action) (log : h'.log = (h.record a).log) : ReachesFreed svc json h := by
  refine ⟨h', Runs.refl.snoc trivial moved, ⟨h.deleted, a⟩, ?_, deleted⟩
  rw [log]
  exact List.mem_cons_self

/-- The end of the chain responds. -/
theorem reachesFreed_of_queuedEvb (deleted : h.deleted = true) (running : h.terminated = false)
    {shortUrl : Option Bytes} (chain : h.chain = .queuedEvb shortUrl) : ReachesFreed svc json h := by
  have moved : h.step svc json .evb =
      some { h.record (.sendWithEOM (chainResponse shortUrl)) with chain := .finished } := by
    simp [MakeUrlRequestHandler.step, MakeUrlRequestHandler.evb, running, chain]
  exact reachesFreed_of_use deleted moved _ rfl

/-- So does every earlier stage whose promise is completed, unless `do_shorten_url`
runs into an undefined operation. -/
theorem reachesFreed_of_underway (deleted : h.deleted = true) (running : h.terminated = false)
    (under : h.chain.Underway)
    (defined : ∀ longUrl u, h.chain ≠ .shortening longUrl (.ret (.error u))) :
    ReachesFreed svc json h := by
  have handsOn (shortUrl : Option Bytes) (moved : h.step svc json .cpu =
      some { h with chain := .queuedEvb shortUrl }) : ReachesFreed svc json h :=
    reachesFreed_of_step moved (reachesFreed_of_queuedEvb deleted running rfl)
  have cpu : h.step svc json .cpu = h.cpu svc := by simp [MakeUrlRequestHandler.step, running]
  have db : h.step svc json (.db none fun _ => none) = h.db none fun _ => none := by
    simp [MakeUrlRequestHandler.step, running]
  cases chain : h.chain with
  | notStarted | waiting _ | finished =>
    rw [chain] at under
    exact under.elim
  | queuedEvb shortUrl => exact reachesFreed_of_queuedEvb deleted running chain
  | queuedCpu longUrl success =>
    cases success with
    | none => exact handsOn none (by simp [cpu, MakeUrlRequestHandler.cpu, chain])
    | some approved =>
      cases approved with
      | false => exact handsOn (some []) (by simp [cpu, MakeUrlRequestHandler.cpu, chain])
      | true =>
        have moved := cpu
        simp only [MakeUrlRequestHandler.cpu, chain] at moved
        exact reachesFreed_of_use deleted moved _ rfl
  | shortening longUrl rest =>
    cases rest with
    | ret result =>
      cases result with
      | error u => exact absurd chain (defined longUrl u)
      | ok shortUrl => exact handsOn (some shortUrl) (by simp [cpu, MakeUrlRequestHandler.cpu, chain])
    | get slug next =>
      have moved := db
      simp only [MakeUrlRequestHandler.db, chain] at moved
      exact reachesFreed_of_use deleted moved _ rfl
    | put slug value next =>
      have moved := db
      simp only [MakeUrlRequestHandler.db, chain] at moved
      exact reachesFreed_of_use deleted moved _ rfl

/-- A handler erased while something was outstanding. -/
theorem reachesFreed_of_erased (running : h.terminated = false) (referenced : ¬ Unreferenced h)
    (defined : ∀ longUrl u, h.chain ≠ .shortening longUrl (.ret (.error u))) :
    ReachesFreed svc json (h.erased json) := by
  by_cases attached : h.txnHandler.attached = true
  · -- the transaction still has to detach
    have detaches : (h.erased json).step svc json (.captcha .detachTransaction) =
        some ((h.erased json).onCaptcha json .detachTransaction) := by
      simp [MakeUrlRequestHandler.step, MakeUrlRequestHandler.erased, MakeUrlRequestHandler.record,
        running, attached]
    exact reachesFreed_of_use rfl detaches (.captcha .detachTransaction) rfl
  · refine reachesFreed_of_underway rfl running ?_ ?_ <;>
      simp only [MakeUrlRequestHandler.erased]
    · cases chain : h.chain with
      | notStarted => exact absurd ⟨.inl chain, by simpa using attached⟩ referenced
      | finished => exact absurd ⟨.inr chain, by simpa using attached⟩ referenced
      | waiting _ | queuedCpu _ _ | shortening _ _ | queuedEvb _ => trivial
    · intro longUrl u
      cases chain : h.chain with
      | shortening url rest =>
        have same := defined longUrl u
        rw [chain] at same
        exact same
      | notStarted | waiting _ | queuedCpu _ _ | queuedEvb _ | finished =>
        intro same
        cases same

/-- **The condition is needed.** A request that ends while something is outstanding,
and does not end the process, can go on to use the deleted handler. -/
theorem reachesFreed_of_referenced (referenced : ¬ Unreferenced h)
    (ends : e = .requestComplete ∨ e = .onError) (moved : h.step svc json e = some h')
    (survives : h'.terminated = false)
    (defined : ∀ longUrl u, h.chain ≠ .shortening longUrl (.ret (.error u))) :
    ReachesFreed svc json h' := by
  rcases ends with rfl | rfl
  · cases MakeUrlRequestHandler.step_cases moved with
    | completed _ => exact reachesFreed_of_erased survives referenced defined
  · cases MakeUrlRequestHandler.step_cases moved with
    | failed _ running =>
      rcases MakeUrlRequestHandler.onError_cases json h running with ⟨-, eq⟩ | ⟨a, -, eq⟩ <;>
        rw [eq] at survives ⊢
      · cases survives
      · have outstanding : ¬ Unreferenced (h.record a) := referenced
        exact reachesFreed_of_erased survives outstanding defined

end

end UrlShortener
