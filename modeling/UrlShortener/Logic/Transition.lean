import Mathlib.Data.Option.Basic

/-!
# Runs of a transition system under a guard

A system is a partial step function: `step s e = some s'` when event `e` can
happen in `s`. `Runs step ok s` collects the states reached from `s` by steps
that all meet the guard `ok`, a condition on the state before the step and on
the event. With the guard `always` these are all reachable states. A property of
a run is proved by `Runs.invariant`; a concrete run is computed by `replay`. `Trace`
keeps the events of a run, so that they can be counted (`Trace.amortized`).
-/

namespace Transition
set_option autoImplicit false

variable {σ ε : Type*} {step : σ → ε → Option σ} {ok : σ → ε → Prop}

/-- The states reached from `s` by steps that all meet `ok`. -/
inductive Runs (step : σ → ε → Option σ) (ok : σ → ε → Prop) (s : σ) : σ → Prop where
  | refl : Runs step ok s s
  | snoc {s' s'' : σ} {e : ε} : Runs step ok s s' → ok s' e → step s' e = some s'' → Runs step ok s s''

/-- The guard that admits every step. -/
def always : σ → ε → Prop := fun _ _ => True

/-- The states some run from `s` reaches. -/
abbrev Reachable (step : σ → ε → Option σ) (s : σ) : σ → Prop := Runs step always s

/-- What the initial state has and every admitted step keeps holds after every
run. -/
theorem Runs.invariant {s s' : σ} (run : Runs step ok s s') (Inv : σ → Prop) (start : Inv s)
    (keep : ∀ a e b, Inv a → ok a e → step a e = some b → Inv b) : Inv s' := by
  induction run with
  | refl => exact start
  | snoc _ admitted moved ih => exact keep _ _ _ ih admitted moved

theorem Runs.trans {s s' s'' : σ} (first : Runs step ok s s') (second : Runs step ok s' s'') :
    Runs step ok s s'' := by
  induction second with
  | refl => exact first
  | snoc _ admitted moved ih => exact ih.snoc admitted moved

/-- A weaker guard admits more runs. -/
theorem Runs.mono {ok' : σ → ε → Prop} {s s' : σ} (run : Runs step ok s s') (weaker : ∀ a e, ok a e → ok' a e) :
    Runs step ok' s s' := by
  induction run with
  | refl => exact .refl
  | snoc _ admitted moved ih => exact ih.snoc (weaker _ _ admitted) moved

/-- The state after the events `es`, if all of them can happen in turn. -/
def replay (step : σ → ε → Option σ) : σ → List ε → Option σ
  | s, [] => some s
  | s, e :: es => (step s e).bind fun s' => replay step s' es

/-- Events replayed in two parts. -/
theorem replay_append (step : σ → ε → Option σ) (fs : List ε) : ∀ (es : List ε) (s : σ),
    replay step s (es ++ fs) = (replay step s es).bind fun s' => replay step s' fs := by
  intro es
  induction es with
  | nil => exact fun s => rfl
  | cons e es ih =>
    intro s
    rw [List.cons_append, replay, replay, Option.bind_assoc]
    exact Option.bind_congr fun s' _ => ih s'

/-- A replay of events the guard admits everywhere is a run. -/
theorem Runs.of_replay (step : σ → ε → Option σ) (s : σ) (es : List ε) {s' : σ}
    (h : replay step s es = some s') (free : ∀ e ∈ es, ∀ a, ok a e) : Runs step ok s s' := by
  induction es generalizing s with
  | nil =>
    cases h
    exact .refl
  | cons e es ih =>
    obtain ⟨mid, moved, rest⟩ := Option.bind_eq_some_iff.mp h
    have first : Runs step ok s mid := .snoc .refl (free e List.mem_cons_self s) moved
    exact first.trans (ih mid rest fun e' mem => free e' (List.mem_cons_of_mem e mem))

/-- Without a guard every replay is a run. -/
theorem Reachable.of_replay (step : σ → ε → Option σ) (s : σ) (es : List ε) {s' : σ}
    (h : replay step s es = some s') : Reachable step s s' :=
  Runs.of_replay step s es h fun _ _ _ => trivial

/-- A step taken only where a test of the guard passes. -/
def guarded (step : σ → ε → Option σ) (test : σ → ε → Bool) (s : σ) (e : ε) : Option σ :=
  if test s e then step s e else none

/-- A replay that passes a test of the guard at every step is a run. -/
theorem Runs.of_guarded_replay (step : σ → ε → Option σ) (test : σ → ε → Bool)
    (sound : ∀ s e, test s e = true → ok s e) (s : σ) (es : List ε) {s' : σ}
    (h : replay (guarded step test) s es = some s') : Runs step ok s s' := by
  induction es generalizing s with
  | nil =>
    cases h
    exact .refl
  | cons e es ih =>
    obtain ⟨mid, moved, rest⟩ := Option.bind_eq_some_iff.mp h
    obtain ⟨passed, moved⟩ := Option.ite_none_right_eq_some.mp moved
    have first : Runs step ok s mid := .snoc .refl (sound s e passed) moved
    exact first.trans (ih mid rest)

/-! ## Counting the steps of a run -/

/-- The states reached from `s` with the events that led there, all of them admitted. -/
inductive Trace (step : σ → ε → Option σ) (ok : σ → ε → Prop) (s : σ) : List ε → σ → Prop where
  | nil : Trace step ok s [] s
  | snoc {es : List ε} {s' s'' : σ} {e : ε} : Trace step ok s es s' → ok s' e → step s' e = some s'' →
      Trace step ok s (es ++ [e]) s''

theorem Trace.append {s s' s'' : σ} {es fs : List ε} (first : Trace step ok s es s')
    (second : Trace step ok s' fs s'') : Trace step ok s (es ++ fs) s'' := by
  induction second with
  | nil => rwa [List.append_nil]
  | snoc _ admitted moved ih =>
    rw [← List.append_assoc]
    exact ih.snoc admitted moved

/-- A replay that passes a test of the guard at every step, with its events. -/
theorem Trace.of_guarded_replay (step : σ → ε → Option σ) (test : σ → ε → Bool)
    (sound : ∀ s e, test s e = true → ok s e) (s : σ) (es : List ε) {s' : σ}
    (h : replay (guarded step test) s es = some s') : Trace step ok s es s' := by
  induction es generalizing s with
  | nil =>
    cases h
    exact .nil
  | cons e es ih =>
    obtain ⟨mid, moved, rest⟩ := Option.bind_eq_some_iff.mp h
    obtain ⟨passed, moved⟩ := Option.ite_none_right_eq_some.mp moved
    have first : Trace step ok s ([] ++ [e]) mid := .snoc .nil (sound s e passed) moved
    exact first.append (ih mid rest)

/-- **Amortized counting**: where every step pays for its work out of what is left in the
state, out of what the state was granted and out of the price of the events that add to it,
so does the run. -/
theorem Trace.amortized {s s' : σ} {es : List ε} (trace : Trace step ok s es s') (Inv : σ → Prop) (start : Inv s)
    (work adds : ε → Bool) (left granted : σ → Nat) (price : Nat)
    (pays : ∀ a e b, Inv a → ok a e → step a e = some b → Inv b ∧
      (if work e then 1 else 0) + left b + granted a ≤ left a + granted b + price * (if adds e then 1 else 0)) :
    Inv s' ∧ es.countP work + left s' + granted s ≤ left s + granted s' + price * es.countP adds := by
  induction trace with
  | nil => exact ⟨start, by simp⟩
  | snoc _ admitted moved ih =>
    obtain ⟨inv, paid⟩ := ih
    obtain ⟨next, more⟩ := pays _ _ _ inv admitted moved
    refine ⟨next, ?_⟩
    rw [List.countP_append, List.countP_append, List.countP_singleton, List.countP_singleton, Nat.mul_add]
    omega

end Transition
