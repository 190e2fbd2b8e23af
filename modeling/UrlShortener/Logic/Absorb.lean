import Mathlib.Init

/-!
# Absorbing a stream of items in blocks

An `Absorber` feeds `update` one block of `n` items at a time and keeps the items of the
block that is not full yet. It is defined on one item, so how a stream was cut into pieces
cannot matter (`absorb_append`); what a buffered implementation does with a piece is
`absorb_short` and `absorb_fill`. Where each update can be undone, so can a whole stream
(`absorb_injective`).
-/

namespace Absorb
set_option autoImplicit false

variable {σ α : Type} {n : Nat}

/-- The items of a full block. -/
def fullBlock (items : List α) (full : items.length = n) : Vector α n :=
  ⟨items.toArray, by rw [List.size_toArray, full]⟩

@[simp] theorem toList_fullBlock (items : List α) (full : items.length = n) : (fullBlock items full).toList = items := rfl

/-- A state and the items of the block to come. -/
structure Absorber (σ α : Type) (n : Nat) where
  state : σ
  pending : List α
  short : pending.length < n

theorem Absorber.ext' {a b : Absorber σ α n} (state : a.state = b.state) (pending : a.pending = b.pending) :
    a = b := by
  cases a
  cases b
  cases state
  cases pending
  rfl

/-- Take in one item. -/
def Absorber.push (update : σ → Vector α n → σ) (a : Absorber σ α n) (x : α) : Absorber σ α n :=
  if more : a.pending.length + 1 < n then
    ⟨a.state, a.pending ++ [x], by rw [List.length_append]; exact more⟩
  else
    have full : (a.pending ++ [x]).length = n := by
      have := a.short
      simp only [List.length_append, List.length_singleton]
      omega
    ⟨update a.state (fullBlock (a.pending ++ [x]) full), [], Nat.zero_lt_of_lt a.short⟩

/-- Take in a list. -/
def Absorber.absorb (update : σ → Vector α n → σ) (a : Absorber σ α n) (items : List α) : Absorber σ α n :=
  items.foldl (Absorber.push update) a

namespace Absorber

variable {update : σ → Vector α n → σ}

@[simp] theorem absorb_nil (a : Absorber σ α n) : a.absorb update [] = a := rfl

theorem absorb_cons (a : Absorber σ α n) (x : α) (items : List α) :
    a.absorb update (x :: items) = (a.push update x).absorb update items := rfl

/-- **A stream may be cut anywhere.** -/
theorem absorb_append (a : Absorber σ α n) (xs ys : List α) :
    a.absorb update (xs ++ ys) = (a.absorb update xs).absorb update ys :=
  List.foldl_append

/-- A piece that leaves room is kept. -/
theorem absorb_short (items : List α) : ∀ (a : Absorber σ α n) (room : a.pending.length + items.length < n),
    a.absorb update items = ⟨a.state, a.pending ++ items, by rw [List.length_append]; exact room⟩ := by
  induction items with
  | nil =>
    intro a _
    exact ext' rfl (List.append_nil _).symm
  | cons x items ih =>
    intro a room
    rw [List.length_cons] at room
    have more : a.pending.length + 1 < n := by omega
    have pushed : a.push update x = ⟨a.state, a.pending ++ [x], by rw [List.length_append]; exact more⟩ :=
      dif_pos more
    rw [absorb_cons, pushed, ih _ (by simp only [List.length_append, List.length_singleton]; omega)]
    exact ext' rfl (List.append_assoc _ _ _)

/-- A piece that completes the block is used up. -/
theorem absorb_fill (a : Absorber σ α n) (items : List α) (full : (a.pending ++ items).length = n) :
    a.absorb update items = ⟨update a.state (fullBlock (a.pending ++ items) full), [], Nat.zero_lt_of_lt a.short⟩ := by
  have short := a.short
  rw [List.length_append] at full
  obtain ⟨first, last, rfl⟩ : ∃ first last, items = first ++ [last] := by
    have some : items ≠ [] := by
      rintro rfl
      rw [List.length_nil] at full
      omega
    exact ⟨items.dropLast, items.getLast some, (List.dropLast_concat_getLast some).symm⟩
  rw [List.length_append, List.length_singleton] at full
  rw [absorb_append, absorb_short first a (by omega), absorb_cons, absorb_nil]
  have stuck : ¬ (a.pending ++ first).length + 1 < n := by
    rw [List.length_append]
    omega
  rw [push, dif_neg stuck]
  simp only [List.append_assoc]

/-- What is pending does not depend on the state. -/
theorem pending_congr (items : List α) : ∀ {a b : Absorber σ α n}, a.pending = b.pending →
    (a.absorb update items).pending = (b.absorb update items).pending := by
  induction items with
  | nil => exact fun same => same
  | cons x items ih =>
    intro a b same
    rw [absorb_cons, absorb_cons]
    refine ih ?_
    simp only [push, same]
    split <;> rfl

/-- **If every block's update can be undone, a stream's can**: from one pending list, one
stream does not lead two states to one. -/
theorem absorb_injective (undone : ∀ block, Function.Injective fun s => update s block) (items : List α) :
    ∀ {a b : Absorber σ α n}, a.pending = b.pending →
      (a.absorb update items).state = (b.absorb update items).state → a.state = b.state := by
  induction items with
  | nil => exact fun _ same => same
  | cons x items ih =>
    rintro ⟨s, pending, short⟩ ⟨t, _, _⟩ rfl same
    rw [absorb_cons, absorb_cons] at same
    by_cases more : pending.length + 1 < n
    · simp only [push, dif_pos more] at same
      have states := ih (by rfl) same
      exact states
    · simp only [push, dif_neg more] at same
      have states := ih (by rfl) same
      exact undone _ states

end Absorber

end Absorb
