import Mathlib.Data.Nat.Digits.Defs

/-!
# The digit stream of a list of words

The words are written one after the other in base `b`, least significant digit
first and without leading zeros; a zero first word contributes nothing and a later
zero word its digit `0`. A `Cursor` reads the stream by dividing the word it stands
in: `Cursor.take_stream` says that it reads the stream digit by digit,
`Cursor.take_eq_none_iff` that it stops at its end only, and `Cursor.take_add` that
two blocks read in turn are one longer block.
-/

namespace DigitStream
set_option autoImplicit false

/-- The digits of a word after the first. -/
def wordDigits (b w : Nat) : List Nat := if w = 0 then [0] else Nat.digits b w

/-- The digit stream of the words. -/
def stream (b : Nat) : List Nat → List Nat
  | [] => []
  | w :: rest => Nat.digits b w ++ rest.flatMap (wordDigits b)

/-- The partly divided word and the words after it. -/
structure Cursor where
  word : Nat
  rest : List Nat

/-- What is left to read. -/
def Cursor.pending (b : Nat) (c : Cursor) : List Nat := stream b (c.word :: c.rest)

/-- Divide off one digit, of the next word if this one is used up. -/
def Cursor.next (b : Nat) (c : Cursor) : Option (Nat × Cursor) :=
  if c.word = 0 then
    match c.rest with
    | [] => none
    | w :: rest => some (w % b, ⟨w / b, rest⟩)
  else some (c.word % b, ⟨c.word / b, c.rest⟩)

/-- Divide off `k` digits. -/
def Cursor.take (b : Nat) : Nat → Cursor → Option (List Nat × Cursor)
  | 0, c => some ([], c)
  | k + 1, c =>
    (c.next b).bind fun (d, c) => (c.take b k).map fun (ds, c) => (d :: ds, c)

variable {b : Nat}

/-- A word's digits, by one division. -/
theorem wordDigits_eq (base : 2 ≤ b) (w : Nat) : wordDigits b w = w % b :: Nat.digits b (w / b) := by
  unfold wordDigits
  split
  · rename_i zero
    simp [zero]
  · rename_i nonzero
    exact Nat.digits_def' base (Nat.pos_of_ne_zero nonzero)

namespace Cursor

theorem pending_eq (c : Cursor) :
    c.pending b = Nat.digits b c.word ++ c.rest.flatMap (wordDigits b) := rfl

/-! ## One digit -/

theorem next_eq_none_iff (c : Cursor) : c.next b = none ↔ c.word = 0 ∧ c.rest = [] := by
  unfold next
  split
  · rename_i zero
    split <;> simp_all
  · rename_i nonzero
    simp [nonzero]

/-- The cursor divides off the first digit that is left. -/
theorem next_pending (base : 2 ≤ b) {c c' : Cursor} {d : Nat} (read : c.next b = some (d, c')) :
    c.pending b = d :: c'.pending b := by
  unfold next at read
  split at read
  · rename_i zero
    split at read
    · cases read
    · rename_i w rest words
      cases read
      rw [pending_eq, pending_eq, zero, words, List.flatMap_cons, wordDigits_eq base, Nat.digits_zero]
      rfl
  · rename_i nonzero
    cases read
    rw [pending_eq, pending_eq, Nat.digits_def' base (Nat.pos_of_ne_zero nonzero)]
    rfl

theorem pending_of_next_none {c : Cursor} (ended : c.next b = none) : c.pending b = [] := by
  obtain ⟨zero, words⟩ := (next_eq_none_iff c).mp ended
  rw [pending_eq, zero, words, Nat.digits_zero]
  rfl

/-! ## A block of digits -/

theorem take_succ_of_next {c c' : Cursor} {d : Nat} (first : c.next b = some (d, c')) (k : Nat) :
    c.take b (k + 1) = (c'.take b k).map fun (ds, c) => (d :: ds, c) := by
  rw [take, first]
  rfl

/-- Two blocks read in turn are one block. -/
theorem take_add (m : Nat) : ∀ (k : Nat) (c : Cursor), c.take b (k + m) =
    (c.take b k).bind fun (ds, c) => (c.take b m).map fun (es, c) => (ds ++ es, c) := by
  intro k
  induction k with
  | zero =>
    intro c
    rw [Nat.zero_add]
    cases read : c.take b m <;> simp [take, read]
  | succ k ih =>
    intro c
    rw [Nat.succ_add]
    simp only [take]
    cases first : c.next b with
    | none => rfl
    | some r =>
      obtain ⟨d, c'⟩ := r
      simp only [Option.bind_some, ih c']
      cases block : c'.take b k with
      | none => rfl
      | some r =>
        obtain ⟨ds, c''⟩ := r
        cases more : c''.take b m <;> simp [more]

theorem take_add_of_take {k : Nat} {c c' : Cursor} {ds : List Nat} (first : c.take b k = some (ds, c'))
    (m : Nat) : c.take b (k + m) = (c'.take b m).map fun (es, c) => (ds ++ es, c) := by
  rw [take_add, first]
  rfl

theorem length_of_take : ∀ {k : Nat} {c c' : Cursor} {ds : List Nat},
    c.take b k = some (ds, c') → ds.length = k := by
  intro k
  induction k with
  | zero =>
    intro c c' ds read
    cases read
    rfl
  | succ k ih =>
    intro c c' ds read
    simp only [take, Option.bind_eq_some_iff, Option.map_eq_some_iff] at read
    obtain ⟨⟨d, c₁⟩, -, ⟨ds', c₂⟩, rest, same⟩ := read
    cases same
    rw [List.length_cons, ih rest]

/-- **The cursor reads the stream.** -/
theorem take_stream (base : 2 ≤ b) : ∀ {k : Nat} {c c' : Cursor} {ds : List Nat},
    c.take b k = some (ds, c') → c.pending b = ds ++ c'.pending b := by
  intro k
  induction k with
  | zero =>
    intro c c' ds read
    cases read
    rfl
  | succ k ih =>
    intro c c' ds read
    simp only [take, Option.bind_eq_some_iff, Option.map_eq_some_iff] at read
    obtain ⟨⟨d, c₁⟩, first, ⟨ds', c₂⟩, rest, same⟩ := read
    cases same
    rw [next_pending base first, ih rest]
    rfl

/-- **The cursor stops at the end of the stream only.** -/
theorem take_eq_none_iff (base : 2 ≤ b) : ∀ {k : Nat} {c : Cursor},
    c.take b k = none ↔ (c.pending b).length < k := by
  intro k
  induction k with
  | zero =>
    intro c
    simp [take]
  | succ k ih =>
    intro c
    simp only [take, Option.bind_eq_none_iff, Option.map_eq_none_iff]
    cases first : c.next b with
    | none =>
      rw [pending_of_next_none first]
      simp
    | some r =>
      obtain ⟨d, c'⟩ := r
      rw [next_pending base first, List.length_cons, Nat.add_lt_add_iff_right, ← ih]
      constructor
      · intro none
        exact none (d, c') rfl
      · rintro none r same
        cases same
        exact none

/-- A block that the stream still has. -/
theorem take_of_le (base : 2 ≤ b) {k : Nat} {c : Cursor} (enough : k ≤ (c.pending b).length) :
    ∃ c', c.take b k = some ((c.pending b).take k, c') := by
  cases read : c.take b k with
  | none =>
    have := (take_eq_none_iff base).mp read
    omega
  | some r =>
    obtain ⟨ds, c'⟩ := r
    refine ⟨c', ?_⟩
    rw [take_stream base read, ← length_of_take read, List.take_left]

end Cursor

end DigitStream
