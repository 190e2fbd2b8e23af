import Mathlib.Data.Finset.Lattice.Basic
import Mathlib.Order.Interval.Finset.Nat
import UrlShortener.Logic.DigitStream
import UrlShortener.UrlShortening

/-!
# `generate_slug` reads the digit stream of the hash

The locals of `generate_slug` stand at a cursor in the digit stream of the four
words, in the base of the configured alphabet's length. `slugTries_reads` says what
the loops do in terms of it: they read as many digits as the tries need, and `dst`
holds the last block, rendered in the built-in alphabet; they end early only where
the words are used up or a digit has no character.
-/

namespace UrlShortener
set_option autoImplicit false
open DigitStream

/-- Where the division of the hash stands. -/
def SlugState.cursor (s : SlugState) : Cursor :=
  match s.result.toList.drop s.resultIdx with
  | [] => ⟨0, []⟩
  | w :: rest => ⟨w.toNat, rest.map UInt64.toNat⟩

/-- The characters of the digits in the built-in alphabet. -/
def Renders (ds : List Nat) (cs : Bytes) : Prop := cs.map some = ds.map fun d => alphabet[d]?

theorem Renders.append {ds es : List Nat} {cs bs : Bytes} (first : Renders ds cs)
    (second : Renders es bs) : Renders (ds ++ es) (cs ++ bs) := by
  unfold Renders at *
  rw [List.map_append, List.map_append, first, second]

theorem Renders.drop {ds : List Nat} {cs : Bytes} (h : Renders ds cs) (k : Nat) :
    Renders (ds.drop k) (cs.drop k) := by
  unfold Renders at *
  rw [List.map_drop, List.map_drop, h]

theorem Renders.length {ds : List Nat} {cs : Bytes} (h : Renders ds cs) : cs.length = ds.length := by
  simpa using congrArg List.length h

/-- What a loop that reads `k` digits comes to; `block` is what it leaves in `dst` of
their characters. -/
inductive Reads (n : Nat) (s : SlugState) (k : Nat) (block : Bytes → Bytes) :
    Except Undefined (Bool × SlugState) → Prop where
  /-- The guard of the inner loop has let `result_idx = 4` through. -/
  | usedUp : s.cursor.take n k = none → Reads n s k block (.error .outOfRange)
  | outside : alphabet.length < n → Reads n s k block (.error .outsideAlphabet)
  | rendered {ds : List Nat} {cs : Bytes} {s' : SlugState} :
      s.cursor.take n k = some (ds, s'.cursor) → Renders ds cs → s'.resultIdx < 4 →
      s'.dst = block cs → Reads n s k block (.ok (true, s'))

/-! ## One digit -/

section

variable {n : Nat} {s : SlugState}

theorem cursor_eq (inside : s.resultIdx < 4) :
    s.cursor = ⟨s.result[s.resultIdx].toNat, (s.result.toList.drop (s.resultIdx + 1)).map UInt64.toNat⟩ := by
  have bound : s.resultIdx < s.result.toList.length := by simpa using inside
  rw [SlugState.cursor, List.drop_eq_getElem_cons bound]
  simp

theorem word_eq (inside : s.resultIdx < 4) : s.word = .ok s.result[s.resultIdx] := by
  unfold SlugState.word
  rw [Vector.getElem?_eq_getElem inside]

/-- Writing back the quotient of the current word. -/
theorem cursor_divided (inside : s.resultIdx < 4) (w : UInt64) (dst : Bytes) :
    SlugState.cursor ⟨s.result.setIfInBounds s.resultIdx w, s.resultIdx, dst⟩ =
      ⟨w.toNat, s.cursor.rest⟩ := by
  have later : (s.result.toList.set s.resultIdx w).drop (s.resultIdx + 1) =
      s.result.toList.drop (s.resultIdx + 1) := List.drop_set_of_lt (Nat.lt_succ_self _)
  have bound : (SlugState.mk (s.result.setIfInBounds s.resultIdx w) s.resultIdx dst).resultIdx < 4 := inside
  rw [cursor_eq inside, cursor_eq bound]
  simp [later]

/-- The digit of the current word. -/
theorem emit_reads (positive : 0 < n) (inside : s.resultIdx < 4) :
    (alphabet.length < n ∧ s.emit n = .error .outsideAlphabet) ∨
      ∃ c s', alphabet[s.cursor.word % n]? = some c ∧ s.emit n = .ok s' ∧
        s'.cursor = ⟨s.cursor.word / n, s.cursor.rest⟩ ∧ s'.resultIdx < 4 ∧ s'.dst = s.dst ++ [c] := by
  have below : s.cursor.word % n < n := Nat.mod_lt _ positive
  have current : s.result[s.resultIdx].toNat = s.cursor.word := by rw [cursor_eq inside]
  simp only [SlugState.emit, word_eq inside, current, bind, Except.bind, if_neg (Nat.ne_of_gt positive)]
  cases char : alphabet[s.cursor.word % n]? with
  | none =>
    have outside := List.getElem?_eq_none_iff.mp char
    exact .inl ⟨by omega, rfl⟩
  | some c =>
    refine .inr ⟨c, _, rfl, rfl, ?_, inside, rfl⟩
    have small : s.cursor.word / n < 2 ^ 64 := by
      rw [← current]
      exact Nat.lt_of_le_of_lt (Nat.div_le_self _ _) (UInt64.toNat_lt _)
    rw [cursor_divided inside, UInt64.toNat_ofNat_of_lt' small]

/-- Past the current word stands the next one, or nothing. -/
theorem rest_eq_nil (inside : s.resultIdx < 4) (last : ¬ s.resultIdx + 1 < 4) : s.cursor.rest = [] := by
  have past : s.result.toList.length ≤ s.resultIdx + 1 := by simpa using last
  rw [cursor_eq inside, List.drop_eq_nil_iff.mpr past]
  rfl

theorem rest_eq_cons (more : s.resultIdx + 1 < 4) :
    let s' := { s with resultIdx := s.resultIdx + 1 }
    s.cursor.rest = s'.cursor.word :: s'.cursor.rest := by
  intro s'
  have bound : s'.resultIdx < 4 := more
  have later : s.resultIdx + 1 < s.result.toList.length := by simpa using more
  rw [cursor_eq (Nat.lt_of_succ_lt more), cursor_eq bound, List.drop_eq_getElem_cons later]
  simp [s']

/-- One round of the inner loop divides off the next digit of the stream. -/
theorem next_reads (positive : 0 < n) (inside : s.resultIdx < 4) :
    (s.cursor.next n = none ∧ s.next n = .error .outOfRange) ∨
    (alphabet.length < n ∧ s.next n = .error .outsideAlphabet) ∨
    ∃ d c s', s.cursor.next n = some (d, s'.cursor) ∧ alphabet[d]? = some c ∧
      s.next n = .ok (true, s') ∧ s'.resultIdx < 4 ∧ s'.dst = s.dst ++ [c] := by
  have current : s.result[s.resultIdx].toNat = s.cursor.word := by rw [cursor_eq inside]
  simp only [SlugState.next, word_eq inside, bind, Except.bind]
  by_cases used : s.cursor.word = 0
  · -- the word is used up: on to the next one
    have zero : s.result[s.resultIdx] ≤ 0 := by
      rw [UInt64.le_iff_toNat_le, current, used]
      exact Nat.le_refl 0
    rw [if_pos zero, if_neg (by omega)]
    by_cases more : s.resultIdx + 1 < 4
    · have words := rest_eq_cons more
      rcases emit_reads (s := { s with resultIdx := s.resultIdx + 1 }) positive more with
        ⟨outside, emitted⟩ | ⟨c, s', char, emitted, moved, bound, dst⟩
      · exact .inr (.inl ⟨outside, by rw [emitted]⟩)
      · refine .inr (.inr ⟨_, c, s', ?_, char, by rw [emitted]; rfl, bound, dst⟩)
        rw [Cursor.next, if_pos used, words, moved]
    · have words := rest_eq_nil inside more
      refine .inl ⟨by rw [Cursor.next, if_pos used, words], ?_⟩
      have past : s.result[s.resultIdx + 1]? = none := Vector.getElem?_eq_none (by omega)
      simp [SlugState.emit, SlugState.word, past, bind, Except.bind]
  · have unused : ¬ s.result[s.resultIdx] ≤ 0 := by
      rw [UInt64.le_iff_toNat_le, current]
      exact fun zero => used (Nat.le_zero.mp zero)
    rw [if_neg unused]
    rcases emit_reads positive inside with ⟨outside, emitted⟩ | ⟨c, s', char, emitted, moved, bound, dst⟩
    · exact .inr (.inl ⟨outside, by rw [emitted]⟩)
    · refine .inr (.inr ⟨_, c, s', ?_, char, by rw [emitted]; rfl, bound, dst⟩)
      rw [Cursor.next, if_neg used, moved]

/-! ## The loops -/

/-- A block that is not there is not there as the start of a longer one. -/
theorem Reads.usedUp_of_prefix {k m : Nat} {block : Bytes → Bytes} (short : s.cursor.take n k = none) :
    Reads n s (k + m) block (.error .outOfRange) := by
  refine .usedUp ?_
  rw [Cursor.take_add, short]
  rfl

/-- The inner loop reads one digit a round. -/
theorem slugChars_reads (positive : 0 < n) : ∀ (count : Nat) {s : SlugState}, s.resultIdx < 4 →
    Reads n s count (s.dst ++ ·) (slugChars n count s) := by
  intro count
  induction count with
  | zero =>
    intro s inside
    have read : s.cursor.take n 0 = some ([], s.cursor) := rfl
    have renders : Renders [] [] := rfl
    exact .rendered read renders inside (by simp)
  | succ count ih =>
    intro s inside
    simp only [slugChars]
    rcases next_reads positive inside with
      ⟨ended, eq⟩ | ⟨outside, eq⟩ | ⟨d, c, s₁, first, char, eq, bound, dst⟩ <;> rw [eq]
    · exact .usedUp (by rw [Cursor.take, ended]; rfl)
    · exact .outside outside
    · change Reads n s _ _ (slugChars n count s₁)
      have rest := ih bound
      generalize slugChars n count s₁ = r at rest ⊢
      cases rest with
      | usedUp short => exact .usedUp (by rw [Cursor.take_succ_of_next first, short]; rfl)
      | outside outside => exact .outside outside
      | rendered read renders inside' dst' =>
        rename_i ds cs s'
        have both : s.cursor.take n (count + 1) = some (d :: ds, s'.cursor) := by
          rw [Cursor.take_succ_of_next first, read]
          rfl
        have chars : Renders (d :: ds) (c :: cs) := by
          rw [Renders, List.map_cons, List.map_cons, char, renders]
        refine .rendered both chars inside' ?_
        rw [dst', dst, List.append_assoc]
        rfl

/-- The outer loop reads one block a try and keeps the last one. -/
theorem slugTries_reads (positive : 0 < n) (len : Nat) : ∀ (tries : Nat) {s : SlugState},
    s.resultIdx < 4 → Reads n s ((tries + 1) * len) (·.drop (tries * len)) (slugTries n len (tries + 1) s) := by
  intro tries
  induction tries with
  | zero =>
    intro s inside
    have chars := slugChars_reads (s := { s with dst := [] }) positive len inside
    rw [slugTries, Nat.zero_add, Nat.one_mul, Nat.zero_mul]
    generalize slugChars n len { s with dst := [] } = r at chars ⊢
    cases chars with
    | usedUp short => exact .usedUp short
    | outside outside => exact .outside outside
    | rendered read renders inside' dst => exact .rendered read renders inside' dst
  | succ tries ih =>
    intro s inside
    have chars := slugChars_reads (s := { s with dst := [] }) positive len inside
    rw [slugTries, Nat.succ_mul (tries + 1) len, Nat.add_comm _ len]
    generalize slugChars n len { s with dst := [] } = r at chars ⊢
    cases chars with
    | usedUp short => exact Reads.usedUp_of_prefix (s := s) short
    | outside outside => exact .outside outside
    | rendered read renders inside' dst =>
      rename_i ds cs s₁
      change Reads n s _ _ (slugTries n len (tries + 1) s₁)
      have block : s.cursor.take n len = some (ds, s₁.cursor) := read
      have later := ih inside'
      generalize slugTries n len (tries + 1) s₁ = r at later ⊢
      cases later with
      | usedUp short =>
        refine .usedUp ?_
        rw [Cursor.take_add_of_take block, short]
        rfl
      | outside outside => exact .outside outside
      | rendered read' renders' inside'' dst' =>
        rename_i es bs s'
        have both : s.cursor.take n (len + (tries + 1) * len) = some (ds ++ es, s'.cursor) := by
          rw [Cursor.take_add_of_take block, read']
          rfl
        refine .rendered both (renders.append renders') inside'' ?_
        · have length : cs.length = len := by rw [renders.length, Cursor.length_of_take block]
          rw [dst', Nat.succ_mul, Nat.add_comm _ len, ← length, List.drop_length_add_append]

end

/-! ## A whole call -/

/-- The base-`n` digits the four words supply. -/
def hashDigits (n : Nat) (hash : HHResult256) : List Nat := stream n (hash.toList.map UInt64.toNat)

/-- The cursor in front of the first word. -/
def hashCursor (hash : HHResult256) : Cursor := SlugState.cursor ⟨hash, 0, []⟩

theorem hashCursor_pending (n : Nat) (hash : HHResult256) :
    (hashCursor hash).pending n = hashDigits n hash := by
  have words : hash.toList = hash[0] :: hash.toList.drop 1 := by
    have more : 0 < hash.toList.length := by simp
    simpa using List.drop_eq_getElem_cons more
  rw [hashCursor, cursor_eq (s := ⟨hash, 0, []⟩) (Nat.zero_lt_succ 3), hashDigits, words]
  rfl

section

variable (svc : UrlShorteningConfig) (longUrl : Bytes) (n : UInt8)

/-- How many digits the tries up to `n` read. -/
def UrlShorteningConfig.digitsRead : Nat := n.toNat * svc.slugLength.toNat

/-- The digits of try `n`, by repeated division of the hash. -/
def UrlShorteningConfig.tryDigits : List Nat :=
  (((hashCursor (svc.highwayHash longUrl)).take svc.alphabet.length (svc.digitsRead n)).elim [] Prod.fst).drop
    ((n.toNat - 1) * svc.slugLength.toNat)

/-- What a call comes to. -/
inductive Generates : Except Undefined (Bool × Bytes) → Prop where
  | usedUp : (hashCursor (svc.highwayHash longUrl)).take svc.alphabet.length (svc.digitsRead n) = none →
      Generates (.error .outOfRange)
  | outside : alphabet.length < svc.alphabet.length → Generates (.error .outsideAlphabet)
  | rendered {slug : Bytes} : Renders (svc.tryDigits longUrl n) slug → slug.length = svc.slugLength.toNat →
      (hashCursor (svc.highwayHash longUrl)).take svc.alphabet.length (svc.digitsRead n) ≠ none →
      Generates (.ok (true, slug))

variable {svc n}

/-- **Everything a call can do**, for an alphabet that is not empty. -/
theorem generateSlug_cases (nonempty : svc.alphabet ≠ []) (tried : 0 < n.toNat) (dst : Bytes) :
    Generates svc longUrl n (svc.generateSlug dst longUrl n) := by
  have positive : 0 < svc.alphabet.length := List.length_pos_of_ne_nil nonempty
  obtain ⟨tries, count⟩ : ∃ tries, n.toNat = tries + 1 := ⟨n.toNat - 1, by omega⟩
  have reads := slugTries_reads positive svc.slugLength.toNat tries
    (s := ⟨svc.highwayHash longUrl, 0, dst⟩) (Nat.zero_lt_succ 3)
  rw [UrlShorteningConfig.generateSlug, count]
  generalize slugTries svc.alphabet.length svc.slugLength.toNat (tries + 1)
    ⟨svc.highwayHash longUrl, 0, dst⟩ = r at reads ⊢
  have total : (tries + 1) * svc.slugLength.toNat = svc.digitsRead n := by
    rw [UrlShorteningConfig.digitsRead, count]
  cases reads with
  | usedUp short => exact .usedUp (by rw [← total]; exact short)
  | outside outside => exact .outside outside
  | rendered read renders inside block =>
    rename_i ds cs s'
    have taken : (hashCursor (svc.highwayHash longUrl)).take svc.alphabet.length (svc.digitsRead n) =
        some (ds, s'.cursor) := by rw [← total]; exact read
    refine .rendered ?_ ?_ (by rw [taken]; exact Option.some_ne_none _)
    · rw [UrlShorteningConfig.tryDigits, taken, block, count]
      exact renders.drop _
    · rw [block, List.length_drop, renders.length, Cursor.length_of_take read, Nat.succ_mul]
      omega

/-- In a base the digits of try `n` are a block of the stream. -/
theorem tryDigits_eq (base : 2 ≤ svc.alphabet.length) (tried : 0 < n.toNat)
    (enough : svc.digitsRead n ≤ (hashDigits svc.alphabet.length (svc.highwayHash longUrl)).length) :
    svc.tryDigits longUrl n =
      ((hashDigits svc.alphabet.length (svc.highwayHash longUrl)).drop
        ((n.toNat - 1) * svc.slugLength.toNat)).take svc.slugLength.toNat := by
  rw [← hashCursor_pending] at enough ⊢
  obtain ⟨c, read⟩ := Cursor.take_of_le base enough
  have block : svc.digitsRead n = (n.toNat - 1) * svc.slugLength.toNat + svc.slugLength.toNat := by
    rw [UrlShorteningConfig.digitsRead, ← Nat.succ_mul, Nat.succ_eq_add_one, Nat.sub_add_cancel tried]
  rw [UrlShorteningConfig.tryDigits, read, block]
  exact List.take_drop.symm

end

end UrlShortener
