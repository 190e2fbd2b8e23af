import Mathlib.Data.List.Infix

/-!
# Fields of a text

A text is a list of fields with a separator between them. `fields` are its pieces but for
an empty last one, which a separator at the very end leaves. No field has the separator in
it, and the fields with the separator put between them again are the text without a
separator at its end (`intercalate_fields`). Facts about the pieces of a text are proved
by `field_induction`, from the end of the text to its start.
-/

namespace Fields
set_option autoImplicit false

variable {α : Type*} {sep : α}

/-- What holds of a text without a separator, and of a field in front of a text it holds
of, holds of every text. -/
theorem field_induction [DecidableEq α] (sep : α) {motive : List α → Prop} (last : ∀ t, sep ∉ t → motive t)
    (field : ∀ pre rest, sep ∉ pre → motive rest → motive (pre ++ sep :: rest)) (t : List α) : motive t := by
  induction h : t.length using Nat.strong_induction_on generalizing t with
  | h n ih =>
    by_cases mem : sep ∈ t
    · obtain ⟨pre, rest, rfl, first⟩ := List.eq_append_cons_of_mem mem
      apply field pre rest first
      apply ih rest.length _ rest rfl
      rw [← h, List.length_append, List.length_cons]
      omega
    · exact last t mem

/-- A piece of a text is a part of it. -/
theorem infix_intercalate (between : List α) {e : List α} {es : List (List α)} (mem : e ∈ es) :
    e <:+: between.intercalate es := by
  induction es with
  | nil => cases mem
  | cons first es ih =>
    rcases List.mem_cons.mp mem with rfl | later
    · cases es with
      | nil => simp
      | cons next es =>
        rw [List.intercalate_cons_cons, List.append_assoc]
        exact (List.prefix_append _ _).isInfix
    · rw [List.intercalate_cons_of_ne_nil (List.ne_nil_of_mem later)]
      exact (ih later).trans (List.suffix_append _ _).isInfix

variable [DecidableEq α]

theorem infix_of_mem_splitOn {e t : List α} (mem : e ∈ t.splitOn sep) : e <:+: t := by
  have := infix_intercalate [sep] mem
  rwa [List.intercalate_splitOn] at this

/-! ## Without an empty last piece -/

def withoutEmptyLast (pieces : List (List α)) : List (List α) :=
  if pieces.getLast? = some [] then pieces.dropLast else pieces

@[simp] theorem withoutEmptyLast_concat_nil (pieces : List (List α)) :
    withoutEmptyLast (pieces ++ [[]]) = pieces := by
  unfold withoutEmptyLast
  rw [List.getLast?_concat, if_pos rfl, List.dropLast_concat]

theorem withoutEmptyLast_of_not_mem {pieces : List (List α)} (nonempty : [] ∉ pieces) :
    withoutEmptyLast pieces = pieces := by
  unfold withoutEmptyLast
  split
  · rename_i last
    exact absurd (List.mem_of_getLast? last) nonempty
  · rfl

theorem withoutEmptyLast_cons (piece : List α) {pieces : List (List α)} (more : pieces ≠ []) :
    withoutEmptyLast (piece :: pieces) = piece :: withoutEmptyLast pieces := by
  unfold withoutEmptyLast
  rw [List.getLast?_cons_of_ne_nil more, List.dropLast_cons_of_ne_nil more]
  split
  · rfl
  · rfl

/-! ## Fields -/

/-- The pieces of a text but for an empty last one. -/
def fields (sep : α) (t : List α) : List (List α) := withoutEmptyLast (t.splitOn sep)

/-- At most one piece is dropped, an empty last one. -/
theorem splitOn_eq_fields (t : List α) : t.splitOn sep = fields sep t ∨ t.splitOn sep = fields sep t ++ [[]] := by
  unfold fields withoutEmptyLast
  split
  · rename_i last
    obtain ⟨front, split⟩ := List.getLast?_eq_some_iff.mp last
    right
    rw [split, List.dropLast_concat]
  · exact .inl rfl

theorem fields_of_not_mem {t : List α} (absent : sep ∉ t) : fields sep t = if t = [] then [] else [t] := by
  unfold fields
  rw [List.splitOn_eq_singleton absent]
  split
  · rename_i empty
    rw [empty]
    exact withoutEmptyLast_concat_nil []
  · rename_i nonempty
    exact withoutEmptyLast_of_not_mem (by simpa using Ne.symm nonempty)

@[simp] theorem fields_append {pre : List α} (absent : sep ∉ pre) (rest : List α) :
    fields sep (pre ++ sep :: rest) = pre :: fields sep rest := by
  unfold fields
  rw [List.splitOn_append_cons_self_of_not_mem absent, withoutEmptyLast_cons _ (List.splitOn_ne_nil _ _)]

theorem fields_eq_nil_iff {t : List α} : fields sep t = [] ↔ t = [] := by
  by_cases mem : sep ∈ t
  · obtain ⟨pre, rest, rfl, first⟩ := List.eq_append_cons_of_mem mem
    simp [fields_append first]
  · rw [fields_of_not_mem mem]
    split
    · rename_i empty
      simp [empty]
    · rename_i nonempty
      simp [nonempty]

/-- No field has the separator in it. -/
theorem sep_not_mem_of_mem_fields (t : List α) : ∀ f ∈ fields sep t, sep ∉ f := by
  induction t using field_induction sep with
  | last t absent =>
    rw [fields_of_not_mem absent]
    split
    · simp
    · simpa using absent
  | field pre rest first ih =>
    rw [fields_append first]
    intro f mem
    rcases List.mem_cons.mp mem with rfl | later
    · exact first
    · exact ih f later

/-- **The fields joined again** are the text without a separator at its end. -/
theorem intercalate_fields (t : List α) :
    [sep].intercalate (fields sep t) = if t.getLast? = some sep then t.dropLast else t := by
  induction t using field_induction sep with
  | last t absent =>
    have other : t.getLast? ≠ some sep := fun final => absent (List.mem_of_getLast? final)
    rw [fields_of_not_mem absent, if_neg other]
    split
    · rename_i empty
      rw [empty]
      rfl
    · simp
  | field pre rest first ih =>
    rw [fields_append first]
    by_cases empty : rest = []
    · -- the separator is the last character
      subst empty
      have none : fields sep ([] : List α) = [] := fields_eq_nil_iff.mpr rfl
      rw [none, List.getLast?_concat, if_pos rfl, List.dropLast_concat]
      simp
    · have more : fields sep rest ≠ [] := fun none => empty (fields_eq_nil_iff.mp none)
      have final : (pre ++ sep :: rest).getLast? = rest.getLast? := by
        rw [List.getLast?_append_of_ne_nil _ (List.cons_ne_nil _ _), List.getLast?_cons_of_ne_nil empty]
      rw [List.intercalate_cons_of_ne_nil more, ih, final]
      split
      · rw [List.dropLast_append_of_ne_nil (List.cons_ne_nil _ _), List.dropLast_cons_of_ne_nil empty,
          List.append_assoc]
        rfl
      · rw [List.append_assoc]
        rfl

end Fields
