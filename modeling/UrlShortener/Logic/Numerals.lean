import Mathlib.Data.Nat.Digits.Defs
import Mathlib.Data.Nat.ModEq

/-!
# Numerals of a fixed width

The `k` low digits of a number in base `b`, least significant first, as a loop of `k`
remainders and quotients computes them. They have the value of the number modulo `b ^ k`
(`ofDigits_lowDigits`), every list of `k` digits is the numeral of its value
(`lowDigits_ofDigits`), and two numbers have the same numeral exactly if they are
congruent modulo `b ^ k` (`lowDigits_eq_iff`). `foldl_digits` is the value of a numeral
written with the most significant digit first.
-/

namespace Numerals
set_option autoImplicit false

/-- The `k` low digits of `n` in base `b`. -/
def lowDigits (b : Nat) : Nat → Nat → List Nat
  | 0, _ => []
  | k + 1, n => n % b :: lowDigits b k (n / b)

variable {b : Nat}

@[simp] theorem length_lowDigits (k : Nat) : ∀ n, (lowDigits b k n).length = k := by
  induction k with
  | zero => exact fun n => rfl
  | succ k ih =>
    intro n
    rw [lowDigits, List.length_cons, ih]

theorem lt_of_mem_lowDigits (base : 0 < b) {k d : Nat} : ∀ {n : Nat}, d ∈ lowDigits b k n → d < b := by
  induction k with
  | zero =>
    intro n mem
    cases mem
  | succ k ih =>
    intro n mem
    rcases List.mem_cons.mp mem with rfl | later
    · exact Nat.mod_lt n base
    · exact ih later

/-- The value of the low digits. -/
theorem ofDigits_lowDigits (k : Nat) : ∀ n, Nat.ofDigits b (lowDigits b k n) = n % b ^ k := by
  induction k with
  | zero =>
    intro n
    rw [pow_zero, Nat.mod_one]
    rfl
  | succ k ih =>
    intro n
    rw [lowDigits, Nat.ofDigits_cons, ih, pow_succ', Nat.mod_mul]

/-- A list of digits is the numeral of its value. -/
theorem lowDigits_ofDigits {ds : List Nat} (digits : ∀ d ∈ ds, d < b) :
    lowDigits b ds.length (Nat.ofDigits b ds) = ds := by
  induction ds with
  | nil => rfl
  | cons d ds ih =>
    have small : d < b := digits d List.mem_cons_self
    have low : (d + b * Nat.ofDigits b ds) % b = d := by
      rw [Nat.add_mul_mod_self_left, Nat.mod_eq_of_lt small]
    have high : (d + b * Nat.ofDigits b ds) / b = Nat.ofDigits b ds := by
      rw [Nat.add_mul_div_left _ _ (by omega), Nat.div_eq_of_lt small, Nat.zero_add]
    rw [List.length_cons, lowDigits, Nat.ofDigits_cons, low, high,
      ih fun e mem => digits e (List.mem_cons_of_mem d mem)]

/-- **Same numeral, congruent numbers.** -/
theorem lowDigits_eq_iff (base : 0 < b) {k n m : Nat} :
    lowDigits b k n = lowDigits b k m ↔ n ≡ m [MOD b ^ k] := by
  constructor
  · intro same
    have values := congrArg (Nat.ofDigits b) same
    rwa [ofDigits_lowDigits, ofDigits_lowDigits] at values
  · intro congruent
    have numeral : ∀ n, lowDigits b k n = lowDigits b k (n % b ^ k) := by
      intro n
      have digits : ∀ d ∈ lowDigits b k n, d < b := fun d => lt_of_mem_lowDigits base
      have own := lowDigits_ofDigits digits
      rw [length_lowDigits, ofDigits_lowDigits] at own
      exact own.symm
    rw [numeral n, numeral m, congruent]

/-- The value of digits read from the most significant one on. -/
theorem foldl_digits (ds : List Nat) : ∀ n, ds.foldl (fun n d => b * n + d) n =
    Nat.ofDigits b ds.reverse + b ^ ds.length * n := by
  induction ds with
  | nil =>
    intro n
    simp
  | cons d ds ih =>
    intro n
    rw [List.foldl_cons, ih, List.reverse_cons, Nat.ofDigits_append, Nat.ofDigits_singleton,
      List.length_reverse, List.length_cons, pow_succ, Nat.mul_add]
    ring

/-- So many digits have a value below the power of the base. -/
theorem ofDigits_lt {ds : List Nat} {k : Nat} (base : 1 < b) (digits : ∀ d ∈ ds, d < b) (short : ds.length ≤ k) :
    Nat.ofDigits b ds < b ^ k :=
  (Nat.ofDigits_lt_base_pow_length base fun d mem => digits d mem).trans_le (Nat.pow_le_pow_right (by omega) short)

end Numerals
