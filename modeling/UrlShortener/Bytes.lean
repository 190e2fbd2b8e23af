import Mathlib.Init

/-!
# Byte strings and undefined behaviour

`std::string` and `std::string_view` are sequences of bytes. An operation the
language leaves undefined ends the model's evaluation with an `Undefined` value:
a function that may run into one returns `Except Undefined`, and to *complete*
is to return `.ok`.
-/

namespace UrlShortener
set_option autoImplicit false

abbrev Bytes := List UInt8

/-- The bytes of a literal of the source. -/
def bytes (s : String) : Bytes := s.toUTF8.data.toList

/-- The undefined operations the modelled code can reach. -/
inductive Undefined where
  /-- An index or an iterator outside its object. -/
  | outOfRange
  /-- An index outside the built-in `alphabet`. -/
  | outsideAlphabet
  /-- `%` or `/` by zero. -/
  | zeroDivisor
  /-- A null pointer read from. -/
  | nullPointer
  /-- A number an `int` cannot hold. -/
  | intOverflow
  /-- A loop that never ends. -/
  | endlessLoop
  deriving DecidableEq, Repr

/-- `std::string_view::starts_with`. -/
def startsWith (s lead : Bytes) : Bool := lead.isPrefixOf s

/-- A property of bytes is checked on all 256. -/
theorem forall_byte {P : UInt8 → Prop} (checked : ∀ n : Fin 256, P (UInt8.ofNat n)) : ∀ c, P c := by
  intro c
  have := checked ⟨c.toNat, c.toNat_lt⟩
  rwa [UInt8.ofNat_toNat] at this

end UrlShortener
