import Mathlib.Data.List.TakeWhile
import UrlShortener.AppConfig

/-!
# `app_config.cc`: numbers, keys, lists and paths in text

The conversions the loaders apply to settings: `std::atoi` and `std::stoull` of the
language, and the helpers of the file. Positions in a string are `int`s there.
-/

namespace UrlShortener
set_option autoImplicit false

/-- A `const char *`, up to its terminator. -/
structure CString where
  val : Bytes
  noTerminator : 0 ∉ val

/-- The string at the start of a buffer. -/
def CString.ofBytes (buffer : Bytes) : CString :=
  ⟨buffer.takeWhile (· != 0), fun mem => by simpa using List.mem_takeWhile_imp mem⟩

/-- The exceptions that leave a loader, with their `what()`. -/
inductive Exception where
  | invalidArgument (what : Bytes)
  | outOfRange (what : Bytes)
  | runtimeError (what : Bytes)
  | filesystemError (what : Bytes)
  /-- What yaml-cpp throws. -/
  | yaml (what : Bytes)
  deriving DecidableEq, Repr

/-! ## Numbers -/

def isspace (c : UInt8) : Bool := c = 0x20 || (0x09 ≤ c && c ≤ 0x0d)

/-- The value of a digit or a letter. -/
def digitValue (c : UInt8) : Option Nat :=
  if 0x30 ≤ c ∧ c ≤ 0x39 then some (c.toNat - 0x30)
  else if 0x41 ≤ c ∧ c ≤ 0x5a then some (c.toNat - 0x41 + 10)
  else if 0x61 ≤ c ∧ c ≤ 0x7a then some (c.toNat - 0x61 + 10)
  else none

/-- The digits in `base` at the start of a string. -/
def leadingDigits (base : Nat) : Bytes → List Nat
  | [] => []
  | c :: rest =>
    match digitValue c with
    | some d => if d < base then d :: leadingDigits base rest else []
    | none => []

/-- The number with these digits, the most significant one first. -/
def ofDigits (base : Nat) (digits : List Nat) : Nat := digits.foldl (fun n d => base * n + d) 0

def isDecimalDigit (c : UInt8) : Bool := 0x30 ≤ c && c ≤ 0x39

/-- The number these decimal digits write. -/
def decimalValue (digits : Bytes) : Nat := ofDigits 10 (digits.map fun c => c.toNat - 0x30)

/-- The sign in front of a number, and what follows it. -/
def takeSign : Bytes → Bool × Bytes
  | [] => (false, [])
  | c :: rest => if c = 0x2d then (true, rest) else if c = 0x2b then (false, rest) else (false, c :: rest)

/-- The value of an `int` operation. -/
def intResult (i : Int) : Except Undefined Int :=
  if -0x80000000 ≤ i ∧ i ≤ 0x7fffffff then .ok i else .error .intOverflow

/-- `std::atoi`: 0 for a text without a number. The language leaves a number outside
of `int` undefined. -/
def atoi (s : CString) : Except Undefined Int :=
  let (negative, rest) := takeSign (s.val.dropWhile isspace)
  let value : Int := ofDigits 10 (leadingDigits 10 rest)
  intResult (if negative then -value else value)

/-- `0x` in front of a hexadecimal digit is skipped. -/
def dropHexPrefix : Bytes → Bytes
  | zero :: x :: rest =>
    if zero = 0x30 ∧ (x = 0x78 ∨ x = 0x58) ∧ leadingDigits 16 rest ≠ [] then rest else zero :: x :: rest
  | s => s

/-- `std::stoull(str, nullptr, 16)`. -/
def stoull (str : Bytes) : Except Exception UInt64 :=
  let (negative, rest) := takeSign ((CString.ofBytes str).val.dropWhile isspace)
  let digits := leadingDigits 16 (dropHexPrefix rest)
  if digits = [] then .error (.invalidArgument (bytes "stoull"))
  else if UInt64.size ≤ ofDigits 16 digits then .error (.outOfRange (bytes "stoull"))
  else
    let value := UInt64.ofNat (ofDigits 16 digits)
    .ok (if negative then -value else value)

/-- `create_highwayhash_key`. A build with assertions aborts where this one throws. -/
def createHighwayhashKey (src : Bytes) : Except Exception HHKey := do
  if src.length ≠ 64 then throw (.invalidArgument (bytes "invalid string size"))
  let word (i : Nat) := stoull ((src.drop (i * 16)).take 16)
  return #v[← word 0, ← word 1, ← word 2, ← word 3]

/-! ## Lists -/

/-- The value of `std::string_view::npos`. -/
def npos : Nat := UInt64.size - 1

/-- `std::string_view::find`. -/
def find (s delim : Bytes) (pos : Nat) : Nat :=
  (((List.range (s.length + 1)).drop pos).find? fun k => startsWith (s.drop k) delim).getD npos

/-- A `size_t` narrowed to `int`. -/
def toInt (n : Nat) : Int := (n : Int).bmod UInt32.size

/-- An `int` widened to `size_t`. -/
def toSize (i : Int) : Nat := (i % UInt64.size).toNat

/-- The loop of `split_csv_string` from position `i` on, `rounds` times at most. -/
def splitFrom (s delim : Bytes) : Nat → Int → Except Undefined (List Bytes)
  | 0, _ => .error .endlessLoop
  | rounds + 1, i =>
    let j := toInt (find s delim (toSize i))
    if toSize j ≠ npos then do
      let count ← intResult (j - i)
      let next ← intResult (j + 1)
      let rest ← splitFrom s delim rounds next
      return (s.drop (toSize i)).take (toSize count) :: rest
    else if toSize i < s.length then .ok [s.drop (toSize i)]
    else .ok []

/-- `split_csv_string`. An `int` has `UInt32.size` values, so a loop that goes on longer
goes on for ever. -/
def splitCsvString (csvString : Bytes) (delim : Bytes := bytes ",") : Except Undefined (List Bytes) :=
  splitFrom csvString delim UInt32.size 0

/-! ## Paths -/

/-- `std::filesystem::path::parent_path` of a POSIX path. -/
def parentPath (path : Bytes) : Bytes :=
  let upToName := (path.reverse.dropWhile (· != 0x2f)).reverse
  let parent := (upToName.reverse.dropWhile (· == 0x2f)).reverse
  if path.all (· == 0x2f) then path
  else if parent = [] then upToName.take 1
  else parent

example : [bytes "urls.db", bytes "/urls.db", bytes "/var//db/urls.db"].map parentPath =
    [bytes "", bytes "/", bytes "/var//db"] := by decide

/-- How a `std::filesystem::path` is printed. -/
def quoted (path : Bytes) : Bytes :=
  0x22 :: path.flatMap (fun c => if c = 0x22 ∨ c = 0x5c then [0x5c, c] else [c]) ++ [0x22]

end UrlShortener
