import Mathlib.Data.List.Basic
import UrlShortener.WebServer

/-!
# What `parse_out_request_str` and `is_ok_request_path` read

The parser moves an iterator over the view. With the reads written out
(`parseOutRequestStrAt`), it computes what the scan over the list of characters computes
(`parseOutRequestStrAt_eq`), and it accepts `/`, characters of the alphabet and then
nothing or a `?`. All reads are inside the view but one: the first character is read
before the end is looked for, in `lookup` as well (`parses_grammar_iff`).

The validator `is_ok_request_path` searches the alphabet with a loop of its own and is
given the slug without the slash. The limit counts the slash for the parser alone, so the
two agree at every length but 1000 (`validators_agree`).
-/

namespace UrlShortener
set_option autoImplicit false

/-! ## The parser with its reads -/

/-- `*it`, where `it` is so many characters after `src.begin()`. -/
def deref (src : Bytes) (it : Nat) : Except Undefined UInt8 :=
  match src[it]? with
  | some c => .ok c
  | none => .error .outOfRange

/-- The loop over `j` that sets `included`; the characters of the alphabet from `j` on
are given. -/
def includedAt (src : Bytes) (it : Nat) : Bytes → Except Undefined Bool
  | [] => .ok false
  | a :: rest => do
    if a = (← deref src it) then return true
    includedAt src it rest

/-- The loop over `it`, `rounds` times at most: where it stops, `none` at an illegal
symbol. -/
def scanFrom (src : Bytes) : Nat → Nat → Except Undefined (Option Nat)
  | 0, _ => .error .endlessLoop
  | rounds + 1, it =>
    if it = src.length then .ok (some it)
    else do
      let included ← includedAt src it alphabet
      if included = false then
        if (← deref src it) = 0x3f then return some it
        else return none
      scanFrom src rounds (it + 1)

/-- `parse_out_request_str` with its iterators. -/
def parseOutRequestStrAt (src : Bytes) : Except Undefined Bytes :=
  if src.length > maxRequestStrLen then .ok []
  else do
    if (← deref src 0) ≠ 0x2f then return []
    match ← scanFrom src src.length 1 with
    | some e => return (src.take e).drop 1
    | none => return []

/-! ## The reads are the list's characters -/

/-- What holds at the end of the view, and at a position if it holds one further on, holds
of every loop over positions with a round more than characters are left. The rounds and
the characters left go with the position. -/
theorem position_induction {src : Bytes} {motive : Bytes → Nat → Nat → Prop}
    (stop : ∀ rounds, motive [] (rounds + 1) src.length)
    (next : ∀ c rest rounds i, deref src i = .ok c → i < src.length → motive rest rounds (i + 1) →
      motive (c :: rest) (rounds + 1) i)
    {rounds i : Nat} (inside : i ≤ src.length) (enough : src.length - i < rounds) :
    motive (src.drop i) rounds i := by
  induction rounds generalizing i with
  | zero => omega
  | succ rounds ih =>
    by_cases more : i < src.length
    · have read : deref src i = .ok src[i] := by
        unfold deref
        rw [List.getElem?_eq_getElem more]
      rw [List.drop_eq_getElem_cons more]
      apply next _ _ _ _ read more
      apply ih
      · omega
      · omega
    · have atEnd : i = src.length := by omega
      rw [atEnd, List.drop_length]
      exact stop rounds

theorem includedAt_eq {src : Bytes} {it : Nat} {c : UInt8} (read : deref src it = .ok c) (chars : Bytes) :
    includedAt src it chars = .ok (chars.any fun a => a == c) := by
  induction chars with
  | nil => rfl
  | cons a rest ih =>
    rw [includedAt, read, ih, List.any_cons]
    by_cases same : a = c
    · simp [same, bind, Except.bind, pure, Except.pure]
    · simp [same, bind, Except.bind]

/-- **The loop over `it`** from a position on stops where the scan of the rest does. -/
theorem scanFrom_eq {src : Bytes} {rounds it : Nat} (inside : it ≤ src.length)
    (enough : src.length - it < rounds) :
    scanFrom src rounds it = .ok ((scanSlug (src.drop it)).map fun s => it + s.length) := by
  refine position_induction (motive := fun suf rounds it =>
    scanFrom src rounds it = .ok ((scanSlug suf).map fun s => it + s.length)) ?_ ?_ inside enough
  · intro rounds
    rw [scanFrom, if_pos rfl]
    rfl
  · intro c rest rounds it read more next
    rw [scanFrom, if_neg (by omega), includedAt_eq read, read, scanSlug]
    by_cases legal : included c
    · have found : (alphabet.any fun a => a == c) = true := legal
      simp only [found, legal, bind, Except.bind, Bool.true_eq_false, if_false, if_true, next, Option.map_map]
      congr 2
      funext s
      simp only [Function.comp_apply, List.length_cons]
      omega
    · have absent : (alphabet.any fun a => a == c) = false := Bool.eq_false_iff.mpr legal
      simp only [absent, legal, bind, Except.bind, if_true]
      by_cases query : c = 0x3f
      · simp [query, pure, Except.pure]
      · simp [query, pure, Except.pure]

/-! ## The grammar -/

/-- At most 1000 characters: `/`, then `s` of characters of the alphabet, then nothing or
a query. -/
def RequestsSlug (src s : Bytes) : Prop :=
  src.length ≤ maxRequestStrLen ∧
    ∃ t, src = 0x2f :: (s ++ t) ∧ (∀ c ∈ s, c ∈ alphabet) ∧ (t = [] ∨ t.head? = some 0x3f)

theorem mem_of_included {c : UInt8} (h : included c = true) : c ∈ alphabet := by
  simpa [included] using h

theorem included_iff (c : UInt8) : included c = true ↔ c ∈ alphabet :=
  ⟨mem_of_included, included_of_mem⟩

/-- The scan stops at the end or at a query, after characters of the alphabet only. -/
theorem scanSlug_eq_some_iff {src s : Bytes} : scanSlug src = some s ↔
    ∃ t, src = s ++ t ∧ (∀ c ∈ s, c ∈ alphabet) ∧ (t = [] ∨ t.head? = some 0x3f) := by
  induction src generalizing s with
  | nil =>
    constructor
    · intro scanned
      cases scanned
      exact ⟨[], rfl, by simp, .inl rfl⟩
    · rintro ⟨t, split, -⟩
      rw [(List.append_eq_nil_iff.mp split.symm).1]
      rfl
  | cons c rest ih =>
    rw [scanSlug]
    constructor
    · intro scanned
      split at scanned
      · rename_i legal
        obtain ⟨s', scanned', rfl⟩ := Option.map_eq_some_iff.mp scanned
        obtain ⟨t, rfl, chars, stop⟩ := ih.mp scanned'
        refine ⟨t, rfl, ?_, stop⟩
        intro a mem
        rcases List.mem_cons.mp mem with rfl | mem
        · exact mem_of_included legal
        · exact chars a mem
      · split at scanned
        · rename_i query
          cases scanned
          exact ⟨c :: rest, rfl, by simp, .inr (congrArg some query)⟩
        · cases scanned
    · rintro ⟨t, split, chars, stop⟩
      cases s with
      | nil =>
        -- `c` begins the query
        have start : t = c :: rest := split.symm
        subst start
        have query : c = 0x3f := by simpa using stop
        rw [query, if_neg (by decide), if_pos rfl]
      | cons a s =>
        obtain ⟨rfl, after⟩ := List.cons.inj split
        have later : scanSlug rest = some s :=
          ih.mpr ⟨t, after, fun b mem => chars b (List.mem_cons_of_mem c mem), stop⟩
        rw [if_pos (included_of_mem (chars c List.mem_cons_self)), later]
        rfl

/-- **The parser reads what its model on lists reads.** -/
theorem parseOutRequestStrAt_eq (src : Bytes) : parseOutRequestStrAt src = parseOutRequestStr src := by
  unfold parseOutRequestStrAt parseOutRequestStr
  split
  · rfl
  · cases src with
    | nil => rfl
    | cons c rest =>
      have first : deref (c :: rest) 0 = .ok c := rfl
      have loop : scanFrom (c :: rest) (c :: rest).length 1 =
          .ok ((scanSlug rest).map fun s => 1 + s.length) :=
        scanFrom_eq (by simp) (by simp)
      simp only [first, bind, Except.bind]
      by_cases slash : c = 0x2f
      · rw [if_neg (by simpa using slash), if_neg (by simpa using slash), loop]
        cases scanned : scanSlug rest with
        | none => rfl
        | some s =>
          obtain ⟨t, rfl, -⟩ := scanSlug_eq_some_iff.mp scanned
          simp [pure, Except.pure, Nat.add_comm 1]
      · rw [if_pos slash, if_pos slash]
        rfl

/-- A slug is requested exactly by a short path whose scan finds it. -/
theorem requestsSlug_cons_iff {c : UInt8} {rest s : Bytes} : RequestsSlug (c :: rest) s ↔
    ¬ (c :: rest).length > maxRequestStrLen ∧ c = 0x2f ∧ scanSlug rest = some s := by
  rw [scanSlug_eq_some_iff]
  unfold RequestsSlug
  constructor
  · rintro ⟨short, t, split, chars, stop⟩
    obtain ⟨rfl, rfl⟩ := List.cons.inj split
    exact ⟨Nat.not_lt.mpr short, rfl, t, rfl, chars, stop⟩
  · rintro ⟨short, rfl, t, rfl, chars, stop⟩
    exact ⟨Nat.not_lt.mp short, t, rfl, chars, stop⟩

/-- The parser reads inside the view and returns the slug the view requests, or nothing
where it requests none. -/
def ParsesGrammar (src : Bytes) : Prop :=
  ∃ result, parseOutRequestStrAt src = .ok result ∧ (∀ s, RequestsSlug src s → result = s) ∧
    ((∀ s, ¬ RequestsSlug src s) → result = [])

/-- The lookup reads inside the path. -/
def LooksUpInside (path : Bytes) : Prop :=
  ∀ cache : FrontendDirCache, ∃ found, FrontendHandler.lookup cache path = .ok found

theorem parsesGrammar_cons (c : UInt8) (rest : Bytes) : ParsesGrammar (c :: rest) := by
  unfold ParsesGrammar
  rw [parseOutRequestStrAt_eq, parseOutRequestStr]
  simp only [requestsSlug_cons_iff]
  by_cases long : (c :: rest).length > maxRequestStrLen
  · rw [if_pos long]
    exact ⟨[], rfl, fun s requested => absurd long requested.1, fun _ => rfl⟩
  · rw [if_neg long]
    by_cases slash : c = 0x2f
    · rw [if_neg (by simpa using slash)]
      refine ⟨_, rfl, ?_, ?_⟩
      · rintro s ⟨-, -, scanned⟩
        rw [scanned]
        rfl
      · intro other
        cases scanned : scanSlug rest with
        | none => rfl
        | some s => exact absurd ⟨long, slash, scanned⟩ (other s)
    · rw [if_pos slash]
      exact ⟨[], rfl, fun s requested => absurd requested.2.1 slash, fun _ => rfl⟩

theorem looksUpInside_cons (c : UInt8) (rest : Bytes) : LooksUpInside (c :: rest) := by
  intro cache
  unfold FrontendHandler.lookup
  rw [List.head?_cons, List.getLast?_cons]
  dsimp only
  split
  · exact ⟨_, rfl⟩
  · exact ⟨_, rfl⟩

/-- A request is routed exactly if its path is not empty. -/
theorem routed_iff {IP : Type} (cfg : ReadOnlyAppConfig IP) (cache : FrontendDirCache) (msg : HTTPMessage IP) :
    (∃ handler, MyRequestHandlerFactory.onRequest cfg cache msg = .ok handler) ↔ msg.path ≠ [] := by
  unfold MyRequestHandlerFactory.onRequest
  constructor
  · rintro ⟨handler, routed⟩ empty
    rw [empty] at routed
    cases routed
  · intro nonempty
    obtain ⟨c, rest, path⟩ := List.exists_cons_of_ne_nil nonempty
    obtain ⟨parsed, read, -⟩ := parsesGrammar_cons c rest
    obtain ⟨found, looked⟩ := looksUpInside_cons c rest cache
    rw [parseOutRequestStrAt_eq] at read
    rw [path, looked, read]
    cases found with
    | some frontend => exact ⟨_, rfl⟩
    | none =>
      simp only [bind, Except.bind]
      split
      · exact ⟨_, rfl⟩
      · split
        · split
          · exact ⟨_, rfl⟩
          · exact ⟨_, rfl⟩
        · split
          · exact ⟨_, rfl⟩
          · exact ⟨_, rfl⟩

/-- **The parser accepts its grammar, and it and the lookup read inside the path, for
every path but the empty one.** -/
theorem parses_grammar_iff (src : Bytes) : ParsesGrammar src ∧ LooksUpInside src ↔ src ≠ [] := by
  constructor
  · rintro ⟨⟨result, parsed, -⟩, -⟩ rfl
    cases parsed
  · intro nonempty
    obtain ⟨c, rest, rfl⟩ := List.exists_cons_of_ne_nil nonempty
    exact ⟨parsesGrammar_cons c rest, looksUpInside_cons c rest⟩

/-- Both read the first character of the empty path. -/
theorem empty_path_read_outside :
    parseOutRequestStrAt [] = .error .outOfRange ∧
    FrontendHandler.lookup (fun _ => none) [] = .error .outOfRange ∧
    ¬ ParsesGrammar [] ∧ ¬ LooksUpInside [] := by
  refine ⟨rfl, rfl, ?_, ?_⟩
  · rintro ⟨result, parsed, -⟩
    cases parsed
  · intro inside
    obtain ⟨found, looked⟩ := inside fun _ => none
    cases looked

/-! ## `is_ok_request_path` -/

/-- The `while` over `j`, with so many tests of its condition at most: where it stops. -/
def searchFrom (src : Bytes) (i : Nat) : Nat → Nat → Except Undefined Nat
  | 0, _ => .error .endlessLoop
  | rounds + 1, j =>
    if j < alphabet.length then do
      if (← deref src i) ≠ (← deref alphabet j) then searchFrom src i rounds (j + 1)
      else return j
    else return j

/-- The `for` over `i`, with so many tests of its condition at most. -/
def okFrom (src : Bytes) : Nat → Nat → Except Undefined Bool
  | 0, _ => .error .endlessLoop
  | rounds + 1, i =>
    if i < src.length then do
      let j ← searchFrom src i (alphabet.length + 1) 0
      if j = alphabet.length then return false
      okFrom src rounds (i + 1)
    else return true

/-- `is_ok_request_path`. -/
def isOkRequestPath (src : Bytes) : Except Undefined Bool :=
  if src.length > maxRequestStrLen then .ok false
  else okFrom src (src.length + 1) 0

/-- The search from a position of the alphabet on stops at the first `c`, or at the end
where there is none. -/
theorem searchFrom_eq {src : Bytes} {i : Nat} {c : UInt8} (read : deref src i = .ok c) {rounds j : Nat}
    (inside : j ≤ alphabet.length) (enough : alphabet.length - j < rounds) :
    searchFrom src i rounds j = .ok (j + (alphabet.drop j).idxOf c) := by
  refine position_induction (motive := fun suf rounds j =>
    searchFrom src i rounds j = .ok (j + suf.idxOf c)) ?_ ?_ inside enough
  · intro rounds
    rw [searchFrom, if_neg (Nat.lt_irrefl _)]
    rfl
  · intro a rest rounds j readAlphabet more next
    rw [searchFrom, if_pos more, read, readAlphabet]
    simp only [bind, Except.bind]
    by_cases same : c = a
    · rw [if_neg (by simpa using same), same, List.idxOf_cons_self]
      rfl
    · rw [if_pos same, next, List.idxOf_cons_ne rest (Ne.symm same), Nat.add_assoc, Nat.add_comm 1]

/-- The whole search runs to the end exactly for a character that is not in the alphabet. -/
theorem searchFrom_alphabet {src : Bytes} {i : Nat} {c : UInt8} (read : deref src i = .ok c) :
    ∃ j, searchFrom src i (alphabet.length + 1) 0 = .ok j ∧ (j = alphabet.length ↔ c ∉ alphabet) := by
  refine ⟨alphabet.idxOf c, ?_, List.idxOf_eq_length_iff⟩
  have whole : searchFrom src i (alphabet.length + 1) 0 = .ok (0 + (alphabet.drop 0).idxOf c) :=
    searchFrom_eq read (Nat.zero_le _) (by omega)
  rwa [List.drop_zero, Nat.zero_add] at whole

/-- **The loop over `i`** from a position on checks that the rest is of the alphabet. -/
theorem okFrom_eq {src : Bytes} {rounds i : Nat} (inside : i ≤ src.length) (enough : src.length - i < rounds) :
    okFrom src rounds i = .ok ((src.drop i).all included) := by
  refine position_induction (motive := fun suf rounds i =>
    okFrom src rounds i = .ok (suf.all included)) ?_ ?_ inside enough
  · intro rounds
    rw [okFrom, if_neg (Nat.lt_irrefl _)]
    rfl
  · intro c rest rounds i read more next
    obtain ⟨j, searched, atEnd⟩ := searchFrom_alphabet read
    rw [okFrom, if_pos more, searched]
    simp only [bind, Except.bind]
    by_cases legal : c ∈ alphabet
    · rw [if_neg (by simpa [atEnd] using legal), next, List.all_cons, included_of_mem legal, Bool.true_and]
    · have illegal : included c = false := Bool.eq_false_iff.mpr fun h => legal (mem_of_included h)
      rw [if_pos (atEnd.mpr legal), List.all_cons, illegal, Bool.false_and]
      rfl

/-- `is_ok_request_path` always returns: whether there are at most 1000 characters, all of
the alphabet. -/
theorem isOkRequestPath_eq (src : Bytes) :
    isOkRequestPath src = .ok (decide (src.length ≤ maxRequestStrLen) && src.all included) := by
  unfold isOkRequestPath
  by_cases long : src.length > maxRequestStrLen
  · rw [if_pos long]
    have notShort : ¬ src.length ≤ maxRequestStrLen := by omega
    simp [notShort]
  · rw [if_neg long]
    have short : src.length ≤ maxRequestStrLen := by omega
    rw [okFrom_eq (Nat.zero_le _) (by omega), List.drop_zero]
    simp [short]

/-! ## The two validators -/

/-- After a slash the scan finds all of `s` exactly if `s` is of the alphabet. -/
theorem scanSlug_whole_iff (s : Bytes) : (scanSlug s).getD [] = s ↔ ∀ c ∈ s, c ∈ alphabet := by
  constructor
  · intro whole
    cases scanned : scanSlug s with
    | none =>
      rw [scanned] at whole
      subst whole
      simp
    | some found =>
      obtain ⟨t, -, chars, -⟩ := scanSlug_eq_some_iff.mp scanned
      rw [scanned] at whole
      subst whole
      exact chars
  · intro chars
    rw [scanSlug_of_alphabet chars]
    rfl

/-- The slash takes one of the 1000 characters. -/
theorem parseOutRequestStrAt_slash (s : Bytes) : parseOutRequestStrAt (0x2f :: s) =
    .ok (if s.length < maxRequestStrLen then (scanSlug s).getD [] else []) := by
  rw [parseOutRequestStrAt_eq, parseOutRequestStr, List.length_cons]
  by_cases short : s.length < maxRequestStrLen
  · rw [if_neg (by omega), if_pos short]
    simp
  · rw [if_pos (by omega), if_neg short]

/-- Both return on `s`, and the validator accepts `s` exactly if the parser finds `s`
behind a slash. -/
def ValidatorsAgree (s : Bytes) : Prop :=
  ∃ ok parsed, isOkRequestPath s = .ok ok ∧ parseOutRequestStrAt (0x2f :: s) = .ok parsed ∧
    (ok = true ↔ parsed = s)

/-- They differ on the slugs that are as long as a request may be. -/
theorem validatorsAgree_iff (s : Bytes) :
    ValidatorsAgree s ↔ ¬ (s.length = maxRequestStrLen ∧ ∀ c ∈ s, c ∈ alphabet) := by
  have agree : ValidatorsAgree s ↔ ((s.length ≤ maxRequestStrLen ∧ ∀ c ∈ s, c ∈ alphabet) ↔
      (if s.length < maxRequestStrLen then (scanSlug s).getD [] else []) = s) := by
    unfold ValidatorsAgree
    rw [isOkRequestPath_eq, parseOutRequestStrAt_slash]
    simp [included_iff]
  rw [agree]
  by_cases short : s.length < maxRequestStrLen
  · rw [if_pos short, scanSlug_whole_iff]
    have inLimit : s.length ≤ maxRequestStrLen := by omega
    have below : s.length ≠ maxRequestStrLen := by omega
    simp [inLimit, below]
  · rw [if_neg short]
    -- the parser returns nothing, which is not `s`
    have nonempty : ([] : Bytes) ≠ s := by
      rintro rfl
      exact short (by decide)
    have limit : s.length ≤ maxRequestStrLen ↔ s.length = maxRequestStrLen := by omega
    rw [limit, iff_false_right nonempty]

/-- **The two slug validators agree** up to 999 characters and both reject from 1001 on;
some slug of 1000 characters they tell apart. -/
theorem validators_agree :
    (∀ s : Bytes, s.length ≤ 999 → ValidatorsAgree s) ∧
    (∀ s : Bytes, 1001 ≤ s.length →
      isOkRequestPath s = .ok false ∧ parseOutRequestStrAt (0x2f :: s) = .ok []) ∧
    (∀ n : Nat, (∃ s : Bytes, s.length = n ∧ ¬ ValidatorsAgree s) ↔ n = 1000) := by
  have limit : maxRequestStrLen = 1000 := rfl
  refine ⟨?_, ?_, ?_⟩
  · intro s short
    rw [validatorsAgree_iff]
    rintro ⟨full, -⟩
    omega
  · intro s long
    rw [isOkRequestPath_eq, parseOutRequestStrAt_slash, if_neg (by omega)]
    have notShort : ¬ s.length ≤ maxRequestStrLen := by omega
    simp [notShort]
  · intro n
    constructor
    · rintro ⟨s, rfl, differ⟩
      rw [validatorsAgree_iff, not_not] at differ
      exact differ.1
    · rintro rfl
      refine ⟨List.replicate 1000 0x31, List.length_replicate, ?_⟩
      rw [validatorsAgree_iff, not_not]
      refine ⟨List.length_replicate, ?_⟩
      intro c mem
      rw [List.eq_of_mem_replicate mem]
      decide

theorem validators_agree_C3Cs6Yf : ValidatorsAgree (bytes "C3Cs6Yf") ∧
    isOkRequestPath (bytes "C3Cs6Yf") = .ok true :=
  ⟨validators_agree.1 _ (by decide), by rw [isOkRequestPath_eq]; decide +kernel⟩

end UrlShortener
