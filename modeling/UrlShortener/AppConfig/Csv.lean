import UrlShortener.AppConfig.Load
import UrlShortener.Logic.Fields

/-!
# `app_config.cc`: what `split_csv_string` returns

For a text an `int` can index, the loop returns the fields of the text: each round takes
the field up to the next comma, and what follows the last comma is a field unless it is
empty (`splitFrom_eq`). The loaders see these fields of their lists of networks.
-/

namespace UrlShortener
set_option autoImplicit false
open Fields

/-- The characters an `int` can count. -/
def intLimit : Nat := 2147483648

/-! ## Finding the next comma -/

/-- The delimiter stands at position `k`. -/
theorem startsWith_comma (s : Bytes) (k : Nat) :
    startsWith (s.drop k) (bytes ",") = true ↔ s[k]? = some 0x2c := by
  have comma : bytes "," = [0x2c] := by decide
  unfold startsWith
  rw [comma, List.isPrefixOf_iff_prefix, ← List.head?_drop]
  constructor
  · rintro ⟨rest, front⟩
    rw [← front]
    rfl
  · intro front
    obtain ⟨rest, split⟩ := List.head?_eq_some_iff.mp front
    exact ⟨rest, split.symm⟩

theorem find_eq (s : Bytes) (pos : Nat) : find s (bytes ",") pos =
    ((List.range' pos (s.length + 1 - pos)).find? fun k => startsWith (s.drop k) (bytes ",")).getD npos := by
  unfold find
  rw [List.range_eq_range', List.drop_range', Nat.mul_one, Nat.zero_add]

/-- The first comma from `pos` on is found. -/
theorem find_comma {s pre rest : Bytes} {pos : Nat} (tail : s.drop pos = pre ++ 0x2c :: rest)
    (first : 0x2c ∉ pre) : find s (bytes ",") pos = pos + pre.length := by
  have char : ∀ i, s[pos + i]? = (pre ++ 0x2c :: rest)[i]? := by
    intro i
    rw [← tail, List.getElem?_drop]
  have length := congrArg List.length tail
  rw [List.length_drop, List.length_append, List.length_cons] at length
  rw [find_eq, List.find?_range'_eq_some.mpr]
  · rfl
  · refine ⟨?_, by rw [List.mem_range'_1]; omega, ?_⟩
    · rw [startsWith_comma, char, List.getElem?_append_right (Nat.le_refl _), Nat.sub_self]
      rfl
    · intro j after before
      obtain ⟨i, rfl⟩ := Nat.exists_eq_add_of_le after
      simp only [Bool.not_eq_true', Bool.eq_false_iff, ne_eq, startsWith_comma, char]
      rw [List.getElem?_append_left (by omega)]
      exact fun found => first (List.mem_of_getElem? found)

/-- Without a comma the result is `npos`. -/
theorem find_npos {s : Bytes} {pos : Nat} (absent : 0x2c ∉ s.drop pos) : find s (bytes ",") pos = npos := by
  rw [find_eq, List.find?_range'_eq_none.mpr]
  · rfl
  · intro j after before
    obtain ⟨i, rfl⟩ := Nat.exists_eq_add_of_le after
    simp only [Bool.not_eq_true', Bool.eq_false_iff, ne_eq, startsWith_comma]
    rw [← List.getElem?_drop]
    exact fun found => absent (List.mem_of_getElem? found)

/-! ## Positions as `int`s -/

theorem toInt_small {n : Nat} (small : n < intLimit) : toInt n = n := by
  unfold intLimit at small
  unfold toInt UInt32.size
  rw [Int.bmod_eq_of_le]
  · omega
  · omega

theorem toSize_natCast {n : Nat} (small : n < intLimit) : toSize n = n := by
  unfold intLimit at small
  unfold toSize UInt64.size
  omega

theorem toSize_toInt_npos : toSize (toInt npos) = npos := by decide

theorem intResult_natCast {n : Nat} (small : n < intLimit) : intResult n = .ok (n : Int) := by
  unfold intLimit at small
  unfold intResult
  rw [if_pos (by omega)]

/-! ## The loop -/

/-- A round that finds the delimiter at `j`. -/
theorem splitFrom_found {s delim : Bytes} {rounds : Nat} {i j count next : Int} {pieces : List Bytes}
    (found : toInt (find s delim (toSize i)) = j) (hit : toSize j ≠ npos)
    (size : intResult (j - i) = .ok count) (after : intResult (j + 1) = .ok next)
    (rest : splitFrom s delim rounds next = .ok pieces) :
    splitFrom s delim (rounds + 1) i = .ok ((s.drop (toSize i)).take (toSize count) :: pieces) := by
  subst found
  rw [splitFrom]
  rw [if_pos hit, size, after]
  simp only [bind, Except.bind, rest]
  rfl

/-- The last round, which finds none. -/
theorem splitFrom_done {s delim : Bytes} {rounds : Nat} {i : Int} (missed : find s delim (toSize i) = npos) :
    splitFrom s delim (rounds + 1) i =
      if toSize i < s.length then .ok [s.drop (toSize i)] else .ok [] := by
  rw [splitFrom]
  rw [missed, if_neg (fun other => other toSize_toInt_npos)]

/-- **The loop from a position on** returns the fields of what follows it. -/
theorem splitFrom_eq {s : Bytes} (short : s.length < intLimit) (t : Bytes) : ∀ (pos rounds : Nat),
    s.drop pos = t → pos ≤ s.length → t.length < rounds →
      splitFrom s (bytes ",") rounds pos = .ok (fields 0x2c t) := by
  induction t using field_induction (0x2c : UInt8) with
  | last t absent =>
    intro pos rounds tail inside enough
    have position := toSize_natCast (inside.trans_lt short)
    cases rounds with
    | zero => cases enough
    | succ rounds =>
      rw [splitFrom_done (by rw [position]; exact find_npos (tail ▸ absent)), position, tail]
      rw [fields_of_not_mem absent]
      have length := congrArg List.length tail
      rw [List.length_drop] at length
      split
      · rename_i more
        rw [if_neg]
        rintro rfl
        rw [List.length_nil] at length
        omega
      · rename_i done
        rw [if_pos]
        apply List.eq_nil_of_length_eq_zero
        omega
  | field pre rest first ih =>
    intro pos rounds tail inside enough
    have position := toSize_natCast (inside.trans_lt short)
    have length := congrArg List.length tail
    rw [List.length_drop, List.length_append, List.length_cons] at length
    rw [List.length_append, List.length_cons] at enough
    cases rounds with
    | zero => cases enough
    | succ rounds =>
      have small : pos + pre.length + 1 < intLimit := by omega
      have smaller : pos + pre.length < intLimit := by omega
      have piece : pre.length < intLimit := by omega
      have indexed : pos + pre.length ≠ npos := by
        unfold intLimit at short
        unfold npos UInt64.size
        omega
      have size : ((pos + pre.length : Nat) : Int) - pos = pre.length := by omega
      have sum : ((pos + pre.length : Nat) : Int) + 1 = (pos + pre.length + 1 : Nat) := by omega
      have after : s.drop (pos + pre.length + 1) = rest := by
        rw [Nat.add_assoc, ← List.drop_drop, tail]
        simp
      have field : (s.drop pos).take pre.length = pre := by rw [tail, List.take_left]
      have later := ih (pos + pre.length + 1) rounds after (by omega) (by omega)
      have round : splitFrom s (bytes ",") (rounds + 1) pos =
          .ok ((s.drop (toSize pos)).take (toSize pre.length) :: fields 0x2c rest) :=
        splitFrom_found (by rw [position, find_comma tail first, toInt_small smaller])
          (by rw [toSize_natCast smaller]; exact indexed) (by rw [size, intResult_natCast piece])
          (by rw [sum, intResult_natCast small]) later
      rw [round, position, toSize_natCast piece, field, fields_append first]

theorem splitCsvString_eq {s : Bytes} (short : s.length < intLimit) :
    splitCsvString s = .ok (fields 0x2c s) := by
  have enough : intLimit < UInt32.size := by decide
  exact splitFrom_eq short s 0 UInt32.size rfl (Nat.zero_le _) (short.trans enough)

/-! ## Nothing lost, nothing invented -/

/-- Pieces without a comma in them that make up the text again, but for a comma at its end. -/
structure SplitsExactly (s : Bytes) (pieces : List Bytes) : Prop where
  noComma : ∀ piece ∈ pieces, 0x2c ∉ piece
  joined : (bytes ",").intercalate pieces = if s.getLast? = some 0x2c then s.dropLast else s
  dropped : s.splitOn 0x2c = pieces ∨ s.splitOn 0x2c = pieces ++ [[]]

/-- The loader keeps the pieces of its two lists and reads a network in each. -/
structure ReadsLists {Node IP : Type} (host : Host Node IP) (cfg : ReadOnlyAppConfig IP) (s : Bytes)
    (pieces : List Bytes) : Prop where
  cloudflare : ∀ c, host.setting "KNOWN_CLOUDFLARE_CIDRS" = some c → c.val = s →
    cfg.knownCloudflareCidrs = pieces ∧ cfg.cfCidrs = pieces.filterMap host.tryCreateNetwork
  reverseProxy : ∀ c, host.setting "ALLOWED_REVERSE_PROXY_CIDRS" = some c → c.val = s →
    cfg.allowedReverseProxyCidrs = pieces ∧ cfg.reverseProxyCidrs = pieces.filterMap host.tryCreateNetwork

theorem fields_splitsExactly (s : Bytes) : SplitsExactly s (fields 0x2c s) where
  noComma := sep_not_mem_of_mem_fields s
  joined := by
    have comma : bytes "," = [0x2c] := by decide
    rw [comma, intercalate_fields]
  dropped := splitOn_eq_fields s

theorem required_eq_ok {Node IP : Type} {host : Host Node IP} {name : String} {c d : CString}
    (set : host.setting name = some c) (required : host.required name = .ok d) : d = c := by
  unfold Host.required at required
  rw [set] at required
  cases required
  rfl

/-- **`split_csv_string` loses and invents nothing**, and the loader sees each piece of a list
once and in order. -/
theorem split_csv_string_exact (s : Bytes) (short : s.length < intLimit) :
    ∃ pieces, splitCsvString s = .ok pieces ∧ SplitsExactly s pieces ∧
      ∀ (Node IP : Type) (host : Host Node IP) (cfg : ReadOnlyAppConfig IP),
        ReadOnlyAppConfig.newFromEnv host = .ok cfg → ReadsLists host cfg s pieces := by
  refine ⟨fields 0x2c s, splitCsvString_eq short, fields_splitsExactly s, ?_⟩
  intro Node IP host cfg loaded
  have env := newFromEnv_loaded loaded
  constructor
  · rintro c set rfl
    obtain ⟨d, required, split⟩ := env.cloudflareCidrs
    rw [required_eq_ok set required, splitCsvString_eq short] at split
    have kept := Except.ok.inj split
    rw [kept]
    exact ⟨rfl, env.cfCidrs⟩
  · rintro c set rfl
    obtain ⟨d, required, split⟩ := env.allowedCidrs
    rw [required_eq_ok set required, splitCsvString_eq short] at split
    have kept := Except.ok.inj split
    rw [kept]
    exact ⟨rfl, env.reverseProxyCidrs⟩

/-- A list with an empty piece inside it and a comma at its end. -/
theorem split_two_networks : ∃ pieces, splitCsvString (bytes "10.0.0.0/8,,192.0.2.0/24,") = .ok pieces ∧
    SplitsExactly (bytes "10.0.0.0/8,,192.0.2.0/24,") pieces ∧
    pieces = [bytes "10.0.0.0/8", [], bytes "192.0.2.0/24"] := by
  obtain ⟨pieces, split, exactly, -⟩ := split_csv_string_exact (bytes "10.0.0.0/8,,192.0.2.0/24,") (by decide)
  rw [splitCsvString_eq (by decide)] at split
  cases split
  exact ⟨_, splitCsvString_eq (by decide), exactly, by decide⟩

end UrlShortener
