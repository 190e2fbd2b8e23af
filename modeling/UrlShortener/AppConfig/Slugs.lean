import UrlShortener.AppConfig.Load
import UrlShortener.SlugDigits

/-!
# Which configurations slug generation can run on

The loop of `generate_slug` divides by the length of the configured alphabet and
indexes the built-in one with the remainder. It is safe for every URL and hash where
the slugs are not empty and the configured alphabet has between one and 58 characters
(`generatesSafely_iff`). The YAML loader checks neither, and the environment's loader
does not bound the alphabet, so what they accept is safe exactly where their input says
so (`accepted_generates_safely_iff`).
-/

namespace UrlShortener
set_option autoImplicit false

/-- How a call of `generate_slug` may end. -/
structure SafeCall (r : Except Undefined (Bool × Bytes)) : Prop where
  divides : r ≠ .error .zeroDivisor
  inside : r ≠ .error .outsideAlphabet
  nonempty : ∀ slug, r = .ok (true, slug) → slug ≠ []

theorem SafeCall.usedUp : SafeCall (.error .outOfRange) where
  divides := by simp
  inside := by simp
  nonempty := by simp

theorem SafeCall.generated {slug : Bytes} (positive : 0 < slug.length) : SafeCall (.ok (true, slug)) where
  divides := by simp
  inside := by simp
  nonempty := by
    intro slug' same
    cases same
    exact List.ne_nil_of_length_pos positive

variable {Node IP : Type}

/-- The `UrlShorteningConfig` of `main`; `highwayHash` is HighwayHash under a key. -/
def ReadOnlyAppConfig.urlShorteningSvc (cfg : ReadOnlyAppConfig IP)
    (highwayHash : HHKey → Bytes → HHResult256) : Except Undefined UrlShorteningConfig :=
  match cfg.highwayhashKey with
  | none => .error .nullPointer
  | some key => .ok ⟨cfg.slugLength, cfg.alphabet, highwayHash key⟩

/-- Slug generation can run on the configuration, whatever is hashed to what. -/
def GeneratesSafely (cfg : ReadOnlyAppConfig IP) : Prop :=
  ∀ highwayHash, ∃ svc, cfg.urlShorteningSvc highwayHash = .ok svc ∧
    ∀ dst longUrl (nthTry : UInt8), 1 ≤ nthTry.toNat → SafeCall (svc.generateSlug dst longUrl nthTry)

/-! ## The loop -/

/-- The first digit decides a first try that goes wrong there. -/
theorem generateSlug_first_digit {svc : UrlShorteningConfig} {longUrl : Bytes} {u : Undefined}
    (digit : 0 < svc.slugLength.toNat) (unused : ¬ (svc.highwayHash longUrl)[0] ≤ 0)
    (failed : SlugState.emit svc.alphabet.length ⟨svc.highwayHash longUrl, 0, []⟩ = .error u) :
    svc.generateSlug [] longUrl 1 = .error u := by
  obtain ⟨more, length⟩ : ∃ more, svc.slugLength.toNat = more + 1 := ⟨svc.slugLength.toNat - 1, by omega⟩
  have first : SlugState.next svc.alphabet.length ⟨svc.highwayHash longUrl, 0, []⟩ = .error u := by
    have word : SlugState.word ⟨svc.highwayHash longUrl, 0, []⟩ = .ok (svc.highwayHash longUrl)[0] := rfl
    simp only [SlugState.next, word, bind, Except.bind, if_neg unused, failed]
  rw [UrlShorteningConfig.generateSlug, length, show (1 : UInt8).toNat = 0 + 1 from rfl, slugTries,
    slugChars, first]
  rfl

theorem emit_empty (hash : HHResult256) : SlugState.emit 0 ⟨hash, 0, []⟩ = .error .zeroDivisor := rfl

/-- 58 is the first index past the built-in alphabet. -/
theorem emit_long {n : Nat} (long : 58 < n) :
    SlugState.emit n ⟨#v[58, 0, 0, 0], 0, []⟩ = .error .outsideAlphabet := by
  have word : SlugState.word ⟨#v[58, 0, 0, 0], 0, []⟩ = .ok 58 := rfl
  have index : (58 : UInt64).toNat % n = 58 := Nat.mod_eq_of_lt long
  have past : alphabet[58]? = none := by decide
  simp only [SlugState.emit, word, index, past, bind, Except.bind, if_neg (Nat.ne_of_gt (Nat.zero_lt_of_lt long))]
  rfl

theorem generateSlug_no_chars {svc : UrlShorteningConfig} (dst longUrl : Bytes)
    (zero : svc.slugLength.toNat = 0) : svc.generateSlug dst longUrl 1 = .ok (true, []) := by
  rw [UrlShorteningConfig.generateSlug, zero]
  rfl

/-- In the bounds every call is safe. -/
theorem safeCall_of_bounds {svc : UrlShorteningConfig} (slug : 0 < svc.slugLength.toNat)
    (lower : 0 < svc.alphabet.length) (upper : svc.alphabet.length ≤ 58) (dst longUrl : Bytes)
    {nthTry : UInt8} (tried : 0 < nthTry.toNat) : SafeCall (svc.generateSlug dst longUrl nthTry) := by
  have builtIn : alphabet.length = 58 := by decide
  have call := generateSlug_cases longUrl (List.ne_nil_of_length_pos lower) tried dst
  generalize svc.generateSlug dst longUrl nthTry = r at call
  cases call with
  | usedUp _ => exact .usedUp
  | outside long => omega
  | @rendered slug _ length _ =>
    apply SafeCall.generated
    omega

/-- The bounds under which slug generation can run. -/
structure InBounds (slugLength : UInt8) (alphabet : Bytes) : Prop where
  slug : 0 < slugLength.toNat
  lower : 0 < alphabet.length
  upper : alphabet.length ≤ 58

/-- The defaults are in bounds. -/
theorem defaults_inBounds : InBounds ({} : ReadOnlyAppConfig IP).slugLength
    ({} : ReadOnlyAppConfig IP).alphabet where
  slug := show 0 < (7 : UInt8).toNat by decide
  lower := show 0 < UrlShortener.alphabet.length by decide
  upper := show UrlShortener.alphabet.length ≤ 58 by decide

/-- **A configuration with a key is one slug generation can run on exactly where it is
in bounds.** -/
theorem generatesSafely_iff {cfg : ReadOnlyAppConfig IP} {key : HHKey}
    (keyed : cfg.highwayhashKey = some key) :
    GeneratesSafely cfg ↔ InBounds cfg.slugLength cfg.alphabet := by
  have svc_eq (highwayHash : HHKey → Bytes → HHResult256) : cfg.urlShorteningSvc highwayHash =
      .ok ⟨cfg.slugLength, cfg.alphabet, highwayHash key⟩ := by
    rw [ReadOnlyAppConfig.urlShorteningSvc, keyed]
  constructor
  · intro safe
    -- every URL hashed to the word 58
    obtain ⟨svc, built, calls⟩ := safe fun _ _ => #v[58, 0, 0, 0]
    rw [svc_eq] at built
    cases built
    have call := calls [] [] 1 (Nat.le_refl 1)
    have unused : ¬ (58 : UInt64) ≤ 0 := by decide
    have slug : 0 < cfg.slugLength.toNat := by
      apply Nat.pos_of_ne_zero
      intro zero
      exact call.nonempty [] (generateSlug_no_chars [] [] zero) rfl
    refine ⟨slug, ?_, ?_⟩
    · apply Nat.pos_of_ne_zero
      intro empty
      refine call.divides (generateSlug_first_digit slug unused ?_)
      simp only [empty]
      exact emit_empty _
    · by_contra short
      have long : 58 < cfg.alphabet.length := Nat.lt_of_not_le short
      exact call.inside (generateSlug_first_digit slug unused (emit_long long))
  · intro bounds highwayHash
    refine ⟨_, svc_eq highwayHash, ?_⟩
    intro dst longUrl nthTry tried
    exact safeCall_of_bounds bounds.slug bounds.lower bounds.upper dst longUrl tried

/-! ## The loaders -/

/-- `slug_length` and `alphabet` in the file are in bounds. -/
def YamlInBounds [YAML Node] (host : Host Node IP) (file : Bytes) : Prop :=
  ∃ config slugLength alphabet, host.loadFile file = .ok config ∧
    YAML.asUInt8 config (bytes "slug_length") = .ok slugLength ∧
    YAML.asString config (bytes "alphabet") = .ok alphabet ∧ InBounds slugLength alphabet

/-- The variable for `alphabet` is missing or has at most 58 characters. -/
def EnvInBounds (host : Host Node IP) : Prop :=
  ∀ s, host.setting "ALPHABET" = some s → s.val.length ≤ 58

theorem newFromYaml_inBounds_iff [YAML Node] {host : Host Node IP} {file : Bytes}
    {cfg : ReadOnlyAppConfig IP} (h : ReadOnlyAppConfig.newFromYaml host file = .ok cfg) :
    InBounds cfg.slugLength cfg.alphabet ↔ YamlInBounds host file := by
  obtain ⟨config, found, loaded⟩ := newFromYaml_loaded h
  constructor
  · intro bounds
    exact ⟨config, _, _, found, loaded.slugLength, loaded.alphabet, bounds⟩
  · rintro ⟨config', slugLength, alphabet, found', slug, chars, bounds⟩
    rw [found] at found'
    cases found'
    rw [loaded.slugLength] at slug
    cases slug
    rw [loaded.alphabet] at chars
    cases chars
    exact bounds

theorem slugLength_pos {host : Host Node IP} {slugLength : UInt8} (h : host.slugLength = .ok slugLength) :
    0 < slugLength.toNat := by
  simp only [Host.slugLength, Load.bind_eq_ok, check_eq_ok] at h
  obtain ⟨read, -, -, positive, h⟩ := h
  cases h
  exact UInt8.lt_iff_toNat_lt.mp (of_decide_eq_true positive)

/-- What the environment's `alphabet` comes to: the text of the variable, or the default
where there is none or it is too short. -/
theorem alphabet_cases {host : Host Node IP} {alphabet : Bytes} (h : host.alphabet = .ok alphabet) :
    (∃ s, host.setting "ALPHABET" = some s ∧ 1 < s.val.length ∧ alphabet = s.val) ∨
      (∀ s, host.setting "ALPHABET" = some s → s.val.length ≤ 1) ∧ alphabet = UrlShortener.alphabet := by
  simp only [Host.alphabet, Host.settingOr, Load.bind_eq_ok, check_eq_ok] at h
  obtain ⟨read, source, -, -, h⟩ := h
  cases h
  split at source
  · rename_i s set
    split at source
    · rename_i long
      cases source
      exact .inl ⟨s, set, long, rfl⟩
    · rename_i short
      cases source
      refine .inr ⟨fun s' set' => ?_, rfl⟩
      rw [set] at set'
      cases set'
      exact Nat.le_of_not_lt short
  · rename_i missing
    cases source
    refine .inr ⟨fun s' set' => ?_, rfl⟩
    rw [missing] at set'
    cases set'

theorem newFromEnv_inBounds_iff {host : Host Node IP} {cfg : ReadOnlyAppConfig IP}
    (h : ReadOnlyAppConfig.newFromEnv host = .ok cfg) :
    InBounds cfg.slugLength cfg.alphabet ↔ EnvInBounds host := by
  have loaded := newFromEnv_loaded h
  have slug := slugLength_pos loaded.slugLength
  rcases alphabet_cases loaded.alphabet with ⟨s, set, long, text⟩ | ⟨short, text⟩ <;> rw [text]
  · constructor
    · intro bounds s' set'
      rw [set] at set'
      cases set'
      exact bounds.upper
    · intro bounds
      exact ⟨slug, Nat.lt_trans Nat.zero_lt_one long, bounds s set⟩
  · constructor
    · intro _ s set
      have := short s set
      omega
    · intro _
      have defaults : InBounds ({} : ReadOnlyAppConfig IP).slugLength UrlShortener.alphabet :=
        defaults_inBounds
      exact ⟨slug, defaults.lower, defaults.upper⟩

/-- **An accepted configuration is one slug generation can run on exactly where the
loader's input is in bounds.** -/
theorem accepted_generates_safely_iff [YAML Node] (host : Host Node IP) :
    (∀ file cfg, ReadOnlyAppConfig.newFromYaml host file = .ok cfg →
      (GeneratesSafely cfg ↔ YamlInBounds host file)) ∧
    ∀ cfg, ReadOnlyAppConfig.newFromEnv host = .ok cfg → (GeneratesSafely cfg ↔ EnvInBounds host) := by
  constructor
  · intro file cfg h
    obtain ⟨config, -, loaded⟩ := newFromYaml_loaded h
    obtain ⟨hk, key, -, -, keyed⟩ := loaded.highwayhashKey
    exact (generatesSafely_iff keyed).trans (newFromYaml_inBounds_iff h)
  · intro cfg h
    obtain ⟨key, -, keyed⟩ := (newFromEnv_loaded h).highwayhashKey
    exact (generatesSafely_iff keyed).trans (newFromEnv_inBounds_iff h)

/-! ## Two inputs

A YAML document of scalars and of sequences of scalars, with integers in decimal. -/

inductive YamlValue where
  | scalar (s : Bytes)
  | sequence (items : List Bytes)

structure YamlDocument where
  entries : List (Bytes × YamlValue)

def YamlDocument.string (doc : YamlDocument) (key : Bytes) : Except Bytes Bytes :=
  match doc.entries.lookup key with
  | some (.scalar s) => .ok s
  | _ => .error (bytes "bad conversion")

def YamlDocument.decimal (doc : YamlDocument) (key : Bytes) (size : Nat) : Except Bytes Nat := do
  let s ← doc.string key
  let digits := leadingDigits 10 s
  if s ≠ [] ∧ digits.length = s.length ∧ ofDigits 10 digits < size then return ofDigits 10 digits
  else throw (bytes "bad conversion")

instance : YAML YamlDocument where
  asUInt8 doc key := (doc.decimal key UInt8.size).map UInt8.ofNat
  asUInt16 doc key := (doc.decimal key UInt16.size).map UInt16.ofNat
  asUInt32 doc key := (doc.decimal key UInt32.size).map UInt32.ofNat
  asString := YamlDocument.string
  asStrings doc key :=
    match doc.entries.lookup key with
    | some (.sequence items) => .ok items
    | _ => .error (bytes "bad conversion")

/-- The salt of the sample configuration. -/
def sampleSalt : Bytes := bytes "db14ced8a70c850d08c2932b16cc12d90f3384f3a0eac960de63befc506b8057"

def sampleDocument (alphabet : Bytes) : YamlDocument where
  entries :=
    [(bytes "public_base_url", .scalar (bytes "https://prv.ec")),
      (bytes "urls_db_path", .scalar (bytes "/srv/urls.db")),
      (bytes "web_server_port", .scalar (bytes "50028")),
      (bytes "frontend_doc_root", .scalar (bytes "/srv")),
      (bytes "captcha_service_api_key", .scalar (bytes "key")),
      (bytes "slug_length", .scalar (bytes "7")),
      (bytes "alphabet", .scalar alphabet),
      (bytes "static_file_doc_root", .scalar (bytes "/srv")),
      (bytes "web_server_bind_host", .scalar (bytes "0.0.0.0")),
      (bytes "trusted_certificates_path", .scalar (bytes "/etc/ssl")),
      (bytes "rate_limit_per_minute", .scalar (bytes "5")),
      (bytes "rate_limiter_ttl_seconds", .scalar (bytes "86400")),
      (bytes "url_generator_salt", .scalar sampleSalt),
      (bytes "known_reverse_proxy_ip_ranges", .sequence []),
      (bytes "known_cloudflare_ip_ranges", .sequence [])]

def sampleEnvironment (alphabet : Bytes) : List (Bytes × Bytes) :=
  [(bytes "EC_PRV_URL_SHORTENER__HIGHWAYHASH_KEY", sampleSalt),
    (bytes "EC_PRV_URL_SHORTENER__FRONTEND_DOC_ROOT", bytes "/srv"),
    (bytes "EC_PRV_URL_SHORTENER__CAPTCHA_SERVICE_API_KEY", bytes "key"),
    (bytes "EC_PRV_URL_SHORTENER__KNOWN_CLOUDFLARE_CIDRS", []),
    (bytes "EC_PRV_URL_SHORTENER__ALLOWED_REVERSE_PROXY_CIDRS", []),
    (bytes "EC_PRV_URL_SHORTENER__ALPHABET", alphabet)]

/-- A host where both loaders find the given alphabet, and no networks. -/
def sampleHost (alphabet : Bytes) : Host YamlDocument UInt32 where
  loadFile _ := .ok (sampleDocument alphabet)
  status _ := .ok ⟨.directory, true⟩
  getenv name := ((sampleEnvironment alphabet).lookup name).map CString.ofBytes
  tryCreateNetwork _ := none

theorem accepted_of_toBool {α : Type} {r : Load α} (h : r.toBool = true) : ∃ a, r = .ok a := by
  cases r with
  | error e => cases h
  | ok a => exact ⟨a, rfl⟩

theorem sampleHost_loaded : ∃ cfg, ReadOnlyAppConfig.newFromEnv (sampleHost alphabet) = .ok cfg :=
  accepted_of_toBool (by decide +kernel)

theorem built_in_alphabet_generates_safely :
    (∃ cfg, ReadOnlyAppConfig.newFromYaml (sampleHost alphabet) (bytes "/etc/prv.yml") = .ok cfg ∧
      GeneratesSafely cfg) ∧
    ∃ cfg, ReadOnlyAppConfig.newFromEnv (sampleHost alphabet) = .ok cfg ∧ GeneratesSafely cfg := by
  have loaders := accepted_generates_safely_iff (sampleHost alphabet)
  constructor
  · obtain ⟨cfg, loaded⟩ := accepted_of_toBool (r := ReadOnlyAppConfig.newFromYaml (sampleHost alphabet)
      (bytes "/etc/prv.yml")) (by decide +kernel)
    refine ⟨cfg, loaded, (loaders.1 _ cfg loaded).mpr ⟨_, 7, alphabet, rfl, by rfl, by rfl, ?_⟩⟩
    exact ⟨by decide, by decide, by decide⟩
  · obtain ⟨cfg, loaded⟩ := sampleHost_loaded
    refine ⟨cfg, loaded, (loaders.2 cfg loaded).mpr fun s set => ?_⟩
    have text : ((sampleHost alphabet).setting "ALPHABET").map CString.val = some alphabet := by
      decide +kernel
    rw [set, Option.map_some, Option.some.injEq] at text
    rw [text]
    decide

/-- All digits and letters. -/
def base62 : Bytes := bytes "0123456789ABCDEFGHIJKLMNOPQRSTUVWXYZabcdefghijklmnopqrstuvwxyz"

/-- A file with an empty alphabet is accepted, and so is a variable with all digits and
letters. -/
theorem out_of_bounds_accepted :
    (∃ cfg, ReadOnlyAppConfig.newFromYaml (sampleHost []) (bytes "/etc/prv.yml") = .ok cfg ∧
      ¬ GeneratesSafely cfg) ∧
    ∃ cfg, ReadOnlyAppConfig.newFromEnv (sampleHost base62) = .ok cfg ∧ ¬ GeneratesSafely cfg := by
  constructor
  · obtain ⟨cfg, h⟩ := accepted_of_toBool (r := ReadOnlyAppConfig.newFromYaml (sampleHost [])
      (bytes "/etc/prv.yml")) (by decide +kernel)
    obtain ⟨config, found, loaded⟩ := newFromYaml_loaded h
    obtain ⟨hk, key, -, -, keyed⟩ := loaded.highwayhashKey
    refine ⟨cfg, h, fun safe => ?_⟩
    have bounds := (generatesSafely_iff keyed).mp safe
    have chars := loaded.alphabet
    cases found
    have empty : [] = cfg.alphabet := Except.ok.inj chars
    have lower := bounds.lower
    rw [← empty] at lower
    cases lower
  · obtain ⟨cfg, h⟩ := accepted_of_toBool (r := ReadOnlyAppConfig.newFromEnv (sampleHost base62))
      (by decide +kernel)
    obtain ⟨key, -, keyed⟩ := (newFromEnv_loaded h).highwayhashKey
    refine ⟨cfg, h, fun safe => ?_⟩
    have short := (newFromEnv_inBounds_iff h).mp ((generatesSafely_iff keyed).mp safe)
    have text : ((sampleHost base62).setting "ALPHABET").map (·.val.length) = some 62 := by
      decide +kernel
    obtain ⟨s, set, length⟩ := Option.map_eq_some_iff.mp text
    have := short s set
    omega

end UrlShortener
