import UrlShortener.AppConfig.Slugs
import UrlShortener.Logic.Numerals

/-!
# Numeric settings from the environment

`std::atoi` reads a number at the start of the text, 0 if there is none, and the field
keeps it modulo its own size; nothing says whether the text was a number or the number
fitted. So a setting is stored exactly where its text is a decimal integer that the field
can hold (`stored_exactly_iff`). `slug_length` alone is checked, after the narrowing: a
text whose number is a multiple of 256 is refused.
-/

namespace UrlShortener
set_option autoImplicit false

/-! ## Decimal integers -/

/-- The text is an integer in decimal notation, behind white space and a sign as
`std::atoi` takes them. -/
inductive Denotes (s : CString) : Int → Prop where
  | unsigned {space digits : Bytes} : (∀ c ∈ space, isspace c = true) → digits ≠ [] →
      (∀ c ∈ digits, isDecimalDigit c = true) → s.val = space ++ digits → Denotes s (decimalValue digits)
  | plus {space digits : Bytes} : (∀ c ∈ space, isspace c = true) → digits ≠ [] →
      (∀ c ∈ digits, isDecimalDigit c = true) → s.val = space ++ 0x2b :: digits →
      Denotes s (decimalValue digits)
  | minus {space digits : Bytes} : (∀ c ∈ space, isspace c = true) → digits ≠ [] →
      (∀ c ∈ digits, isDecimalDigit c = true) → s.val = space ++ 0x2d :: digits →
      Denotes s (-decimalValue digits)

/-- The number at the start of the text, 0 if there is none. -/
def leadingNumber (s : CString) : Int :=
  let (negative, rest) := takeSign (s.val.dropWhile isspace)
  let value : Int := ofDigits 10 (leadingDigits 10 rest)
  if negative then -value else value

theorem atoi_eq (s : CString) : atoi s = intResult (leadingNumber s) := rfl

theorem decimalDigit_facts : ∀ c, isDecimalDigit c = true →
    digitValue c = some (c.toNat - 0x30) ∧ c.toNat - 0x30 < 10 ∧ isspace c = false ∧ c ≠ 0x2d ∧ c ≠ 0x2b := by
  apply forall_byte
  decide +kernel

theorem leadingDigits_decimal {digits : Bytes} (decimal : ∀ c ∈ digits, isDecimalDigit c = true) :
    leadingDigits 10 digits = digits.map fun c => c.toNat - 0x30 := by
  induction digits with
  | nil => rfl
  | cons c rest ih =>
    obtain ⟨value, small, -⟩ := decimalDigit_facts c (decimal c List.mem_cons_self)
    rw [leadingDigits, value]
    simp only [if_pos small, List.map_cons]
    rw [ih fun d mem => decimal d (List.mem_cons_of_mem c mem)]

/-- White space in front of something else is skipped. -/
theorem dropWhile_space {space rest : Bytes} {c : UInt8} (blank : ∀ c ∈ space, isspace c = true)
    (other : isspace c = false) : (space ++ c :: rest).dropWhile isspace = c :: rest := by
  rw [List.dropWhile_append_of_pos blank, List.dropWhile_cons_of_neg (by simp [other])]

/-- The number of a text that is an integer. -/
theorem Denotes.leadingNumber {s : CString} {n : Int} (denotes : Denotes s n) : leadingNumber s = n := by
  unfold UrlShortener.leadingNumber
  cases denotes with
  | unsigned blank nonempty decimal text =>
    rename_i space digits
    obtain ⟨c, rest, rfl⟩ := List.exists_cons_of_ne_nil nonempty
    obtain ⟨-, -, other, minus, plus⟩ := decimalDigit_facts c (decimal c List.mem_cons_self)
    rw [text, dropWhile_space blank other, takeSign, if_neg minus, if_neg plus]
    simp only [leadingDigits_decimal decimal]
    rfl
  | plus blank nonempty decimal text =>
    rw [text, dropWhile_space blank (by decide), takeSign, if_neg (by decide), if_pos rfl]
    simp only [leadingDigits_decimal decimal]
    rfl
  | minus blank nonempty decimal text =>
    rw [text, dropWhile_space blank (by decide), takeSign, if_pos rfl]
    simp only [leadingDigits_decimal decimal]
    rfl

/-! ## The four settings -/

inductive NumericSetting where
  | slugLength
  | webServerPort
  | rpcPort
  | ipRateLimiterTtlSeconds
  deriving DecidableEq, Repr

def NumericSetting.name : NumericSetting → String
  | slugLength => "SLUG_LENGTH"
  | webServerPort => "WEB_SERVER_PORT"
  | rpcPort => "RPC_PORT"
  | ipRateLimiterTtlSeconds => "IP_RATE_LIMITER_TTL_SECONDS"

/-- How many values the field has. -/
def NumericSetting.size : NumericSetting → Nat
  | slugLength => UInt8.size
  | webServerPort => UInt16.size
  | rpcPort => UInt16.size
  | ipRateLimiterTtlSeconds => UInt32.size

theorem NumericSetting.size_pos (X : NumericSetting) : 0 < X.size := by
  cases X <;> decide

def NumericSetting.field {IP : Type} (cfg : ReadOnlyAppConfig IP) : NumericSetting → Nat
  | slugLength => cfg.slugLength.toNat
  | webServerPort => cfg.webServerPort.toNat
  | rpcPort => cfg.grpcServicePort.toNat
  | ipRateLimiterTtlSeconds => cfg.ipRateLimiterSecondsTtl.toNat

theorem toNat_narrow8 (v : Int) : ((UInt8.ofInt v).toNat : Int) = v % UInt8.size := by
  have kept : (UInt8.ofInt v).toNat = (v % 256).toNat :=
    UInt8.toNat_ofNat_of_lt' (by unfold UInt8.size; omega)
  rw [kept, Int.toNat_of_nonneg (by omega)]
  rfl

theorem toNat_narrow16 (v : Int) : ((UInt16.ofInt v).toNat : Int) = v % UInt16.size := by
  have kept : (UInt16.ofInt v).toNat = (v % 65536).toNat :=
    UInt16.toNat_ofNat_of_lt' (by unfold UInt16.size; omega)
  rw [kept, Int.toNat_of_nonneg (by omega)]
  rfl

theorem toNat_narrow32 (v : Int) : ((UInt32.ofInt v).toNat : Int) = v % UInt32.size := by
  have kept : (UInt32.ofInt v).toNat = (v % 4294967296).toNat :=
    UInt32.toNat_ofNat_of_lt' (by unfold UInt32.size; omega)
  rw [kept, Int.toNat_of_nonneg (by omega)]
  rfl

theorem number_set {Node IP α : Type} {host : Host Node IP} {name : String} {s : CString}
    (set : host.setting name = some s) {v : Int} (number : atoi s = .ok v) (default : α) (narrow : Int → α) :
    host.number name default narrow = .ok (narrow v) := by
  unfold Host.number Host.settingOr
  rw [set]
  dsimp only
  rw [number]
  rfl

/-- `slug_length` is checked. -/
theorem slugLength_ok_iff {Node IP : Type} {host : Host Node IP} {n : UInt8} :
    host.slugLength = .ok n ↔ host.number "SLUG_LENGTH" 7 UInt8.ofInt = .ok n ∧ 0 < n := by
  unfold Host.slugLength
  simp only [Load.bind_eq_ok, check_eq_ok, decide_eq_true_eq]
  constructor
  · rintro ⟨m, read, -, positive, same⟩
    cases same
    exact ⟨read, positive⟩
  · rintro ⟨read, positive⟩
    exact ⟨n, read, (), positive, rfl⟩

/-- What was stored is the narrowed number. -/
theorem stored_eq {Node IP α : Type} {host : Host Node IP} {name : String} {s : CString} {default a : α}
    {narrow : Int → α} (stored : host.number name default narrow = .ok a) (set : host.setting name = some s)
    {v : Int} (number : atoi s = .ok v) : a = narrow v :=
  Except.ok.inj (stored.symm.trans (number_set set number default narrow))

/-- **The field keeps the number modulo its size.** -/
theorem field_eq {Node IP : Type} {host : Host Node IP} {cfg : ReadOnlyAppConfig IP}
    (loaded : ReadOnlyAppConfig.newFromEnv host = .ok cfg) (X : NumericSetting) {s : CString}
    (set : host.setting X.name = some s) {v : Int} (number : atoi s = .ok v) :
    (X.field cfg : Int) = v % X.size := by
  have env := newFromEnv_loaded loaded
  cases X with
  | slugLength =>
    unfold NumericSetting.field
    rw [stored_eq (slugLength_ok_iff.mp env.slugLength).1 set number]
    exact toNat_narrow8 v
  | webServerPort =>
    unfold NumericSetting.field
    rw [stored_eq env.webServerPort set number]
    exact toNat_narrow16 v
  | rpcPort =>
    unfold NumericSetting.field
    rw [stored_eq env.grpcServicePort set number]
    exact toNat_narrow16 v
  | ipRateLimiterTtlSeconds =>
    unfold NumericSetting.field
    rw [stored_eq env.ipRateLimiterSecondsTtl set number]
    exact toNat_narrow32 v

/-- A slug length that is a multiple of 256 is refused. -/
theorem slugLength_refused {Node IP : Type} {host : Host Node IP} {s : CString}
    (set : host.setting "SLUG_LENGTH" = some s) {v : Int} (number : atoi s = .ok v)
    (zero : v % UInt8.size = 0) (cfg : ReadOnlyAppConfig IP) : ReadOnlyAppConfig.newFromEnv host ≠ .ok cfg := by
  intro loaded
  obtain ⟨read, positive⟩ := slugLength_ok_iff.mp (newFromEnv_loaded loaded).slugLength
  have kept : ((cfg.slugLength.toNat : Nat) : Int) = v % UInt8.size := field_eq loaded .slugLength set number
  have some_slug : 0 < cfg.slugLength.toNat := positive
  omega

/-! ## Another text for one setting -/

/-- `EC_PRV_URL_SHORTENER__` and the name. -/
def variableName (name : String) : Bytes := bytes ("EC_PRV_URL_SHORTENER__" ++ name)

/-- The host with this text for the setting. -/
def Host.withText {Node IP : Type} (host : Host Node IP) (X : NumericSetting) (s : CString) : Host Node IP :=
  { host with getenv := fun name =>
    if name = variableName X.name then some s else host.getenv name }

/-- The settings that are not numeric. -/
def textSettings : List String :=
  ["HIGHWAYHASH_KEY", "WEB_SERVER_BIND_HOST", "STATIC_FILE_DOC_ROOT", "FRONTEND_DOC_ROOT",
    "STATIC_FILE_REQUEST_PATH_PREFIX", "URL_SHORTENER_SERVICE_BASE_URL", "CA_CERTS_PATH",
    "CAPTCHA_SERVICE_API_KEY", "KNOWN_CLOUDFLARE_CIDRS", "ALLOWED_REVERSE_PROXY_CIDRS", "ALPHABET"]

theorem variableName_ne (X : NumericSetting) : ∀ name ∈ textSettings, variableName name ≠ variableName X.name := by
  cases X <;> decide +kernel

theorem variableName_injective {X Y : NumericSetting} (other : Y ≠ X) :
    variableName Y.name ≠ variableName X.name := by
  cases X <;> cases Y <;> first | exact absurd rfl other | decide +kernel

variable {Node IP : Type}

theorem setting_withText (host : Host Node IP) (X : NumericSetting) (s : CString) :
    (host.withText X s).setting X.name = some s := by
  unfold Host.setting Host.withText
  exact if_pos rfl

theorem setting_other (host : Host Node IP) {X : NumericSetting} (s : CString) {name : String}
    (other : variableName name ≠ variableName X.name) :
    (host.withText X s).setting name = host.setting name := by
  unfold Host.setting Host.withText
  exact if_neg other

section

variable (host : Host Node IP) (X : NumericSetting) (s : CString)

theorem settingOr_withText {α : Type} {name : String} (text : name ∈ textSettings) (default : α)
    (read : CString → Load α) :
    (host.withText X s).settingOr name default read = host.settingOr name default read := by
  unfold Host.settingOr
  rw [setting_other host s (variableName_ne X name text)]

theorem number_other {α : Type} {name : String} (other : variableName name ≠ variableName X.name) (default : α)
    (narrow : Int → α) : (host.withText X s).number name default narrow = host.number name default narrow := by
  unfold Host.number Host.settingOr
  rw [setting_other host s other]

theorem required_withText {name : String} (text : name ∈ textSettings) :
    (host.withText X s).required name = host.required name := by
  unfold Host.required
  rw [setting_other host s (variableName_ne X name text)]

theorem highwayhashKey_withText : (host.withText X s).highwayhashKey = host.highwayhashKey := by
  unfold Host.highwayhashKey
  rw [setting_other host s (variableName_ne X _ (by decide))]

theorem captchaServiceApiKey_withText :
    (host.withText X s).captchaServiceApiKey = host.captchaServiceApiKey := by
  unfold Host.captchaServiceApiKey
  rw [setting_other host s (variableName_ne X _ (by decide))]

theorem alphabet_withText : (host.withText X s).alphabet = host.alphabet := by
  unfold Host.alphabet
  rw [settingOr_withText host X s (by decide)]

end

/-- A number is read for every numeric setting. -/
theorem number_withText {host : Host Node IP} {X : NumericSetting} {s : CString} {v : Int}
    (number : atoi s = .ok v) (Y : NumericSetting) {α : Type} {default a : α} {narrow : Int → α}
    (read : host.number Y.name default narrow = .ok a) :
    ∃ b, (host.withText X s).number Y.name default narrow = .ok b := by
  by_cases same : Y = X
  · subst same
    exact ⟨narrow v, number_set (setting_withText host Y s) number default narrow⟩
  · exact ⟨a, (number_other host X s (variableName_injective same) default narrow).trans read⟩

theorem slugLength_withText {host : Host Node IP} {X : NumericSetting} {s : CString} {v : Int}
    (number : atoi s = .ok v) (positive : X = .slugLength → v % UInt8.size ≠ 0) {n : UInt8}
    (read : host.slugLength = .ok n) : ∃ m, (host.withText X s).slugLength = .ok m := by
  by_cases same : X = .slugLength
  · subst same
    refine ⟨UInt8.ofInt v, slugLength_ok_iff.mpr ⟨number_set (setting_withText host _ s) number _ _, ?_⟩⟩
    have kept := toNat_narrow8 v
    have some_slug := positive rfl
    have : 0 < (UInt8.ofInt v).toNat := by omega
    exact this
  · obtain ⟨number', positive'⟩ := slugLength_ok_iff.mp read
    have other : variableName "SLUG_LENGTH" ≠ variableName X.name :=
      variableName_injective (X := X) (Y := .slugLength) (Ne.symm same)
    exact ⟨n, slugLength_ok_iff.mpr ⟨(number_other host X s other _ _).trans number', positive'⟩⟩

/-- The host that reads a number for the setting accepts what it accepted before, but for a
slug length of 0. -/
theorem newFromEnv_withText {host : Host Node IP} {cfg : ReadOnlyAppConfig IP}
    (loaded : ReadOnlyAppConfig.newFromEnv host = .ok cfg) (X : NumericSetting) {s : CString} {v : Int}
    (number : atoi s = .ok v) (positive : X = .slugLength → v % UInt8.size ≠ 0) :
    ∃ cfg', ReadOnlyAppConfig.newFromEnv (host.withText X s) = .ok cfg' := by
  simp only [ReadOnlyAppConfig.newFromEnv, Load.bind_eq_ok] at loaded
  obtain ⟨highwayhashKey, key, grpcServicePort, rpc, ipRateLimiterSecondsTtl, ttl, webServerPort, port,
    webServerBindHost, bind, staticFileDocRoot, static, frontendVariable, frontend, frontendDocRoot, exists_,
    staticFileRequestPathPrefix, pathPrefix, urlShortenerServiceBaseUrl, base, trustedCertificatesPath, certificates,
    captchaServiceApiKey, captcha, cf, cfVariable, knownCloudflareCidrs, cfPieces, rp, rpVariable,
    allowedReverseProxyCidrs, rpPieces, slugLength, slug, alphabet, chars, -⟩ := loaded
  obtain ⟨rpcPort', rpc'⟩ := number_withText (X := X) number .rpcPort rpc
  obtain ⟨ttl', ttlRead⟩ := number_withText (X := X) number .ipRateLimiterTtlSeconds ttl
  obtain ⟨port', portRead⟩ := number_withText (X := X) number .webServerPort port
  obtain ⟨slugLength', slug'⟩ := slugLength_withText number positive slug
  rw [← highwayhashKey_withText host X s] at key
  rw [← captchaServiceApiKey_withText host X s] at captcha
  rw [← alphabet_withText host X s] at chars
  rw [← settingOr_withText host X s (by decide)] at bind static pathPrefix base certificates
  rw [← required_withText host X s (by decide)] at frontend cfVariable rpVariable
  simp only [ReadOnlyAppConfig.newFromEnv, Load.bind_eq_ok]
  exact ⟨_, highwayhashKey, key, rpcPort', rpc', ttl', ttlRead, port', portRead, webServerBindHost, bind,
    staticFileDocRoot, static, frontendVariable, frontend, frontendDocRoot, exists_, staticFileRequestPathPrefix,
    pathPrefix, urlShortenerServiceBaseUrl, base, trustedCertificatesPath, certificates, captchaServiceApiKey,
    captcha, cf, cfVariable, knownCloudflareCidrs, cfPieces, rp, rpVariable, allowedReverseProxyCidrs, rpPieces,
    slugLength', slug', alphabet, chars, rfl⟩

/-! ## Stored exactly or refused -/

/-- The conversion of the text is defined, and every configuration loaded with it has the
integer the text denotes. -/
def StoredExactly (X : NumericSetting) (s : CString) : Prop :=
  (∃ v, atoi s = .ok v) ∧
    ∀ (Node IP : Type) (host : Host Node IP) (cfg : ReadOnlyAppConfig IP), host.setting X.name = some s →
      ReadOnlyAppConfig.newFromEnv host = .ok cfg → Denotes s (X.field cfg)

/-- The text is a decimal integer that the field and an `int` can hold, or the number of a
slug length is one of an `int` and a multiple of 256. -/
def FitsOrRefused (X : NumericSetting) (s : CString) : Prop :=
  (∃ n : Nat, Denotes s n ∧ n < X.size ∧ n < 2147483648) ∨
    (X = .slugLength ∧ (-2147483648 ≤ leadingNumber s ∧ leadingNumber s < 2147483648) ∧
      leadingNumber s % 256 = 0)

theorem atoi_ok_iff {s : CString} {v : Int} :
    atoi s = .ok v ↔ (-2147483648 ≤ leadingNumber s ∧ leadingNumber s < 2147483648) ∧ v = leadingNumber s := by
  rw [atoi_eq]
  unfold intResult
  split
  · rename_i inside
    rw [Except.ok.injEq, eq_comm]
    exact ⟨fun same => ⟨by omega, same⟩, fun both => both.2⟩
  · rename_i outside
    constructor
    · intro read
      cases read
    · rintro ⟨inside, -⟩
      exact absurd (by omega) outside

/-- **A numeric setting is stored exactly or refused exactly where its text is a decimal
integer that fits, or that of a slug length has a number that is a multiple of 256.** -/
theorem stored_exactly_iff (X : NumericSetting) (s : CString) : StoredExactly X s ↔ FitsOrRefused X s := by
  constructor
  · rintro ⟨⟨v, number⟩, stored⟩
    obtain ⟨inside, rfl⟩ := atoi_ok_iff.mp number
    by_cases refused : X = .slugLength ∧ leadingNumber s % 256 = 0
    · exact .inr ⟨refused.1, inside, refused.2⟩
    · -- a host that accepts the text
      obtain ⟨cfg, sample⟩ := sampleHost_loaded
      obtain ⟨cfg', loaded⟩ := newFromEnv_withText sample X number fun slug zero => refused ⟨slug, zero⟩
      have set := setting_withText (sampleHost alphabet) X s
      have denotes := stored _ _ _ cfg' set loaded
      have kept := field_eq loaded X set number
      have value := denotes.leadingNumber
      have below := Int.emod_lt_of_pos (leadingNumber s) (Int.natCast_pos.mpr X.size_pos)
      exact .inl ⟨X.field cfg', denotes, by omega, by omega⟩
  · rintro (⟨n, denotes, below, small⟩ | ⟨rfl, inside, zero⟩)
    · have value := denotes.leadingNumber
      have number : atoi s = .ok (n : Int) := atoi_ok_iff.mpr ⟨by omega, value.symm⟩
      refine ⟨⟨n, number⟩, ?_⟩
      intro Node IP host cfg set loaded
      have kept := field_eq loaded X set number
      rw [Int.emod_eq_of_lt (by omega) (by omega)] at kept
      rwa [kept]
    · have number : atoi s = .ok (leadingNumber s) := atoi_ok_iff.mpr ⟨inside, rfl⟩
      refine ⟨⟨_, number⟩, ?_⟩
      intro Node IP host cfg set loaded
      exact absurd loaded (slugLength_refused set number zero cfg)

/-- The sample host with this text for a setting. -/
def hostWithText (X : NumericSetting) (text : String) : Host YamlDocument UInt32 :=
  (sampleHost alphabet).withText X (CString.ofBytes (bytes text))

/-- Port 70000 is loaded as 4464, a time to live of `ten` as 0 and a slug length of 263 as 7. -/
theorem numbers_misread :
    (∃ cfg, ReadOnlyAppConfig.newFromEnv (hostWithText .webServerPort "70000") = .ok cfg ∧
      cfg.webServerPort.toNat = 4464) ∧
    (∃ cfg, ReadOnlyAppConfig.newFromEnv (hostWithText .ipRateLimiterTtlSeconds "ten") = .ok cfg ∧
      cfg.ipRateLimiterSecondsTtl.toNat = 0) ∧
    (∃ cfg, ReadOnlyAppConfig.newFromEnv (hostWithText .slugLength "263") = .ok cfg ∧ cfg.slugLength.toNat = 7) ∧
    ¬ StoredExactly .webServerPort (CString.ofBytes (bytes "70000")) := by
  have stored : ∀ (X : NumericSetting) (text : String) (v : Int), atoi (CString.ofBytes (bytes text)) = .ok v →
      (X = .slugLength → v % UInt8.size ≠ 0) →
        ∃ cfg, ReadOnlyAppConfig.newFromEnv (hostWithText X text) = .ok cfg ∧ (X.field cfg : Int) = v % X.size := by
    intro X text v number positive
    obtain ⟨_, sample⟩ := sampleHost_loaded
    obtain ⟨cfg, loaded⟩ := newFromEnv_withText sample X number positive
    exact ⟨cfg, loaded, field_eq loaded X (setting_withText _ X _) number⟩
  obtain ⟨port, portLoaded, portValue⟩ := stored .webServerPort "70000" 70000 (by decide) (by decide)
  obtain ⟨ttl, ttlLoaded, ttlValue⟩ := stored .ipRateLimiterTtlSeconds "ten" 0 (by decide) (by decide)
  obtain ⟨slug, slugLoaded, slugValue⟩ := stored .slugLength "263" 263 (by decide) (by decide)
  refine ⟨⟨port, portLoaded, Int.ofNat.inj portValue⟩, ⟨ttl, ttlLoaded, Int.ofNat.inj ttlValue⟩,
    ⟨slug, slugLoaded, Int.ofNat.inj slugValue⟩, ?_⟩
  rintro ⟨-, exactly⟩
  have denotes := exactly _ _ _ port (setting_withText (sampleHost alphabet) .webServerPort _) portLoaded
  have value := denotes.leadingNumber
  rw [portValue] at value
  exact absurd value (by decide +kernel)

end UrlShortener
