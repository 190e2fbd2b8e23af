import UrlShortener.AppConfig.Text

/-!
# `app_config.cc`: the two loaders

`new_from_yaml` and `new_from_env`, in the order of the source. What they find outside
the program is a `Host`. `YamlLoaded` and `EnvLoaded` say of a configuration a loader
returned where each field comes from.
-/

namespace UrlShortener
set_option autoImplicit false

/-! ## Outside the program -/

inductive FileType where
  | notFound
  | directory
  | other
  deriving DecidableEq, Repr

/-- `std::filesystem::file_status`. -/
structure FileStatus where
  type : FileType
  ownerWrite : Bool

/-- What the loader uses of yaml-cpp: `config[key].as<T>()`, or the `what()` of what it
throws. -/
class YAML (Node : Type) where
  asUInt8 : Node → Bytes → Except Bytes UInt8
  asUInt16 : Node → Bytes → Except Bytes UInt16
  asUInt32 : Node → Bytes → Except Bytes UInt32
  asString : Node → Bytes → Except Bytes Bytes
  asStrings : Node → Bytes → Except Bytes (List Bytes)

/-- What the loaders find: YAML files, the file system, the environment, and `folly`'s
reading of networks. -/
structure Host (Node IP : Type) where
  /-- `YAML::LoadFile`. -/
  loadFile : Bytes → Except Bytes Node
  /-- `std::filesystem::status`, or the `what()` of the `filesystem_error`. -/
  status : Bytes → Except Bytes FileStatus
  /-- `std::getenv`. -/
  getenv : Bytes → Option CString
  /-- `folly::IPAddress::tryCreateNetwork`. -/
  tryCreateNetwork : Bytes → Option (CIDRNetwork IP)

/-- How a loader ends without a configuration. -/
inductive LoadFailure where
  | exception (e : Exception)
  | checkFailed (message : Bytes)
  | undefined (u : Undefined)
  deriving DecidableEq, Repr

abbrev Load := Except LoadFailure

/-- `CHECK`. -/
def check (condition : Bool) (message : Bytes) : Load Unit :=
  if condition then .ok () else .error (.checkFailed message)

def yaml {α : Type} (r : Except Bytes α) : Load α := r.mapError fun what => .exception (.yaml what)

def thrown {α : Type} (r : Except Exception α) : Load α := r.mapError .exception

def defined {α : Type} (r : Except Undefined α) : Load α := r.mapError .undefined

theorem Load.bind_eq_ok {α β : Type} {x : Load α} {f : α → Load β} {b : β} :
    x >>= f = .ok b ↔ ∃ a, x = .ok a ∧ f a = .ok b := by
  cases x with
  | error e =>
    constructor
    · intro h
      cases h
    · rintro ⟨a, h, -⟩
      cases h
  | ok a =>
    constructor
    · intro h
      exact ⟨a, rfl, h⟩
    · rintro ⟨_, same, h⟩
      cases same
      exact h

theorem check_eq_ok {condition : Bool} {message : Bytes} {u : Unit} :
    check condition message = .ok u ↔ condition = true := by
  cases condition <;> simp [check]

theorem mapError_eq_ok {ε ε' α : Type} {f : ε → ε'} {r : Except ε α} {a : α} :
    r.mapError f = .ok a ↔ r = .ok a := by
  cases r <;> simp [Except.mapError]

variable {Node IP : Type}

/-- `std::filesystem::exists`. -/
def Host.fileExists (host : Host Node IP) (path : Bytes) : Load Bool :=
  match host.status path with
  | .ok status => .ok (status.type != .notFound)
  | .error what => .error (.exception (.filesystemError what))

/-- `can_write_to_dir`. -/
def Host.canWriteToDir (host : Host Node IP) (directory : Bytes) : Bool :=
  match host.status directory with
  | .ok status => status.type == .directory && status.ownerWrite
  | .error _ => false

/-- The entries that are networks. The others are logged. -/
def Host.networks (host : Host Node IP) (cidrs : List Bytes) : List (CIDRNetwork IP) :=
  cidrs.filterMap host.tryCreateNetwork

/-! ## From a YAML file -/

/-- `ReadOnlyAppConfig::new_from_yaml`. -/
def ReadOnlyAppConfig.newFromYaml [YAML Node] (host : Host Node IP) (yamlFilename : Bytes) :
    Load (ReadOnlyAppConfig IP) := do
  let config ← yaml (host.loadFile yamlFilename)
  let webServerPort ← yaml (YAML.asUInt16 config (bytes "web_server_port"))
  let staticFileDocRoot ← yaml (YAML.asString config (bytes "static_file_doc_root"))
  let urlsDbPath ← yaml (YAML.asString config (bytes "urls_db_path"))
  check (host.canWriteToDir (parentPath urlsDbPath))
    (bytes "Fix the configuration entry \"urls_db_path\". Cannot write to directory \"" ++
      quoted (parentPath urlsDbPath) ++ bytes "\"")
  let frontendDocRoot ← yaml (YAML.asString config (bytes "frontend_doc_root"))
  let webServerBindHost ← yaml (YAML.asString config (bytes "web_server_bind_host"))
  let urlShortenerServiceBaseUrl ← yaml (YAML.asString config (bytes "public_base_url"))
  let slugLength ← yaml (YAML.asUInt8 config (bytes "slug_length"))
  let alphabet ← yaml (YAML.asString config (bytes "alphabet"))
  let rateLimitPerMinute ← yaml (YAML.asUInt32 config (bytes "rate_limit_per_minute"))
  let ipRateLimiterSecondsTtl ← yaml (YAML.asUInt32 config (bytes "rate_limiter_ttl_seconds"))
  let captchaServiceApiKey ← yaml (YAML.asString config (bytes "captcha_service_api_key"))
  let trustedCertificatesPath ← yaml (YAML.asString config (bytes "trusted_certificates_path"))
  let hk ← yaml (YAML.asString config (bytes "url_generator_salt"))
  let highwayhashKey ← thrown (createHighwayhashKey hk)
  let cfIpRanges ← yaml (YAML.asStrings config (bytes "known_cloudflare_ip_ranges"))
  let rpIpRanges ← yaml (YAML.asStrings config (bytes "known_reverse_proxy_ip_ranges"))
  return {
    highwayhashKey := some highwayhashKey
    urlsDbPath, webServerPort, slugLength, alphabet, staticFileDocRoot, frontendDocRoot
    rateLimitPerMinute, ipRateLimiterSecondsTtl, urlShortenerServiceBaseUrl, webServerBindHost
    trustedCertificatesPath, captchaServiceApiKey
    cfCidrs := host.networks cfIpRanges
    reverseProxyCidrs := host.networks rpIpRanges }

/-- Where the fields of a configuration read from `config` come from. -/
structure YamlLoaded [YAML Node] (host : Host Node IP) (config : Node) (cfg : ReadOnlyAppConfig IP) :
    Prop where
  webServerPort : YAML.asUInt16 config (bytes "web_server_port") = .ok cfg.webServerPort
  staticFileDocRoot : YAML.asString config (bytes "static_file_doc_root") = .ok cfg.staticFileDocRoot
  urlsDbPath : YAML.asString config (bytes "urls_db_path") = .ok cfg.urlsDbPath
  writable : host.canWriteToDir (parentPath cfg.urlsDbPath) = true
  frontendDocRoot : YAML.asString config (bytes "frontend_doc_root") = .ok cfg.frontendDocRoot
  webServerBindHost : YAML.asString config (bytes "web_server_bind_host") = .ok cfg.webServerBindHost
  urlShortenerServiceBaseUrl :
    YAML.asString config (bytes "public_base_url") = .ok cfg.urlShortenerServiceBaseUrl
  slugLength : YAML.asUInt8 config (bytes "slug_length") = .ok cfg.slugLength
  alphabet : YAML.asString config (bytes "alphabet") = .ok cfg.alphabet
  rateLimitPerMinute : YAML.asUInt32 config (bytes "rate_limit_per_minute") = .ok cfg.rateLimitPerMinute
  ipRateLimiterSecondsTtl :
    YAML.asUInt32 config (bytes "rate_limiter_ttl_seconds") = .ok cfg.ipRateLimiterSecondsTtl
  captchaServiceApiKey :
    YAML.asString config (bytes "captcha_service_api_key") = .ok cfg.captchaServiceApiKey
  trustedCertificatesPath :
    YAML.asString config (bytes "trusted_certificates_path") = .ok cfg.trustedCertificatesPath
  highwayhashKey : ∃ hk key, YAML.asString config (bytes "url_generator_salt") = .ok hk ∧
    createHighwayhashKey hk = .ok key ∧ cfg.highwayhashKey = some key
  cfCidrs : ∃ ranges, YAML.asStrings config (bytes "known_cloudflare_ip_ranges") = .ok ranges ∧
    cfg.cfCidrs = host.networks ranges
  reverseProxyCidrs : ∃ ranges,
    YAML.asStrings config (bytes "known_reverse_proxy_ip_ranges") = .ok ranges ∧
      cfg.reverseProxyCidrs = host.networks ranges

theorem newFromYaml_loaded [YAML Node] {host : Host Node IP} {file : Bytes} {cfg : ReadOnlyAppConfig IP}
    (h : ReadOnlyAppConfig.newFromYaml host file = .ok cfg) :
    ∃ config, host.loadFile file = .ok config ∧ YamlLoaded host config cfg := by
  simp only [ReadOnlyAppConfig.newFromYaml, yaml, thrown, Load.bind_eq_ok, mapError_eq_ok,
    check_eq_ok] at h
  obtain ⟨config, file, webServerPort, port, staticFileDocRoot, static, urlsDbPath, db, -, writable,
    frontendDocRoot, frontend, webServerBindHost, bind, urlShortenerServiceBaseUrl, base, slugLength,
    slug, alphabet, chars, rateLimitPerMinute, limit, ipRateLimiterSecondsTtl, ttl,
    captchaServiceApiKey, captcha, trustedCertificatesPath, certificates, hk, salt, highwayhashKey,
    key, cfIpRanges, cf, rpIpRanges, rp, h⟩ := h
  cases h
  exact ⟨config, file, port, static, db, writable, frontend, bind, base, slug, chars, limit, ttl,
    captcha, certificates, ⟨hk, highwayhashKey, salt, key, rfl⟩, ⟨cfIpRanges, cf, rfl⟩,
    ⟨rpIpRanges, rp, rfl⟩⟩

/-! ## From the environment -/

/-- `std::getenv` of a setting. -/
def Host.setting (host : Host Node IP) (name : String) : Option CString :=
  host.getenv (bytes ("EC_PRV_URL_SHORTENER__" ++ name))

/-- A setting that keeps its default where the variable is missing. -/
def Host.settingOr {α : Type} (host : Host Node IP) (name : String) (default : α)
    (read : CString → Load α) : Load α :=
  match host.setting name with
  | some s => read s
  | none => .ok default

/-- A setting with a `CHECK` that the variable is there. -/
def Host.required (host : Host Node IP) (name : String) : Load CString :=
  match host.setting name with
  | some s => .ok s
  | none => .error (.checkFailed [])

/-- A numeric setting, narrowed to its field. -/
def Host.number {α : Type} (host : Host Node IP) (name : String) (default : α) (narrow : Int → α) :
    Load α :=
  host.settingOr name default fun s => (defined (atoi s)).map narrow

/-- `highwayhash_key`. -/
def Host.highwayhashKey (host : Host Node IP) : Load HHKey :=
  match host.setting "HIGHWAYHASH_KEY" with
  | some s => thrown (createHighwayhashKey s.val)
  | none => .error (.exception
      (.runtimeError (bytes "Missing environment variable for highwayhash key\n")))

/-- A path that has to exist, as its `CHECK` says. -/
def Host.existing (host : Host Node IP) (message : Bytes) (path : CString) : Load Bytes := do
  check (← host.fileExists path.val) message
  return path.val

/-- `captcha_service_api_key`, assigned from `std::getenv` unseen. -/
def Host.captchaServiceApiKey (host : Host Node IP) : Load Bytes := do
  match host.setting "CAPTCHA_SERVICE_API_KEY" with
  | some s =>
    check (0 < s.val.length) (bytes "Missing environment variable for reCAPTCHA API key")
    return s.val
  | none => throw (.undefined .nullPointer)

/-- `slug_length`, checked after the narrowing. -/
def Host.slugLength (host : Host Node IP) : Load UInt8 := do
  let slugLength ← host.number "SLUG_LENGTH" 7 UInt8.ofInt
  check (0 < slugLength)
    (bytes ("\"slug_length\" configuration parameter must be greater than 0 -- " ++
      "this is the number of characters in the slug for the shortened URL"))
  return slugLength

/-- `alphabet`, left at its default for a text of less than two characters. -/
def Host.alphabet (host : Host Node IP) : Load Bytes := do
  let alphabet ← host.settingOr "ALPHABET" UrlShortener.alphabet fun s =>
    .ok (if 1 < s.val.length then s.val else UrlShortener.alphabet)
  check (0 < alphabet.length) (bytes "Invalid \"alphabet\" app configuration parameter")
  return alphabet

/-- `ReadOnlyAppConfig::new_from_env`. -/
def ReadOnlyAppConfig.newFromEnv (host : Host Node IP) : Load (ReadOnlyAppConfig IP) := do
  let dst : ReadOnlyAppConfig IP := {}
  let highwayhashKey ← host.highwayhashKey
  let grpcServicePort ← host.number "RPC_PORT" dst.grpcServicePort UInt16.ofInt
  let ipRateLimiterSecondsTtl ←
    host.number "IP_RATE_LIMITER_TTL_SECONDS" dst.ipRateLimiterSecondsTtl UInt32.ofInt
  let webServerPort ← host.number "WEB_SERVER_PORT" dst.webServerPort UInt16.ofInt
  let webServerBindHost ← host.settingOr "WEB_SERVER_BIND_HOST" dst.webServerBindHost fun s =>
    .ok (if 0 < s.val.length then s.val else dst.webServerBindHost)
  let staticFileDocRoot ← host.settingOr "STATIC_FILE_DOC_ROOT" dst.staticFileDocRoot
    (host.existing (bytes "Static file doc root provided via environment variables does not exist"))
  let frontendDocRoot ← host.required "FRONTEND_DOC_ROOT"
  let frontendDocRoot ← host.existing (bytes "Missing environment variable for frontend doc root")
    frontendDocRoot
  let staticFileRequestPathPrefix ← host.settingOr "STATIC_FILE_REQUEST_PATH_PREFIX"
    dst.staticFileRequestPathPrefix fun s => .ok s.val
  let urlShortenerServiceBaseUrl ← host.settingOr "URL_SHORTENER_SERVICE_BASE_URL"
    dst.urlShortenerServiceBaseUrl fun s => .ok s.val
  let trustedCertificatesPath ← host.settingOr "CA_CERTS_PATH" dst.trustedCertificatesPath
    (host.existing [])
  let captchaServiceApiKey ← host.captchaServiceApiKey
  let cfCidrs ← host.required "KNOWN_CLOUDFLARE_CIDRS"
  let knownCloudflareCidrs ← defined (splitCsvString cfCidrs.val)
  let rpCidrs ← host.required "ALLOWED_REVERSE_PROXY_CIDRS"
  let allowedReverseProxyCidrs ← defined (splitCsvString rpCidrs.val)
  let slugLength ← host.slugLength
  let alphabet ← host.alphabet
  return { dst with
    highwayhashKey := some highwayhashKey
    grpcServicePort, webServerPort, slugLength, alphabet, staticFileDocRoot, frontendDocRoot
    staticFileRequestPathPrefix, ipRateLimiterSecondsTtl, urlShortenerServiceBaseUrl
    webServerBindHost, trustedCertificatesPath, captchaServiceApiKey, knownCloudflareCidrs
    cfCidrs := host.networks knownCloudflareCidrs
    allowedReverseProxyCidrs
    reverseProxyCidrs := host.networks allowedReverseProxyCidrs }

/-- Where the fields of a configuration read from the environment come from. -/
structure EnvLoaded (host : Host Node IP) (cfg : ReadOnlyAppConfig IP) : Prop where
  highwayhashKey : ∃ key, host.highwayhashKey = .ok key ∧ cfg.highwayhashKey = some key
  grpcServicePort : host.number "RPC_PORT" 50051 UInt16.ofInt = .ok cfg.grpcServicePort
  ipRateLimiterSecondsTtl :
    host.number "IP_RATE_LIMITER_TTL_SECONDS" 86400 UInt32.ofInt = .ok cfg.ipRateLimiterSecondsTtl
  webServerPort : host.number "WEB_SERVER_PORT" 60022 UInt16.ofInt = .ok cfg.webServerPort
  captchaServiceApiKey : host.captchaServiceApiKey = .ok cfg.captchaServiceApiKey
  cloudflareCidrs : ∃ s, host.required "KNOWN_CLOUDFLARE_CIDRS" = .ok s ∧
    splitCsvString s.val = .ok cfg.knownCloudflareCidrs
  cfCidrs : cfg.cfCidrs = host.networks cfg.knownCloudflareCidrs
  allowedCidrs : ∃ s, host.required "ALLOWED_REVERSE_PROXY_CIDRS" = .ok s ∧
    splitCsvString s.val = .ok cfg.allowedReverseProxyCidrs
  reverseProxyCidrs : cfg.reverseProxyCidrs = host.networks cfg.allowedReverseProxyCidrs
  slugLength : host.slugLength = .ok cfg.slugLength
  alphabet : host.alphabet = .ok cfg.alphabet

theorem newFromEnv_loaded {host : Host Node IP} {cfg : ReadOnlyAppConfig IP}
    (h : ReadOnlyAppConfig.newFromEnv host = .ok cfg) : EnvLoaded host cfg := by
  simp only [ReadOnlyAppConfig.newFromEnv, defined, Load.bind_eq_ok, mapError_eq_ok] at h
  obtain ⟨highwayhashKey, key, grpcServicePort, rpc, ipRateLimiterSecondsTtl, ttl, webServerPort, port,
    webServerBindHost, -, staticFileDocRoot, -, frontendVariable, -, frontendDocRoot, -,
    staticFileRequestPathPrefix, -, urlShortenerServiceBaseUrl, -, trustedCertificatesPath, -,
    captchaServiceApiKey, captcha, cf, cfVariable, knownCloudflareCidrs, cfPieces, rp, rpVariable,
    allowedReverseProxyCidrs, rpPieces, slugLength, slug, alphabet, chars, h⟩ := h
  cases h
  exact ⟨⟨highwayhashKey, key, rfl⟩, rpc, ttl, port, captcha, ⟨cf, cfVariable, cfPieces⟩, rfl,
    ⟨rp, rpVariable, rpPieces⟩, rfl, slug, chars⟩

end UrlShortener
