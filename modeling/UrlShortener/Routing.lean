import Mathlib.Data.List.Nodup
import Mathlib.Logic.Function.Basic
import UrlShortener.RequestPath

/-!
# Which handler a request gets

`MyRequestHandlerFactory::onRequest` asks for a file of the frontend, then for the static
prefix, then for the API and last for a slug. No two of the last three apply to one request,
so for a path that names no file of the frontend the order does not matter: `Routes` gives
each route by a condition of its own, and the factory builds exactly the handler it says
(`routes_iff`). The files are those that `build_frontend_dir_cache` found under the frontend
root, under their names relative to it (`lookup_built_iff`).
-/

namespace UrlShortener
set_option autoImplicit false

/-! ## The frontend -/

/-- `emplace`: an entry that is there stays. -/
def FrontendDirCache.emplace (c : FrontendDirCache) (file : Bytes × Bytes) : FrontendDirCache :=
  match c file.1 with
  | some _ => c
  | none => Function.update c file.1 (some file.2)

/-- `build_frontend_dir_cache`, from the regular files the recursive iterator visits: their
names relative to the root, and their contents. -/
def buildFrontendDirCache (files : List (Bytes × Bytes)) : FrontendDirCache :=
  files.foldl FrontendDirCache.emplace fun _ => none

/-- The files under a root: no name twice, and none that ends in a slash or is empty. -/
structure RegularFiles (files : List (Bytes × Bytes)) : Prop where
  distinct : (files.map Prod.fst).Nodup
  named : ∀ file ∈ files, file.1 ≠ [] ∧ file.1.getLast? ≠ some 0x2f

/-- The path names the file, or the directory whose index it is. -/
def RequestsFile (path name : Bytes) : Prop :=
  path = 0x2f :: name ∨
    ∃ dir, path = 0x2f :: dir ∧ (dir = [] ∨ dir.getLast? = some 0x2f) ∧ name = dir ++ bytes "index.html"

theorem foldl_emplace {files : List (Bytes × Bytes)} (distinct : (files.map Prod.fst).Nodup)
    (c : FrontendDirCache) (fresh : ∀ file ∈ files, c file.1 = none) (name data : Bytes) :
    files.foldl FrontendDirCache.emplace c name = some data ↔
      c name = some data ∨ (name, data) ∈ files := by
  induction files generalizing c with
  | nil => simp
  | cons file files ih =>
    obtain ⟨new, distinct⟩ := List.nodup_cons.mp distinct
    have here : c.emplace file = Function.update c file.1 (some file.2) := by
      unfold FrontendDirCache.emplace
      rw [fresh file List.mem_cons_self]
    have other : ∀ f ∈ files, f.1 ≠ file.1 := fun f mem same =>
      new (List.mem_map.mpr ⟨f, mem, same⟩)
    rw [List.foldl_cons, here, ih distinct _ fun f mem => by
      rw [Function.update_of_ne (other f mem)]
      exact fresh f (List.mem_cons_of_mem _ mem)]
    by_cases same : name = file.1
    · subst same
      have absent : (file.1, data) ∉ files := fun mem => other _ mem rfl
      rw [Function.update_self, fresh file List.mem_cons_self, List.mem_cons, Prod.ext_iff]
      simp [absent, eq_comm]
    · rw [Function.update_of_ne same, List.mem_cons, Prod.ext_iff]
      simp [same]

theorem buildFrontendDirCache_iff {files : List (Bytes × Bytes)} (regular : RegularFiles files)
    (name data : Bytes) : buildFrontendDirCache files name = some data ↔ (name, data) ∈ files := by
  rw [buildFrontendDirCache, foldl_emplace regular.distinct _ fun _ _ => rfl]
  simp

/-- **A path finds the file it requests.** -/
theorem lookup_built_iff {files : List (Bytes × Bytes)} (regular : RegularFiles files) (path : Bytes)
    (f : FrontendHandler) : FrontendHandler.lookup (buildFrontendDirCache files) path = .ok (some f) ↔
      ∃ name data, (name, data) ∈ files ∧ RequestsFile path name ∧ f = ⟨data, inferMimeType name⟩ := by
  have keyed (key : Bytes) : ((buildFrontendDirCache files key).map fun data =>
      (⟨data, inferMimeType key⟩ : FrontendHandler)) = some f ↔
        ∃ data, (key, data) ∈ files ∧ f = ⟨data, inferMimeType key⟩ := by
    rw [Option.map_eq_some_iff]
    simp only [buildFrontendDirCache_iff regular]
    exact exists_congr fun data => and_congr_right fun _ => eq_comm
  cases path with
  | nil =>
    constructor
    · intro found
      cases found
    · rintro ⟨name, data, -, requested | ⟨dir, requested, -⟩, -⟩ <;> cases requested
  | cons c rest =>
    unfold FrontendHandler.lookup
    rw [List.head?_cons, List.getLast?_cons]
    simp only [List.drop_one, List.tail_cons]
    by_cases slash : c = 0x2f
    · subst slash
      rw [if_neg (by simp)]
      have ends : rest.getLast?.getD 0x2f = 0x2f ↔ rest = [] ∨ rest.getLast? = some 0x2f := by
        cases last : rest.getLast? with
        | none => simp [List.getLast?_eq_none_iff.mp last]
        | some b =>
          have some_ : rest ≠ [] := by
            rintro rfl
            cases last
          simp [some_]
      by_cases dir : rest.getLast?.getD 0x2f = 0x2f
      · simp only [if_pos dir, Except.ok.injEq]
        rw [keyed]
        constructor
        · rintro ⟨data, mem, rfl⟩
          exact ⟨_, data, mem, .inr ⟨rest, rfl, ends.mp dir, rfl⟩, rfl⟩
        · rintro ⟨name, data, mem, requested | ⟨dir', requested, -, rfl⟩, rfl⟩
          · -- a regular file has no name like a directory
            cases requested
            obtain ⟨real, closed⟩ := regular.named _ mem
            rcases ends.mp dir with empty | last
            · exact absurd empty real
            · exact absurd last closed
          · cases requested
            exact ⟨data, mem, rfl⟩
      · simp only [if_neg dir, Except.ok.injEq]
        rw [keyed]
        constructor
        · rintro ⟨data, mem, rfl⟩
          exact ⟨_, data, mem, .inl rfl, rfl⟩
        · rintro ⟨name, data, mem, requested | ⟨dir', requested, directory, -⟩, rfl⟩
          · cases requested
            exact ⟨data, mem, rfl⟩
          · cases requested
            exact absurd (ends.mpr directory) dir
    · rw [if_pos slash]
      constructor
      · intro found
        cases found
      · rintro ⟨name, data, -, requested | ⟨dir, requested, -⟩, -⟩ <;>
          exact absurd (List.cons.inj requested).1 slash

/-! ## The routes -/

variable {IP : Type}

/-- The routes but the frontend, each by its own condition. -/
inductive Routes (cfg : ReadOnlyAppConfig IP) (msg : HTTPMessage IP) : RequestHandler → Prop where
  | static : msg.method = some .get → startsWith msg.path (bytes "/static/") = true →
      Routes cfg msg (.static cfg.staticFileDocRoot)
  | makeUrl : msg.path = bytes "/api/v1/create" → msg.method = some .post ∨ msg.method = some .put →
      Routes cfg msg .makeUrl
  | redirect {slug : Bytes} : msg.method = some .get → slug ≠ [] → RequestsSlug msg.path slug →
      Routes cfg msg (.redirect slug)
  | notFound : ¬ (msg.method = some .get ∧ startsWith msg.path (bytes "/static/") = true) →
      ¬ (msg.path = bytes "/api/v1/create" ∧ (msg.method = some .post ∨ msg.method = some .put)) →
      ¬ (msg.method = some .get ∧ ∃ slug, slug ≠ [] ∧ RequestsSlug msg.path slug) →
      Routes cfg msg .notFound

/-- No slug is requested below a directory. -/
theorem not_requestsSlug_of_startsWith {path slug : Bytes} (dir : Bytes) (chars : ∀ c ∈ dir, c ∈ alphabet)
    (starts : startsWith path (0x2f :: (dir ++ [0x2f])) = true) : ¬ RequestsSlug path slug := by
  rintro ⟨-, t, split, slugChars, stop⟩
  obtain ⟨rest, rfl⟩ := List.isPrefixOf_iff_prefix.mp starts
  have same : dir ++ 0x2f :: rest = slug ++ t := by
    have := (List.cons.inj split).2
    simpa using this
  have slash : ∀ c : UInt8, c ∈ alphabet → c ≠ 0x2f := fun c legal same => slash_not_in_alphabet (same ▸ legal)
  rcases List.append_eq_append_iff.mp same with ⟨mid, rfl, later⟩ | ⟨mid, rfl, later⟩
  · cases mid with
    | nil =>
      rw [List.nil_append] at later
      subst later
      rcases stop with empty | query
      · cases empty
      · exact absurd query (by simp)
    | cons b mid =>
      obtain ⟨rfl, -⟩ := List.cons.inj later
      exact slash 0x2f (slugChars _ (by simp)) rfl
  · cases mid with
    | nil =>
      rw [List.nil_append] at later
      subst later
      rcases stop with empty | query
      · cases empty
      · exact absurd query (by simp)
    | cons b mid =>
      subst later
      rcases stop with empty | query
      · cases empty
      · have : b = 0x3f := by simpa using query
        exact absurd (chars b (by simp)) (this ▸ by decide)

/-- The parser finds the slug that is requested, and no other. -/
theorem parses_slug_iff {path slug : Bytes} (real : slug ≠ []) :
    parseOutRequestStr path = .ok slug ↔ RequestsSlug path slug := by
  cases path with
  | nil =>
    constructor
    · intro parsed
      cases parsed
    · rintro ⟨-, t, split, -⟩
      cases split
  | cons c rest =>
    obtain ⟨result, parsed, found, none⟩ := parsesGrammar_cons c rest
    rw [parseOutRequestStrAt_eq] at parsed
    rw [parsed]
    constructor
    · intro same
      cases same
      by_contra other
      refine real (none fun s asked => other ?_)
      rwa [found s asked]
    · intro asked
      rw [found slug asked]

/-- A path requests one slug. -/
theorem requestsSlug_unique {path slug slug' : Bytes} (asked : RequestsSlug path slug)
    (asked' : RequestsSlug path slug') : slug = slug' := by
  cases path with
  | nil =>
    obtain ⟨-, t, split, -⟩ := asked
    cases split
  | cons c rest =>
    have scanned := (requestsSlug_cons_iff.mp asked).2.2
    have scanned' := (requestsSlug_cons_iff.mp asked').2.2
    exact Option.some.inj (scanned.symm.trans scanned')

theorem not_post_or_put_of_get {msg : HTTPMessage IP} (get : msg.method = some .get) :
    ¬ (msg.method = some .post ∨ msg.method = some .put) := by
  rw [get]
  rintro (post | put)
  · cases post
  · cases put

/-- **No two routes apply.** -/
theorem Routes.unique {cfg : ReadOnlyAppConfig IP} {msg : HTTPMessage IP} {h h' : RequestHandler}
    (route : Routes cfg msg h) (route' : Routes cfg msg h') : h = h' := by
  have apart : startsWith msg.path (bytes "/static/") = true → ∀ slug, ¬ RequestsSlug msg.path slug :=
    fun starts _ => not_requestsSlug_of_startsWith (bytes "static") (by decide +kernel) starts
  cases route with
  | static get starts =>
    cases route' with
    | static _ _ => rfl
    | makeUrl _ method => exact absurd method (not_post_or_put_of_get get)
    | redirect _ _ asked => exact absurd asked (apart starts _)
    | notFound other _ _ => exact absurd ⟨get, starts⟩ other
  | makeUrl path method =>
    cases route' with
    | static get _ => exact absurd method (not_post_or_put_of_get get)
    | makeUrl _ _ => rfl
    | redirect get _ _ => exact absurd method (not_post_or_put_of_get get)
    | notFound _ other _ => exact absurd ⟨path, method⟩ other
  | redirect get real asked =>
    cases route' with
    | static _ starts => exact absurd asked (apart starts _)
    | makeUrl _ method => exact absurd method (not_post_or_put_of_get get)
    | redirect _ _ asked' => rw [requestsSlug_unique asked asked']
    | notFound _ _ other => exact absurd ⟨get, _, real, asked⟩ other
  | notFound noStatic noCreate noSlug =>
    cases route' with
    | static get starts => exact absurd ⟨get, starts⟩ noStatic
    | makeUrl path method => exact absurd ⟨path, method⟩ noCreate
    | redirect get real asked => exact absurd ⟨get, _, real, asked⟩ noSlug
    | notFound _ _ _ => rfl

/-- A path that names no file of the frontend gets a handler, the one of its route. -/
theorem routed_of_no_file (cfg : ReadOnlyAppConfig IP) {cache : FrontendDirCache} {msg : HTTPMessage IP}
    (missing : FrontendHandler.lookup cache msg.path = .ok none) :
    ∃ handler, MyRequestHandlerFactory.onRequest cfg cache msg = .ok handler ∧ Routes cfg msg handler := by
  simp only [MyRequestHandlerFactory.onRequest, missing, bind, Except.bind]
  by_cases atStatic : startsWith msg.path (bytes "/static/") = true ∧ msg.method = some .get
  · refine ⟨_, ?_, .static atStatic.2 atStatic.1⟩
    rw [if_pos (by simpa using atStatic)]
    rfl
  · rw [if_neg (by simpa using atStatic)]
    have noStatic : ¬ (msg.method = some .get ∧ startsWith msg.path (bytes "/static/") = true) :=
      fun both => atStatic both.symm
    by_cases create : msg.path = bytes "/api/v1/create" ∧ (msg.method = some .post ∨ msg.method = some .put)
    · refine ⟨_, ?_, .makeUrl create.1 create.2⟩
      rw [if_pos (by rw [create.1]; decide +kernel), if_pos create]
      rfl
    · by_cases api : startsWith msg.path (bytes "/api/") = true
      · refine ⟨_, ?_, .notFound noStatic create ?_⟩
        · rw [if_pos api, if_neg create]
          rfl
        · rintro ⟨-, slug, -, asked⟩
          exact not_requestsSlug_of_startsWith (bytes "api") (by decide +kernel) api asked
      · rw [if_neg api]
        have path : msg.path ≠ [] := by
          intro empty
          rw [empty] at missing
          cases missing
        obtain ⟨result, parsed⟩ : ∃ result, parseOutRequestStr msg.path = .ok result := by
          obtain ⟨c, rest, split⟩ := List.exists_cons_of_ne_nil path
          obtain ⟨result, parsed, -⟩ := parsesGrammar_cons c rest
          rw [parseOutRequestStrAt_eq] at parsed
          exact ⟨result, split ▸ parsed⟩
        simp only [parsed]
        by_cases slug : result.length > 0 ∧ msg.method = some .get
        · have real : result ≠ [] := List.ne_nil_of_length_pos slug.1
          refine ⟨_, ?_, .redirect slug.2 real ((parses_slug_iff real).mp parsed)⟩
          rw [if_pos slug]
          rfl
        · refine ⟨_, ?_, .notFound noStatic create ?_⟩
          · rw [if_neg slug]
            rfl
          · rintro ⟨get, s, real, asked⟩
            have same : result = s := Except.ok.inj (parsed.symm.trans ((parses_slug_iff real).mpr asked))
            exact slug ⟨List.length_pos_iff.mpr (same ▸ real), get⟩

/-- The factory builds the handler of the route, for a path that names no file of the
frontend. -/
theorem routes_of_no_file {cfg : ReadOnlyAppConfig IP} {cache : FrontendDirCache} {msg : HTTPMessage IP}
    (missing : FrontendHandler.lookup cache msg.path = .ok none) (handler : RequestHandler) :
    MyRequestHandlerFactory.onRequest cfg cache msg = .ok handler ↔ Routes cfg msg handler := by
  obtain ⟨built, routed, route⟩ := routed_of_no_file cfg missing
  rw [routed]
  constructor
  · intro same
    cases same
    exact route
  · intro other
    rw [route.unique other]

/-- The handler of a request, with the frontend's files. -/
inductive Serves (cfg : ReadOnlyAppConfig IP) (files : List (Bytes × Bytes)) (msg : HTTPMessage IP) :
    RequestHandler → Prop where
  | file {name data : Bytes} : (name, data) ∈ files → RequestsFile msg.path name →
      Serves cfg files msg (.frontend ⟨data, inferMimeType name⟩)
  | route {handler : RequestHandler} : (∀ file ∈ files, ¬ RequestsFile msg.path file.1) →
      Routes cfg msg handler → Serves cfg files msg handler

/-- **Every request gets the handler it asks for.** With the frontend's files read into the
cache, a request with a path gets: the file its path names, or the index of the directory it
names, whatever the method; and if there is none, the static handler, the create handler, the
redirect of the slug it requests or the 404 handler, each exactly under the condition of its
route and whatever the others are asked. -/
theorem routes_iff {files : List (Bytes × Bytes)} (regular : RegularFiles files) (cfg : ReadOnlyAppConfig IP)
    (msg : HTTPMessage IP) (path : msg.path ≠ []) (handler : RequestHandler) :
    MyRequestHandlerFactory.onRequest cfg (buildFrontendDirCache files) msg = .ok handler ↔
      Serves cfg files msg handler := by
  obtain ⟨c, rest, split⟩ := List.exists_cons_of_ne_nil path
  obtain ⟨found, looked⟩ := looksUpInside_cons c rest (buildFrontendDirCache files)
  rw [← split] at looked
  cases found with
  | none =>
    have missing : ∀ file ∈ files, ¬ RequestsFile msg.path file.1 := by
      intro file mem asked
      have here := (lookup_built_iff regular msg.path _).mpr ⟨file.1, file.2, mem, asked, rfl⟩
      rw [looked] at here
      cases here
    rw [routes_of_no_file looked]
    constructor
    · exact .route missing
    · intro serves
      cases serves with
      | file mem asked => exact absurd asked (missing _ mem)
      | route _ route => exact route
  | some f =>
    have built : MyRequestHandlerFactory.onRequest cfg (buildFrontendDirCache files) msg = .ok (.frontend f) := by
      simp only [MyRequestHandlerFactory.onRequest, looked, bind, Except.bind]
      rfl
    rw [built]
    constructor
    · intro same
      cases same
      obtain ⟨name, data, mem, asked, rfl⟩ := (lookup_built_iff regular msg.path f).mp looked
      exact .file mem asked
    · intro serves
      cases serves with
      | @file name data mem asked =>
        have here := (lookup_built_iff regular msg.path _).mpr ⟨name, data, mem, asked, rfl⟩
        rw [looked] at here
        rw [Option.some.inj (Except.ok.inj here)]
      | route missing _ =>
        obtain ⟨name, data, mem, asked, -⟩ := (lookup_built_iff regular msg.path f).mp looked
        exact absurd asked (missing _ mem)

/-- A frontend of two files. -/
def sampleFrontend : List (Bytes × Bytes) :=
  [(bytes "index.html", bytes "<p>short</p>"), (bytes "docs/index.html", bytes "<p>docs</p>")]

theorem sampleFrontend_regular : RegularFiles sampleFrontend where
  distinct := by decide +kernel
  named := by decide +kernel

def slugRequest : HTTPMessage UInt32 := ⟨some .get, bytes "/C3Cs6Yf?from=mail", [], 0xc0000201⟩

/-- A slug with a query is redirected, and a directory is answered by its index. -/
theorem routes_iff_samples :
    Serves {} sampleFrontend slugRequest (.redirect (bytes "C3Cs6Yf")) ∧
    Serves {} sampleFrontend { slugRequest with path := bytes "/docs/" }
      (.frontend ⟨bytes "<p>docs</p>", .html⟩) :=
  ⟨(routes_iff sampleFrontend_regular {} slugRequest (by decide +kernel) _).mp (by decide +kernel),
    (routes_iff sampleFrontend_regular {} { slugRequest with path := bytes "/docs/" } (by decide +kernel)
      _).mp (by decide +kernel)⟩

end UrlShortener
