import UrlShortener.Logic.Fields
import UrlShortener.StaticHandler

/-!
# Static files stay under the document root

A request that passes the checks names the document root joined with a relative path
without a `..` (`requestedFile_staysUnder`). The first check keeps `..` and a second slash
out of the request path, so that what follows `/static/` is neither absolute nor a step
upwards; a path without `/static/` stands for no file at all, which is under no directory.
The handler looks at the cache and opens a file at that one path only
(`onRequest_reads`). Symbolic links are not modelled.
-/

namespace UrlShortener
set_option autoImplicit false
open Fields

/-! ## Elements of a path -/

/-- The file names in a path. -/
def fileNames (p : Bytes) : List Bytes := (p.splitOn 0x2f).filter (· ≠ [])

def isAbsolute (p : Bytes) : Bool := p.head? = some 0x2f

/-- A path's elements but for an empty last one: its root directory and its names. -/
def rootAndNames (p : Bytes) : List Bytes := (if p.head? = some 0x2f then [[0x2f]] else []) ++ fileNames p

theorem ne_nil_of_mem_rootAndNames {p e : Bytes} (mem : e ∈ rootAndNames p) : e ≠ [] := by
  rcases List.mem_append.mp mem with root | name
  · split at root
    · rw [List.mem_singleton.mp root]
      exact List.cons_ne_nil _ _
    · cases root
  · simpa using (List.mem_filter.mp name).2

theorem pathElements_eq (p : Bytes) : pathElements p =
    rootAndNames p ++ if fileNames p ≠ [] ∧ p.getLast? = some 0x2f then [[]] else [] := rfl

/-- The elements are the root, the names and possibly an empty one. -/
theorem pathElements_cases (p : Bytes) :
    pathElements p = rootAndNames p ∨ pathElements p = rootAndNames p ++ [[]] := by
  rw [pathElements_eq]
  split
  · exact .inr rfl
  · exact .inl (List.append_nil _)

theorem withoutEmptyLast_pathElements (p : Bytes) : withoutEmptyLast (pathElements p) = rootAndNames p := by
  rcases pathElements_cases p with h | h
  · rw [h]
    exact withoutEmptyLast_of_not_mem fun mem => ne_nil_of_mem_rootAndNames mem rfl
  · rw [h, withoutEmptyLast_concat_nil]

/-- Names of two paths with a slash between them. -/
theorem fileNames_append (p q : Bytes) : fileNames (p ++ 0x2f :: q) = fileNames p ++ fileNames q := by
  unfold fileNames
  rw [List.splitOn_append_cons_self, List.filter_append]

theorem fileNames_concat_slash (p : Bytes) : fileNames (p ++ [0x2f]) = fileNames p := by
  rw [fileNames_append]
  exact List.append_nil _

/-- **The names of a joined path** are those of the directory and then those of the
relative path. -/
theorem rootAndNames_pathAppend {dir rest : Bytes} (nonempty : dir ≠ []) (relative : isAbsolute rest = false) :
    rootAndNames (pathAppend dir rest) = rootAndNames dir ++ fileNames rest := by
  have notAbsolute : ¬ (dir = [] ∨ rest.head? = some 0x2f) := by
    rintro (empty | absolute)
    · exact nonempty empty
    · simp [isAbsolute, absolute] at relative
  unfold pathAppend
  rw [if_neg notAbsolute]
  split
  · -- the directory ends in a slash already
    rename_i slash
    obtain ⟨front, rfl⟩ := List.getLast?_eq_some_iff.mp slash
    have root : (front ++ [0x2f] ++ rest).head? = (front ++ [0x2f]).head? :=
      List.head?_append_of_ne_nil _ nonempty
    unfold rootAndNames
    rw [root, List.append_assoc, List.singleton_append, fileNames_append, fileNames_concat_slash,
      List.append_assoc]
  · have root : (dir ++ 0x2f :: rest).head? = dir.head? := List.head?_append_of_ne_nil _ nonempty
    unfold rootAndNames
    rw [root, fileNames_append, List.append_assoc]

/-- Only the empty path has no element. -/
theorem pathElements_ne_nil {p : Bytes} (nonempty : p ≠ []) : pathElements p ≠ [] := by
  obtain ⟨c, rest, rfl⟩ := List.exists_cons_of_ne_nil nonempty
  have some_element : rootAndNames (c :: rest) ≠ [] := by
    unfold rootAndNames
    by_cases slash : c = 0x2f
    · simp [slash]
    · -- the first name begins with `c`
      obtain ⟨piece, pieces, split⟩ := List.exists_cons_of_ne_nil (List.splitOn_ne_nil 0x2f rest)
      have names : fileNames (c :: rest) = (c :: piece) :: pieces.filter (· ≠ []) := by
        unfold fileNames
        rw [List.splitOn_cons_eq_if_modifyHead, if_neg (by simpa using slash), split, List.modifyHead_cons,
          List.filter_cons_of_pos (by simp)]
      simp [names]
  rw [pathElements_eq]
  exact List.append_ne_nil_of_left_ne_nil some_element _

/-- A name in a path is a part of its text. -/
theorem infix_of_mem_fileNames {e p : Bytes} (mem : e ∈ fileNames p) : e <:+: p :=
  infix_of_mem_splitOn (List.mem_of_mem_filter mem)

/-! ## The checks -/

/-- The part of a request path after `/static/`. -/
def relativeRequestPath (path : Bytes) : Bytes := path.drop staticFilesUrlPrefix.length

def dotDot : Bytes := bytes ".."

/-- `file` is `docRoot` joined with what follows `/static/` in the request path, which is
relative and has no `..`; so the elements of `docRoot`, an empty last one aside, are followed
by elements other than `..`. -/
structure StaysUnder (docRoot path file : Bytes) : Prop where
  isStatic : startsWith path staticFilesUrlPrefix = true
  joined : file = pathAppend docRoot (relativeRequestPath path)
  relative : isAbsolute (relativeRequestPath path) = false
  noParent : dotDot ∉ pathElements (relativeRequestPath path)
  elements : ∃ below, pathElements file = withoutEmptyLast (pathElements docRoot) ++ below ∧ dotDot ∉ below

/-- An element `..` is a file name. -/
theorem dotDot_mem_fileNames {p : Bytes} (mem : dotDot ∈ pathElements p) : dotDot ∈ fileNames p := by
  have named : dotDot ∈ rootAndNames p := by
    rcases pathElements_cases p with h | h
    · rwa [h] at mem
    · rw [h] at mem
      rcases List.mem_append.mp mem with named | final
      · exact named
      · exact absurd (List.mem_singleton.mp final) (by decide)
  rcases List.mem_append.mp named with root | name
  · split at root
    · exact absurd (List.mem_singleton.mp root) (by decide)
    · cases root
  · exact name

/-- Nothing is under a directory by standing for no path. -/
theorem fileIsUnderDir_nil {docRoot : Bytes} (nonempty : docRoot ≠ []) : fileIsUnderDir [] docRoot = false := by
  obtain ⟨e, es, elements⟩ := List.exists_cons_of_ne_nil (pathElements_ne_nil nonempty)
  unfold fileIsUnderDir
  rw [elements]
  rfl

/-- What the checks of a request that passes them have found. -/
theorem requestedFile_ok {IP : Type} {docRoot : Bytes} {request : HTTPMessage IP} {file : Bytes}
    (asked : StaticHandler.requestedFile docRoot request = .ok file) :
    validateStaticFileRequestPath request.path = true ∧
      fileIsUnderDir (StaticHandler.expectedFilePath request.path docRoot) docRoot = true ∧
      file = StaticHandler.expectedFilePath request.path docRoot := by
  unfold StaticHandler.requestedFile at asked
  simp only at asked
  split at asked
  · cases asked
  · split at asked
    · cases asked
    · rename_i valid
      split at asked
      · cases asked
      · rename_i under
        cases asked
        exact ⟨by simpa using valid, by simpa using under, rfl⟩

/-- **A file that is asked for stays under the document root.** -/
theorem requestedFile_staysUnder {IP : Type} {docRoot : Bytes} (nonempty : docRoot ≠ [])
    {request : HTTPMessage IP} {file : Bytes}
    (asked : StaticHandler.requestedFile docRoot request = .ok file) :
    StaysUnder docRoot request.path file := by
  obtain ⟨valid, under, rfl⟩ := requestedFile_ok asked
  obtain ⟨-, slashes, dots⟩ := of_decide_eq_true valid
  have isStatic : startsWith request.path staticFilesUrlPrefix = true := by
    by_contra other
    unfold StaticHandler.expectedFilePath at under
    rw [if_neg other, fileIsUnderDir_nil nonempty] at under
    cases under
  obtain ⟨rest, path⟩ := List.isPrefixOf_iff_prefix.mp isStatic
  have rest_eq : relativeRequestPath request.path = rest := by
    unfold relativeRequestPath
    rw [← path, List.drop_left]
  have joined : StaticHandler.expectedFilePath request.path docRoot = pathAppend docRoot rest := by
    rw [← rest_eq]
    exact if_pos isStatic
  -- a second slash after `/static/` would have been found
  have relative : isAbsolute rest = false := by
    by_contra absolute
    have slash : rest.head? = some 0x2f := by simpa [isAbsolute] using absolute
    obtain ⟨tail, rfl⟩ := List.head?_eq_some_iff.mp slash
    exact slashes ⟨bytes "/static", tail, path⟩
  have noParent : dotDot ∉ fileNames rest := by
    intro mem
    apply dots
    rw [← path]
    exact (infix_of_mem_fileNames mem).trans (List.suffix_append _ _).isInfix
  refine ⟨isStatic, by rw [joined, rest_eq], by rw [rest_eq]; exact relative, ?_, ?_⟩
  · rw [rest_eq]
    exact fun mem => noParent (dotDot_mem_fileNames mem)
  · rw [joined, withoutEmptyLast_pathElements]
    rcases pathElements_cases (pathAppend docRoot rest) with h | h
    · exact ⟨fileNames rest, by rw [h, rootAndNames_pathAppend nonempty relative], noParent⟩
    · refine ⟨fileNames rest ++ [[]], by rw [h, rootAndNames_pathAppend nonempty relative, List.append_assoc], ?_⟩
      intro mem
      rcases List.mem_append.mp mem with name | final
      · exact noParent name
      · exact absurd (List.mem_singleton.mp final) (by decide)

/-- The handler reads the cache and the file system at the path it was asked for only. -/
theorem onRequest_reads {IP : Type} {docRoot : Bytes} {request : HTTPMessage IP} {file : Bytes}
    (asked : StaticHandler.requestedFile docRoot request = .ok file) {files files' : Bytes → Option Bytes}
    {cache cache' : StaticFileCache} (sameCached : cache file = cache' file) (sameFile : files file = files' file)
    (h : StaticHandler IP) :
    h.onRequest files docRoot cache request = h.onRequest files' docRoot cache' request := by
  unfold StaticHandler.onRequest
  simp only [asked, sameCached, sameFile]

/-- **Static requests cannot leave the document root.** A request is refused before any
lookup, or the one path looked up stays under the document root. -/
theorem static_stays_under_doc_root {IP : Type} (docRoot : Bytes) (nonempty : docRoot ≠ [])
    (request : HTTPMessage IP) :
    (∃ r, StaticHandler.requestedFile docRoot request = .error r ∧
      ∀ (files : Bytes → Option Bytes) (cache : StaticFileCache) (h : StaticHandler IP),
        h.onRequest files docRoot cache request = h.send (.response r)) ∨
    (∃ file, StaticHandler.requestedFile docRoot request = .ok file ∧
      StaysUnder docRoot request.path file ∧
      ∀ (files files' : Bytes → Option Bytes) (cache cache' : StaticFileCache) (h : StaticHandler IP),
        cache file = cache' file → files file = files' file →
          h.onRequest files docRoot cache request = h.onRequest files' docRoot cache' request) := by
  cases asked : StaticHandler.requestedFile docRoot request with
  | error r =>
    refine .inl ⟨r, rfl, fun files cache h => ?_⟩
    unfold StaticHandler.onRequest
    simp only [asked]
  | ok file =>
    exact .inr ⟨file, rfl, requestedFile_staysUnder nonempty asked,
      fun _ _ _ _ h sameCached sameFile => onRequest_reads asked sameCached sameFile h⟩

/-- A file below a document root with a trailing slash. -/
theorem static_stays_under_srv :
    let request : HTTPMessage Unit := ⟨some .get, bytes "/static/css/a.css", [], ()⟩
    StaticHandler.requestedFile (bytes "/srv/www/") request = .ok (bytes "/srv/www/css/a.css") ∧
    StaysUnder (bytes "/srv/www/") request.path (bytes "/srv/www/css/a.css") := by
  intro request
  have asked : StaticHandler.requestedFile (bytes "/srv/www/") request = .ok (bytes "/srv/www/css/a.css") := by
    decide
  rcases static_stays_under_doc_root (bytes "/srv/www/") (by decide) request with
    ⟨r, refused, -⟩ | ⟨file, passed, under, -⟩
  · rw [asked] at refused
    cases refused
  · rw [asked] at passed
    cases passed
    exact ⟨asked, under⟩

end UrlShortener
