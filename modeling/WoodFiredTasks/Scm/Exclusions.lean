import WoodFiredTasks.Lib.SlashPath

set_option autoImplicit false

/-! # The staging exclusions

The list of paths that no backend stages, and the guard that `stage` puts before it. All matching
is on the normalised text of a path. -/

namespace WoodFiredTasks.Scm

open SlashPath (Text)

/-! ## Errors -/

/-- `SCM_ERROR_CODES` -/
inductive ScmErrorCode where
  | configInvalid
  | backendUnavailable
  | authExpired
  | noRemote
  | submitConflict
  | unsupportedVerb
  | timeout
  | dirtyTree
  | detachedHead
  deriving DecidableEq, Repr

/-- `ScmError` -/
structure ScmError where
  code : ScmErrorCode
  message : Text
  hint : Option Text := none
  deriving DecidableEq, Repr

/-! ## Normalisation -/

/-- The characters that `String.prototype.trim` removes. -/
def isWhiteSpace (c : Char) : Bool :=
  c ∈ ['\t', '\n', '\x0b', '\x0c', '\r', ' ', '\u00a0', '\u1680', '\u2028', '\u2029', '\u202f',
      '\u205f', '\u3000', '\ufeff'] ∨ ('\u2000' ≤ c ∧ c ≤ '\u200a')

/-- `String.prototype.trim` -/
def trim (text : Text) : Text :=
  ((text.dropWhile isWhiteSpace).reverse.dropWhile isWhiteSpace).reverse

/-- The first two lines of `normalizeRepoRelative`: backslashes become slashes, surrounding white
    space and then leading slashes go. -/
def anchored (inputPath : Text) : Text :=
  (trim (inputPath.map fun c => if c = '\\' then '/' else c)).dropWhile (· = '/')

/-- `posix.normalize` of a path that does not start with a slash. -/
def posixNormalize (path : Text) : Text :=
  let text := SlashPath.join (SlashPath.normalize (SlashPath.segments path))
  if text = [] then
    if path.getLast? = some '/' then ['.', '/'] else ['.']
  else if path.getLast? = some '/' then text ++ ['/'] else text

/-- Trailing slashes are removed. -/
def stripTrailingSlashes (text : Text) : Text :=
  (text.reverse.dropWhile (· = '/')).reverse

/-- `normalizeRepoRelative` -/
def normalizeRepoRelative (inputPath : Text) : Text :=
  let normalized := stripTrailingSlashes (posixNormalize (anchored inputPath))
  if normalized = ['.'] ∨ normalized = [] then [] else normalized

/-- `basename`: what follows the last slash. -/
def basename (normalizedPath : Text) : Text :=
  (normalizedPath.reverse.takeWhile (· ≠ '/')).reverse

/-! ## The rules -/

/-- `ExclusionRule` -/
structure ExclusionRule where
  id : String
  description : String
  covers : Text → Bool

/-- `PLANNING_ARTIFACT_NAMES` -/
def planningArtifactNames : List Text :=
  ["LOOP-RUN.md".toList, "AUDIT.md".toList, "DECOMPOSITION.md".toList]

/-- The directory itself, or something below it. -/
def isOrIsUnder (dir path : Text) : Bool :=
  path = dir ∨ (dir ++ ['/']).isPrefixOf path

/-- The test `/^data\/[^/]+\.db$/`. -/
def isDataDb (path : Text) : Bool :=
  "data/".toList.isPrefixOf path ∧ ".db".toList.isSuffixOf path ∧
    '/' ∉ path.drop 5 ∧ 3 < (path.drop 5).length

/-- `EXCLUSION_RULES` -/
def exclusionRules : List ExclusionRule :=
  [{ id := "adapter-runtime-state"
     description := "adapter runtime state under .tasks/.scm/ is never staged (§3.1, §4.4)"
     covers := isOrIsUnder ".tasks/.scm".toList },
   { id := "planning-artifacts"
     description :=
       "planning run artifacts (LOOP-RUN.md, AUDIT.md, DECOMPOSITION.md) are never staged (§4.4)"
     covers := fun p => planningArtifactNames.contains (basename p) },
   { id := "gitignore"
     description := ".gitignore is never modified by the adapter (§4.4)"
     covers := fun p => basename p = ".gitignore".toList },
   { id := "dotenv"
     description := "environment files (.env, .env.*) are never committed (§4.4)"
     covers := fun p =>
       basename p = ".env".toList ∨ ".env.".toList.isPrefixOf (basename p) },
   { id := "data-db"
     description := "database files (data/*.db) are never committed (§4.4)"
     covers := isDataDb },
   { id := "bin-dir"
     description := "the repo-root /bin directory is never committed (§4.4)"
     covers := isOrIsUnder "bin".toList }]

/-- `matchingExclusionRule` -/
def matchingExclusionRule (repoRelPath : Text) : Option ExclusionRule :=
  let normalized := normalizeRepoRelative repoRelPath
  if normalized = [] then none else exclusionRules.find? fun rule => rule.covers normalized

/-- `isExcluded` -/
def isExcluded (repoRelPath : Text) : Bool :=
  let normalized := normalizeRepoRelative repoRelPath
  if normalized = [] then false else exclusionRules.any fun rule => rule.covers normalized

/-- Only the normal form of a path counts. -/
theorem isExcluded_congr {path path' : Text}
    (h : normalizeRepoRelative path = normalizeRepoRelative path') :
    isExcluded path = isExcluded path' := by
  simp only [isExcluded, h]

/-- An excluded path is one that some rule can be named for. -/
theorem isExcluded_eq_isSome (path : Text) :
    isExcluded path = (matchingExclusionRule path).isSome := by
  unfold isExcluded matchingExclusionRule
  by_cases hnil : normalizeRepoRelative path = []
  · simp [hnil]
  · simp only [hnil, if_false]
    rw [Bool.eq_iff_iff]
    simp [List.find?_isSome]

/-! ## The filter and the guard -/

/-- `filterExcluded`: the paths kept and the paths excluded, each as it was given. -/
def filterExcluded (paths : List Text) : List Text × List Text :=
  paths.partition fun path => !isExcluded path

/-- `enforceStageExclusions` -/
def enforceStageExclusions (paths : List Text) : Except ScmError (List Text) :=
  let excluded := (filterExcluded paths).2
  if excluded.length > 0 then
    .error
      { code := .configInvalid
        message := "refusing to stage ".toList ++ (toString excluded.length).toList ++
          " excluded path(s): ".toList ++ ", ".toList.intercalate excluded
        hint := some (("these paths are on the central staging-exclusion list (§4.4) and must " ++
          "never be staged or committed").toList) }
  else .ok paths

theorem filterExcluded_excluded (paths : List Text) :
    (filterExcluded paths).2 = paths.filter isExcluded := by
  simp [filterExcluded, List.partition_eq_filter_filter, Function.comp_def]

/-- The guard lets a list through exactly when none of its paths is excluded. -/
theorem enforceStageExclusions_eq_ok_iff {paths paths' : List Text} :
    enforceStageExclusions paths = .ok paths' ↔
      paths' = paths ∧ ∀ path ∈ paths, isExcluded path = false := by
  unfold enforceStageExclusions
  rw [filterExcluded_excluded]
  by_cases hnone : ∀ path ∈ paths, isExcluded path = false
  · have hfilter : paths.filter isExcluded = [] := by
      rw [List.filter_eq_nil_iff]
      intro path hpath
      simp [hnone path hpath]
    simp only [hfilter, List.length_nil, gt_iff_lt, Nat.lt_irrefl, if_false, Except.ok.injEq]
    exact ⟨fun h => ⟨h.symm, hnone⟩, fun h => h.1.symm⟩
  · have hsome : 0 < (paths.filter isExcluded).length := by
      rw [List.length_pos_iff, Ne, List.filter_eq_nil_iff]
      simpa using hnone
    simp [hsome, hnone]

/-! ## Plain spellings -/

/-- Whether normalisation starts from the text as it is: no backslash, no white space around it
    and no leading slash. -/
def isPlain (text : Text) : Bool := anchored text = text

theorem stripTrailingSlashes_of_getLast? {text : Text} (h : text.getLast? ≠ some '/') :
    stripTrailingSlashes text = text := by
  unfold stripTrailingSlashes
  rw [List.getLast?_eq_head?_reverse] at h
  cases hrev : text.reverse with
  | nil =>
    have hnil : text = [] := by simpa using hrev
    simp [hnil]
  | cons c rest =>
    have hc : c ≠ '/' := by
      intro hc
      simp [hrev, hc] at h
    rw [List.dropWhile_cons_of_neg (by simpa using hc), ← hrev, List.reverse_reverse]

theorem stripTrailingSlashes_append_slash {text : Text} (h : text.getLast? ≠ some '/') :
    stripTrailingSlashes (text ++ ['/']) = text := by
  have hsame := stripTrailingSlashes_of_getLast? h
  unfold stripTrailingSlashes at hsame ⊢
  simpa using hsame

/-- A plain text whose segments stay within the repository is normalised to the path it names. -/
theorem normalizeRepoRelative_of_descend {text : Text} {segs : List Text}
    (hplain : isPlain text = true) (h : SlashPath.descend (SlashPath.segments text) = some segs) :
    normalizeRepoRelative text = SlashPath.join segs := by
  have hanchored : anchored text = text := by simpa [isPlain] using hplain
  have hnormal := SlashPath.normalize_eq_of_descend h
  unfold normalizeRepoRelative posixNormalize
  simp only [hanchored, hnormal.1]
  by_cases hsegs : segs = []
  · -- Nothing is left but a dot, with or without a slash after it.
    subst hsegs
    by_cases hlast : text.getLast? = some '/'
    · simp [SlashPath.join, hlast, stripTrailingSlashes]
    · simp [SlashPath.join, hlast, stripTrailingSlashes]
  · have hne := SlashPath.join_ne_nil hsegs hnormal.2
    have hdot := SlashPath.join_ne_dot hsegs hnormal.2
    have hend := SlashPath.getLast?_join hnormal.2
    by_cases hlast : text.getLast? = some '/'
    · simp [hne, hlast, stripTrailingSlashes_append_slash hend, hdot]
    · simp [hne, hlast, stripTrailingSlashes_of_getLast? hend, hdot]

end WoodFiredTasks.Scm
