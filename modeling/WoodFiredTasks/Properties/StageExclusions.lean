import WoodFiredTasks.Scm.Git

set_option autoImplicit false

/-! # Which stagings keep the exclusions

The guard of `stage` looks at the arguments one by one, as paths. `Git.isOutOfReach` lists what it
cannot see: an argument that names a directory above an excluded file, one that matches it as a
pattern or by magic, and one that names it in a spelling that normalisation takes for another path
(a backslash, white space around the text, an absolute path). Everything else is caught, since on
plain spellings normalisation and git read the same path (`Git.normalizeRepoRelative_of_names`). -/

namespace WoodFiredTasks.Scm

open SlashPath (Text)

/-! ## Plain spellings -/

theorem head?_of_isPlain {text : Text} (h : isPlain text = true) : text.head? ≠ some '/' := by
  have hanchored : anchored text = text := by simpa [isPlain] using h
  intro hslash
  have hdrop := List.head?_dropWhile_not (fun c : Char => decide (c = '/'))
    (trim (text.map fun c => if c = '\\' then '/' else c))
  rw [show List.dropWhile _ _ = text from hanchored, hslash] at hdrop
  simp at hdrop

theorem RepoPath.normalizeRepoRelative_text {path : RepoPath} (h : isPlain path.text = true) :
    normalizeRepoRelative path.text = path.text := by
  refine normalizeRepoRelative_of_descend h ?_
  rw [RepoPath.text, SlashPath.segments_join path.ne_nil path.isName]
  exact SlashPath.descend_of_isName path.isName

namespace Git

variable {git : Git}

/-- A plain argument is normalised to the path that git takes it for. -/
theorem normalizeRepoRelative_of_names {spec : Text} {path : RepoPath}
    (hnames : git.names spec path = true) (hplain : isPlain spec = true) :
    normalizeRepoRelative spec = path.text := by
  have hresolve : git.resolve spec = some path.segments := by
    simp only [names, Bool.and_eq_true, beq_iff_eq] at hnames
    exact hnames.2
  refine normalizeRepoRelative_of_descend hplain ?_
  have hhead := head?_of_isPlain hplain
  unfold resolve at hresolve
  split at hresolve
  · simp at hresolve
  · simp at hhead
  · exact hresolve

/-! ## Reach -/

/-- The guard takes the argument for the file that it names. -/
def isSeen (spec : Text) (path : RepoPath) : Bool := isPlain spec && isPlain path.text

/-- No argument reaches the file past the guard, or a negative one takes it away again. -/
def isOutOfReach (git : Git) (files : List Text) (path : RepoPath) : Bool :=
  git.isSubtracted files path || (git.positives files).all fun spec =>
    !git.isAbove spec path && !git.globs spec path && !git.conjures spec path &&
      (!git.names spec path || isSeen spec path)

theorem mem_positives {files : List Text} {spec : Text} (h : spec ∈ git.positives files) :
    spec ∈ files ∨ spec = ['.'] := by
  unfold positives at h
  split at h
  · exact Or.inr (by simpa using h)
  · exact Or.inl (List.mem_filter.mp h).1

/-- Of the arguments that the guard let through, one that names an excluded file is not plain. -/
theorem not_isSeen_of_names {files : List Text} {spec : Text} {path : RepoPath}
    (hclean : ∀ file ∈ files, isExcluded file = false) (hspec : spec ∈ git.positives files)
    (hnames : git.names spec path = true) (hexcluded : isExcluded path.text = true) :
    isSeen spec path = false := by
  by_contra hseen
  obtain ⟨hplain, hpath⟩ : isPlain spec = true ∧ isPlain path.text = true := by
    simpa [isSeen] using hseen
  have hsame : isExcluded spec = isExcluded path.text := by
    refine isExcluded_congr ?_
    rw [normalizeRepoRelative_of_names hnames hplain, RepoPath.normalizeRepoRelative_text hpath]
  rcases mem_positives hspec with hfile | rfl
  · rw [hclean spec hfile, hexcluded] at hsame
    exact Bool.false_ne_true hsame
  · -- The dot that stands for the whole tree names a directory.
    simp [names, isDirectorySpelling, SlashPath.segments, List.splitOn_cons_eq_if_modifyHead]
      at hnames

/-- For an excluded file and arguments that the guard let through, being selected is being within
    reach. -/
theorem isSelected_eq_not_isOutOfReach (git : Git) {files : List Text} {path : RepoPath}
    (hclean : ∀ file ∈ files, isExcluded file = false) (hexcluded : isExcluded path.text = true) :
    git.isSelected files path = !git.isOutOfReach files path := by
  have hspec : ∀ spec ∈ git.positives files, git.denotes spec path =
      !(!git.isAbove spec path && !git.globs spec path && !git.conjures spec path &&
        (!git.names spec path || isSeen spec path)) := by
    intro spec hspec
    cases hnames : git.names spec path with
    | false => simp [denotes, hnames]
    | true =>
      have hunseen := not_isSeen_of_names hclean hspec hnames hexcluded
      simp [denotes, hnames, hunseen]
  have hany : ((git.positives files).any fun spec => git.denotes spec path) =
      !((git.positives files).all fun spec =>
        !git.isAbove spec path && !git.globs spec path && !git.conjures spec path &&
          (!git.names spec path || isSeen spec path)) := by
    rw [List.not_all_eq_any_not, Bool.eq_iff_iff]
    simp only [List.any_eq_true]
    constructor
    · rintro ⟨spec, hmem, hdenotes⟩
      exact ⟨spec, hmem, by rw [← hspec spec hmem]; exact hdenotes⟩
    · rintro ⟨spec, hmem, hreach⟩
      exact ⟨spec, hmem, by rw [hspec spec hmem]; exact hreach⟩
  rw [isSelected, isOutOfReach, hany, Bool.not_or, Bool.and_comm]

end Git

/-! ## Staging -/

/-- **Main theorem.** A `stage` that succeeds has staged no excluded file exactly if every changed
    file that is excluded is out of reach of the arguments. -/
theorem GitBackend.stage_excludes_iff (git : Git) (failure : Text) (files : List Text)
    (outcome : StageOutcome) (h : GitBackend.stage git failure files = .ok outcome) :
    (∀ path ∈ outcome.added, isExcluded path.text = false) ↔
      (files ≠ [] → ∀ entry ∈ git.tree, entry.changed = true →
        isExcluded entry.path.text = true → git.isOutOfReach files entry.path = true) := by
  obtain ⟨hclean, hadded⟩ := GitBackend.stage_eq_ok h
  constructor
  · intro hsound hne entry hentry hchanged hexcluded
    by_contra hreach
    have hselected := Git.isSelected_eq_not_isOutOfReach git hclean hexcluded
    rw [Bool.eq_false_iff.mpr hreach, Bool.not_false] at hselected
    have hstaged := (hadded entry.path).mpr ⟨hne, entry, hentry, hchanged, hselected, rfl⟩
    rw [hsound entry.path hstaged] at hexcluded
    exact Bool.false_ne_true hexcluded
  · intro hcond path hpath
    obtain ⟨hne, entry, hentry, hchanged, hselected, rfl⟩ := (hadded path).mp hpath
    by_contra hexcluded
    have hexcluded : isExcluded entry.path.text = true := by simpa using hexcluded
    have hout := hcond hne entry hentry hchanged hexcluded
    rw [Git.isSelected_eq_not_isOutOfReach git hclean hexcluded, hout] at hselected
    simp at hselected

/-- A file at the root of the tree. -/
def RepoPath.single (name : Text) (h : SlashPath.IsName name) : RepoPath where
  segments := [name]
  ne_nil := by simp
  isName := by simpa using h

/-- A repository with an environment file that no `.gitignore` names. -/
def Git.dotenvSample : Git where
  root := ["repo".toList]
  tree := [{ path := RepoPath.single ".env".toList ⟨by decide, by decide, by decide, by decide⟩
             changed := true }]
  wildmatch _ _ := false
  magicMatch _ _ := false
  isExcludeMagic _ := false
  refuses _ := false

theorem GitBackend.stage_excludes_iff_dotenv :
    ((∀ path ∈ [(RepoPath.single ".env".toList ⟨by decide, by decide, by decide, by decide⟩)],
        isExcluded path.text = false) ↔
      ([['.']] ≠ ([] : List Text) → ∀ entry ∈ Git.dotenvSample.tree, entry.changed = true →
        isExcluded entry.path.text = true →
        Git.dotenvSample.isOutOfReach [['.']] entry.path = true)) :=
  GitBackend.stage_excludes_iff Git.dotenvSample [] [['.']]
    { staged := [['.']]
      added := [RepoPath.single ".env".toList ⟨by decide, by decide, by decide, by decide⟩] }
    (by rfl)

/-- The repository's root as argument passes the guard and stages the environment file. -/
theorem GitBackend.stage_root_dotenv :
    ¬ ∀ (git : Git) (failure : Text) (files : List Text) (outcome : StageOutcome),
      GitBackend.stage git failure files = .ok outcome →
      ∀ path ∈ outcome.added, isExcluded path.text = false := by
  intro h
  have hstage : GitBackend.stage Git.dotenvSample [] [['.']] =
      .ok { staged := [['.']], added := Git.dotenvSample.tree.map TreeEntry.path } := by rfl
  have hfile := h _ _ _ _ hstage (RepoPath.single ".env".toList
    ⟨by decide, by decide, by decide, by decide⟩) (by simp [Git.dotenvSample])
  exact absurd hfile (by decide)

end WoodFiredTasks.Scm
