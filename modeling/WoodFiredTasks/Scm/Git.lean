import Mathlib.Data.List.Basic
import WoodFiredTasks.Scm.Exclusions

set_option autoImplicit false

/-! # Staging with git

What `git add -- <pathspecs>` does in a work tree, and the git backend's `stage` on top of it.

A pathspec that starts with a colon is magic. Any other one first names a path, read lexically
from the root of the work tree: it denotes the path itself and, where that is a directory,
everything below it. If it has a wildcard in it, it is a pattern besides. Patterns and magic are
git's own and are parameters here. -/

namespace WoodFiredTasks.Scm

open SlashPath (Text)

/-! ## The work tree -/

/-- The path of a file, from the root of the work tree. -/
structure RepoPath where
  segments : List Text
  ne_nil : segments ≠ []
  isName : ∀ seg ∈ segments, SlashPath.IsName seg

/-- The path as git prints it. -/
def RepoPath.text (path : RepoPath) : Text := SlashPath.join path.segments

/-- A file that git sees in the work tree or in the index, and whether the two differ on it. -/
structure TreeEntry where
  path : RepoPath
  changed : Bool

/-- A git work tree, with git's reading of patterns and of magic pathspecs. -/
structure Git where
  /-- The absolute path of the root, as segments. -/
  root : List Text
  /-- The files; an ignored file that is not tracked is not among them. -/
  tree : List TreeEntry
  /-- Whether a pattern matches the text of a path. -/
  wildmatch : Text → Text → Bool
  /-- Whether a magic pathspec matches the text of a path. -/
  magicMatch : Text → Text → Bool
  /-- Whether a magic pathspec has the `exclude` magic. -/
  isExcludeMagic : Text → Bool
  /-- Whether git refuses the command for another reason: a lock, a permission, a symbolic link. -/
  refuses : List Text → Bool

/-! ## Pathspecs -/

/-- A pathspec with magic. -/
def isMagic (spec : Text) : Bool := spec.head? = some ':'

/-- A pathspec with a wildcard. -/
def isPattern (spec : Text) : Bool := spec.any fun c => c ∈ ['*', '?', '[', '\\']

/-- A pathspec that can only name a directory. -/
def isDirectorySpelling (spec : Text) : Bool :=
  (SlashPath.segments spec).getLast? ∈ [some [], some ['.'], some ['.', '.']]

namespace Git

variable (git : Git)

/-- The path that a pathspec without magic names; none if it is empty or outside the tree. -/
def resolve (spec : Text) : Option (List Text) :=
  match spec with
  | [] => none
  | '/' :: rest =>
    (SlashPath.descend (SlashPath.segments rest)).bind fun path => path.dropPrefix? git.root
  | spec => SlashPath.descend (SlashPath.segments spec)

/-- The pathspec names the file. -/
def names (spec : Text) (path : RepoPath) : Bool :=
  !isMagic spec && !isDirectorySpelling spec && git.resolve spec == some path.segments

/-- The pathspec names a directory above the file. -/
def isAbove (spec : Text) (path : RepoPath) : Bool :=
  !isMagic spec && (git.resolve spec).any fun dir =>
    dir.isPrefixOf path.segments && dir.length < path.segments.length

/-- The pathspec is a pattern that matches the file. -/
def globs (spec : Text) (path : RepoPath) : Bool :=
  !isMagic spec && isPattern spec && git.wildmatch spec path.text

/-- The pathspec has magic and matches the file. -/
def conjures (spec : Text) (path : RepoPath) : Bool :=
  isMagic spec && git.magicMatch spec path.text

/-- The pathspec denotes the file. -/
def denotes (spec : Text) (path : RepoPath) : Bool :=
  git.names spec path || git.isAbove spec path || git.globs spec path || git.conjures spec path

/-- The pathspec takes files away from what the others denote. -/
def isNegative (spec : Text) : Bool := isMagic spec && git.isExcludeMagic spec

/-- The pathspecs that add files; where all are negative, the whole tree is meant. -/
def positives (specs : List Text) : List Text :=
  if specs.all git.isNegative then [['.']] else specs.filter fun spec => !git.isNegative spec

/-- A negative pathspec takes the file away. -/
def isSubtracted (specs : List Text) (path : RepoPath) : Bool :=
  specs.any fun spec => git.isNegative spec && git.denotes spec path

/-- The file is one that the pathspecs denote together. -/
def isSelected (specs : List Text) (path : RepoPath) : Bool :=
  ((git.positives specs).any fun spec => git.denotes spec path) && !git.isSubtracted specs path

/-- A pathspec git accepts: it stays within the tree and denotes one of its files. -/
def accepts (spec : Text) : Bool :=
  (isMagic spec || (git.resolve spec).isSome) &&
    git.tree.any fun entry => git.denotes spec entry.path

/-- `git add -- <specs>`: the files that become staged, unless git refuses. -/
def add (specs : List Text) : Option (List RepoPath) :=
  if git.refuses specs || !(git.positives specs).all git.accepts then none
  else some ((git.tree.filter fun entry =>
    entry.changed && git.isSelected specs entry.path).map TreeEntry.path)

end Git

/-! ## The backend -/

/-- The answer of `stage`, and the files that it caused to be staged. -/
structure StageOutcome where
  staged : List Text
  added : List RepoPath

/-- `GitBackend.stage`; `failure` is what git printed, as `failGit` puts it together. -/
def GitBackend.stage (git : Git) (failure : Text) (files : List Text) :
    Except ScmError StageOutcome :=
  match enforceStageExclusions files with
  | .error err => .error err
  | .ok toStage =>
    if toStage.length = 0 then .ok { staged := [], added := [] }
    else
      match git.add toStage with
      | none => .error { code := .configInvalid, message := "git add failed ".toList ++ failure }
      | some added => .ok { staged := toStage, added := added }

/-- A `stage` that succeeds was given no excluded file, and staged what git selected. -/
theorem GitBackend.stage_eq_ok {git : Git} {failure : Text} {files : List Text}
    {outcome : StageOutcome} (h : GitBackend.stage git failure files = .ok outcome) :
    (∀ file ∈ files, isExcluded file = false) ∧
      ∀ path, path ∈ outcome.added ↔ files ≠ [] ∧
        ∃ entry ∈ git.tree, entry.changed = true ∧ git.isSelected files entry.path = true ∧
          entry.path = path := by
  unfold GitBackend.stage at h
  cases hguard : enforceStageExclusions files with
  | error err => simp [hguard] at h
  | ok toStage =>
    obtain ⟨rfl, hclean⟩ := enforceStageExclusions_eq_ok_iff.mp hguard
    refine ⟨hclean, fun path => ?_⟩
    simp only [hguard, List.length_eq_zero_iff] at h
    by_cases hnil : toStage = []
    · simp only [hnil, if_true, Except.ok.injEq] at h
      simp [← h, hnil]
    · simp only [hnil, if_false] at h
      cases hadd : git.add toStage with
      | none => simp [hadd] at h
      | some added =>
        simp only [hadd, Except.ok.injEq] at h
        unfold Git.add at hadd
        split at hadd
        · simp at hadd
        · simp only [Option.some.injEq] at hadd
          simp [← h, ← hadd, hnil, and_assoc]

end WoodFiredTasks.Scm
