import WoodFiredTasks.Lib.FileTree
import WoodFiredTasks.Lib.JsonText
import WoodFiredTasks.Scm.Exclusions
import WoodFiredTasks.Db.Migrate
import Mathlib.Algebra.Order.Ring.Rat
import Mathlib.Data.List.Sort

set_option autoImplicit false

/-! # The snapshot backend

`NoneBackend`: a baseline is a manifest with a digest of every file, and `status` and
`changed-files` walk the tree again and compare. A file whose size and `mtime` are those of the
manifest, and whose `mtime` is older than the manifest's own, is not read again: its old record is
taken over.

The hash is a parameter. The manifests lie under `.tasks/.scm`, which no walk enters, so they are
kept beside the tree. -/

namespace WoodFiredTasks.Scm.Snapshot

open FileTree
open SlashPath (Text)
open Migrate (codeUnits textLe)

/-! ## Ignore globs -/

/-- `DEFAULT_IGNORE` -/
def defaultIgnore : List Text :=
  ["node_modules/".toList, "dist/".toList, ".git/".toList, "*.log".toList]

/-- The slash, as a code unit. -/
def slash : Nat := '/'.toNat

/-- What `[^/]*` may leave of a text. -/
def withinSegment : List Nat → List (List Nat)
  | [] => [[]]
  | c :: cs => (c :: cs) :: (if c = slash then [] else withinSegment cs)

/-- What the expression of a glob, as `segToRegex` makes it, may leave of a text it is matched
    against from the front. -/
def globRests : List Nat → List Nat → List (List Nat)
  | [], text => [text]
  | p :: glob, text =>
    if p = '*'.toNat then (withinSegment text).flatMap (globRests glob)
    else
      match text with
      | [] => []
      | c :: cs =>
        if p = '?'.toNat then if c = slash then [] else globRests glob cs
        else if c = p then globRests glob cs else []

/-- `.` in a regular expression: any code unit but a line terminator. -/
def isDot (c : Nat) : Bool := c ∉ [0x0A, 0x0D, 0x2028, 0x2029]

/-- `(?:/.*)?$` -/
def isBelow : List Nat → Bool
  | [] => true
  | c :: cs => c = slash ∧ cs.all isDot

/-- `matchesIgnoreGlob` -/
def matchesIgnoreGlob (relPath pattern : Text) : Bool :=
  let trimmed := trim pattern
  if trimmed = [] then false
  else
    let dirOnly := trimmed.getLast? = some '/'
    let pat := if dirOnly then trimmed.dropLast else trimmed
    let body := if pat.head? = some '/' then pat.tail else pat
    let glob := codeUnits (String.ofList body)
    if pat.contains '/' then
      (globRests glob (codeUnits (String.ofList relPath))).any isBelow
    else
      let parts := SlashPath.segments relPath
      (if dirOnly then parts.dropLast else parts).any fun part =>
        (globRests glob (codeUnits (String.ofList part))).contains []

example : matchesIgnoreGlob "web/dist/app.js".toList "dist/".toList = true := by decide +kernel

example : matchesIgnoreGlob "src/dist".toList "dist/".toList = false := by decide +kernel

/-- `isIgnored` -/
def isIgnored (relPath : Text) (ignore : List Text) : Bool :=
  relPath = ".git".toList ∨ ".git/".toList.isPrefixOf relPath ∨
    ignore.any (matchesIgnoreGlob relPath)

/-! ## Manifests -/

/-- What stands under a name that is not a directory: a regular file, a symbolic link, or a socket,
    a fifo or a device. -/
inductive Leaf where
  | file (content : List UInt8) (mtimeMs : ℚ)
  | symbolicLink (target : String) (mtimeMs : ℚ)
  | other
  deriving DecidableEq

/-- `NoneManifestEntry` -/
structure NoneManifestEntry where
  path : Text
  size : Nat
  mtimeMs : ℚ
  sha256 : String
  deriving DecidableEq

/-- `NoneManifest` -/
structure NoneManifest where
  version : Nat := 1
  id : String
  context : Text
  capturedAtMs : ℚ
  entries : List NoneManifestEntry

/-- `manifestRelPath` -/
def manifestRelPath (context : Text) : Text :=
  posixNormalize (".tasks/.scm/".toList ++ context ++ "/baseline.json".toList)

section Hashing

variable (sha256 : List UInt8 → String)

/-- `hashString` -/
def hashString (value : String) : String := sha256 value.toUTF8.data.toList

/-- `hashFile`, of the bytes that are read. -/
def hashFile (content : List UInt8) : String := sha256 content

/-! ## The walk -/

/-- The record of a regular file: the previous one where size and `mtime` are the same and the
    `mtime` is older than the cutoff, else one with the digest of what the file holds. No cutoff
    stands for infinity. -/
def fileEntry (prev : Text → Option NoneManifestEntry) (fastPathCutoffMs : Option ℚ) (rel : Text)
    (content : List UInt8) (mtimeMs : ℚ) : NoneManifestEntry :=
  let hashed : NoneManifestEntry :=
    { path := rel, size := content.length, mtimeMs := mtimeMs, sha256 := hashFile sha256 content }
  match prev rel with
  | none => hashed
  | some previous =>
    if previous.size = content.length ∧ previous.mtimeMs = mtimeMs ∧
        fastPathCutoffMs.all fun cutoff => mtimeMs < cutoff then previous
    else hashed

/-- The record of a symbolic link, which is not followed. -/
def linkEntry (rel : Text) (target : String) (mtimeMs : ℚ) : NoneManifestEntry :=
  { path := rel
    size := target.utf8ByteSize
    mtimeMs := mtimeMs
    sha256 := hashString sha256 target }

/-- `toPosixRel`, of an entry of the directory at `dir`. -/
def toPosixRel (dir name : Text) : Text := if dir = [] then name else dir ++ '/' :: name

variable (ignore : List Text) (prev : Text → Option NoneManifestEntry)
  (fastPathCutoffMs : Option ℚ)

mutual

/-- The body of the loop of `walk`, past the exclusions. -/
def walkNode (rel : Text) : Node Text Leaf → List NoneManifestEntry
  | .leaf (.symbolicLink target mtimeMs) => [linkEntry sha256 rel target mtimeMs]
  | .directory entries => walk rel entries
  | .leaf .other => []
  | .leaf (.file content mtimeMs) =>
    [fileEntry sha256 prev fastPathCutoffMs rel content mtimeMs]

/-- `walk`, of the directory at `dir`. -/
def walk (dir : Text) : Dirents Text Leaf → List NoneManifestEntry
  | .nil => []
  | .cons name node rest =>
    let rel := toPosixRel dir name
    (if rel = [] ∨ isExcluded rel ∨ isIgnored rel ignore then [] else walkNode rel node) ++
      walk dir rest

end

/-- `buildEntries` -/
def buildEntries (root : Dirents Text Leaf) : List NoneManifestEntry :=
  (walk sha256 ignore prev fastPathCutoffMs [] root).insertionSort fun a b =>
    textLe (String.ofList a.path) (String.ofList b.path)

/-- `canonicalize` -/
def canonicalize (entries : List NoneManifestEntry) : String :=
  let text (s : String) := String.ofList (quote (s.toList.map .scalar))
  let record (e : NoneManifestEntry) :=
    "\x7b\"path\":" ++ text (String.ofList e.path) ++ ",\"size\":" ++ toString e.size ++
      ",\"sha256\":" ++ text e.sha256 ++ "\x7d"
  "[" ++ ",".intercalate (entries.map record) ++ "]"

/-- `manifestId` -/
def manifestId (entries : List NoneManifestEntry) : String :=
  "none:" ++ hashString sha256 (canonicalize entries)

/-! ## The comparison -/

/-- `ScmFileChangeType` -/
inductive ScmFileChangeType where
  | added
  | modified
  | deleted
  deriving DecidableEq, Repr

/-- `ScmChangedFile` -/
structure ScmChangedFile where
  path : Text
  change : ScmFileChangeType
  deriving DecidableEq, Repr

end Hashing

/-- `new Map(entries.map((entry) => [entry.path, entry]))`, where the last entry of a path wins. -/
def byPath (entries : List NoneManifestEntry) (path : Text) : Option NoneManifestEntry :=
  entries.reverse.find? fun entry => entry.path = path

/-- `diffEntries` -/
def diffEntries (previous current : List NoneManifestEntry) : List ScmChangedFile :=
  (current.filterMap fun entry =>
    match byPath previous entry.path with
    | none => some { path := entry.path, change := .added }
    | some before =>
      if before.sha256 ≠ entry.sha256 then some { path := entry.path, change := .modified }
      else none) ++
  previous.filterMap fun entry =>
    if (byPath current entry.path).isSome then none
    else some { path := entry.path, change := .deleted }

/-! ## The backend in a changing tree -/

/-- The repository as the backend sees it: the tree, the clock that the writes take their `mtime`
    from, the walks whose baseline has not been written yet, and the manifests, by their path. -/
structure World where
  root : Dirents Text Leaf
  clock : ℚ
  walked : List (Text × List NoneManifestEntry) := []
  manifests : List (Text × NoneManifest) := []

/-- `resolveIgnore`, with the `ignore` of the configuration, if it has one. -/
def resolveIgnore (config : Option (List Text)) : List Text := config.getD defaultIgnore

/-- `readManifest` -/
def World.readManifest (w : World) (context : Text) : Option NoneManifest :=
  w.manifests.lookup (manifestRelPath context)

/-- `ScmStatusEntry` -/
structure ScmStatusEntry where
  path : Text
  state : ScmFileChangeType
  deriving DecidableEq, Repr

/-- `ScmStatusData` -/
structure ScmStatusData where
  dirty : Bool
  entries : List ScmStatusEntry
  deriving DecidableEq, Repr

/-- `ScmChangedFilesData` -/
structure ScmChangedFilesData where
  base : Text
  files : List ScmChangedFile
  deriving DecidableEq, Repr

/-- The error of a verb that needs a baseline. -/
def noBaseline (context : Text) (verb : String) : ScmError where
  code := .configInvalid
  message := "no none-mode baseline recorded for context \"".toList ++ context ++ ['"']
  hint := some ("Run `scm baseline --context <id>` before `" ++ verb ++ "`.").toList

/-- What `status` answers to the changes. -/
def statusData (changes : List ScmChangedFile) : ScmStatusData :=
  let entries := (changes.filter fun change => !isExcluded change.path).map fun change =>
    { path := change.path, state := change.change : ScmStatusEntry }
  { dirty := decide (entries.length > 0), entries := entries }

/-- What `changedFiles` answers to them. -/
def changedFilesData (base : Text) (changes : List ScmChangedFile) : ScmChangedFilesData :=
  let kept := (filterExcluded (changes.map ScmChangedFile.path)).1
  { base := base, files := changes.filter fun change => kept.contains change.path }

namespace NoneBackend

variable (sha256 : List UInt8 → String)

/-- The walk that `status` and `changedFiles` compare the manifest with. -/
def current (w : World) (config : Option (List Text)) (manifest : NoneManifest) :
    List NoneManifestEntry :=
  buildEntries sha256 (resolveIgnore config) (byPath manifest.entries)
    (some manifest.capturedAtMs) w.root

/-- `status` -/
def status (w : World) (context : Text) (config : Option (List Text)) :
    Except ScmError ScmStatusData :=
  match w.readManifest context with
  | none => .error (noBaseline context "status")
  | some manifest =>
    .ok (statusData (diffEntries manifest.entries (current sha256 w config manifest)))

/-- `changedFiles` -/
def changedFiles (w : World) (context : Text) (config : Option (List Text)) (base : Text) :
    Except ScmError ScmChangedFilesData :=
  match w.readManifest context with
  | none => .error (noBaseline context "changed-files")
  | some manifest =>
    .ok (changedFilesData base
      (diffEntries manifest.entries (current sha256 w config manifest)))

/-- `baseline`, up to the writes: every file is read. -/
def baselineWalk (w : World) (context : Text) (config : Option (List Text)) : World :=
  let entries := buildEntries sha256 (resolveIgnore config) (fun _ => none) none w.root
  { w with walked := (context, entries) :: w.walked }

/-- The two writes of `baseline`, at these times: the first one's `mtime` is the manifest's
    `capturedAtMs`. -/
def baselineWrite (w : World) (context : Text) (first second : ℚ) : World :=
  match w.walked.lookup context with
  | none => w
  | some entries =>
    { w with
      clock := second
      walked := w.walked.filter fun walk => walk.1 ≠ context
      manifests :=
        (manifestRelPath context,
          { id := manifestId sha256 entries
            context := context
            capturedAtMs := first
            entries := entries }) :: w.manifests }

end NoneBackend

/-! ## Runs -/

/-- The time that a leaf was written at. -/
def Leaf.mtimeMs : Leaf → Option ℚ
  | .file _ t => some t
  | .symbolicLink _ t => some t
  | .other => none

/-- What can happen: someone edits the tree, a baseline walks it or is written, or a manifest is
    thrown away. -/
inductive ScmEvent where
  | edit (edit : Edit Text Leaf)
  | baselineWalk (context : Text) (config : Option (List Text))
  | baselineWrite (context : Text) (first second : ℚ)
  | discard (context : Text)

/-- The times at which an event writes. -/
def ScmEvent.times : ScmEvent → List ℚ
  | .edit (.put _ leaf) => leaf.mtimeMs.toList
  | .baselineWrite _ first second => [first, second]
  | _ => []

/-- One event. An edit that cannot be made changes nothing; a rename keeps the `mtime` of what it
    moves. -/
def World.step (sha256 : List UInt8 → String) (w : World) : ScmEvent → World
  | .edit edit =>
    match edit.apply w.root with
    | none => w
    | some root =>
      { w with root := root, clock := ((ScmEvent.edit edit).times.getLast?).getD w.clock }
  | .baselineWalk context config => NoneBackend.baselineWalk sha256 w context config
  | .baselineWrite context first second => NoneBackend.baselineWrite sha256 w context first second
  | .discard context =>
    { w with manifests := w.manifests.filter fun m => m.1 ≠ manifestRelPath context }

/-- Every write takes a later time from the clock than the one before it. -/
def World.Ticks (w : World) (event : ScmEvent) : Prop :=
  (w.clock :: event.times).IsChain (· < ·)

instance (w : World) (event : ScmEvent) : Decidable (w.Ticks event) :=
  inferInstanceAs (Decidable ((w.clock :: event.times).IsChain (· < ·)))

end WoodFiredTasks.Scm.Snapshot
