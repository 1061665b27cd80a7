import WoodFiredTasks.Lib.PathTree
import WoodFiredTasks.Lib.Prog

set_option autoImplicit false

/-! # Installing the bundled skills

`copyCodexSkills` (`src/setup/codex.ts`), which `setup` and `self-update` call: it copies the
skills of the package below `~/.agents/skills`, a directory in which users keep skills of their own,
and writes down in a manifest which files it has put there, with their digests.

Paths are the names below `~/.agents`, and the names in a manifest are split at their slashes. A
call of the file system may throw, or the process may die in it; a write then leaves anything in
the file. Nobody else changes the tree while a run goes on. Modes of files are left out. -/

namespace WoodFiredTasks.CodexSkills

open PathTree

abbrev Path := List String

abbrev Files (β : Type) := PathTree.Tree String β

/-! ## Names and digests -/

def isLowerAlnumDash (c : Char) : Bool := ('a' ≤ c && c ≤ 'z') || ('0' ≤ c && c ≤ '9') || c = '-'

/-- `/^tasks-[a-z0-9-]+$/` -/
def isSkillDirectory (name : String) : Bool :=
  let chars := name.toList
  ("tasks-".toList).isPrefixOf chars && 6 < chars.length && chars.all isLowerAlnumDash

/-- `/^tasks-[a-z0-9-]+\/SKILL\.md$/` -/
def isSkillFile : Path → Bool
  | [directory, file] => isSkillDirectory directory && file = "SKILL.md"
  | _ => false

def safeRelative (file : Path) : Bool :=
  !file.any (fun name => name.toList.contains '\\') && !file.contains ".." &&
    match file with
    | first :: second :: rest =>
      isSkillDirectory first ||
        (first = ".wood-fired-tasks" && second = "references" && !rest.isEmpty)
    | _ => false

/-- `/^[a-f0-9]{64}$/` -/
def isDigest (s : String) : Bool :=
  let chars := s.toList
  chars.length = 64 && chars.all fun c => ('a' ≤ c && c ≤ 'f') || ('0' ≤ c && c ≤ '9')

def skillsDir : Path := ["skills"]

/-- `path.join(destDir, file)` -/
def dest (file : Path) : Path := skillsDir ++ file

def manifestPath : Path := dest [".wood-fired-tasks", "manifest.json"]

/-! ## Manifests -/

def OWNER : String := "wood-fired-tasks"

/-- `files`, whose keys keep the order in which they were set. -/
abbrev Manifest := List (Path × String)

/-- What `JSON.parse` gives: a field is none when it is of another type. -/
structure ManifestData where
  owner : Option String
  schema : Option Nat
  files : Option (List (Path × Option String))
  deriving DecidableEq

def Manifest.data (m : Manifest) : ManifestData :=
  ⟨some OWNER, some 1, some (m.map fun entry => (entry.1, some entry.2))⟩

/-- What the installer uses of its host, for contents of files of a type. -/
structure Host (β : Type) where
  hash : β → String
  hash_isDigest : ∀ bytes, isDigest (hash bytes) = true
  /-- The text of a manifest, and what `JSON.parse` makes of a text, unless it throws. -/
  stringify : Manifest → β
  parse : β → Option ManifestData
  parse_stringify : ∀ m : Manifest, (m.map (·.1)).Nodup →
    (∀ entry ∈ m, safeRelative entry.1 = true) → parse (stringify m) = some m.data
  /-- The `n`-th UUID that is drawn. -/
  randomUUID : Nat → String
  empty : β

/-- The entries of a manifest that is not refused. -/
def validManifest (data : ManifestData) : Option Manifest :=
  if data.owner = some OWNER ∧ data.schema = some 1 then
    data.files.bind fun files => files.mapM fun entry =>
      entry.2.bind fun digest =>
        if safeRelative entry.1 && isDigest digest then some (entry.1, digest) else none
  else none

inductive SetupError where
  /-- `Bundled Codex skills are missing` -/
  | missing
  /-- `Invalid Wood Fired Tasks ownership manifest` -/
  | invalidManifest
  /-- `Invalid bundled Codex asset path` -/
  | invalidAsset (file : Path)
  /-- `Refusing to modify symlink` -/
  | symlink (file : Path)
  /-- `Preserved conflicting Codex skills: …` -/
  | conflicts (names : List Path)
  /-- An error of the file system. -/
  | io
  /-- Nothing is thrown: the process has died. -/
  | died
  deriving DecidableEq

variable {β : Type}

/-- From `above` on, the names down to a file: no symbolic link may be among them. -/
def checkPath (tree : Files β) : (above rest : Path) → Except SetupError Unit
  | above, [] =>
    match tree.entry above with
    | some .symlink => .error (.symlink above)
    | _ => .ok ()
  | above, name :: rest =>
    match tree.entry above with
    | some .symlink => .error (.symlink above)
    -- `lstat` below something that is no directory: ENOTDIR
    | some (.file _) => .error .io
    | some .special => .error .io
    | _ => checkPath tree (above ++ [name]) rest

def parseManifest (host : Host β) (content : β) : Option Manifest :=
  (host.parse content).bind validManifest

def readManifest (host : Host β) (tree : Files β) : Except SetupError (Option Manifest) :=
  match checkPath tree [] manifestPath with
  | .error e => .error e
  | .ok () =>
    match tree.entry manifestPath with
    | none => .ok none
    | some (.file content) =>
      match parseManifest host content with
      | some m => .ok (some m)
      | none => .error .invalidManifest
    | some _ => .error .invalidManifest

/-! ## Conflicts -/

/-- `conflicts.add` -/
def addConflict (conflicts : List Path) (name : Path) : List Path :=
  if name ∈ conflicts then conflicts else conflicts ++ [name]

/-- The files of the package, as `listFiles` finds them in a tree of directories. -/
structure Bundle (β : Type) where
  files : List (Path × β)
  nodup : (files.map (·.1)).Nodup

/-- `Object.keys(previous.files).some((owned) => owned.startsWith(`${directory}/`))` -/
def ownsDirectory (previous : Manifest) (file : Path) : Bool :=
  previous.any fun entry => entry.1.head? = file.head? && 1 < entry.1.length

/-- The conflicts of one bundled file. -/
def scanFile (host : Host β) (tree : Files β) (previous : Manifest) (conflicts : List Path)
    (entry : Path × β) : Except SetupError (List Path) :=
  let file := entry.1
  if safeRelative file then
    match checkPath tree [] (dest file) with
    | .error e => .error e
    | .ok () =>
      let directory := file.take 1
      let conflicts :=
        if !ownsDirectory previous file && (tree.entry (dest directory)).isSome then
          addConflict conflicts directory
        else conflicts
      match tree.entry (dest file) with
      | none => .ok conflicts
      | some (.file content) =>
        if previous.lookup file = some (host.hash content) then .ok conflicts
        else .ok (addConflict conflicts file)
      | some _ => .ok (addConflict conflicts file)
  else .error (.invalidAsset file)

/-- The conflict of a file that an earlier run has put there. -/
def scanOwned (host : Host β) (tree : Files β) (conflicts : List Path) (entry : Path × String) :
    Except SetupError (List Path) :=
  match checkPath tree [] (dest entry.1) with
  | .error e => .error e
  | .ok () =>
    match tree.entry (dest entry.1) with
    | none => .ok conflicts
    | some (.file content) =>
      if host.hash content ≠ entry.2 then .ok (addConflict conflicts entry.1) else .ok conflicts
    | some _ => .ok (addConflict conflicts entry.1)

/-- All that is checked before the first write; the manifest that is there, if all is well. -/
def check (host : Host β) (bundle : Bundle β) (tree : Files β) : Except SetupError Manifest := do
  let manifest ← readManifest host tree
  let previous := manifest.getD []
  let conflicts ← bundle.files.foldlM (scanFile host tree previous) []
  let conflicts ← previous.foldlM (scanOwned host tree) conflicts
  if conflicts.isEmpty then .ok previous else .error (.conflicts conflicts)

/-! ## Writing -/

/-- What becomes of a call: it works, or it throws, or the process dies in it. What a write leaves
    in its file is anything then. -/
inductive Fate (β : Type) where
  | works
  | throws (left : β)
  | dies (left : β)

structure Machine (β : Type) where
  tree : Files β := PathTree.Tree.empty
  /-- What becomes of the next calls; those after them work. -/
  fates : List (Fate β) := []
  /-- How many UUIDs have been drawn. -/
  drawn : Nat := 0
  /-- No state of the machine: what the installer has put where, of all times. -/
  ledger : List (Path × β) := []

abbrev M (β α : Type) := Prog (Machine β) SetupError α

variable [DecidableEq β]

/-- The tree when a call has failed on the way. -/
def torn (tree : Files β) (left : β) : Call String β → Files β
  | .write path _ => ((Call.write path left).apply tree).getD tree
  | _ => tree

def call (c : Call String β) : M β Unit := fun s =>
  match s.fates with
  | .throws left :: fates => (.error .io, { s with tree := torn s.tree left c, fates })
  | .dies left :: fates => (.error .died, { s with tree := torn s.tree left c, fates })
  | fates =>
    match c.apply s.tree with
    | some tree => (.ok (), { s with tree, fates := fates.tail })
    | none => (.error .io, { s with fates := fates.tail })

/-- `try { body } finally { cleanup }`; a process that has died cleans nothing up. -/
def tryFinally (body cleanup : M β Unit) : M β Unit := fun s =>
  match body.run s with
  | (.ok _, s) => cleanup.run s
  | (.error .died, s) => (.error .died, s)
  | (.error e, s) => (cleanup >>= fun _ => Prog.throw e).run s

/-- `${file}.tmp-${uuid}` -/
def tempFile (file : Path) (uuid : String) : Path :=
  file.dropLast ++ [file.getLastD "" ++ ".tmp-" ++ uuid]

/-- `if (fs.existsSync(file)) fs.unlinkSync(file)` -/
def removeFile (file : Path) : M β Unit :=
  Prog.withState fun s => if (s.tree.entry file).isSome then call (.unlink file) else pure ()

def record (file : Path) (bytes : β) (s : Machine β) : Machine β :=
  { s with ledger := s.ledger ++ [(file, bytes)] }

/-- The part of `writeAtomic` in its `try`. -/
def writeAndRename (host : Host β) (file : Path) (bytes : β) (temp : Path) : M β Unit :=
  call (.create temp host.empty) >>= fun _ =>
  call (.write temp bytes) >>= fun _ =>
  call (.rename temp file) >>= fun _ =>
  Prog.modify (record file bytes)

def draw (s : Machine β) : Machine β := { s with drawn := s.drawn + 1 }

def writeAtomic (host : Host β) (file : Path) (bytes : β) : M β Unit :=
  -- `mkdirSync` with `recursive`
  Prog.forEach file.dropLast.inits (fun above => call (.mkdir above)) >>= fun _ =>
  Prog.withState fun s =>
    let temp := tempFile file (host.randomUUID s.drawn)
    Prog.modify draw >>= fun _ =>
    tryFinally (writeAndRename host file bytes temp) (removeFile temp)

/-- Write a file unless it has this content already; whether it was written. -/
def putFile (host : Host β) (file : Path) (bytes : β) : M β Bool :=
  Prog.withState fun s =>
    match s.tree.entry file with
    | none => writeAtomic host file bytes >>= fun _ => pure true
    | some (.file content) =>
      if content = bytes then pure false
      else writeAtomic host file bytes >>= fun _ => pure true
    | some _ => Prog.throw .io

/-- The loop over the contents; the files that were written. -/
def putFiles (host : Host β) : List (Path × β) → M β (List Path)
  | [] => pure []
  | (file, bytes) :: rest =>
    putFile host (dest file) bytes >>= fun written =>
    putFiles host rest >>= fun others =>
    pure (if written then file :: others else others)

/-- The manifest of a bundle. -/
def Bundle.manifest (host : Host β) (bundle : Bundle β) : Manifest :=
  bundle.files.map fun entry => (entry.1, host.hash entry.2)

/-- The files of an earlier bundle that are no longer in this one. -/
def retired (bundle : Bundle β) (previous : Manifest) : List Path :=
  (previous.map (·.1)).filter fun file => !(bundle.files.map (·.1)).contains file

def install (host : Host β) (bundle : Bundle β) (previous : Manifest) : M β (List Path) :=
  putFiles host bundle.files >>= fun written =>
  Prog.forEach (retired bundle previous) (fun file => removeFile (dest file)) >>= fun _ =>
  putFile host manifestPath (host.stringify (bundle.manifest host)) >>= fun _ =>
  pure written

def copyCodexSkills (host : Host β) (bundle : Bundle β) (dryRun : Bool) : M β (List Path) :=
  if bundle.files.any fun entry => isSkillFile entry.1 then
    Prog.withState fun s =>
      Prog.lift (check host bundle s.tree) >>= fun previous =>
      if dryRun then pure [] else install host bundle previous
  else Prog.throw .missing

/-! ## Users and updates -/

/-- A tree with no manifest that the installer could take for one of its own, or with one that says
    the same as one that it has written at some time. -/
def genuine (host : Host β) (s : Machine β) (tree : Files β) : Bool :=
  match tree.entry manifestPath with
  | some (.file content) =>
    match parseManifest host content with
    | some m => s.ledger.any fun put => put.1 = manifestPath && parseManifest host put.2 = some m
    | none => true
  | _ => true

inductive Action (β : Type) where
  | copyCodexSkills (bundle : Bundle β) (dryRun : Bool) (fates : List (Fate β))
  /-- Anybody changes anything, but for the forging of a manifest. -/
  | edit (tree : Files β)

def step (host : Host β) (s : Machine β) : Action β → Machine β
  | .copyCodexSkills bundle dryRun fates =>
    (CodexSkills.copyCodexSkills host bundle dryRun).exec { s with fates }
  | .edit tree => if genuine host s tree then { s with tree } else s

end WoodFiredTasks.CodexSkills
