import Mathlib.Data.List.Lex
import Mathlib.Data.List.Sort

set_option autoImplicit false

/-! # The migration runner

`src/db/migrate.ts`. A database is the tracking table `_migrations` together with everything
else, of which the runner knows nothing: a migration's `up` is any function on it, which may
change it and then throw. The statements of a call run on a working copy that `COMMIT` stores
and `ROLLBACK` discards; `BEGIN EXCLUSIVE` keeps every other call out meanwhile.

What the file system and SQLite do is a parameter of each call (`Call`): the directory listing,
the modules, and at which points something outside the code fails. -/

namespace WoodFiredTasks.Migrate

/-! ## Names -/

/-- The UTF-16 code units of a text. -/
def codeUnits (s : String) : List Nat :=
  s.toList.flatMap fun c =>
    if c.toNat < 0x10000 then [c.toNat]
    else [0xD800 + (c.toNat - 0x10000) / 0x400, 0xDC00 + (c.toNat - 0x10000) % 0x400]

/-- The order of JavaScript's `sort()` on texts. -/
def textLe (a b : String) : Prop := codeUnits a ≤ codeUnits b

instance : DecidableRel textLe := fun a b => inferInstanceAs (Decidable (codeUnits a ≤ codeUnits b))

/-- `name.replace(/\.[tj]s$/, '')`, on the characters in reverse. -/
def dropExtension : List Char → List Char
  | 's' :: 't' :: '.' :: rest => rest
  | 's' :: 'j' :: '.' :: rest => rest
  | chars => chars

/-- `canonicalName`. -/
def canonicalName (name : String) : String := String.ofList (dropExtension name.toList.reverse).reverse

/-- `'ts' | 'js'`. -/
inductive Extension where
  | ts | js
  deriving DecidableEq, Repr

def Extension.chars : Extension → List Char
  | .ts => ['t', 's']
  | .js => ['j', 's']

/-- The pattern `^\d{3}-[^.]+\.<ext>$`. -/
def isMigrationFile (ext : Extension) (name : String) : Bool :=
  match name.toList with
  | a :: b :: c :: '-' :: rest =>
    let slug := rest.takeWhile (· != '.')
    a.isDigit && b.isDigit && c.isDigit && !slug.isEmpty &&
      rest.dropWhile (· != '.') == '.' :: ext.chars
  | _ => false

/-! ## The database -/

/-- A row of `_migrations`. -/
structure MigrationRow where
  name : String
  executedAt : Nat
  deriving DecidableEq, Repr

/-- The rows of `_migrations`, in the order a scan returns them; the name is the primary key. -/
structure Tracking where
  rows : List MigrationRow
  nodup : (rows.map MigrationRow.name).Nodup

/-- `_migrations`, if there is such a table, and everything else. -/
structure Database (σ : Type) where
  tracking : Option Tracking
  rest : σ

/-- Where a call throws. -/
inductive Failure where
  | begin | track | conflict (name : String) | discover | «import» (name : String)
  | up (name : String) | record (name : String) | commit
  deriving DecidableEq, Repr

/-- A migration module: its `up` may change the database and then throw. -/
structure Module (σ : Type) where
  up : σ → σ × Bool

/-- What a call of `runMigrations` meets. -/
structure Call (σ : Type) where
  extension : Extension
  now : Nat
  /-- `BEGIN EXCLUSIVE` is refused: the lock is held for too long, or by a call on this very
      connection. -/
  busy : Bool
  /-- A statement on the tracking table fails. -/
  trackingFails : Bool
  /-- The directory listing; `none` when reading it fails. -/
  listing : Option (List String)
  /-- The module of a file; `none` when importing it fails. -/
  modules : String → Option (Module σ)
  /-- The INSERT of a name fails. -/
  recordFails : String → Bool
  commitFails : Bool

/-- `UPDATE _migrations SET name = canonical WHERE name = name`; `none` when another row has the
    new name. -/
def Tracking.rename (t : Tracking) (name canonical : String) : Option Tracking :=
  if h : canonical ∈ t.rows.map MigrationRow.name then none
  else some
    { rows := t.rows.map fun r => if r.name = name then { r with name := canonical } else r
      nodup := by
        rw [List.map_map]
        refine List.Nodup.map_on (fun r hr r' hr' heq => ?_) (List.Nodup.of_map _ t.nodup)
        have hne : ∀ r ∈ t.rows, r.name ≠ canonical :=
          fun r hr hname => h (List.mem_map.2 ⟨r, hr, hname⟩)
        refine List.inj_on_of_nodup_map t.nodup hr hr' ?_
        by_cases hn : r.name = name
        · by_cases hn' : r'.name = name
          · rw [hn, hn']
          · simp only [Function.comp_apply, hn, hn', if_true, if_false] at heq
            exact absurd heq.symm (hne r' hr')
        · by_cases hn' : r'.name = name
          · simp only [Function.comp_apply, hn, hn', if_true, if_false] at heq
            exact absurd heq (hne r hr)
          · simpa [hn, hn'] using heq }

/-- `INSERT INTO _migrations (name)`; `none` when there is such a row. -/
def Tracking.insert (t : Tracking) (name : String) (now : Nat) : Option Tracking :=
  if h : name ∈ t.rows.map MigrationRow.name then none
  else some
    { rows := t.rows ++ [⟨name, now⟩]
      nodup := by
        rw [List.map_append, List.nodup_append]
        refine ⟨t.nodup, by simp, fun a ha b hb => ?_⟩
        rw [List.map_singleton, List.mem_singleton] at hb
        intro hab
        rw [hab, hb] at ha
        exact h ha }

/-! ## The runner -/

/-- The loop over the rows of `prepareTrackingTable`. -/
def canonicalizeAll : List String → Tracking → Except Failure Tracking
  | [], t => .ok t
  | name :: names, t =>
    if canonicalName name = name then canonicalizeAll names t
    else match t.rename name (canonicalName name) with
      | none => .error (.conflict name)
      | some t' => canonicalizeAll names t'

/-- `prepareTrackingTable`: create the table if it is missing and strip the extensions. -/
def prepareTrackingTable (tracking : Option Tracking) : Except Failure Tracking :=
  let t := tracking.getD ⟨[], List.nodup_nil⟩
  canonicalizeAll (t.rows.map MigrationRow.name) t

/-- `executedMigrations`. -/
def executedMigrations (t : Tracking) : List String := t.rows.map MigrationRow.name

/-- A migration file discovered on disk: its canonical name and the name of its module. -/
structure MigrationFile where
  name : String
  path : String
  deriving DecidableEq, Repr

/-- `discoverMigrations`. -/
def discoverMigrations (ext : Extension) (listing : List String) : List MigrationFile :=
  ((listing.filter (isMigrationFile ext)).insertionSort textLe).map fun f => ⟨canonicalName f, f⟩

/-- `pendingMigrations`: the names that are on disk but not recorded. -/
def pendingMigrations (ext : Extension) (listing : List String) (tracking : Option Tracking) :
    Except Failure (List String) :=
  match prepareTrackingTable tracking with
  | .error e => .error e
  | .ok t =>
    .ok (((discoverMigrations ext listing).filter fun m => !(executedMigrations t).contains m.name).map
      MigrationFile.name)

/-- The working copy of a call, and the names of the migrations whose `up` has run on it. -/
structure Work (σ : Type) where
  tracking : Tracking
  rest : σ
  ups : List String

variable {σ : Type}

/-- The loop of `runMigrations`: import, `up`, record. -/
def applyAll (call : Call σ) (executed : List String) :
    List MigrationFile → Work σ → Except Failure (Work σ)
  | [], w => .ok w
  | migration :: files, w =>
    if executed.contains migration.name then applyAll call executed files w
    else match call.modules migration.path with
      | none => .error (.import migration.name)
      | some mod =>
        let (rest, threw) := mod.up w.rest
        if threw then .error (.up migration.name)
        else if call.recordFails migration.name then .error (.record migration.name)
        else match w.tracking.insert migration.name call.now with
          | none => .error (.record migration.name)
          | some tracking =>
            applyAll call executed files ⟨tracking, rest, w.ups ++ [migration.name]⟩

/-- What happens between `BEGIN EXCLUSIVE` and `COMMIT`. -/
def transaction (call : Call σ) (db : Database σ) : Except Failure (Work σ) :=
  if call.trackingFails then .error .track
  else match prepareTrackingTable db.tracking with
    | .error e => .error e
    | .ok t =>
      match call.listing with
      | none => .error .discover
      | some listing =>
        applyAll call (executedMigrations t) (discoverMigrations call.extension listing)
          ⟨t, db.rest, []⟩

/-- `runMigrations`: how the call ends, with the names of the migrations it applied, and the
    database it leaves. -/
def runMigrations (call : Call σ) (db : Database σ) :
    Except Failure (List String) × Database σ :=
  if call.busy then (.error .begin, db)
  else match transaction call db with
    | .error e => (.error e, db)
    | .ok w =>
      if call.commitFails then (.error .commit, db)
      else (.ok w.ups, ⟨some w.tracking, w.rest⟩)

end WoodFiredTasks.Migrate
