import WoodFiredTasks.Lib.ColumnFill
import WoodFiredTasks.Services.CommentService
import Mathlib.Data.List.Sort

set_option autoImplicit false

/-! # The identity backfill

`tasks db migrate-identities`: the three text columns that name a person are scanned for values
without a foreign key, each value is resolved to a user, and the plan that comes of it is printed
and, with `--commit`, applied column by column, each column in a transaction of its own.

The database has the current schema. `--limit` and the lines of the printed plan are left out. -/

namespace WoodFiredTasks.MigrateIdentities

/-! ## The tables -/

/-- A row of `users`, as far as the command reads it. -/
structure User where
  id : Nat
  email : Option String
  displayName : String
  isLegacy : Bool
  deriving DecidableEq, Repr

/-- The tables that the command reads and writes. -/
structure Store where
  users : List User
  tasks : List Task
  comments : List Comment
  deriving DecidableEq

/-- `TABLES` -/
inductive IdentityColumn where
  | createdBy
  | assignee
  | author
  deriving DecidableEq, Repr

/-- The rows of the column's table. -/
abbrev IdentityColumn.Row : IdentityColumn → Type
  | .createdBy => Task
  | .assignee => Task
  | .author => Comment

/-- `textCol` and `fkCol` -/
def IdentityColumn.column : (c : IdentityColumn) → FillColumn c.Row String Nat
  | .createdBy =>
    { key := fun t => some t.createdBy
      value := Task.createdByUserId
      put := fun user t => { t with createdByUserId := user }
      value_put := fun _ _ => rfl
      key_put := fun _ _ => rfl
      put_value := fun _ => rfl }
  | .assignee =>
    { key := Task.assignee
      value := Task.assigneeUserId
      put := fun user t => { t with assigneeUserId := user }
      value_put := fun _ _ => rfl
      key_put := fun _ _ => rfl
      put_value := fun _ => rfl }
  | .author =>
    { key := fun comment => some comment.author
      value := Comment.authorUserId
      put := fun user comment => { comment with authorUserId := user }
      value_put := fun _ _ => rfl
      key_put := fun _ _ => rfl
      put_value := fun _ => rfl }

def tables : List IdentityColumn := [.createdBy, .assignee, .author]

namespace Store

/-- The rows of the column's table. -/
def rows (s : Store) : (c : IdentityColumn) → List c.Row
  | .createdBy => s.tasks
  | .assignee => s.tasks
  | .author => s.comments

def setRows (s : Store) : (c : IdentityColumn) → List c.Row → Store
  | .createdBy, rows => { s with tasks := rows }
  | .assignee, rows => { s with tasks := rows }
  | .author, rows => { s with comments := rows }

end Store

/-! ## The alias map -/

/-- A value in the file: its JSON text, and the number it is, if it is a finite one. -/
structure AliasValue where
  text : String
  number : Option ℚ
  deriving DecidableEq

/-- What is found at the path of `--alias-map`; an object is given by its entries. -/
inductive AliasFile where
  | unreadable (cause : String)
  | notJson (cause : String)
  | notObject
  | object (entries : List (String × AliasValue)) (nodup : (entries.map Prod.fst).Nodup)

/-- `Record<string, number>`, by its own properties. -/
abbrev AliasMap := List (String × Nat)

/-- `Number.isInteger(value) && value > 0` -/
def AliasValue.positiveInteger? (value : AliasValue) : Option Nat :=
  value.number.bind fun n => if n.den = 1 ∧ 0 < n.num then some n.num.toNat else none

/-- The loop of `loadAliasMap`. The assignment to `__proto__` makes no property of its own. -/
def loadEntries : List (String × AliasValue) → Except String AliasMap
  | [] => .ok []
  | (key, value) :: rest =>
    match value.positiveInteger? with
    | none =>
      .error ("--alias-map: value for '" ++ key ++ "' is not a positive integer (got " ++
        value.text ++ ")")
    | some id =>
      (loadEntries rest).map fun result =>
        if key = "__proto__" then result else (key, id) :: result

/-- `loadAliasMap` -/
def loadAliasMap (path : String) : AliasFile → Except String AliasMap
  | .unreadable cause =>
    .error ("--alias-map: cannot read file '" ++ path ++ "': " ++ cause)
  | .notJson cause =>
    .error ("--alias-map: file '" ++ path ++ "' is not valid JSON: " ++ cause)
  | .notObject =>
    .error ("--alias-map: file '" ++ path ++
      "' must contain a flat JSON object mapping legacy values to user IDs")
  | .object entries _ => loadEntries entries

/-- `SQLITE_MAX_VARIABLE_NUMBER`, the parameters that one statement can have. -/
def maxVariableNumber : Nat := 32766

/-- `new Set(Object.values(aliasMap))` -/
def distinctIds (aliasMap : AliasMap) : List Nat := (aliasMap.map Prod.snd).dedup

/-- `validateAliasMapUserIdsExist` -/
def validateAliasMapUserIdsExist (users : List User) (aliasMap : AliasMap) : Except String Unit :=
  let ids := distinctIds aliasMap
  if ids = [] then .ok ()
  else if maxVariableNumber < ids.length then .error "too many SQL variables"
  else
    let missing := ids.filter fun id => id ∉ users.map User.id
    if missing.length > 0 then
      .error ("--alias-map: user_id(s) " ++ ", ".intercalate (missing.map toString) ++
        " not found in users table (FK pre-flight)")
    else .ok ()

/-! ## Users -/

/-- The lowest id of the users with this property. -/
def lowestId (users : List User) (p : User → Bool) : Option Nat :=
  ((users.filter p).map User.id).min?

/-- `LOWER` of SQLite: letters of ASCII only. -/
def lower (text : String) : String := text.toLower

/-- `findByEmail`, the id of the row. -/
def findByEmail (users : List User) (email : String) : Option Nat :=
  lowestId users fun u => u.email.any fun e => lower e = lower email

/-- `findFirstLegacyUserId` -/
def findFirstLegacyUserId (users : List User) : Option Nat := lowestId users User.isLegacy

/-- `SELECT id FROM users WHERE display_name = ? LIMIT 1`: which of several rows comes first is the
    database's choice, the same for the same table. -/
structure NameQuery where
  get : List User → String → Option Nat
  sound : ∀ users name id, get users name = some id → ∃ u ∈ users, u.displayName = name ∧ u.id = id
  complete : ∀ users name, get users name = none → ∀ u ∈ users, u.displayName ≠ name

/-! ## The plan -/

/-- `FallbackStrategy` -/
inductive FallbackStrategy where
  | legacy
  | skip
  deriving DecidableEq, Repr

/-- `ResolvedMapping['source']` -/
inductive Source where
  | aliasMap
  | email
  | displayName
  | fallbackLegacy
  | skipped
  deriving DecidableEq, Repr

/-- `ResolvedMapping` -/
structure ResolvedMapping where
  value : String
  userId : Option Nat
  rowCount : Nat
  source : Source
  deriving DecidableEq, Repr

/-- What the values are resolved with. -/
structure Resolver where
  query : NameQuery
  users : List User
  aliasMap : Option AliasMap
  strategy : FallbackStrategy

/-- `fallbackUserId` -/
def Resolver.fallbackUserId (r : Resolver) : Option Nat := findFirstLegacyUserId r.users

/-- The first step of `resolveValue` -/
def Resolver.byAlias (r : Resolver) (value : String) : Option Nat :=
  r.aliasMap.bind fun aliasMap => aliasMap.lookup value

/-- The second step of `resolveValue` -/
def Resolver.byEmail (r : Resolver) (value : String) : Option Nat :=
  if value.length > 0 ∧ '@' ∈ value.toList then findByEmail r.users value else none

/-- The third step of `resolveValue` -/
def Resolver.byDisplayName (r : Resolver) (value : String) : Option Nat :=
  if value.length > 0 then r.query.get r.users value else none

/-- `resolveValue` -/
def Resolver.resolveValue (r : Resolver) (value : String) : Except String (Option Nat × Source) :=
  match r.byAlias value with
  | some id => .ok (some id, .aliasMap)
  | none =>
    match r.byEmail value with
    | some id => .ok (some id, .email)
    | none =>
      match r.byDisplayName value with
      | some id => .ok (some id, .displayName)
      | none =>
        match r.strategy with
        | .skip => .ok (none, .skipped)
        | .legacy =>
          match r.fallbackUserId with
          | some id => .ok (some id, .fallbackLegacy)
          | none =>
            .error ("No legacy users seeded; cannot use --user-fallback legacy. " ++
              "Provide --alias-map or --user-fallback skip.")

/-- The loop of `buildPlanForTable`, over the groups. -/
def Resolver.mappings (r : Resolver) : List (String × Nat) → Except String (List ResolvedMapping)
  | [] => .ok []
  | (value, rowCount) :: groups =>
    match r.resolveValue value with
    | .error message => .error message
    | .ok (userId, source) =>
      (r.mappings groups).map fun rest =>
        { value := value, userId := userId, rowCount := rowCount, source := source } :: rest

/-- `buildPlanForTable` -/
def Resolver.buildPlanForTable (r : Resolver) (s : Store) (c : IdentityColumn) :
    Except String (List ResolvedMapping) :=
  (r.mappings (c.column.groups (s.rows c))).map fun mappings =>
    mappings.insertionSort fun a b => b.rowCount ≤ a.rowCount

/-- What a column adds to `planTotal`. -/
def plannedRows (mappings : List ResolvedMapping) : Nat :=
  ((mappings.filter fun m => m.userId.isSome).map ResolvedMapping.rowCount).sum

/-- A plan for some of the columns. -/
abbrev Plan := List (IdentityColumn × List ResolvedMapping)

/-- The loop that builds the plan. -/
def Resolver.tablePlans (r : Resolver) (s : Store) : List IdentityColumn → Except String Plan
  | [] => .ok []
  | c :: cs =>
    match r.buildPlanForTable s c with
    | .error message => .error message
    | .ok mappings => (r.tablePlans s cs).map fun plans => (c, mappings) :: plans

/-! ## The writes -/

/-- `UPDATE … SET fkCol = ? WHERE fkCol IS NULL AND textCol = ?`, with the number of changes. -/
def updateStatement (users : List User) (c : IdentityColumn) (value : String) (user : Nat)
    (rows : List c.Row) : Except String (List c.Row × Nat) :=
  let changes := rows.countP (c.column.isIn value)
  if changes ≠ 0 ∧ user ∉ users.map User.id then .error "FOREIGN KEY constraint failed"
  else .ok (c.column.fillOne value user rows, changes)

/-- The loop of the transaction. -/
def updateRows (users : List User) (c : IdentityColumn) :
    List (String × Nat) → List c.Row → Except String (List c.Row × Nat)
  | [], rows => .ok (rows, 0)
  | (value, user) :: toApply, rows =>
    match updateStatement users c value user rows with
    | .error message => .error message
    | .ok (rows', changes) =>
      (updateRows users c toApply rows').map fun result => (result.1, changes + result.2)

/-- `mappings.filter((m) => m.userId !== null)`, as the pairs that are bound. -/
def toApply (mappings : List ResolvedMapping) : List (String × Nat) :=
  mappings.filterMap fun m => m.userId.map fun user => (m.value, user)

/-- `applyMappings`: a transaction that fails leaves nothing. -/
def applyMappings (s : Store) (c : IdentityColumn) (mappings : List ResolvedMapping) :
    Except String (Store × Nat) :=
  if toApply mappings = [] then .ok (s, 0)
  else (updateRows s.users c (toApply mappings) (s.rows c)).map fun result =>
    (s.setRows c result.1, result.2)

/-- The loop over the columns: what was written before a failure stays. -/
def applyPlans : Plan → Store → Except String (List Nat) × Store
  | [], s => (.ok [], s)
  | (c, mappings) :: plans, s =>
    match applyMappings s c mappings with
    | .error message => (.error message, s)
    | .ok (s', rowsUpdated) =>
      let rest := applyPlans plans s'
      (rest.1.map fun updated => rowsUpdated :: updated, rest.2)

/-! ## The action -/

/-- The options; the file of `--alias-map` with its path. -/
structure Options where
  aliasMap : Option (String × AliasFile) := none
  commit : Bool := false
  userFallback : String := "legacy"

/-- How the action ends: with a message before any write, with the plan alone, with the plan and
    the numbers of rows updated, or with a statement that failed. -/
inductive Outcome where
  | refused (message : String)
  | planned (plan : Plan)
  | applied (plan : Plan) (rowsUpdated : List Nat)
  | failed (plan : Plan) (message : String)
  deriving DecidableEq, Repr

/-- `--user-fallback`, validated. -/
def parseStrategy (userFallback : String) : Except String FallbackStrategy :=
  if userFallback = "skip" then .ok .skip
  else if userFallback = "legacy" then .ok .legacy
  else .error ("--user-fallback: invalid value '" ++ userFallback ++
    "' (expected \"legacy\" or \"skip\")")

/-- The alias map, loaded and checked. -/
def loadChecked (users : List User) : Option (String × AliasFile) →
    Except String (Option AliasMap)
  | none => .ok none
  | some (path, file) =>
    match loadAliasMap path file with
    | .error message => .error message
    | .ok aliasMap => (validateAliasMapUserIdsExist users aliasMap).map fun _ => some aliasMap

/-- What the values are resolved with, and the plan, or why there is none. -/
def prepare (query : NameQuery) (opts : Options) (s : Store) : Except String Plan :=
  match parseStrategy opts.userFallback with
  | .error message => .error message
  | .ok strategy =>
    match loadChecked s.users opts.aliasMap with
    | .error message => .error message
    | .ok aliasMap =>
      Resolver.tablePlans
        { query := query, users := s.users, aliasMap := aliasMap, strategy := strategy } s tables

/-- The action of the command. -/
def migrateIdentities (query : NameQuery) (opts : Options) (s : Store) : Outcome × Store :=
  match prepare query opts s with
  | .error message => (.refused message, s)
  | .ok plan =>
    if opts.commit then
      match applyPlans plan s with
      | (.ok rowsUpdated, s') => (.applied plan rowsUpdated, s')
      | (.error message, s') => (.failed plan message, s')
    else (.planned plan, s)

end WoodFiredTasks.MigrateIdentities
