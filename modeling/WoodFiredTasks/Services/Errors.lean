import Mathlib.Data.List.Basic

set_option autoImplicit false

/-! # Errors

The error classes of `src/services/errors.ts`, the plain `Error` of a repository and whatever
the SQLite driver throws. The texts of the schema library's own messages are not the program's,
so such a message is kept as the rule that was broken. -/

namespace WoodFiredTasks

/-- A rule of the schema library with its bound. -/
inductive SchemaRule where
  | minLength (n : Nat) | maxLength (n : Nat) | maxNumber (n : Nat) | positive | datetime | regex
  deriving DecidableEq, Repr

/-- A message of a field error. -/
inductive Message where
  | text (s : String)
  | schema (rule : SchemaRule)
  deriving DecidableEq, Repr

/-- `Record<string, string[]>`: the messages of each field path. -/
abbrev FieldErrors := List (String × List Message)

/-- Append a message to its field's list, as the loops over `result.error.issues` do. -/
def FieldErrors.push (errors : FieldErrors) (field : String) (message : Message) : FieldErrors :=
  match errors with
  | [] => [(field, [message])]
  | (f, ms) :: rest =>
    if f = field then (f, ms ++ [message]) :: rest
    else (f, ms) :: FieldErrors.push rest field message

/-- The field errors of a list of issues. -/
def FieldErrors.ofIssues (issues : List (String × Message)) : FieldErrors :=
  issues.foldl (fun errors issue => errors.push issue.1 issue.2) []

inductive Err where
  | validation (fieldErrors : FieldErrors)
  | business (message : String)
  | notFound (entity : String) (id : String)
  | generic (message : String)
  | sqlite (code : String)
  deriving DecidableEq, Repr

end WoodFiredTasks
