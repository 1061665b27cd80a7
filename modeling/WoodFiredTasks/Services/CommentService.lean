import WoodFiredTasks.Repositories.TaskRepository
import WoodFiredTasks.Schemas.TaskSchema

set_option autoImplicit false

/-! # Comments

`addComment` of `src/services/comment.service.ts` with the schema of its body and the INSERT of
`src/repositories/comment.repository.ts`. A comment is a row of its own table; the row of its task
is read and not written. -/

namespace WoodFiredTasks

/-- The body of a new comment. -/
structure CreateCommentInput where
  taskId : Nat
  author : String
  content : String
  authorUserId : Option Nat := none
  deriving DecidableEq, Repr

/-- A row of `task_comments`. -/
structure Comment where
  id : Nat
  taskId : Nat
  author : String
  content : String
  createdAt : Stamp
  authorUserId : Option Nat
  deriving DecidableEq, Repr

abbrev Comments := Table Comment Comment.id

/-- `CreateCommentSchema`. -/
def TaskSchema.createComment (input : CreateCommentInput) : List Issue :=
  positive "task_id" input.taskId
    ++ atLeast "author" 1 (utf16Length input.author) ++ atMost "author" 100 (utf16Length input.author)
    ++ atLeast "content" 1 (utf16Length input.content)
    ++ atMost "content" 5000 (utf16Length input.content)
    ++ optional input.authorUserId (fun u => positive "author_user_id" u)

/-- The row that `create` inserts. -/
def CreateCommentInput.row (input : CreateCommentInput) (now id : Nat) : Comment where
  id := id
  taskId := input.taskId
  author := input.author
  content := input.content
  createdAt := .iso now
  authorUserId := input.authorUserId

/-- `CommentService.addComment`: the comments with the new one. -/
def CommentService.addComment (db : Db) (now : Nat) (input : CreateCommentInput)
    (comments : Comments) : Except Err Comments := do
  TaskSchema.parse (TaskSchema.createComment input)
  match db.tasks.find? input.taskId with
  | none => throw (.notFound "Task" input.taskId.repr)
  | some _ =>
    if input.authorUserId.all db.users.contains then
      pure (comments.insert (input.row now) fun _ => rfl)
    else throw foreignKeyError

/-- `ON DELETE CASCADE` of `task_id`. -/
def Comments.ofTasks (comments : Comments) (db : Db) : Comments :=
  comments.filter fun c => (db.tasks.find? c.taskId).isSome

end WoodFiredTasks
