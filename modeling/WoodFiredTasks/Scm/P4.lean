import WoodFiredTasks.Lib.SlashPath

set_option autoImplicit false

/-! # A Perforce server and a client workspace

What the `p4` commands of the adapter do, as Perforce documents them, in one client workspace: the
changelist numbers the server has given out, and the files opened in the workspace with the
changelist each is opened in.

A changelist is pending until it is submitted, and a submit renumbers it if a higher number has
been given out in between: the old number is then gone. A new changelist takes over what is opened
in the default changelist, since that is what the form of `change -o` lists. `reconcile`, `submit`
and `shelve` are told a changelist; `sync`, `resolve -as` and `revert //...` are not and work on
every opened file. -/

namespace WoodFiredTasks.Scm.P4

open SlashPath (Text)

/-! ## State -/

/-- What is known of a number that has been given out. -/
inductive ChangeStatus where
  | pending
  | submitted
  /-- Renumbered or deleted. -/
  | gone
  deriving DecidableEq, Repr

/-- A file opened in the workspace. -/
structure OpenedFile (F : Type) where
  file : F
  /-- The changelist that it is opened in, `none` for the default one. -/
  change : Option Nat
  /-- The revision that it was opened at. -/
  base : Nat
  /-- Whether it is scheduled for resolve. -/
  unresolved : Bool
  deriving DecidableEq

/-- The files of a workspace. -/
structure Workspace (F : Type) where
  opened : List (OpenedFile F)
  /-- The newest revision on the server. -/
  head : F → Nat
  /-- The revision that was synced. -/
  synced : F → Nat
  /-- The files that differ on disk from the revision that was synced. -/
  edited : List F
  /-- The files that a file argument denotes. -/
  denotes : Text → F → Bool
  /-- Whether `resolve -as` can merge the file. -/
  mergeable : F → Bool

/-- The server as one workspace sees it. -/
structure Server (F : Type) where
  /-- The numbers given out, each with its status; the next number is the length. -/
  changes : List ChangeStatus
  workspace : Workspace F

namespace Server

variable {F : Type} (s : Server F)

/-- The number that the next changelist gets. -/
def next : Nat := s.changes.length

/-- The status of a number, if it has been given out. -/
def status (n : Nat) : Option ChangeStatus := s.changes[n]?

/-- Whether a changelist can be worked with. -/
def isPending (n : Nat) : Bool := s.status n = some .pending

/-- The opened files. -/
def opened : List (OpenedFile F) := s.workspace.opened

/-- The server has a newer revision than the one the file was opened at. -/
def isOutdated (o : OpenedFile F) : Bool := o.base < s.workspace.head o.file

/-- `resolve -as` changes the file. -/
def isResolvable (o : OpenedFile F) : Bool := o.unresolved && s.workspace.mergeable o.file

/-- The files opened in a changelist. -/
def inChange (n : Nat) : List (OpenedFile F) := s.opened.filter fun o => o.change = some n

/-- A submit of the changelist is refused until its files are synced and resolved. -/
def conflicts (n : Nat) : Bool := (s.inChange n).any fun o => o.unresolved || s.isOutdated o

/-- The opened files, changed one by one. -/
def withOpened (opened : List (OpenedFile F)) : Server F :=
  { s with workspace := { s.workspace with opened := opened } }

@[simp] theorem withOpened_changes (opened : List (OpenedFile F)) :
    (s.withOpened opened).changes = s.changes := rfl

@[simp] theorem withOpened_opened (opened : List (OpenedFile F)) :
    (s.withOpened opened).opened = opened := rfl

end Server

/-! ## Commands -/

/-- The commands that the adapter issues. -/
inductive Command where
  /-- `login -s` -/
  | loginStatus
  /-- `--field Description=… change -o [n]` -/
  | changeForm (change : Option Nat) (description : Text)
  /-- `change -i`, with the form on standard input -/
  | changeInput (change : Option Nat) (description : Text)
  /-- `reconcile -c n files…` -/
  | reconcile (change : Nat) (files : List Text)
  /-- `shelve -f -c n` -/
  | shelve (change : Nat)
  /-- `submit -c n` -/
  | submit (change : Nat)
  /-- `sync` -/
  | sync
  /-- `resolve -as` -/
  | resolveSafe
  /-- `revert //...` -/
  | revertAll
  /-- `client -d name` -/
  | deleteClient (name : Text)
  deriving DecidableEq

/-- The changelist that a command works on. -/
def Command.change : Command → Option Nat
  | .changeForm change _ => change
  | .changeInput change _ => change
  | .reconcile change _ => some change
  | .shelve change => some change
  | .submit change => some change
  | _ => none

/-- What a command prints, as far as the adapter reads it. -/
inductive Output where
  /-- `Change n created.` -/
  | created (n : Nat)
  /-- `Change n submitted.` -/
  | submitted (n : Nat)
  /-- `Change n renamed change m and submitted.` -/
  | renamed (n m : Nat)
  /-- Files are out of date or must be resolved. -/
  | conflict
  /-- The server cannot be reached. -/
  | unreachable
  | other
  deriving DecidableEq, Repr

/-- An `ExecScmResult`. -/
structure Reply where
  code : Nat
  output : Output
  /-- The trimmed text of stderr, or else of stdout. -/
  detail : Text := []
  deriving DecidableEq, Repr

def Reply.done (output : Output) : Reply := { code := 0, output := output }

def Reply.failed (output : Output) : Reply := { code := 1, output := output }

/-! ## Meaning -/

namespace Server

variable {F : Type} (s : Server F)

/-- A new number with a status. -/
def allocate (status : ChangeStatus) : Server F :=
  { s with changes := s.changes ++ [status] }

theorem status_allocate {n : Nat} (hn : n < s.next) (status : ChangeStatus) :
    (s.allocate status).status n = s.status n :=
  List.getElem?_append_left hn

/-- A new changelist takes over the files of the default one. -/
def takeOver (o : OpenedFile F) : OpenedFile F :=
  if o.change = none then { o with change := some s.next } else o

/-- A new changelist. -/
def createChange : Server F := (s.allocate .pending).withOpened (s.opened.map s.takeOver)

/-- A new number is pending; the others stay as they are. -/
theorem status_createChange (n : Nat) :
    s.createChange.status n = if n = s.next then some .pending else s.status n := by
  simp only [status, createChange, withOpened_changes, allocate, next]
  by_cases hn : n = s.changes.length
  · simp [hn]
  · by_cases hlt : n < s.changes.length
    · simp [hn, List.getElem?_append_left hlt]
    · have hgt : s.changes.length < n := by omega
      simp [hn, List.getElem?_append_right (by omega : s.changes.length ≤ n),
        List.getElem?_eq_none (by omega : s.changes.length ≤ n), Nat.sub_eq_zero_iff_le, hgt]

theorem next_createChange : s.createChange.next = s.next + 1 := by
  simp [next, createChange, allocate]

section Commands

variable [DecidableEq F]

/-- The files that `reconcile` opens: changed on disk and not opened yet. -/
def reconcilable (files : List Text) : List F :=
  s.workspace.edited.filter fun f =>
    (files.any fun spec => s.workspace.denotes spec f) && !s.opened.any fun o => o.file = f

/-- The files are opened in the changelist. -/
def reconcile (n : Nat) (files : List Text) : Server F :=
  s.withOpened (s.opened ++ (s.reconcilable files).map fun f =>
    { file := f, change := some n, base := s.workspace.synced f, unresolved := false })

/-- The number of a changelist after its submit. -/
def finalNumber (n : Nat) : Nat := if s.next = n + 1 then n else s.next

/-- The files of the changelist become the newest revisions. -/
def submit (n : Nat) : Server F :=
  let files := (s.inChange n).map OpenedFile.file
  { changes :=
      if s.next = n + 1 then s.changes.set n .submitted
      else s.changes.set n .gone ++ [.submitted]
    workspace :=
      { s.workspace with
        opened := s.opened.filter fun o => o.change ≠ some n
        head := fun f => if f ∈ files then s.workspace.head f + 1 else s.workspace.head f
        synced := fun f => if f ∈ files then s.workspace.head f + 1 else s.workspace.synced f
        edited := s.workspace.edited.filter fun f => f ∉ files } }

/-- An opened file that is out of date is scheduled for resolve. -/
def reschedule (o : OpenedFile F) : OpenedFile F :=
  if s.isOutdated o then { o with base := s.workspace.head o.file, unresolved := true } else o

/-- The newest revisions are synced. -/
def sync : Server F :=
  { s with workspace :=
      { s.workspace with
        opened := s.opened.map s.reschedule
        synced := s.workspace.head } }

/-- A file that can be merged is resolved. -/
def merge (o : OpenedFile F) : OpenedFile F :=
  if s.isResolvable o then { o with unresolved := false } else o

/-- What can be merged is resolved. -/
def resolveSafe : Server F := s.withOpened (s.opened.map s.merge)

/-- Every opened file goes back to the revision that was synced. -/
def revertAll : Server F :=
  { s with workspace :=
      { s.workspace with
        opened := []
        edited := s.workspace.edited.filter fun f => !s.opened.any fun o => o.file = f } }

/-- A command on a numbered changelist is refused unless the changelist is pending. -/
def onPending (n : Nat) (result : Reply × Server F) : Reply × Server F :=
  if s.isPending n then result else (Reply.failed .other, s)

/-- One command: its reply and the server after it. -/
def perform : Command → Reply × Server F
  | .loginStatus => (Reply.done .other, s)
  | .changeForm none _ => (Reply.done .other, s)
  | .changeForm (some n) _ => s.onPending n (Reply.done .other, s)
  | .changeInput none _ => (Reply.done (.created s.next), s.createChange)
  | .changeInput (some n) _ => s.onPending n (Reply.done .other, s)
  | .reconcile n files => s.onPending n (Reply.done .other, s.reconcile n files)
  | .shelve n => s.onPending n (Reply.done .other, s)
  | .submit n => s.onPending n <|
      if (s.inChange n).isEmpty then (Reply.failed .other, s)
      else if s.conflicts n then (Reply.failed .conflict, s)
      else if s.finalNumber n = n then (Reply.done (.submitted n), s.submit n)
      else (Reply.done (.renamed n (s.finalNumber n)), s.submit n)
  | .sync => (Reply.done .other, s.sync)
  | .resolveSafe => (Reply.done .other, s.resolveSafe)
  | .revertAll => (Reply.done .other, s.revertAll)
  | .deleteClient _ => (Reply.done .other, s)

/-! ## Numbers -/

/-- The commands that change what is known of a number. -/
theorem perform_changes (cmd : Command) (hcreate : ∀ d, cmd ≠ .changeInput none d)
    (hsubmit : ∀ n, cmd ≠ .submit n) : (s.perform cmd).2.changes = s.changes := by
  unfold perform
  split <;> simp_all [onPending] <;> (try split) <;> rfl

/-- A changelist keeps its status when another one is submitted. -/
theorem status_submit_of_ne {n m : Nat} (hne : m ≠ n) (hm : m < s.next) :
    (s.submit n).status m = s.status m := by
  have hm : m < s.changes.length := hm
  simp only [status, submit]
  split
  · rw [List.getElem?_set_ne (Ne.symm hne)]
  · rw [List.getElem?_append_left (by simpa using hm), List.getElem?_set_ne (Ne.symm hne)]

/-- What was submitted is no longer pending under its old number. -/
theorem isPending_submit {n : Nat} (hn : n < s.next) : (s.submit n).isPending n = false := by
  have hn : n < s.changes.length := hn
  simp only [isPending, status, submit]
  split
  · simp [List.getElem?_set_self hn]
  · rw [List.getElem?_append_left (by simpa using hn), List.getElem?_set_self hn]
    simp

/-- Nor is it under its final number. -/
theorem isPending_submit_finalNumber {n : Nat} (hn : n < s.next) :
    (s.submit n).isPending (s.finalNumber n) = false := by
  unfold finalNumber
  by_cases hlast : s.next = n + 1
  · simp only [hlast, if_true]
    exact s.isPending_submit hn
  · have hlast' : ¬ s.changes.length = n + 1 := hlast
    simp [isPending, status, submit, next, hlast']

theorem next_submit (n : Nat) : s.next ≤ (s.submit n).next := by
  by_cases hlast : s.changes.length = n + 1
  · simp [next, submit, hlast]
  · simp [next, submit, hlast]

theorem finalNumber_lt {n : Nat} (hn : n < s.next) : s.finalNumber n < (s.submit n).next := by
  unfold finalNumber
  by_cases hlast : s.next = n + 1
  · simp only [hlast, if_true]
    exact Nat.lt_of_lt_of_le hn (s.next_submit n)
  · have hlast' : ¬ s.changes.length = n + 1 := hlast
    simp [next, submit, hlast']

end Commands

end Server

end WoodFiredTasks.Scm.P4
