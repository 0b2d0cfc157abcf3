import Mathlib.Logic.Function.Basic
import OdooSemantic.Db.AuthRegistry

/-!
# `src/db/auth_registry.py` — the flags of a user

`set_user_active`, `set_user_admin` and `delete_user`, first as each of them works on its own. The
first two refuse to take the last active admin away; the third asks nobody.

Then as transactions of several statements at READ COMMITTED. A transaction locks the row it is
about, and no other row: the rows that the guard counts may change while it goes on.
-/

namespace OdooSemantic

open KeyedStore

namespace AuthDb

variable (db : AuthDb) (userId : Nat)

def isActiveAdmin : Bool := (db.users.lookup userId).any fun u => u.isAdmin && u.isActive

/-- `SELECT count(*) … WHERE is_admin = TRUE AND is_active = TRUE AND id != …` -/
def otherAdmins : Nat := (db.users.keys.filter fun id => id ≠ userId && db.isActiveAdmin id).length

def updateActive (isActive : Bool) : AuthDb := db.updateUser userId fun u => { u with isActive }

def updateAdmin (isAdmin : Bool) : AuthDb := db.updateUser userId fun u => { u with isAdmin }

/-- `set_user_active(user_id, is_active=…)`; `none` is a `LastAdminProtectedError`. -/
def setUserActive (isActive : Bool) : Option AuthDb :=
  if !isActive && (db.users.lookup userId).any (·.isAdmin) && db.otherAdmins userId = 0 then none
  else some (db.updateActive userId isActive)

/-- `DELETE FROM webui_users`, and what `ON DELETE CASCADE` takes along. -/
def eraseUser : AuthDb :=
  let theirs := fun (key : String) => (db.emailVerifications.lookup key).any (·.userId = userId)
  { db.deleteSessionsOf userId with
    users := db.users.erase userId
    totpSecrets := db.totpSecrets.erase userId
    emailVerifications := eraseWhere theirs db.emailVerifications
    apiKeys := (db.deleteKeysOf userId).apiKeys }

end AuthDb

/-! ## Transactions -/

inductive UserCall where
  | setUserActive (userId : Nat) (isActive : Bool)
  | setUserAdmin (userId : Nat) (isAdmin : Bool)
  | deleteUser (username : String)
deriving DecidableEq

inductive UserOutcome where
  | returned
  | lastAdminProtected
  | userNotFound
  /-- Whatever the driver raises. -/
  | raised
deriving DecidableEq

inductive UserPhase where
  | begun
  /-- Behind `SELECT … FOR UPDATE`: whether the guard is still to come. -/
  | locked (guarded : Bool)
  /-- The guard has counted another admin. -/
  | counted
  /-- Behind the `UPDATE`. -/
  | updated
  | done (outcome : UserOutcome)
deriving DecidableEq

inductive UserEvent (T : Type) where
  | counted (t : T)
  /-- A commit, and whether it has taken an active admin away. -/
  | wrote (t : T) (removes : Bool)

/-- What is committed, who has locked which row, and how far each call is. -/
structure UserTxs (T : Type) where
  db : AuthDb
  locks : Nat → Option T := fun _ => none
  phase : T → UserPhase := fun _ => .begun
  /-- Newest first. -/
  trace : List (UserEvent T) := []

/-- A call executes its next statement, and this is what becomes of it. -/
structure UserStep (T : Type) where
  thread : T
  answer : DbAnswer := .applied

namespace UserTxs

variable {T : Type} [DecidableEq T] (s : UserTxs T) (t : T)

def become (phase : UserPhase) : UserTxs T := { s with phase := Function.update s.phase t phase }

/-- Nobody else has locked the row; a statement that finds it locked waits. -/
def isFree (userId : Nat) : Bool := (s.locks userId).all (· = t)

/-- A row that is there is locked. -/
def lock (userId : Nat) : UserTxs T :=
  if userId ∈ s.db.users then { s with locks := Function.update s.locks userId (some t) } else s

/-- The end of the transaction. -/
def finish (outcome : UserOutcome) : UserTxs T :=
  { s with locks := fun userId => (s.locks userId).filter (· ≠ t) }.become t (.done outcome)

/-- The table behind a commit. -/
def write (userId : Nat) (db : AuthDb) : UserTxs T :=
  { s with
    db := db
    trace := .wrote t (s.db.isActiveAdmin userId && !db.isActiveAdmin userId) :: s.trace }

/-- `SELECT … WHERE id = … FOR UPDATE`; `guarded` says whether the guard is for this row. -/
def forUpdate (userId : Nat) (guarded : Option WebuiUser → Bool) (answer : DbAnswer) :
    Option (UserTxs T) :=
  if s.isFree t userId then
    match answer.read (s.db.users.lookup userId) with
    | none => some (s.finish t .raised)
    | some row => some ((s.lock t userId).become t (.locked (guarded row)))
  else none

/-- The guard. -/
def count (userId : Nat) (answer : DbAnswer) : UserTxs T :=
  match answer.read (s.db.otherAdmins userId) with
  | none => s.finish t .raised
  | some 0 => s.finish t .lastAdminProtected
  | some _ => { s.become t .counted with trace := .counted t :: s.trace }

/-- `UPDATE … WHERE id = …`; `mustExist` is the check of the row count. -/
def update (userId : Nat) (mustExist : Bool) (answer : DbAnswer) : Option (UserTxs T) :=
  if s.isFree t userId then
    if answer ≠ .applied then some (s.finish t .raised)
    else if mustExist && userId ∉ s.db.users then some (s.finish t .userNotFound)
    else some ((s.lock t userId).become t .updated)
  else none

/-- `COMMIT`. Nobody else has changed the row, so the update is of what is there now. -/
def commit (userId : Nat) (db : AuthDb) (answer : DbAnswer) : UserTxs T :=
  match answer with
  | .applied => (s.write t userId db).finish t .returned
  | .refused => s.finish t .raised
  | .lost => (s.write t userId db).finish t .raised

/-- `delete_user(username)`, one statement and its own commit. -/
def deleteUser (username : String) (answer : DbAnswer) : Option (UserTxs T) :=
  match s.db.userByName username with
  | none => some (s.finish t (if answer = .applied then .returned else .raised))
  | some (userId, _) =>
      if s.isFree t userId then some (s.commit t userId (s.db.eraseUser userId) answer) else none

/-- `set_user_active(user_id, is_active=…)` -/
def setUserActive (userId : Nat) (isActive : Bool) (answer : DbAnswer) : Option (UserTxs T) :=
  match isActive, s.phase t with
  | true, .begun => s.update t userId false answer
  | false, .begun => s.forUpdate t userId (fun row => row.any (·.isAdmin)) answer
  | false, .locked true => some (s.count t userId answer)
  | false, .locked false => s.update t userId false answer
  | false, .counted => s.update t userId false answer
  | _, .updated => some (s.commit t userId (s.db.updateActive userId isActive) answer)
  | _, _ => none

/-- `set_user_admin(user_id, is_admin)` -/
def setUserAdmin (userId : Nat) (isAdmin : Bool) (answer : DbAnswer) : Option (UserTxs T) :=
  match isAdmin, s.phase t with
  | true, .begun => s.update t userId true answer
  | false, .begun => s.forUpdate t userId (fun _ => true) answer
  | false, .locked _ => some (s.count t userId answer)
  | false, .counted => s.update t userId true answer
  | _, .updated => some (s.commit t userId (s.db.updateAdmin userId isAdmin) answer)
  | _, _ => none

variable (calls : T → UserCall)

def step (s : UserTxs T) (a : UserStep T) : Option (UserTxs T) :=
  match calls a.thread with
  | .setUserActive userId isActive => s.setUserActive a.thread userId isActive a.answer
  | .setUserAdmin userId isAdmin => s.setUserAdmin a.thread userId isAdmin a.answer
  | .deleteUser username =>
      match s.phase a.thread with
      | .begun => s.deleteUser a.thread username a.answer
      | _ => none

end UserTxs

end OdooSemantic
