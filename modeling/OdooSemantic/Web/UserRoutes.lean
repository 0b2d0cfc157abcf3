import OdooSemantic.Web.Statements

/-!
# `src/web_ui/routes/admin_users.py`

Deactivating a user takes two statements: `set_user_active`, and behind it `revoke_all_sessions`,
which is to end what the user has open. Nothing asks for `is_active` again once a session is
there: the middleware looks at the session alone.

`WebRequest` puts these requests beside those of `AuthRequest`, with one that stands for every
route behind the middleware (`guarded`).
-/

namespace OdooSemantic

open Threads

namespace Stepwise

variable (d : Deployment) (cookie : Cookie)

/-- A route behind the middleware. -/
def guarded : Program :=
  .step (.admission cookie) fun w db =>
    if authRequired w cookie db then reply cookie .ok
    else reply cookie (.failed 401 "not_authenticated")

/-- A route with `Depends(require_admin)`. -/
def adminRoute (go : Nat → Program) : Program :=
  .step (.admission cookie) fun w db =>
    if authRequired w cookie db then
      match requireAdmin w cookie db with
      | .error (status, detail) => reply cookie (.failed status detail)
      | .ok actorId => go actorId
    else reply cookie (.failed 401 "not_authenticated")

/-- `get_user_by_id`, or the 404. -/
def withUser (userId : Nat) (go : Program) : Program :=
  .step (.select .userRow) fun w db =>
    match w.read .userRow (db.users.lookup userId) with
    | none => reply cookie .crashed
    | some none => reply cookie (.failed 404 "User not found")
    | some (some _) => go

/-- `deactivate_user(user_id, request)` -/
def deactivateUser (userId : Nat) : Program :=
  adminRoute cookie fun actorId =>
    if userId = actorId then reply cookie (.failed 403 "Cannot deactivate your own account")
    else
      withUser cookie userId <|
        .step (.setUserActive userId false) fun w db =>
          if ((AuthStatement.setUserActive userId false).exec w db).1 then
            perform (.revokeAllSessions .deactivation userId) (fun _ _ => reply cookie .ok)
              (reply cookie (.failed 500 "error"))
          else if (db.setUserActive userId false).isNone then
            reply cookie (.failed 422 "last_admin_protected")
          else reply cookie (.failed 500 "error")

/-- `reactivate_user(user_id, request)` -/
def reactivateUser (userId : Nat) : Program :=
  adminRoute cookie fun _ =>
    withUser cookie userId <|
      perform (.setUserActive userId true) (fun _ _ => reply cookie .ok)
        (reply cookie (.failed 500 "error"))

/-- `reset_password_link(user_id, request)`; the token goes out by mail. -/
def resetPasswordLink (userId : Nat) : Program :=
  adminRoute cookie fun _ =>
    withUser cookie userId <|
      .step .clock fun w _ =>
        perform (.createResetToken userId (d.sha256 w.resetToken) (w.now + 3600))
          (fun _ _ => reply cookie .ok) (reply cookie (.failed 500 "error"))

end Stepwise

inductive WebRequest where
  | auth (r : AuthRequest)
  | totpStatus
  | guarded
  | deactivateUser (userId : Nat)
  | reactivateUser (userId : Nat)
  | resetPasswordLink (userId : Nat)

def webProgram (d : Deployment) (cookie : Cookie) : WebRequest → Program
  | .auth r => program d cookie r
  | .totpStatus => Stepwise.totpStatus cookie
  | .guarded => Stepwise.guarded cookie
  | .deactivateUser userId => Stepwise.deactivateUser cookie userId
  | .reactivateUser userId => Stepwise.reactivateUser cookie userId
  | .resetPasswordLink userId => Stepwise.resetPasswordLink d cookie userId

/-- A request and the cookie it comes with. -/
structure WebCall where
  cookie : Cookie
  request : WebRequest

section Web

variable {T : Type}

abbrev WebEntry (T : Type) := Entry T AuthDb RequestWorld AuthStatement

/-- Any number of requests under way. -/
abbrev WebPool (T : Type) := Pool T AuthDb RequestWorld AuthStatement (Response × Cookie)

abbrev WebPool.step [DecidableEq T] (d : Deployment) (calls : T → WebCall) (p : WebPool T)
    (a : Act T RequestWorld) : Option (WebPool T) :=
  Pool.step AuthStatement.effect (fun t => webProgram d (calls t).cookie (calls t).request) p a

/-- The statement a thread is about to execute. -/
def WebPool.next (p : WebPool T) (t : T) : Option AuthStatement :=
  match p.threads t with
  | some (.step st _) => some st
  | _ => none

end Web

end OdooSemantic
