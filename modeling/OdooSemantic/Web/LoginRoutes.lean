import OdooSemantic.Web.TotpRoutes

/-!
# The routes that log in and out

`login.py`, `oauth.py` and `verify_email` of `signup.py`. Each of the three has its own way to a
user, and each ends by making a session and writing the cookie; with `totp_login` that makes
four. Only the password login asks whether the user has a second factor, and a query that fails
counts as a no. Only the OAuth login leaves the `user_id` of the cookie alone.

`handle` puts the endpoints together.
-/

namespace OdooSemantic

open KeyedStore

/-! ## `login.py` -/

structure LoginBody where
  username : String
  password : String

section Login

variable (d : Deployment) (w : RequestWorld) (cookie : Cookie) (db : AuthDb)

/-- `hash_to_check`, and `verify_password` of it. -/
def passwordFits (user : WebuiUser) (password : String) : Bool :=
  d.verifyPassword password (user.passwordHash.getD d.dummyHash)

/-- `_check_totp_enabled(username)`: a failing query is a user without a second factor. -/
def checkTotpEnabled (name : String) : Option Nat :=
  (w.read .checkTotp (db.enabledUser name)).join

/-- `login_post(request, body)` -/
def loginPost (body : LoginBody) : Reply :=
  if body.password.length < 1 || 128 < body.password.length then
    ⟨.failed 422 "password", cookie, db⟩
  else if body.password.length < 12 then ⟨.failed 401 "invalid_credentials", cookie, db⟩
  else if w.rateLimited then
    ⟨.failed 429 "Too many failed login attempts; please wait before retrying", cookie, db⟩
  else
    let name := PyText.strip body.username
    match (w.read .lookupUser (db.userByName name)).join with
    | none => ⟨.failed 401 "invalid_credentials", cookie, db⟩
    | some (userId, user) =>
        if passwordFits d user body.password && user.isActive && !d.isCommon body.password then
          match checkTotpEnabled w db name with
          | some mfaUserId =>
              ⟨.mfaRequired (d.createMfaToken mfaUserId (w.now + 300)), cookie, db⟩
          | none =>
              -- session rotation; a failure is passed over
              let (_, db) := w.write .revokeSessions db (db.deleteSessionsOf userId)
              match w.createSession userId db with
              | (false, db) => ⟨.failed 500 "internal_error", cookie, db⟩
              | (true, db) =>
                  ⟨.loggedIn name,
                    { cookie with
                      sessionId := some w.sessionId, username := some name, userId := some userId
                      sessionAt := some w.now }, db⟩
        else ⟨.failed 401 "invalid_credentials", cookie, db⟩

/-- `logout(request)` -/
def logout : Reply :=
  match cookie.sessionId.filter (· ≠ "") with
  | none => ⟨.ok, {}, db⟩
  | some sessionId => ⟨.ok, {}, (w.write .revokeSessions db (db.deleteSession sessionId)).2⟩

end Login

/-! ## Resetting a password -/

namespace AuthDb

variable (db : AuthDb)

/-- The row of `consume_password_reset_token`. -/
def resetToken (tokenHash : String) : Option (String × EmailVerification) :=
  findWhere (fun v => v.tokenHash = some tokenHash && v.purpose = .passwordReset)
    db.emailVerifications

/-- `UPDATE email_verifications SET used_at = NOW() WHERE token_hash = …` -/
def consumeToken (tokenHash : String) (now : Nat) : AuthDb :=
  let use : EmailVerification → EmailVerification := fun v => { v with usedAt := some now }
  { db with
    emailVerifications := modifyWhere (·.tokenHash = some tokenHash) use db.emailVerifications }

def markUsed (token : String) (now : Nat) : AuthDb :=
  let use : EmailVerification → EmailVerification := fun v => { v with usedAt := some now }
  { db with emailVerifications := modify token use db.emailVerifications }

/-- `set_user_password(username, password_hash)`; `none` is a statement that raises whatever the
    answer is. -/
def setUserPassword (now : Nat) (name hash : String) : Option AuthDb :=
  match db.userByName name with
  | some (id, _) => some (db.updateUser id fun u => { u with passwordHash := some hash })
  | none =>
      db.insertUser { username := name, passwordHash := some hash, createdAt := some now }

end AuthDb

section Reset

variable (d : Deployment) (w : RequestWorld) (cookie : Cookie) (db : AuthDb)

/-- What follows the consumed token. -/
def setNewPassword (userId : Nat) (newPassword : String) : Reply :=
  let failed : AuthDb → Reply := fun db => ⟨.failed 500 "internal_error", cookie, db⟩
  match d.hashPassword newPassword w.seed, w.read .userRow (db.users.lookup userId) with
  | some hash, some user =>
      let name := (user.map (·.username)).getD (PyText.str userId)
      match w.read .userExists (db.setUserPassword w.now name hash) with
      | some (some db') =>
          match w.write .setPassword db db' with
          | (false, db) => failed db
          | (true, db) =>
              match w.write .revokeSessions db (db.deleteSessionsOf userId) with
              | (false, db) => failed db
              | (true, db) => ⟨.ok, cookie, db⟩
      | _ => failed db
  | _, _ => failed db

/-- `reset_password_consume(body, request)` -/
def resetPassword (token newPassword : String) : Reply :=
  match w.read .verification (db.resetToken (d.sha256 token)) with
  | none => ⟨.failed 500 "internal_error", cookie, db⟩
  | some none => ⟨.failed 404 "not_found", cookie, db⟩
  | some (some (_, row)) =>
      if row.usedAt.isSome then ⟨.failed 410 "used", cookie, db⟩
      else if row.expiresAt < w.now then ⟨.failed 410 "expired", cookie, db⟩
      else
        match w.write .consumeToken db (db.consumeToken (d.sha256 token) w.now) with
        | (false, db) => ⟨.failed 500 "internal_error", cookie, db⟩
        | (true, db) => setNewPassword d w cookie db row.userId newPassword

end Reset

/-! ## `oauth.py` -/

structure OAuthLoginBody where
  provider : String
  oauthId : String
  email : String
  emailVerified : Bool

section OAuth

variable (d : Deployment) (w : RequestWorld) (cookie : Cookie) (db : AuthDb)

/-- The validators of the body. -/
def OAuthLoginBody.validated (body : OAuthLoginBody) : Option OAuthLoginBody :=
  let oauthId := PyText.strip body.oauthId
  let email := d.lower (PyText.strip body.email)
  if (body.provider = "google" || body.provider = "github") && oauthId ≠ "" &&
      email.toList.contains '@' then
    some { body with oauthId, email }
  else none

/-- The row of `_create_oauth_user`; its `password_hash` is `NULL`. -/
def OAuthLoginBody.newUser (body : OAuthLoginBody) : WebuiUser where
  username := String.ofList ((body.email.toList.takeWhile (· ≠ '@')).take 40) ++ "_" ++ w.suffix
  oauthProvider := some body.provider
  oauthId := some body.oauthId
  email := some body.email
  emailVerified := body.emailVerified
  createdAt := some w.now

/-- `_merge_oauth_into_user(user_id, provider, oauth_id)` -/
def AuthDb.mergeOauth (userId : Nat) (body : OAuthLoginBody) : AuthDb :=
  db.updateUser userId fun u =>
    { u with oauthProvider := some body.provider, oauthId := some body.oauthId }

/-- The user of an OAuth login, whatever has to be written for that, or the answer. -/
def oauthUser (body : OAuthLoginBody) : Except Reply (Nat × WebuiUser × AuthDb) :=
  match (w.read .oauthUser (db.userByOauth body.provider body.oauthId)).join with
  | some (userId, user) => .ok (userId, user, db)
  | none =>
      match (w.read .emailUser (db.userByEmail d.lower body.email)).join with
      | some (userId, user) =>
          if body.emailVerified then
            match w.write .mergeOauth db (db.mergeOauth userId body) with
            | (true, db) => .ok (userId, user, db)
            | (false, db) => .error ⟨.failed 500 "internal_error", cookie, db⟩
          else .error ⟨.failed 409 "email_conflict", cookie, db⟩
      | none =>
          match db.insertUser (body.newUser w) with
          | none => .error ⟨.failed 500 "internal_error", cookie, db⟩
          | some db' =>
              match w.write .createUser db db' with
              | (true, db') => .ok (db.nextUserId, body.newUser w, db')
              | (false, db') => .error ⟨.failed 500 "internal_error", cookie, db'⟩

/-- `oauth_login(body, request)` -/
def oauthLogin (body : OAuthLoginBody) : Reply :=
  match body.validated d with
  | none => ⟨.failed 422 "body", cookie, db⟩
  | some body =>
      match oauthUser d w cookie db body with
      | .error reply => reply
      | .ok (userId, user, db) =>
          if user.isActive then
            match w.createSession userId db with
            | (false, db) => ⟨.failed 500 "internal_error", cookie, db⟩
            | (true, db) =>
                -- `user_id` stays what an earlier login has written
                ⟨.loggedIn user.username,
                  { cookie with
                    sessionId := some w.sessionId, username := some user.username
                    sessionAt := some w.now }, db⟩
          else ⟨.failed 403 "account_inactive", cookie, db⟩

end OAuth

/-! ## `verify_email` of `signup.py` -/

section VerifyEmail

variable (d : Deployment) (w : RequestWorld) (cookie : Cookie) (db : AuthDb)

/-- The transaction of `verify_email`. -/
def AuthDb.verifyEmail (token : String) (userId : Nat) : AuthDb :=
  (db.updateUser userId fun u => { u with emailVerified := true }).markUsed token w.now

/-- `verify_email(body, request)` -/
def verifyEmail (token : String) : Reply :=
  let rawToken := PyText.strip token
  let tokenHash := d.sha256 rawToken
  let gone : Reply := ⟨.failed 410 "expired_or_invalid", cookie, db⟩
  if rawToken = "" then ⟨.failed 400 "Token required.", cookie, db⟩
  else
    match w.read .verification ((db.emailVerifications.lookup tokenHash).filter
      (·.purpose = .emailVerify)) with
    | none => ⟨.crashed, cookie, db⟩
    | some none => gone
    | some (some row) =>
        if row.usedAt.isSome || row.expiresAt < w.now then gone
        else
          match w.read .userRow (db.users.lookup row.userId) with
          | none => ⟨.crashed, cookie, db⟩
          | some none => gone
          | some (some user) =>
              match w.write .verifyCommit db (db.verifyEmail w tokenHash row.userId) with
              | (false, db) => ⟨.crashed, cookie, db⟩
              | (true, db) => promote w cookie db row.userId user.username

end VerifyEmail

/-! ## The application -/

inductive AuthRequest where
  | login (body : LoginBody)
  | logout
  | resetPassword (token newPassword : String)
  | oauthLogin (body : OAuthLoginBody)
  | verifyEmail (token : String)
  | totpSetup
  | totpVerify (code : String)
  | totpDisable (password code : String)
  | totpLogin (body : MfaLoginBody)

structure AuthCall where
  world : RequestWorld
  cookie : Cookie
  request : AuthRequest

/-- What the application answers, and what it has done by then. -/
def handle (d : Deployment) (w : RequestWorld) (cookie : Cookie) (db : AuthDb) :
    AuthRequest → Reply
  | .login body => loginPost d w cookie db body
  | .logout => logout w cookie db
  | .resetPassword token newPassword => resetPassword d w cookie db token newPassword
  | .oauthLogin body => oauthLogin d w cookie db body
  | .verifyEmail token => verifyEmail d w cookie db token
  | .totpSetup => totpSetup d w cookie db
  | .totpVerify code => totpVerify d w cookie db code
  | .totpDisable password code => totpDisable d w cookie db password code
  | .totpLogin body => totpLogin d w cookie db body

end OdooSemantic
