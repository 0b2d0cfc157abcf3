import OdooSemantic.Db.UserRegistry
import OdooSemantic.Lib.Threads
import OdooSemantic.Web.LoginRoutes

/-!
# The authentication requests, statement by statement

`handle` answers a request in one go. Where several requests are under way, other requests come
between one statement and the next, and a request goes on with what it has read. So here each
endpoint is a program (`Threads.Prog`) that takes one statement at a time; on its own it is the
endpoint of `handle` (`run_program`).

Requests of the administration come between as well; they are in `UserRoutes`.
-/

namespace OdooSemantic

open KeyedStore Threads

/-! ## Statements -/

/-- The endpoint that opens a session. -/
inductive SessionPath where
  | password
  | oauth
  | totp
  | email
deriving DecidableEq

/-- Who calls `revoke_all_sessions`. -/
inductive RevokedBy where
  | deactivation
  | passwordReset
deriving DecidableEq

/-- What a request does between two points where others may come in. -/
inductive AuthStatement where
  /-- `time.time()` -/
  | clock
  /-- `check_rate_limit` -/
  | checkRate
  | select (q : AuthQuery)
  /-- `_get_totp_row` -/
  | readTotp (userId : Nat)
  /-- `_resolve_user_id` of `totp.py`. -/
  | identify (cookie : Cookie)
  /-- The queries of the middleware. -/
  | admission (cookie : Cookie)
  /-- `_revoke_all_user_sessions` -/
  | rotateSessions (userId : Nat)
  | createSession (path : SessionPath) (userId : Nat)
  | revokeSession (sessionId : String)
  | revokeAllSessions (caller : RevokedBy) (userId : Nat)
  | upsertTotp (userId : Nat) (secretEncrypted : String)
  | enableTotp (userId : Nat) (codes : List BackupCode)
  | setMfa (userId : Nat) (enabled : Bool)
  | deleteTotp (userId : Nat)
  /-- The request has read `stored`; the statement does not ask for it. -/
  | updateBackupCodes (userId : Nat) (stored updated : List BackupCode)
  | mergeOauth (userId : Nat) (body : OAuthLoginBody)
  | createUser (body : OAuthLoginBody)
  | verifyEmail (token : String) (userId : Nat)
  | consumeToken (tokenHash : String)
  | updatePassword (username hash : String)
  | insertPassword (username hash : String)
  | createResetToken (userId : Nat) (tokenHash : String) (expiresAt : Nat)
  | setUserActive (userId : Nat) (isActive : Bool)

namespace AuthDb

variable (db : AuthDb)

/-- The second `INSERT` of `create_password_reset_token`; the first leaves the primary key `NULL`.
    `none` is a violation of the key. -/
def insertResetToken (userId : Nat) (tokenHash : String) (expiresAt : Nat) : Option AuthDb :=
  if tokenHash ∈ db.emailVerifications then none
  else
    let row : EmailVerification :=
      { userId, purpose := .passwordReset, tokenHash := some tokenHash, expiresAt }
    some { db with emailVerifications := db.emailVerifications.insert tokenHash row }

/-- `UPDATE webui_users SET password_hash = … WHERE username = …` -/
def updatePassword (username hash : String) : AuthDb :=
  match db.userByName username with
  | some (id, _) => db.updateUser id fun u => { u with passwordHash := some hash }
  | none => db

end AuthDb

/-- A statement that violates a constraint raises, whatever the connection does. -/
def RequestWorld.insert (w : RequestWorld) (q : AuthQuery) (db : AuthDb) :
    Option AuthDb → Bool × AuthDb
  | none => (false, db)
  | some db' => w.write q db db'

/-- The query of a statement that writes. -/
def AuthStatement.query : AuthStatement → Option AuthQuery
  | clock | checkRate | select _ | readTotp _ | identify _ | admission _ => none
  | rotateSessions _ | revokeSession _ | revokeAllSessions _ _ => some .revokeSessions
  | createSession _ _ => some .createSession
  | upsertTotp _ _ => some .upsertTotp
  | enableTotp _ _ => some .enableTotp
  | setMfa _ true => some .setMfa
  | setMfa _ false => some .clearMfa
  | deleteTotp _ => some .deleteTotp
  | updateBackupCodes _ _ _ => some .updateBackupCodes
  | mergeOauth _ _ => some .mergeOauth
  | createUser _ => some .createUser
  | verifyEmail _ _ => some .verifyCommit
  | consumeToken _ => some .consumeToken
  | updatePassword _ _ | insertPassword _ _ => some .setPassword
  | createResetToken _ _ _ => some .insertToken
  | setUserActive _ _ => some .setActive

/-- The tables behind the statement, if it takes effect; `none` where it cannot. -/
def AuthStatement.target (w : RequestWorld) (db : AuthDb) : AuthStatement → Option AuthDb
  | clock | checkRate | select _ | readTotp _ | identify _ | admission _ => some db
  | rotateSessions userId => some (db.deleteSessionsOf userId)
  | createSession _ userId =>
      db.insertSession w.sessionId { userId, expiresAt := w.now + 8 * 3600 }
  | revokeSession sessionId => some (db.deleteSession sessionId)
  | revokeAllSessions _ userId => some (db.deleteSessionsOf userId)
  | upsertTotp userId token => some (db.upsertTotpSecret userId token)
  | enableTotp userId codes => some (db.enableTotp userId codes)
  | setMfa userId enabled => some (db.setMfaEnabled userId enabled)
  | deleteTotp userId => some (db.deleteTotp userId)
  | updateBackupCodes userId _ updated => some (db.updateBackupCodes userId updated)
  | mergeOauth userId body => some (db.mergeOauth userId body)
  | createUser body => db.insertUser (body.newUser w)
  | verifyEmail token userId => some (db.verifyEmail w token userId)
  | consumeToken tokenHash => some (db.consumeToken tokenHash w.now)
  | updatePassword username hash => some (db.updatePassword username hash)
  | insertPassword username hash =>
      db.insertUser { username, passwordHash := some hash, createdAt := some w.now }
  | createResetToken userId tokenHash expiresAt =>
      db.insertResetToken userId tokenHash expiresAt
  | setUserActive userId isActive => db.setUserActive userId isActive

/-- Whether the request goes on, and the tables behind the statement. -/
def AuthStatement.exec (w : RequestWorld) (db : AuthDb) (st : AuthStatement) : Bool × AuthDb :=
  match st.query with
  | none => (true, db)
  | some q => w.insert q db (st.target w db)

def AuthStatement.effect (st : AuthStatement) (w : RequestWorld) (db : AuthDb) : AuthDb :=
  (st.exec w db).2

/-! ## Programs -/

/-- A request under way; it ends with a response and the cookie that goes with it. -/
abbrev Program := Prog AuthDb RequestWorld AuthStatement (Response × Cookie)

/-- Execute the statement; what comes next if it raises is the last argument. -/
def perform (st : AuthStatement) (next : RequestWorld → AuthDb → Program) (failed : Program) :
    Program :=
  .step st fun w db => if (st.exec w db).1 then next w db else failed

namespace Stepwise

variable (d : Deployment) (cookie : Cookie)

def reply (response : Response) : Program := .done (response, cookie)

/-- The end of the logins of `login.py`, `totp.py` and `signup.py`. -/
def openSession (path : SessionPath) (userId : Nat) (username : String) : Program :=
  perform (.createSession path userId)
    (fun w _ => .done (.loggedIn username,
      { cookie with
        sessionId := some w.sessionId, username := some username, userId := some userId
        sessionAt := some w.now }))
    (reply cookie (.failed 500 "internal_error"))

/-! ### `login.py` -/

def loginPost (body : LoginBody) : Program :=
  if body.password.length < 1 || 128 < body.password.length then
    reply cookie (.failed 422 "password")
  else if body.password.length < 12 then reply cookie (.failed 401 "invalid_credentials")
  else
    .step .checkRate fun w _ =>
      if w.rateLimited then
        reply cookie (.failed 429 "Too many failed login attempts; please wait before retrying")
      else
        .step (.select .lookupUser) fun w db =>
          match (w.read .lookupUser (db.userByName (PyText.strip body.username))).join with
          | none => reply cookie (.failed 401 "invalid_credentials")
          | some (userId, user) =>
              if passwordFits d user body.password && user.isActive && !d.isCommon body.password
              then
                .step (.select .checkTotp) fun w db =>
                  match checkTotpEnabled w db (PyText.strip body.username) with
                  | some mfaUserId =>
                      let token := d.createMfaToken mfaUserId (w.now + 300)
                      reply cookie (.mfaRequired token)
                  | none =>
                      .step (.rotateSessions userId) fun _ _ =>
                        openSession cookie .password userId (PyText.strip body.username)
              else reply cookie (.failed 401 "invalid_credentials")

def logout : Program :=
  match cookie.sessionId.filter (· ≠ "") with
  | none => reply {} .ok
  | some sessionId => .step (.revokeSession sessionId) fun _ _ => reply {} .ok

def setNewPassword (userId : Nat) (newPassword : String) : Program :=
  let failed := reply cookie (.failed 500 "internal_error")
  .step (.select .userRow) fun w db =>
    match d.hashPassword newPassword w.seed, w.read .userRow (db.users.lookup userId) with
    | some hash, some user =>
        let name := (user.map (·.username)).getD (PyText.str userId)
        let revoke :=
          perform (.revokeAllSessions .passwordReset userId) (fun _ _ => reply cookie .ok) failed
        .step (.select .userExists) fun w db =>
          match w.read .userExists (db.userByName name) with
          | none => failed
          | some (some _) => perform (.updatePassword name hash) (fun _ _ => revoke) failed
          | some none => perform (.insertPassword name hash) (fun _ _ => revoke) failed
    | _, _ => failed

/-- `consume_password_reset_token(raw_token)` -/
def consumeResetToken (token : String) (accepted : Nat → Program) : Program :=
  .step (.select .verification) fun w db =>
    match w.read .verification (db.resetToken (d.sha256 token)) with
    | none => reply cookie (.failed 500 "internal_error")
    | some none => reply cookie (.failed 404 "not_found")
    | some (some (_, row)) =>
        if row.usedAt.isSome then reply cookie (.failed 410 "used")
        else if row.expiresAt < w.now then reply cookie (.failed 410 "expired")
        else
          perform (.consumeToken (d.sha256 token)) (fun _ _ => accepted row.userId)
            (reply cookie (.failed 500 "internal_error"))

def resetPassword (token newPassword : String) : Program :=
  consumeResetToken d cookie token fun userId => setNewPassword d cookie userId newPassword

/-! ### `oauth.py` -/

/-- `oauth_login`, from the user on. -/
def oauthSession (userId : Nat) (user : WebuiUser) : Program :=
  if user.isActive then
    perform (.createSession .oauth userId)
      (fun w _ => .done (.loggedIn user.username,
        { cookie with
          sessionId := some w.sessionId, username := some user.username
          sessionAt := some w.now }))
      (reply cookie (.failed 500 "internal_error"))
  else reply cookie (.failed 403 "account_inactive")

def oauthLogin (body : OAuthLoginBody) : Program :=
  match body.validated d with
  | none => reply cookie (.failed 422 "body")
  | some body =>
      let failed := reply cookie (.failed 500 "internal_error")
      .step (.select .oauthUser) fun w db =>
        match (w.read .oauthUser (db.userByOauth body.provider body.oauthId)).join with
        | some (userId, user) => oauthSession cookie userId user
        | none =>
            .step (.select .emailUser) fun w db =>
              match (w.read .emailUser (db.userByEmail d.lower body.email)).join with
              | some (userId, user) =>
                  if body.emailVerified then
                    perform (.mergeOauth userId body) (fun _ _ => oauthSession cookie userId user)
                      failed
                  else reply cookie (.failed 409 "email_conflict")
              | none =>
                  perform (.createUser body)
                    (fun w db => oauthSession cookie db.nextUserId (body.newUser w)) failed

/-! ### `signup.py` -/

def verifyEmail (token : String) : Program :=
  let rawToken := PyText.strip token
  let tokenHash := d.sha256 rawToken
  let gone := reply cookie (.failed 410 "expired_or_invalid")
  if rawToken = "" then reply cookie (.failed 400 "Token required.")
  else
    .step (.select .verification) fun w db =>
      match w.read .verification ((db.emailVerifications.lookup tokenHash).filter
        (·.purpose = .emailVerify)) with
      | none => reply cookie .crashed
      | some none => gone
      | some (some row) =>
          if row.usedAt.isSome || row.expiresAt < w.now then gone
          else
            .step (.select .userRow) fun w db =>
              match w.read .userRow (db.users.lookup row.userId) with
              | none => reply cookie .crashed
              | some none => gone
              | some (some user) =>
                  perform (.verifyEmail tokenHash row.userId)
                    (fun _ _ => openSession cookie .email row.userId user.username)
                    (reply cookie .crashed)

/-! ### `totp.py` -/

def withSessionUser (go : Nat → Program) : Program :=
  match cookie.username.filter (· ≠ "") with
  | none => reply cookie (.failed 401 "not_authenticated")
  | some name =>
      .step (.identify cookie) fun w db =>
        match w.read .resolveUser (db.userByName name) with
        | none => reply cookie .crashed
        | some none => reply cookie (.failed 404 "user_not_found")
        | some (some (userId, _)) => go userId

def totpSetup : Program :=
  withSessionUser cookie fun userId =>
    .step .clock fun w _ =>
      match d.encryptSecret w.seed w.secret with
      | none => reply cookie .crashed
      | some token =>
          perform (.upsertTotp userId token) (fun _ _ => reply cookie (.enrolling w.secret))
            (reply cookie .crashed)

def totpVerify (code : String) : Program :=
  withSessionUser cookie fun userId =>
    .step (.readTotp userId) fun w db =>
      match w.read .totpRow (db.totpSecrets.lookup userId) with
      | none => reply cookie .crashed
      | some none => reply cookie (.failed 400 "totp_not_setup")
      | some (some row) =>
          match d.verifyCode row code w.now with
          | none => reply cookie .crashed
          | some false => reply cookie (.failed 400 "invalid_code")
          | some true =>
              perform (.enableTotp userId (w.backupCodes.map fun c => { hash := d.hmac c }))
                (fun _ _ =>
                  perform (.setMfa userId true) (fun _ _ => reply cookie (.enrolled w.backupCodes))
                    (reply cookie .crashed))
                (reply cookie .crashed)

def totpDisable (password code : String) : Program :=
  withSessionUser cookie fun userId =>
    .step (.select .passwordHash) fun w db =>
      match w.read .passwordHash (db.users.lookup userId) with
      | none => reply cookie .crashed
      | some user =>
          if (user.bind (·.passwordHash)).any (d.verifyPassword password) then
            .step (.readTotp userId) fun w db =>
              match w.read .totpRow (db.totpSecrets.lookup userId) with
              | none => reply cookie .crashed
              | some none => reply cookie (.failed 400 "totp_not_enabled")
              | some (some row) =>
                  if row.enabled then
                    match d.verifyCode row code w.now with
                    | none => reply cookie .crashed
                    | some false => reply cookie (.failed 400 "invalid_code")
                    | some true =>
                        perform (.deleteTotp userId)
                          (fun _ _ =>
                            perform (.setMfa userId false) (fun _ _ => reply cookie .ok)
                              (reply cookie .crashed))
                          (reply cookie .crashed)
                  else reply cookie (.failed 400 "totp_not_enabled")
          else reply cookie (.failed 401 "invalid_credentials")

/-- `totp_status(request)` -/
def totpStatus : Program :=
  withSessionUser cookie fun userId =>
    .step (.readTotp userId) fun w db =>
      match w.read .totpRow (db.totpSecrets.lookup userId) with
      | none => reply cookie .crashed
      | some row => reply cookie (.totpStatus (row.any (·.enabled)) row.isSome)

/-- The code or the backup code; `accepted` goes on with the session. -/
def secondFactor (body : MfaLoginBody) (userId : Nat) (w : RequestWorld) (row : TotpSecret)
    (accepted : Program) : Program :=
  match d.decryptSecret row.secretEncrypted with
  | none => reply cookie .crashed
  | some secret =>
      match body.code, body.backupCode with
      | some code, _ =>
          if d.totpValid secret (PyText.strip code) w.now then accepted
          else reply cookie (.failed 401 "invalid_code")
      | none, some backupCode =>
          match checkBackupCode (d.hmac (PyText.strip backupCode)) w.now row.backupCodesHash with
          | (false, _) => reply cookie (.failed 401 "invalid_backup_code")
          | (true, updated) =>
              perform (.updateBackupCodes userId row.backupCodesHash updated) (fun _ _ => accepted)
                (reply cookie .crashed)
      | none, none => reply cookie (.failed 400 "code_or_backup_code_required")

def totpLogin (body : MfaLoginBody) : Program :=
  .step .clock fun w _ =>
    match d.readMfaToken w.now body.mfaToken with
    | none => reply cookie (.failed 401 "invalid_mfa_token")
    | some (_, true) => reply cookie (.failed 401 "mfa_token_expired")
    | some (id, false) =>
        .step (.select .username) fun w db =>
          match w.read .username (db.userById id) with
          | none => reply cookie .crashed
          | some none => reply cookie (.failed 404 "user_not_found")
          | some (some user) =>
              .step (.readTotp id.toNat) fun w db =>
                match w.read .totpRow (db.totpSecrets.lookup id.toNat) with
                | none => reply cookie .crashed
                | some none => reply cookie (.failed 400 "totp_not_enabled")
                | some (some row) =>
                    if row.enabled then
                      secondFactor d cookie body id.toNat w row
                        (openSession cookie .totp id.toNat user.username)
                    else reply cookie (.failed 400 "totp_not_enabled")

end Stepwise

/-- A request of `handle`, statement by statement. -/
def program (d : Deployment) (cookie : Cookie) : AuthRequest → Program
  | .login body => Stepwise.loginPost d cookie body
  | .logout => Stepwise.logout cookie
  | .resetPassword token newPassword => Stepwise.resetPassword d cookie token newPassword
  | .oauthLogin body => Stepwise.oauthLogin d cookie body
  | .verifyEmail token => Stepwise.verifyEmail d cookie token
  | .totpSetup => Stepwise.totpSetup d cookie
  | .totpVerify code => Stepwise.totpVerify d cookie code
  | .totpDisable password code => Stepwise.totpDisable d cookie password code
  | .totpLogin body => Stepwise.totpLogin d cookie body

end OdooSemantic
