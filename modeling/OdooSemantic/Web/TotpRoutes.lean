import OdooSemantic.Web.Auth

/-!
# `src/web_ui/routes/totp.py` — the second factor

A second factor is set up, verified, disabled, and asked for at a login. A set-up writes a row
that is not enabled, over whatever row there was; the first valid code enables it. Enabling and
disabling write two tables with two statements, and on a connection in autocommit mode the
`commit()` behind them binds nothing together.
-/

namespace OdooSemantic

open KeyedStore

structure MfaLoginBody where
  mfaToken : String
  code : Option String := none
  backupCode : Option String := none

/-! ## Secrets and codes -/

namespace Deployment

variable (d : Deployment)

/-- `_encrypt_secret(plaintext)` -/
def encryptSecret (seed : Nat) (plaintext : String) : Option String :=
  d.fernetKey.map fun k => d.fernet.encrypt k seed plaintext.toUTF8.toList

/-- `_decrypt_secret(ciphertext)` -/
def decryptSecret (ciphertext : String) : Option String :=
  d.fernetKey.bind fun k => (d.fernet.decrypt k ciphertext).bind fun data =>
    String.fromUTF8? ⟨data.toArray⟩

/-- The code fits the secret of the row; `none` where the secret cannot be decrypted. -/
def verifyCode (row : TotpSecret) (code : String) (now : Nat) : Option Bool :=
  (d.decryptSecret row.secretEncrypted).map fun secret => d.totpValid secret (PyText.strip code) now

/-- The payload of an `mfa_token`. -/
def mfaPayload (userId expiresAt : Nat) : String :=
  PyText.str userId ++ ":" ++ d.floatText expiresAt

/-- `create_mfa_token(user_id)` -/
def createMfaToken (userId expiresAt : Nat) : String :=
  d.mfaPayload userId expiresAt ++ "." ++ d.hmac (d.mfaPayload userId expiresAt)

/-- The user of an `mfa_token`, and whether it has expired. -/
def readMfaToken (now : Nat) (token : String) : Option (Int × Bool) :=
  let reversed := token.toList.reverse
  match reversed.dropWhile (· ≠ '.') with
  | [] => none
  | _ :: rest =>
      let payload := rest.reverse
      let sig := String.ofList (reversed.takeWhile (· ≠ '.')).reverse
      if sig ≠ d.hmac (String.ofList payload) then none
      else
        match payload.dropWhile (· ≠ ':') with
        | [] => none
        | _ :: expires =>
            (PyText.int (String.ofList (payload.takeWhile (· ≠ ':')))).bind fun userId =>
              (d.expired (String.ofList expires) now).map fun isExpired => (userId, isExpired)

end Deployment

/-- `_check_backup_code(code, stored)`: the first unused entry with this hash is marked. -/
def checkBackupCode (codeHash : String) (now : Nat) : List BackupCode → Bool × List BackupCode
  | [] => (false, [])
  | entry :: rest =>
      if entry.usedAt.isNone && entry.hash = codeHash then
        (true, { entry with usedAt := some now } :: rest)
      else
        let (found, updated) := checkBackupCode codeHash now rest
        (found, entry :: updated)

/-! ## Writes -/

namespace AuthDb

variable (db : AuthDb) (userId : Nat)

/-- `_upsert_totp_secret`: the row is not enabled, whatever it was. -/
def upsertTotpSecret (secretEncrypted : String) : AuthDb :=
  { db with totpSecrets := db.totpSecrets.insert userId { secretEncrypted } }

def enableTotp (codes : List BackupCode) : AuthDb :=
  let enable : TotpSecret → TotpSecret :=
    fun row => { row with enabled := true, backupCodesHash := codes }
  { db with totpSecrets := modify userId enable db.totpSecrets }

def setMfaEnabled (enabled : Bool) : AuthDb :=
  db.updateUser userId fun u => { u with mfaEnabled := enabled }

def deleteTotp : AuthDb := { db with totpSecrets := db.totpSecrets.erase userId }

/-- `_update_backup_codes` -/
def updateBackupCodes (codes : List BackupCode) : AuthDb :=
  let update : TotpSecret → TotpSecret := fun row => { row with backupCodesHash := codes }
  { db with totpSecrets := modify userId update db.totpSecrets }

end AuthDb

/-- Two statements, the second only if the first was answered. -/
def RequestWorld.writeTwice (w : RequestWorld) (q q' : AuthQuery) (f f' : AuthDb → AuthDb)
    (db : AuthDb) : Bool × AuthDb :=
  match w.write q db (f db) with
  | (false, db) => (false, db)
  | (true, db) => w.write q' db (f' db)

/-- `_enable_totp(user_id, …)` -/
def RequestWorld.enableTotp (w : RequestWorld) (userId : Nat) (codes : List BackupCode) :
    AuthDb → Bool × AuthDb :=
  w.writeTwice .enableTotp .setMfa (·.enableTotp userId codes) (·.setMfaEnabled userId true)

/-- `_delete_totp(user_id)` -/
def RequestWorld.deleteTotp (w : RequestWorld) (userId : Nat) : AuthDb → Bool × AuthDb :=
  w.writeTwice .deleteTotp .clearMfa (·.deleteTotp userId) (·.setMfaEnabled userId false)

/-! ## Endpoints -/

section Endpoints

variable (d : Deployment) (w : RequestWorld) (cookie : Cookie) (db : AuthDb)

/-- What the endpoints of a logged-in user begin with. -/
def withSessionUser (go : Nat → Reply) : Reply :=
  match cookie.username.filter (· ≠ "") with
  | none => ⟨.failed 401 "not_authenticated", cookie, db⟩
  | some name =>
      match w.read .resolveUser (db.userByName name) with
      | none => ⟨.crashed, cookie, db⟩
      | some none => ⟨.failed 404 "user_not_found", cookie, db⟩
      | some (some (userId, _)) => go userId

/-- `totp_setup(request)` -/
def totpSetup : Reply :=
  withSessionUser w cookie db fun userId =>
    match d.encryptSecret w.seed w.secret with
    | none => ⟨.crashed, cookie, db⟩
    | some token =>
        match w.write .upsertTotp db (db.upsertTotpSecret userId token) with
        | (true, db) => ⟨.enrolling w.secret, cookie, db⟩
        | (false, db) => ⟨.crashed, cookie, db⟩

/-- `totp_verify(body, request)` -/
def totpVerify (code : String) : Reply :=
  withSessionUser w cookie db fun userId =>
    match w.read .totpRow (db.totpSecrets.lookup userId) with
    | none => ⟨.crashed, cookie, db⟩
    | some none => ⟨.failed 400 "totp_not_setup", cookie, db⟩
    | some (some row) =>
        match d.verifyCode row code w.now with
        | none => ⟨.crashed, cookie, db⟩
        | some false => ⟨.failed 400 "invalid_code", cookie, db⟩
        | some true =>
            match w.enableTotp userId (w.backupCodes.map fun c => { hash := d.hmac c }) db with
            | (true, db) => ⟨.enrolled w.backupCodes, cookie, db⟩
            | (false, db) => ⟨.crashed, cookie, db⟩

/-- `totp_disable(body, request)` -/
def totpDisable (password code : String) : Reply :=
  withSessionUser w cookie db fun userId =>
    match w.read .passwordHash (db.users.lookup userId) with
    | none => ⟨.crashed, cookie, db⟩
    | some user =>
        -- a hash of `NULL` makes `verify_password` answer `False`
        if ((user.bind (·.passwordHash)).any (d.verifyPassword password)) then
          match w.read .totpRow (db.totpSecrets.lookup userId) with
          | none => ⟨.crashed, cookie, db⟩
          | some none => ⟨.failed 400 "totp_not_enabled", cookie, db⟩
          | some (some row) =>
              if row.enabled then
                match d.verifyCode row code w.now with
                | none => ⟨.crashed, cookie, db⟩
                | some false => ⟨.failed 400 "invalid_code", cookie, db⟩
                | some true =>
                    match w.deleteTotp userId db with
                    | (true, db) => ⟨.ok, cookie, db⟩
                    | (false, db) => ⟨.crashed, cookie, db⟩
              else ⟨.failed 400 "totp_not_enabled", cookie, db⟩
        else ⟨.failed 401 "invalid_credentials", cookie, db⟩

/-- The second half of `totp_login`: the session. -/
def promote (userId : Nat) (username : String) : Reply :=
  match w.createSession userId db with
  | (false, db) => ⟨.failed 500 "internal_error", cookie, db⟩
  | (true, db) =>
      ⟨.loggedIn username,
        { cookie with
          sessionId := some w.sessionId, username := some username, userId := some userId
          sessionAt := some w.now }, db⟩

/-- The code or the backup code of a `totp_login`: the tables behind it, or the answer. -/
def secondFactor (body : MfaLoginBody) (userId : Nat) (row : TotpSecret) :
    Except Reply AuthDb :=
  match d.decryptSecret row.secretEncrypted with
  | none => .error ⟨.crashed, cookie, db⟩
  | some secret =>
      match body.code, body.backupCode with
      | some code, _ =>
          if d.totpValid secret (PyText.strip code) w.now then .ok db
          else .error ⟨.failed 401 "invalid_code", cookie, db⟩
      | none, some backupCode =>
          match checkBackupCode (d.hmac (PyText.strip backupCode)) w.now row.backupCodesHash with
          | (false, _) => .error ⟨.failed 401 "invalid_backup_code", cookie, db⟩
          | (true, updated) =>
              match w.write .updateBackupCodes db (db.updateBackupCodes userId updated) with
              | (true, db) => .ok db
              | (false, db) => .error ⟨.crashed, cookie, db⟩
      | none, none => .error ⟨.failed 400 "code_or_backup_code_required", cookie, db⟩

/-- `totp_login(body, request)` -/
def totpLogin (body : MfaLoginBody) : Reply :=
  match d.readMfaToken w.now body.mfaToken with
  | none => ⟨.failed 401 "invalid_mfa_token", cookie, db⟩
  | some (_, true) => ⟨.failed 401 "mfa_token_expired", cookie, db⟩
  | some (id, false) =>
      match w.read .username (db.userById id) with
      | none => ⟨.crashed, cookie, db⟩
      | some none => ⟨.failed 404 "user_not_found", cookie, db⟩
      | some (some user) =>
          match w.read .totpRow (db.totpSecrets.lookup id.toNat) with
          | none => ⟨.crashed, cookie, db⟩
          | some none => ⟨.failed 400 "totp_not_enabled", cookie, db⟩
          | some (some row) =>
              if row.enabled then
                match secondFactor d w cookie db body id.toNat row with
                | .error reply => reply
                | .ok db => promote w cookie db id.toNat user.username
              else ⟨.failed 400 "totp_not_enabled", cookie, db⟩

end Endpoints

end OdooSemantic
