import Mathlib.Logic.Function.Basic
import OdooSemantic.Web.Signup
import OdooSemantic.Web.Statements

/-!
# `src/web_ui/routes/signup.py`, statement by statement

Calls of `register`, `verify_email` and `resend_verification` that are under way together, and what
the rest of the application does to the tables in the meantime.

`verify_email` reads the row of its token `FOR UPDATE`, and has it locked until its transaction
ends. `resend_verification` counts the rows of the last hour, and inserts one more; these are two
transactions, and nothing is locked between them.

On its own a call is the endpoint of `Signup` or `LoginRoutes` (`alone_register`, `alone_verify`).
-/

namespace OdooSemantic

open KeyedStore

/-! ## The tables -/

/-- The tables, and the column `created_at` of `email_verifications`. -/
structure SignupDb extends AuthDb where
  createdAt : String → Nat := fun _ => 0

namespace SignupDb

variable (db : SignupDb)

/-- `… FROM email_verifications WHERE token = … AND purpose = 'email_verify'` -/
def verification (tokenHash : String) : Option EmailVerification :=
  (db.emailVerifications.lookup tokenHash).filter (·.purpose = .emailVerify)

/-- `… FROM webui_users WHERE email = … AND email_verified = FALSE` -/
def unverified (email : String) : Option (Nat × WebuiUser) :=
  findWhere (fun u => u.email = some email && !u.emailVerified) db.users

/-- The row counts: `user_id = … AND purpose = 'email_verify'`, and it is not an hour old. -/
def counts (userId now : Nat) (tokenHash : String) : Bool :=
  (db.verification tokenHash).any (·.userId = userId) && now < db.createdAt tokenHash + 3600

/-- `SELECT COUNT(*) … AND created_at > NOW() - INTERVAL '1 hour'` -/
def tokensOfLastHour (userId now : Nat) : Nat :=
  (db.emailVerifications.keys.filter (db.counts userId now)).length

end SignupDb

/-! ## Calls -/

inductive SignupCall where
  | register (body : RegisterBody)
  | verifyEmail (token : String)
  | resendVerification (email : String)

/-- The queries that `resend_verification` has for itself. -/
inductive ResendQuery where
  | unverified
  | count

/-- What a call meets at one of its statements. -/
structure CallWorld extends SignupWorld where
  resend : ResendQuery → DbAnswer := fun _ => .applied

/-- Where a call is, with the variables it still needs. -/
inductive SignupPhase where
  | begun
  /-- `register`, behind the first `SELECT`. -/
  | nameRead (email username hash : String) (taken : Bool)
  | free (email username hash : String)
  /-- `verify_email`, with the row of its token locked; `now` is the variable of that name. -/
  | locked (row : EmailVerification) (now : Nat)
  | found (row : EmailVerification) (now : Nat) (username : String)
  | verified (userId : Nat) (username : String)
  /-- `resend_verification`, before it counts. -/
  | unverified (userId : Nat) (email : String)
  /-- What is left is the token and its mail; `since` is the `NOW()` of the statement before. -/
  | sending (userId : Nat) (email : String) (since : Nat) (response : Response)
  | done (response : Response)

inductive SignupEvent (T : Type) where
  | created (t : T) (userId : Nat) (email : String)
  /-- The row of a token has been inserted; the mail with the token goes to `email`. -/
  | made (t : T) (userId : Nat) (email tokenHash : String) (now : Nat)
  /-- `checked` is when the expiry was compared. -/
  | redeemed (t : T) (tokenHash : String) (userId checked : Nat)

structure SignupTxs (T : Type) where
  db : SignupDb
  /-- Who has the row of a token locked. -/
  locks : String → Option T := fun _ => none
  phase : T → SignupPhase := fun _ => .begun
  /-- Newest first. -/
  trace : List (SignupEvent T) := []

inductive SignupAct (T : Type) where
  /-- A call executes its next statement. -/
  | take (t : T) (w : CallWorld)
  /-- It is stopped; what it has not committed is rolled back. -/
  | stop (t : T)
  /-- A statement of any other request. -/
  | elsewhere (st : AuthStatement) (w : RequestWorld)

namespace SignupTxs

variable {T : Type} [DecidableEq T] (s : SignupTxs T) (t : T)

def become (phase : SignupPhase) : SignupTxs T :=
  { s with phase := Function.update s.phase t phase }

/-- Nobody else has the row locked; a statement that finds it locked waits. -/
def isFree (tokenHash : String) : Bool := (s.locks tokenHash).all (· = t)

def lock (tokenHash : String) : SignupTxs T :=
  { s with locks := Function.update s.locks tokenHash (some t) }

def release : SignupTxs T := { s with locks := fun key => (s.locks key).filter (· ≠ t) }

/-- The end of the call, and of a transaction that it is in. -/
def finish (response : Response) : SignupTxs T := (s.release t).become t (.done response)

def write (db : AuthDb) : SignupTxs T := { s with db := { s.db with toAuthDb := db } }

/-- `COMMIT`, and what comes next if it does not raise. -/
def commit (answer : DbAnswer) (committed : SignupTxs T) (next : SignupPhase) : SignupTxs T :=
  match answer with
  | .applied => (committed.release t).become t next
  | .refused => s.finish t .crashed
  | .lost => committed.finish t .crashed

/-! ### The token and the mail -/

variable (d : Deployment)

/-- The tables behind the `INSERT INTO email_verifications`. -/
def record (db : AuthDb) (userId : Nat) (email tokenHash : String) (now : Nat) : SignupTxs T :=
  { s.write db with
    db := ⟨db, Function.update s.db.createdAt tokenHash now⟩
    trace := .made t userId email tokenHash now :: s.trace }

/-- The end of `register` and of `resend_verification`. A mail that cannot be sent makes no
    difference to the response. -/
def makeToken (userId : Nat) (email : String) (response : Response) (w : CallWorld) :
    SignupTxs T :=
  let tokenHash := d.sha256 w.rawToken
  match s.db.insertVerification tokenHash
      { userId, purpose := .emailVerify, expiresAt := w.now + 24 * 3600 } with
  | none => s.finish t .crashed
  | some db =>
      s.commit t (w.answers .insertVerification) (s.record t db userId email tokenHash w.now)
        (.done response)

/-! ### `register` -/

/-- Up to the first `SELECT`. -/
def beginRegister (body : RegisterBody) (w : CallWorld) : SignupTxs T :=
  let email := d.lower (PyText.strip body.email)
  let username := PyText.strip body.username
  if email = "" || !email.toList.contains '@' then
    s.finish t (.failed 400 "Invalid email address.")
  else if username.length < 2 || 64 < username.length then
    s.finish t (.failed 400 "Username must be between 2 and 64 characters.")
  else if body.password ≠ body.confirmPassword then
    s.finish t (.failed 400 "Passwords do not match.")
  else
    match validatePassword d body.password with
    | some error => s.finish t (.failed 400 error)
    | none =>
        if w.verifyHcaptcha body.hcaptchaToken then
          match d.hashPassword body.password w.seed with
          | none => s.finish t .crashed
          | some hash =>
              match w.read .signupUser (s.db.userByName username).isSome with
              | none => s.finish t .crashed
              | some taken => s.become t (.nameRead email username hash taken)
        else s.finish t (.failed 400 "Captcha verification failed.")

/-- The second `SELECT`. -/
def readEmail (email username hash : String) (nameTaken : Bool) (w : CallWorld) : SignupTxs T :=
  match w.read .signupEmail (s.db.emailTaken email) with
  | none => s.finish t .crashed
  | some taken =>
      if nameTaken || taken then
        s.finish t (.failed 409
          "Email or username already registered. If this is yours, try logging in.")
      else s.become t (.free email username hash)

/-- The tables behind the `INSERT INTO webui_users`. -/
def recordUser (db : AuthDb) (userId : Nat) (email : String) : SignupTxs T :=
  { s.write db with trace := .created t userId email :: s.trace }

def createUser (email username hash : String) (w : CallWorld) : SignupTxs T :=
  match s.db.insertUser
      { username, passwordHash := some hash, email := some email, createdAt := some w.now } with
  | none => s.finish t .crashed
  | some db =>
      s.commit t (w.answers .insertSignup) (s.recordUser t db s.db.nextUserId email)
        (.sending s.db.nextUserId email w.now .verificationEmailSent)

/-! ### `verify_email` -/

/-- `SELECT … FOR UPDATE`, and the checks of the row. -/
def lockToken (token : String) (w : CallWorld) : Option (SignupTxs T) :=
  let rawToken := PyText.strip token
  let tokenHash := d.sha256 rawToken
  let gone := s.finish t (.failed 410 "expired_or_invalid")
  if rawToken = "" then some (s.finish t (.failed 400 "Token required."))
  else if (s.db.verification tokenHash).isSome && !s.isFree t tokenHash then none
  else
    match w.read .verification (s.db.verification tokenHash) with
    | none => some (s.finish t .crashed)
    | some none => some gone
    | some (some row) =>
        if row.usedAt.isSome || row.expiresAt < w.now then some gone
        else some ((s.lock t tokenHash).become t (.locked row w.now))

/-- `SELECT username FROM webui_users WHERE id = …` -/
def findUser (row : EmailVerification) (now : Nat) (w : CallWorld) : SignupTxs T :=
  match w.read .userRow (s.db.users.lookup row.userId) with
  | none => s.finish t .crashed
  | some none => s.finish t (.failed 410 "expired_or_invalid")
  | some (some user) => s.become t (.found row now user.username)

/-- The tables behind the two `UPDATE`s. -/
def redeem (tokenHash : String) (row : EmailVerification) (checked : Nat) (w : CallWorld) :
    SignupTxs T :=
  { s.write (s.db.verifyEmail w.toRequestWorld tokenHash row.userId) with
    trace := .redeemed t tokenHash row.userId checked :: s.trace }

/-- `_create_session`, and the response. -/
def logIn (userId : Nat) (username : String) (w : CallWorld) : SignupTxs T :=
  match w.createSession userId s.db.toAuthDb with
  | (false, db) => (s.write db).finish t (.failed 500 "internal_error")
  | (true, db) => (s.write db).finish t (.loggedIn username)

/-! ### `resend_verification` -/

def findUnverified (body : String) (w : CallWorld) : SignupTxs T :=
  let email := d.lower (PyText.strip body)
  if email = "" || !email.toList.contains '@' then
    s.finish t (.failed 400 "Invalid email address.")
  else
    match (w.resend .unverified).read (s.db.unverified email) with
    | none => s.finish t .crashed
    | some none => s.finish t .ok
    | some (some (userId, _)) => s.become t (.unverified userId email)

def countTokens (userId : Nat) (email : String) (w : CallWorld) : SignupTxs T :=
  match (w.resend .count).read (s.db.tokensOfLastHour userId w.now) with
  | none => s.finish t .crashed
  | some count =>
      if 3 ≤ count then
        s.finish t (.failed 429 "Too many verification emails sent. Try again later.")
      else s.become t (.sending userId email w.now .ok)

/-! ### Steps -/

variable (calls : T → SignupCall)

/-- The next statement of a call. -/
def next (w : CallWorld) : Option (SignupTxs T) :=
  match calls t, s.phase t with
  | .register body, .begun => some (s.beginRegister t d body w)
  | .register _, .nameRead email username hash taken =>
      some (s.readEmail t email username hash taken w)
  | .register _, .free email username hash => some (s.createUser t email username hash w)
  | .verifyEmail token, .begun => s.lockToken t d token w
  | .verifyEmail _, .locked row now => some (s.findUser t row now w)
  | .verifyEmail token, .found row now username =>
      some (s.commit t (w.answers .verifyCommit)
        (s.redeem t (d.sha256 (PyText.strip token)) row now w) (.verified row.userId username))
  | .verifyEmail _, .verified userId username => some (s.logIn t userId username w)
  | .resendVerification body, .begun => some (s.findUnverified t d body w)
  | .resendVerification _, .unverified userId email => some (s.countTokens t userId email w)
  | .register _, .sending userId email _ response
  | .resendVerification _, .sending userId email _ response =>
      some (s.makeToken t d userId email response w)
  | _, _ => none

/-- No row that the statement updates is locked. -/
def isUntouched : AuthStatement → Bool
  | .consumeToken tokenHash =>
      s.db.emailVerifications.keys.all fun key =>
        !(s.db.emailVerifications.lookup key).any (·.tokenHash = some tokenHash) ||
          (s.locks key).isNone
  -- the statement of `verify_email`, which is here
  | .verifyEmail _ _ => false
  | _ => true

def step (s : SignupTxs T) : SignupAct T → Option (SignupTxs T)
  | .take t w => s.next t d calls w
  | .stop t =>
      match s.phase t with
      | .done _ => none
      | _ => some (s.finish t .crashed)
  | .elsewhere st w =>
      if s.isUntouched st then some (s.write (st.effect w s.db.toAuthDb)) else none

end SignupTxs

end OdooSemantic
