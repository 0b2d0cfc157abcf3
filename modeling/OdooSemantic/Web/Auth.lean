import Mathlib.Data.List.Basic
import OdooSemantic.Db.AuthRegistry
import OdooSemantic.Lib.Fernet
import OdooSemantic.Lib.PyText

/-!
# `src/web_ui/auth.py` and `src/web_ui/middleware.py` — who a request is

The session cookie is signed and otherwise the client's: it holds the name of a user, a user id
and a session id, each of them where some login has put it. The functions here turn a cookie into
a user. `current_user_id` reads the id, or looks the name up; none of them reads the session id. The
middleware, which lets a request through or not, reads the name and the session id.

What a request meets outside the program is in `RequestWorld`: the time, the answers of the
database, fresh random texts. What does not change from request to request is in `Deployment`.
A request of the test suite that bypasses authentication is not modelled.
-/

namespace OdooSemantic

open KeyedStore

/-! ## Surroundings -/

structure Deployment where
  /-- `verify_password(pw, hash_)` -/
  verifyPassword : String → String → Bool
  /-- `hash_password(pw)` under a salt; `none` if bcrypt raises. -/
  hashPassword : String → Nat → Option String
  /-- `_DUMMY_HASH` -/
  dummyHash : String
  /-- `password in _load_common_passwords()` -/
  isCommon : String → Bool
  fernet : Fernet
  /-- `_get_fernet()`; `none` if it raises. -/
  fernetKey : Option fernet.Key
  /-- `pyotp.TOTP(secret).verify(code, valid_window=1)` at a time. -/
  totpValid : String → String → Nat → Bool
  /-- `hmac.new(WEBUI_SESSION_SECRET, text, sha256).hexdigest()` -/
  hmac : String → String
  /-- `hashlib.sha256(text).hexdigest()` -/
  sha256 : String → String
  /-- `str.lower` -/
  lower : String → String
  /-- `str(expires_at)` -/
  floatText : Nat → String
  /-- `time.time() > float(text)`; `none` is a `ValueError`. -/
  expired : String → Nat → Option Bool

/-- The statements of the authentication routes. -/
inductive AuthQuery where
  | lookupUser
  | checkTotp
  | revokeSessions
  | createSession
  | resolveUser
  | totpRow
  | passwordHash
  | upsertTotp
  | enableTotp
  | setMfa
  | deleteTotp
  | clearMfa
  | username
  | updateBackupCodes
  | oauthUser
  | emailUser
  | mergeOauth
  | createUser
  | verification
  | verifyCommit
  | consumeToken
  | userRow
  | userExists
  | setPassword
  | resolveAdmin
  | isAdmin
  | listKeys
  | sessionRow
  | mfaEnforcement
  | insertToken
  | setActive
  | signupUser
  | signupEmail
  | insertSignup
  | insertVerification
deriving DecidableEq

structure RequestWorld where
  now : Nat
  answers : AuthQuery → DbAnswer := fun _ => .applied
  /-- `check_rate_limit(…)` -/
  rateLimited : Bool := false
  /-- `secrets.token_urlsafe(32)` -/
  sessionId : String
  /-- `pyotp.random_base32()` -/
  secret : String := ""
  /-- `[secrets.token_hex(8) for _ in range(BACKUP_CODE_COUNT)]` -/
  backupCodes : List String := []
  /-- `secrets.token_hex(4)` -/
  suffix : String := ""
  /-- `secrets.token_hex(32)` -/
  resetToken : String := ""
  /-- The salt of a hash, the initialisation vector of an encryption. -/
  seed : Nat := 0

/-- `request.session` -/
structure Cookie where
  sessionId : Option String := none
  username : Option String := none
  userId : Option Nat := none
  sessionAt : Option Nat := none
  /-- For `require_admin_with_fresh_mfa`. -/
  mfaVerifiedAt : Option Nat := none
deriving DecidableEq

inductive Response where
  | loggedIn (username : String)
  | mfaRequired (mfaToken : String)
  | enrolling (secret : String)
  | enrolled (backupCodes : List String)
  | totpStatus (enabled enrolled : Bool)
  | verificationEmailSent
  | ok
  | failed (status : Nat) (error : String)
  /-- An exception that nobody catches. -/
  | crashed
deriving DecidableEq

structure Reply where
  response : Response
  cookie : Cookie
  db : AuthDb

namespace RequestWorld

variable (w : RequestWorld)

/-- A query, if it is answered. -/
def read {α : Type} (q : AuthQuery) (x : α) : Option α := (w.answers q).read x

/-- A statement that writes, on a connection in autocommit mode. -/
def write (q : AuthQuery) (db db' : AuthDb) : Bool × AuthDb := (w.answers q).write db db'

/-- `_create_session(user_id, …)`, for eight hours; `login.py` and `oauth.py` have the same. -/
def createSession (userId : Nat) (db : AuthDb) : Bool × AuthDb :=
  match db.insertSession w.sessionId { userId, expiresAt := w.now + 8 * 3600 } with
  | none => (false, db)
  | some db' => w.write .createSession db db'

end RequestWorld

/-! ## Identity -/

section Identity

variable (w : RequestWorld) (cookie : Cookie) (db : AuthDb)

/-- `current_user_id(request)`; the query is the one of `get_user_id_by_username`. -/
def currentUserId (q : AuthQuery) : Option Nat :=
  match cookie.userId with
  | some uid => some uid
  | none =>
      match cookie.username with
      | none => none
      | some name =>
          if name = "" then none
          else ((w.read q (db.userByName name)).join).map Prod.fst

/-- `get_user_field(uid, "is_admin")`, false where there is no such user. -/
def AuthDb.isAdmin (uid : Nat) : Bool := (db.users.lookup uid).any (·.isAdmin)

/-- `is_admin_session(request)` -/
def isAdminSession : Bool :=
  match currentUserId w cookie db .resolveAdmin with
  | none => false
  | some uid => (w.read .isAdmin (db.isAdmin uid)).getD false

/-- `require_admin(request)`, or the `HTTPException`. -/
def requireAdmin : Except (Nat × String) Nat :=
  match currentUserId w cookie db .resolveUser with
  | none => .error (401, "Authentication required")
  | some uid =>
      match w.read .isAdmin (db.isAdmin uid) with
      | none => .error (500, "Failed to verify admin status")
      | some isAdmin => if isAdmin then .ok uid else .error (403, "Admin privilege required")

/-- `MFA_FRESHNESS_SECONDS` -/
def mfaFreshnessSeconds : Nat := 5 * 60

/-- `require_admin_with_fresh_mfa(request)` -/
def requireAdminWithFreshMfa : Except (Nat × String) Nat :=
  match requireAdmin w cookie db with
  | .error raised => .error raised
  | .ok uid =>
      match cookie.mfaVerifiedAt with
      | none => .error (403, "Fresh MFA required — MFA not enrolled or not recently verified")
      | some at' =>
          if w.now < at' || mfaFreshnessSeconds < w.now - at' then
            .error (403, "Fresh MFA required — re-verify within last 5 minutes")
          else .ok uid

/-! ## The middleware -/

/-- `_session_valid(request)` -/
def sessionValid : Bool :=
  cookie.username.any (· ≠ "") &&
    cookie.sessionAt.any fun at' => at' ≠ 0 && at' ≤ w.now && w.now < at' + 8 * 3600

/-- `_server_session_valid(session_id)`. The query catches its own exceptions, so it never comes
    to the branch that lets the request pass. -/
def serverSessionValid (sessionId : String) : Bool :=
  ((w.read .sessionRow (db.sessionOwner w.now sessionId)).join).isSome

/-- `_check_mfa_enforcement(username)` -/
def checkMfaEnforcement (name : String) : Bool :=
  match (w.read .mfaEnforcement (db.userByName name)).join with
  | none => false
  | some (id, user) =>
      user.isAdmin && !db.totpEnabled id &&
        user.createdAt.any fun created => created + 7 * 86400 ≤ w.now

/-- `AuthRequiredMiddleware.dispatch`: whether it calls the route, for a path that has no
    exemption. -/
def authRequired : Bool :=
  sessionValid w cookie &&
    (cookie.sessionId.filter (· ≠ "")).all (serverSessionValid w db) &&
      !cookie.username.any (checkMfaEnforcement w db)

/-! ## The listing of API keys -/

/-- `list_api_keys(request)` of `routes/api_keys.py`: the user is resolved, and once more for
    `is_admin_session`. A listing that fails shows no key. -/
def listApiKeysRoute : List (Nat × ApiKey) :=
  let uid := currentUserId w cookie db .resolveUser
  (w.read .listKeys (db.listApiKeys uid (isAdminSession w cookie db))).getD []

/-- `GET /api/api-keys`; a request that the middleware stops shows no key. -/
def getApiKeys : List (Nat × ApiKey) :=
  if authRequired w cookie db then listApiKeysRoute w cookie db else []

end Identity

end OdooSemantic
