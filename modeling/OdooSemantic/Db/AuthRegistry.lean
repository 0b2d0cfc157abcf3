import Mathlib.Data.List.Sort
import OdooSemantic.Lib.KeyedStore

/-!
# The tables of `src/db/auth_registry.py`

Users and what belongs to them: second factors, sessions, keys. `ssh_key_pairs` is the table of
another page, but its private keys are encrypted under the same `FERNET_KEY` as the secrets of
the second factors.

A connection of the pool is in autocommit mode, so outside an explicit transaction every
statement is its own commit (`DbAnswer`).
-/

namespace OdooSemantic

open KeyedStore

/-- A row of `ssh_key_pairs`. -/
structure SshKeyPair where
  name : String
  publicKey : String
  privateKeyEncrypted : Option String
  keyVersion : Option Nat := some 1
deriving DecidableEq

/-- An element of `backup_codes_hash`; times are seconds. -/
structure BackupCode where
  hash : String
  usedAt : Option Nat := none
deriving DecidableEq

/-- A row of `totp_secrets`. -/
structure TotpSecret where
  secretEncrypted : String
  enabled : Bool := false
  backupCodesHash : List BackupCode := []
deriving DecidableEq

/-- A row of `key_rotation_log`. -/
structure KeyRotation where
  rotatedAt : Nat
  actor : String
  rowCount : Nat
  oldKeyId : String
  newKeyId : String
deriving DecidableEq

/-- A row of `webui_users`. Its key is the serial `id`; `username` is the primary key. -/
structure WebuiUser where
  username : String
  passwordHash : Option String := none
  isAdmin : Bool := false
  isActive : Bool := true
  email : Option String := none
  emailVerified : Bool := false
  oauthProvider : Option String := none
  oauthId : Option String := none
  mfaEnabled : Bool := false
  createdAt : Option Nat := none
deriving DecidableEq

/-- A row of `active_sessions`. -/
structure Session where
  userId : Nat
  expiresAt : Nat
deriving DecidableEq

inductive VerificationPurpose where
  | emailVerify
  | passwordReset
deriving DecidableEq

/-- A row of `email_verifications`. -/
structure EmailVerification where
  userId : Nat
  purpose : VerificationPurpose := .emailVerify
  tokenHash : Option String := none
  expiresAt : Nat
  usedAt : Option Nat := none
deriving DecidableEq

/-- A row of `api_keys`. -/
structure ApiKey where
  name : String
  keyHash : String := ""
  keyPrefix : String
  active : Bool := true
  userId : Option Nat := none
  expiresAt : Option Nat := none
deriving DecidableEq

structure AuthDb where
  users : Store Nat WebuiUser := ∅
  totpSecrets : Store Nat TotpSecret := ∅
  activeSessions : Store String Session := ∅
  /-- By `token`, which is a hash. -/
  emailVerifications : Store String EmailVerification := ∅
  apiKeys : Store Nat ApiKey := ∅
  sshKeyPairs : Store Nat SshKeyPair := ∅
  keyRotationLog : List KeyRotation := []

/-- What becomes of a statement, or of a commit. -/
inductive DbAnswer where
  | applied
  /-- It raises, and nothing has happened. -/
  | refused
  /-- It raises, but it has taken effect. -/
  | lost
deriving DecidableEq

/-- What is read, if the answer comes. -/
def DbAnswer.read {α : Type} (a : DbAnswer) (x : α) : Option α :=
  if a = applied then some x else none

theorem DbAnswer.of_read {α : Type} {a : DbAnswer} {x y : α} (h : a.read x = some y) : y = x := by
  unfold DbAnswer.read at h
  split at h
  · exact (Option.some.inj h).symm
  · exact absurd h (by simp)

/-- Whether the program goes on, and the tables behind the statement. -/
def DbAnswer.write {D : Type} (a : DbAnswer) (db db' : D) : Bool × D :=
  match a with
  | applied => (true, db')
  | refused => (false, db)
  | lost => (false, db')

/-- A column that is encrypted under `FERNET_KEY`. -/
inductive CipherColumn where
  | sshKey (id : Nat)
  | totpSecret (userId : Nat)
deriving DecidableEq

namespace AuthDb

/-- What is stored there. -/
def ciphertext (db : AuthDb) : CipherColumn → Option String
  | .sshKey id => (db.sshKeyPairs.lookup id).bind (·.privateKeyEncrypted)
  | .totpSecret userId => (db.totpSecrets.lookup userId).map (·.secretEncrypted)

/-- `SELECT id, private_key_encrypted … WHERE private_key_encrypted IS NOT NULL` -/
def encryptedSshKeys (db : AuthDb) : List (Nat × String) :=
  db.sshKeyPairs.keys.filterMap fun id => (db.ciphertext (.sshKey id)).map fun c => (id, c)

theorem mem_encryptedSshKeys {db : AuthDb} {id : Nat} {c : String} :
    (id, c) ∈ db.encryptedSshKeys ↔ db.ciphertext (.sshKey id) = some c := by
  unfold encryptedSshKeys
  rw [List.mem_filterMap]
  constructor
  · intro h
    obtain ⟨id', -, hmap⟩ := h
    obtain ⟨c', hc', heq⟩ := Option.map_eq_some_iff.mp hmap
    obtain ⟨rfl, rfl⟩ := Prod.mk.inj heq
    exact hc'
  · intro h
    obtain ⟨row, hrow, -⟩ := Option.bind_eq_some_iff.mp h
    have hmem : id ∈ db.sshKeyPairs := AList.lookup_isSome.mp (by rw [hrow]; rfl)
    exact ⟨id, AList.mem_keys.mp hmem, by rw [h]; rfl⟩

/-- Each key pair is selected once. -/
theorem nodup_encryptedSshKeys (db : AuthDb) : (db.encryptedSshKeys.map Prod.fst).Nodup := by
  have hsub : (db.encryptedSshKeys.map Prod.fst).Sublist db.sshKeyPairs.keys := by
    unfold encryptedSshKeys
    induction db.sshKeyPairs.keys with
    | nil => exact List.Sublist.slnil
    | cons id ids ih =>
      rw [List.filterMap_cons]
      cases db.ciphertext (.sshKey id) with
      | none => exact ih.cons id
      | some c => exact ih.cons_cons id
  exact hsub.nodup db.sshKeyPairs.keys_nodup

/-! ## Users -/

variable (db : AuthDb)

/-- `… FROM webui_users WHERE username = …` -/
def userByName (name : String) : Option (Nat × WebuiUser) :=
  findWhere (fun u => u.username = name) db.users

/-- `… WHERE oauth_provider = … AND oauth_id = …` -/
def userByOauth (provider oauthId : String) : Option (Nat × WebuiUser) :=
  findWhere (fun u => u.oauthProvider = some provider && u.oauthId = some oauthId) db.users

/-- `… WHERE lower(email) = lower(…)` -/
def userByEmail (lower : String → String) (email : String) : Option (Nat × WebuiUser) :=
  findWhere (fun u => u.email.map lower = some (lower email)) db.users

/-- The next `id`; a number that `totp_secrets` refers to has been handed out before. -/
def nextUserId : Nat := max (nextKey db.users) (nextKey db.totpSecrets)

/-- `INSERT INTO webui_users`; `none` is a violation of `UNIQUE`. -/
def insertUser (user : WebuiUser) : Option AuthDb :=
  if (db.userByName user.username).isSome then none
  else if user.email.isSome && (findWhere (fun u => u.email = user.email) db.users).isSome then none
  else some { db with users := db.users.insert db.nextUserId user }

/-- `UPDATE webui_users SET … WHERE id = …` -/
def updateUser (id : Nat) (f : WebuiUser → WebuiUser) : AuthDb :=
  { db with users := modify id f db.users }

/-- `SELECT … WHERE id = …`, for the integer of a token. -/
def userById (id : Int) : Option WebuiUser :=
  if id < 0 then none else db.users.lookup id.toNat

/-! ## Second factors -/

/-- `totp_secrets.enabled` -/
def totpEnabled (userId : Nat) : Bool := (db.totpSecrets.lookup userId).any (·.enabled)

/-- `webui_users.mfa_enabled` -/
def mfaEnabled (userId : Nat) : Bool := (db.users.lookup userId).any (·.mfaEnabled)

/-- `webui_users wu JOIN totp_secrets ts … WHERE wu.username = … AND ts.enabled = TRUE` -/
def enabledUser (name : String) : Option Nat :=
  db.users.keys.find? fun id =>
    (db.users.lookup id).any (·.username = name) && db.totpEnabled id

/-! ## Sessions -/

/-- `INSERT INTO active_sessions`; `none` is a violation of a constraint. -/
def insertSession (sessionId : String) (row : Session) : Option AuthDb :=
  if sessionId ∈ db.activeSessions then none
  else if row.userId ∈ db.users then
    some { db with activeSessions := db.activeSessions.insert sessionId row }
  else none

def deleteSession (sessionId : String) : AuthDb :=
  { db with activeSessions := db.activeSessions.erase sessionId }

/-- `DELETE FROM active_sessions WHERE user_id = …` -/
def deleteSessionsOf (userId : Nat) : AuthDb :=
  let isTheirs := fun sid => (db.activeSessions.lookup sid).any (·.userId = userId)
  { db with activeSessions := eraseWhere isTheirs db.activeSessions }

/-- `SELECT user_id … WHERE session_id = … AND expires_at > NOW()` -/
def sessionOwner (now : Nat) (sessionId : String) : Option Nat :=
  ((db.activeSessions.lookup sessionId).filter (now < ·.expiresAt)).map (·.userId)

/-! ## API keys -/

/-- `SELECT id FROM api_keys WHERE key_hash = … AND active = TRUE`, and not expired. -/
def activeKey (now : Nat) (keyHash : String) : Option Nat :=
  let fits : ApiKey → Bool :=
    fun key => key.keyHash = keyHash && key.active && key.expiresAt.all (now < ·)
  (findWhere fits db.apiKeys).map Prod.fst

/-- The `INSERT` of `create_api_key`, under the next number of the sequence; `none` is a
    violation of `UNIQUE`. -/
def insertApiKey (keyId : Nat) (row : ApiKey) : Option AuthDb :=
  if (findWhere (fun key => key.keyHash = row.keyHash) db.apiKeys).isSome then none
  else some { db with apiKeys := db.apiKeys.insert keyId row }

/-- What `ON DELETE CASCADE` leaves of the keys when a user is deleted. -/
def deleteKeysOf (userId : Nat) : AuthDb :=
  let isTheirs := fun keyId => (db.apiKeys.lookup keyId).any (·.userId = some userId)
  { db with apiKeys := eraseWhere isTheirs db.apiKeys }

/-- Whether the `WHERE` of a deactivation holds of the key. -/
def deactivates (owner : Option Nat) (keyId : Nat) : Bool :=
  (db.apiKeys.lookup keyId).any fun key => owner.all fun userId => key.userId = some userId

/-- `deactivate_api_key(key_id)`, or `deactivate_api_key_for_user(key_id, user_id)`. -/
def deactivateApiKey (owner : Option Nat) (keyId : Nat) : AuthDb :=
  if db.deactivates owner keyId then
    { db with apiKeys := modify keyId (fun key => { key with active := false }) db.apiKeys }
  else db

/-- `list_api_keys(user_id, admin)` -/
def listApiKeys (userId : Option Nat) (admin : Bool) : List (Nat × ApiKey) :=
  let all := (db.apiKeys.keys.insertionSort (· ≤ ·)).filterMap fun id =>
    (db.apiKeys.lookup id).map fun key => (id, key)
  match userId with
  | some uid => if admin then all else all.filter fun row => row.2.userId = some uid
  | none => all

end AuthDb

end OdooSemantic
