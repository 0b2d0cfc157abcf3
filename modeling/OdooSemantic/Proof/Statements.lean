import OdooSemantic.Proof.AuthRequests
import OdooSemantic.Web.Statements

/-!
# What a statement does

First the programs on their own: a request that nobody interrupts is answered as `handle` answers
it (`run_program`), so the programs are the endpoints and not others.

Then the tables, one lemma each: which statements touch it, and how. A statement that raises may
have taken effect or not, and in what follows it makes no difference which.
-/

namespace OdooSemantic

open KeyedStore Threads

def Reply.outcome (r : Reply) : (Response × Cookie) × AuthDb := ((r.response, r.cookie), r.db)

section Alone

variable {d : Deployment} {w : RequestWorld} {cookie : Cookie} {db : AuthDb}

/-- A program on its own. -/
def Program.alone (p : Program) (w : RequestWorld) (db : AuthDb) : (Response × Cookie) × AuthDb :=
  Prog.run AuthStatement.effect w p db

@[simp] theorem alone_reply (response : Response) :
    Program.alone (Stepwise.reply cookie response) w db = ((response, cookie), db) := rfl

@[simp] theorem alone_done (a : Response × Cookie) : Program.alone (.done a) w db = (a, db) := rfl

@[simp] theorem alone_step (st : AuthStatement) (next : RequestWorld → AuthDb → Program) :
    Program.alone (.step st next) w db = (next w db).alone w (st.exec w db).2 := rfl

theorem alone_perform (st : AuthStatement) (next : RequestWorld → AuthDb → Program)
    (failed : Program) :
    (perform st next failed).alone w db =
      match st.exec w db with
      | (true, db') => (next w db).alone w db'
      | (false, db') => failed.alone w db' := by
  unfold perform
  rw [alone_step]
  generalize st.exec w db = r
  obtain ⟨b, db'⟩ := r
  cases b <;> rfl

/-- A statement that writes nothing. -/
theorem alone_read {st : AuthStatement} {next : RequestWorld → AuthDb → Program}
    (h : st.query = none) : Program.alone (.step st next) w db = (next w db).alone w db := by
  rw [alone_step]
  simp only [AuthStatement.exec, h]

/-- A statement that violates no constraint. -/
theorem alone_write {st : AuthStatement} {next : RequestWorld → AuthDb → Program}
    {failed : Program} {q : AuthQuery} {db' : AuthDb} (hq : st.query = some q)
    (hdb : st.target w db = some db') :
    (perform st next failed).alone w db =
      match w.write q db db' with
      | (true, db') => (next w db).alone w db'
      | (false, db') => failed.alone w db' := by
  rw [alone_perform]
  simp only [AuthStatement.exec, hq, hdb, RequestWorld.insert]

theorem exec_createSession (path : SessionPath) (userId : Nat) :
    (AuthStatement.createSession path userId).exec w db = w.createSession userId db := by
  unfold AuthStatement.exec RequestWorld.createSession
  dsimp only [AuthStatement.query, AuthStatement.target]
  cases db.insertSession w.sessionId { userId, expiresAt := w.now + 8 * 3600 } <;> rfl

theorem alone_openSession (path : SessionPath) (userId : Nat) (username : String) :
    (Stepwise.openSession cookie path userId username).alone w db =
      (promote w cookie db userId username).outcome := by
  unfold Stepwise.openSession promote
  rw [alone_perform, exec_createSession]
  rcases w.createSession userId db with ⟨_ | _, db'⟩ <;> rfl

theorem alone_loginPost (body : LoginBody) :
    (Stepwise.loginPost d cookie body).alone w db = (loginPost d w cookie db body).outcome := by
  unfold Stepwise.loginPost loginPost
  split
  · rfl
  split
  · rfl
  rw [alone_read rfl]
  split
  · rfl
  rw [alone_read rfl]
  dsimp only
  cases (w.read .lookupUser (db.userByName (PyText.strip body.username))).join with
  | none => rfl
  | some found =>
    obtain ⟨userId, user⟩ := found
    dsimp only
    split
    · rw [alone_read rfl]
      cases checkTotpEnabled w db (PyText.strip body.username) with
      | some mfaUserId => rfl
      | none =>
        dsimp only
        rw [alone_step, alone_openSession]
        rfl
    · rfl

theorem alone_logout : (Stepwise.logout cookie).alone w db = (logout w cookie db).outcome := by
  unfold Stepwise.logout logout
  cases cookie.sessionId.filter (· ≠ "") <;> rfl

/-- The end of a password reset. -/
theorem alone_revoke (userId : Nat) :
    (perform (.revokeAllSessions .passwordReset userId)
      (fun _ _ => Stepwise.reply cookie .ok)
      (Stepwise.reply cookie (.failed 500 "internal_error"))).alone w db =
      Reply.outcome (match w.write .revokeSessions db (db.deleteSessionsOf userId) with
        | (false, db) => ⟨.failed 500 "internal_error", cookie, db⟩
        | (true, db) => ⟨.ok, cookie, db⟩) := by
  rw [alone_write rfl rfl]
  rcases w.write .revokeSessions db _ with ⟨_ | _, db'⟩ <;> rfl

theorem alone_setNewPassword (userId : Nat) (newPassword : String) :
    (Stepwise.setNewPassword d cookie userId newPassword).alone w db =
      (setNewPassword d w cookie db userId newPassword).outcome := by
  unfold Stepwise.setNewPassword setNewPassword
  rw [alone_read rfl]
  cases d.hashPassword newPassword w.seed with
  | none => rfl
  | some hash =>
    cases w.read .userRow (db.users.lookup userId) with
    | none => rfl
    | some user =>
      dsimp only
      generalize (user.map (·.username)).getD (PyText.str userId) = name
      rw [alone_read rfl]
      unfold RequestWorld.read DbAnswer.read AuthDb.setUserPassword
      by_cases hread : w.answers .userExists = .applied
      · rw [if_pos hread, if_pos hread]
        cases hname : db.userByName name with
        | none =>
          dsimp only
          rw [alone_perform]
          dsimp only [AuthStatement.exec, AuthStatement.query, AuthStatement.target]
          cases db.insertUser _ with
          | none => rfl
          | some db' =>
            dsimp only [RequestWorld.insert]
            rcases w.write .setPassword db db' with ⟨_ | _, db''⟩
            · rfl
            · exact alone_revoke userId
        | some found =>
          dsimp only
          rw [alone_perform]
          dsimp only [AuthStatement.exec, AuthStatement.query, AuthStatement.target,
            RequestWorld.insert, AuthDb.updatePassword]
          rw [hname]
          dsimp only
          rcases w.write .setPassword db _ with ⟨_ | _, db''⟩
          · rfl
          · exact alone_revoke userId
      · rw [if_neg hread, if_neg hread]
        rfl

theorem alone_resetPassword (token newPassword : String) :
    (Stepwise.resetPassword d cookie token newPassword).alone w db =
      (resetPassword d w cookie db token newPassword).outcome := by
  unfold Stepwise.resetPassword Stepwise.consumeResetToken resetPassword
  rw [alone_read rfl]
  cases w.read .verification (db.resetToken (d.sha256 token)) with
  | none => rfl
  | some found =>
    cases found with
    | none => rfl
    | some found =>
      obtain ⟨key, row⟩ := found
      dsimp only
      split
      · rfl
      split
      · rfl
      · rw [alone_write rfl rfl]
        rcases w.write .consumeToken db (db.consumeToken (d.sha256 token) w.now) with ⟨_ | _, db'⟩
        · rfl
        · exact alone_setNewPassword row.userId newPassword

theorem alone_oauthSession (userId : Nat) (user : WebuiUser) :
    (Stepwise.oauthSession cookie userId user).alone w db =
      Reply.outcome (if user.isActive then
        match w.createSession userId db with
        | (false, db) => ⟨.failed 500 "internal_error", cookie, db⟩
        | (true, db) =>
            ⟨.loggedIn user.username,
              { cookie with
                sessionId := some w.sessionId, username := some user.username
                sessionAt := some w.now }, db⟩
      else ⟨.failed 403 "account_inactive", cookie, db⟩) := by
  unfold Stepwise.oauthSession
  split
  · rw [alone_perform, exec_createSession]
    rcases w.createSession userId db with ⟨_ | _, db'⟩ <;> rfl
  · rfl

theorem alone_oauthLogin (body : OAuthLoginBody) :
    (Stepwise.oauthLogin d cookie body).alone w db = (oauthLogin d w cookie db body).outcome := by
  unfold Stepwise.oauthLogin oauthLogin
  cases body.validated d with
  | none => rfl
  | some body =>
    dsimp only
    rw [alone_step]
    unfold oauthUser
    dsimp only [AuthStatement.exec, AuthStatement.query, AuthStatement.target, RequestWorld.insert]
    cases (w.read .oauthUser (db.userByOauth body.provider body.oauthId)).join with
    | some found => exact alone_oauthSession found.1 found.2
    | none =>
      dsimp only
      rw [alone_read rfl]
      cases (w.read .emailUser (db.userByEmail d.lower body.email)).join with
      | some found =>
        dsimp only
        split
        · rw [alone_write rfl rfl]
          rcases w.write .mergeOauth db (db.mergeOauth found.1 body) with ⟨_ | _, db'⟩
          · rfl
          · exact alone_oauthSession found.1 found.2
        · rfl
      | none =>
        dsimp only
        rw [alone_perform]
        dsimp only [AuthStatement.exec, AuthStatement.query, AuthStatement.target]
        cases db.insertUser (body.newUser w) with
        | none => rfl
        | some db' =>
          dsimp only [RequestWorld.insert]
          rcases w.write .createUser db db' with ⟨_ | _, db''⟩
          · rfl
          · exact alone_oauthSession db.nextUserId (body.newUser w)

theorem alone_verifyEmail (token : String) :
    (Stepwise.verifyEmail d cookie token).alone w db =
      (verifyEmail d w cookie db token).outcome := by
  unfold Stepwise.verifyEmail verifyEmail
  dsimp only
  split
  · rfl
  rw [alone_read rfl]
  generalize w.read .verification _ = found
  rcases found with _ | _ | row
  · rfl
  · rfl
  dsimp only
  split
  · rfl
  rw [alone_read rfl]
  rcases w.read .userRow (db.users.lookup row.userId) with _ | _ | user
  · rfl
  · rfl
  dsimp only
  rw [alone_write rfl rfl]
  rcases w.write .verifyCommit db _ with ⟨_ | _, db'⟩
  · rfl
  · exact alone_openSession .email row.userId user.username

theorem alone_withSessionUser {go : Nat → Program} {go' : Nat → Reply}
    (h : ∀ userId, (go userId).alone w db = (go' userId).outcome) :
    (Stepwise.withSessionUser cookie go).alone w db =
      (withSessionUser w cookie db go').outcome := by
  unfold Stepwise.withSessionUser withSessionUser
  cases cookie.username.filter (· ≠ "") with
  | none => rfl
  | some name =>
    dsimp only
    rw [alone_read rfl]
    rcases w.read .resolveUser (db.userByName name) with _ | _ | ⟨userId, user⟩
    · rfl
    · rfl
    · exact h userId

theorem alone_totpSetup :
    (Stepwise.totpSetup d cookie).alone w db = (totpSetup d w cookie db).outcome := by
  refine alone_withSessionUser fun userId => ?_
  rw [alone_read rfl]
  cases d.encryptSecret w.seed w.secret with
  | none => rfl
  | some token =>
    dsimp only
    rw [alone_write rfl rfl]
    rcases w.write .upsertTotp db (db.upsertTotpSecret userId token) with ⟨_ | _, db'⟩ <;> rfl

/-- Two statements in a row, as `writeTwice` has them. -/
theorem alone_totpVerify (code : String) :
    (Stepwise.totpVerify d cookie code).alone w db = (totpVerify d w cookie db code).outcome := by
  refine alone_withSessionUser fun userId => ?_
  rw [alone_read rfl]
  rcases w.read .totpRow (db.totpSecrets.lookup userId) with _ | _ | row
  · rfl
  · rfl
  dsimp only
  rcases d.verifyCode row code w.now with _ | _ | _
  · rfl
  · rfl
  dsimp only
  rw [alone_perform]
  unfold RequestWorld.enableTotp RequestWorld.writeTwice
  dsimp only [AuthStatement.exec, AuthStatement.query, AuthStatement.target, RequestWorld.insert]
  rcases w.write .enableTotp db _ with ⟨_ | _, db'⟩
  · rfl
  dsimp only
  rw [alone_write rfl rfl]
  rcases w.write .setMfa db' _ with ⟨_ | _, db''⟩ <;> rfl

theorem alone_totpDisable (password code : String) :
    (Stepwise.totpDisable d cookie password code).alone w db =
      (totpDisable d w cookie db password code).outcome := by
  refine alone_withSessionUser fun userId => ?_
  rw [alone_read rfl]
  cases w.read .passwordHash (db.users.lookup userId) with
  | none => rfl
  | some user =>
    dsimp only
    split
    · rw [alone_read rfl]
      rcases w.read .totpRow (db.totpSecrets.lookup userId) with _ | _ | row
      · rfl
      · rfl
      dsimp only
      split
      · rcases d.verifyCode row code w.now with _ | _ | _
        · rfl
        · rfl
        dsimp only
        rw [alone_perform]
        unfold RequestWorld.deleteTotp RequestWorld.writeTwice
        dsimp only [AuthStatement.exec, AuthStatement.query, AuthStatement.target,
          RequestWorld.insert]
        rcases w.write .deleteTotp db _ with ⟨_ | _, db'⟩
        · rfl
        dsimp only
        rw [alone_write rfl rfl]
        rcases w.write .clearMfa db' _ with ⟨_ | _, db''⟩ <;> rfl
      · rfl
    · rfl

/-- A `totp_login` from the codes on. -/
theorem alone_secondFactor (body : MfaLoginBody) (userId : Nat) (row : TotpSecret)
    (username : String) :
    (Stepwise.secondFactor d cookie body userId w row
      (Stepwise.openSession cookie .totp userId username)).alone w db =
      Reply.outcome (match secondFactor d w cookie db body userId row with
        | .error reply => reply
        | .ok db => promote w cookie db userId username) := by
  unfold Stepwise.secondFactor secondFactor
  cases d.decryptSecret row.secretEncrypted with
  | none => rfl
  | some secret =>
    dsimp only
    cases body.code with
    | some code =>
      dsimp only
      split
      · exact alone_openSession .totp userId username
      · rfl
    | none =>
      cases body.backupCode with
      | none => rfl
      | some backupCode =>
        dsimp only
        rcases checkBackupCode (d.hmac (PyText.strip backupCode)) w.now row.backupCodesHash with
          ⟨_ | _, updated⟩
        · rfl
        dsimp only
        rw [alone_write rfl rfl]
        rcases w.write .updateBackupCodes db _ with ⟨_ | _, db'⟩
        · rfl
        · exact alone_openSession .totp userId username

theorem alone_totpLogin (body : MfaLoginBody) :
    (Stepwise.totpLogin d cookie body).alone w db = (totpLogin d w cookie db body).outcome := by
  unfold Stepwise.totpLogin totpLogin
  rw [alone_read rfl]
  rcases d.readMfaToken w.now body.mfaToken with _ | ⟨id, _ | _⟩
  · rfl
  · dsimp only
    rw [alone_read rfl]
    rcases w.read .username (db.userById id) with _ | _ | user
    · rfl
    · rfl
    dsimp only
    rw [alone_read rfl]
    rcases w.read .totpRow (db.totpSecrets.lookup id.toNat) with _ | _ | row
    · rfl
    · rfl
    dsimp only
    split
    · exact alone_secondFactor body id.toNat row user.username
    · rfl
  · rfl

/-- **A request that nobody interrupts is answered as `handle` answers it.** -/
theorem run_program (d : Deployment) (w : RequestWorld) (cookie : Cookie) (db : AuthDb)
    (r : AuthRequest) :
    (program d cookie r).alone w db = (handle d w cookie db r).outcome := by
  cases r with
  | login body => exact alone_loginPost body
  | logout => exact alone_logout
  | resetPassword token newPassword => exact alone_resetPassword token newPassword
  | oauthLogin body => exact alone_oauthLogin body
  | verifyEmail token => exact alone_verifyEmail token
  | totpSetup => exact alone_totpSetup
  | totpVerify code => exact alone_totpVerify code
  | totpDisable password code => exact alone_totpDisable password code
  | totpLogin body => exact alone_totpLogin body

end Alone

/-! ## One statement -/

section Effect

variable {w : RequestWorld} {db : AuthDb} {st : AuthStatement}

/-- A statement takes effect, or does nothing. -/
theorem effect_cases (st : AuthStatement) (w : RequestWorld) (db : AuthDb) :
    st.effect w db = db ∨ st.target w db = some (st.effect w db) := by
  unfold AuthStatement.effect AuthStatement.exec
  cases hq : st.query with
  | none => exact Or.inl rfl
  | some q =>
    cases ht : st.target w db with
    | none => exact Or.inl rfl
    | some db' =>
      cases snd_write (w.answers q) db db' with
      | inl h => exact Or.inl h
      | inr h => exact Or.inr (congrArg some h.symm)

/-- A statement that does not raise has taken effect. -/
theorem target_of_exec {q : AuthQuery} (hq : st.query = some q) (h : (st.exec w db).1 = true) :
    w.answers q = .applied ∧ st.target w db = some (st.effect w db) := by
  unfold AuthStatement.effect
  unfold AuthStatement.exec at h ⊢
  rw [hq] at h ⊢
  cases ht : st.target w db with
  | none => simp [ht, RequestWorld.insert] at h
  | some db' =>
    rw [ht] at h
    dsimp only [RequestWorld.insert, RequestWorld.write] at h ⊢
    cases hanswer : w.answers q with
    | applied => exact ⟨rfl, rfl⟩
    | refused => simp [hanswer, DbAnswer.write] at h
    | lost => simp [hanswer, DbAnswer.write] at h

/-- A statement that is refused does nothing. -/
theorem effect_refused {q : AuthQuery} (hq : st.query = some q) (h : w.answers q = .refused) :
    st.effect w db = db := by
  unfold AuthStatement.effect AuthStatement.exec
  rw [hq]
  cases st.target w db with
  | none => rfl
  | some db' => simp [RequestWorld.insert, RequestWorld.write, h, DbAnswer.write]

theorem of_insertUser {user : WebuiUser} {db' : AuthDb} (h : db.insertUser user = some db') :
    db' = { db with users := db.users.insert db.nextUserId user } := by
  unfold AuthDb.insertUser at h
  split at h
  · exact absurd h (by simp)
  split at h
  · exact absurd h (by simp)
  · exact (Option.some.inj h).symm

theorem of_insertSession {sid : String} {row : Session} {db' : AuthDb}
    (h : db.insertSession sid row = some db') :
    row.userId ∈ db.users ∧
      db' = { db with activeSessions := db.activeSessions.insert sid row } := by
  unfold AuthDb.insertSession at h
  split at h
  · exact absurd h (by simp)
  split at h
  · exact ⟨‹_›, (Option.some.inj h).symm⟩
  · exact absurd h (by simp)

theorem of_insertResetToken {userId expiresAt : Nat} {tokenHash : String} {db' : AuthDb}
    (h : db.insertResetToken userId tokenHash expiresAt = some db') :
    tokenHash ∉ db.emailVerifications ∧ db' = { db with
      emailVerifications := db.emailVerifications.insert tokenHash
        { userId, purpose := .passwordReset, tokenHash := some tokenHash, expiresAt } } := by
  unfold AuthDb.insertResetToken at h
  split at h
  · exact absurd h (by simp)
  · exact ⟨‹_›, (Option.some.inj h).symm⟩

theorem of_setUserActive {userId : Nat} {isActive : Bool} {db' : AuthDb}
    (h : db.setUserActive userId isActive = some db') : db' = db.updateActive userId isActive := by
  unfold AuthDb.setUserActive at h
  split at h
  · exact absurd h (by simp)
  · exact (Option.some.inj h).symm

theorem updatePassword_cases (username hash : String) :
    db.updatePassword username hash = db ∨ ∃ id, db.updatePassword username hash =
      db.updateUser id fun u => { u with passwordHash := some hash } := by
  unfold AuthDb.updatePassword
  split
  · exact Or.inr ⟨_, rfl⟩
  · exact Or.inl rfl

/-- What a statement does to the tokens. -/
inductive TokenEffect (w : RequestWorld) (db : AuthDb) : AuthStatement → AuthDb → Prop
  | none {st : AuthStatement} {db' : AuthDb}
      (h : db'.emailVerifications = db.emailVerifications) : TokenEffect w db st db'
  | verify {token : String} {userId : Nat} {db' : AuthDb}
      (h : db'.emailVerifications = (db.markUsed token w.now).emailVerifications) :
      TokenEffect w db (.verifyEmail token userId) db'
  | consume {tokenHash : String} {db' : AuthDb}
      (h : db'.emailVerifications = (db.consumeToken tokenHash w.now).emailVerifications) :
      TokenEffect w db (.consumeToken tokenHash) db'
  | create {userId expiresAt : Nat} {tokenHash : String} {db' : AuthDb}
      (h : db.insertResetToken userId tokenHash expiresAt = some db') :
      TokenEffect w db (.createResetToken userId tokenHash expiresAt) db'

theorem tokenEffect (st : AuthStatement) (w : RequestWorld) (db : AuthDb) :
    TokenEffect w db st (st.effect w db) := by
  cases effect_cases st w db with
  | inl h => exact .none (congrArg _ h)
  | inr h =>
    generalize st.effect w db = db' at h
    cases st with
    | verifyEmail token userId => exact .verify (Option.some.inj h ▸ rfl)
    | consumeToken tokenHash => exact .consume (Option.some.inj h ▸ rfl)
    | createResetToken userId tokenHash expiresAt => exact .create h
    | createSession path userId => exact .none (by rw [(of_insertSession h).2])
    | createUser body => exact .none (by rw [of_insertUser h])
    | insertPassword username hash => exact .none (by rw [of_insertUser h])
    | setUserActive userId isActive => exact .none (by rw [of_setUserActive h]; rfl)
    | updatePassword username hash =>
      obtain rfl := Option.some.inj h
      cases updatePassword_cases username hash with
      | inl heq => exact .none (by rw [heq])
      | inr hid =>
        obtain ⟨id, heq⟩ := hid
        exact .none (by rw [heq]; rfl)
    | _ => exact .none (Option.some.inj h ▸ rfl)

/-- The statements of an enrolment. -/
def AuthStatement.enrols : AuthStatement → Bool
  | upsertTotp _ _ | enableTotp _ _ | deleteTotp _ => true
  | _ => false

/-- What a statement does to the second factors. -/
inductive TotpEffect (db : AuthDb) : AuthStatement → AuthDb → Prop
  | none {st : AuthStatement} {db' : AuthDb} (h : db'.totpSecrets = db.totpSecrets) :
      TotpEffect db st db'
  | codes {userId : Nat} {stored updated : List BackupCode} {db' : AuthDb}
      (h : db'.totpSecrets = (db.updateBackupCodes userId updated).totpSecrets) :
      TotpEffect db (.updateBackupCodes userId stored updated) db'
  | enrols {st : AuthStatement} {db' : AuthDb} (h : st.enrols = true) : TotpEffect db st db'

theorem totpEffect (st : AuthStatement) (w : RequestWorld) (db : AuthDb) :
    TotpEffect db st (st.effect w db) := by
  cases effect_cases st w db with
  | inl h => exact .none (congrArg _ h)
  | inr h =>
    generalize st.effect w db = db' at h
    cases st with
    | upsertTotp userId token => exact .enrols rfl
    | enableTotp userId codes => exact .enrols rfl
    | deleteTotp userId => exact .enrols rfl
    | updateBackupCodes userId stored updated => exact .codes (Option.some.inj h ▸ rfl)
    | createSession path userId => exact .none (by rw [(of_insertSession h).2])
    | createUser body => exact .none (by rw [of_insertUser h])
    | insertPassword username hash => exact .none (by rw [of_insertUser h])
    | createResetToken userId tokenHash expiresAt => exact .none (by rw [(of_insertResetToken h).2])
    | setUserActive userId isActive => exact .none (by rw [of_setUserActive h]; rfl)
    | updatePassword username hash =>
      obtain rfl := Option.some.inj h
      cases updatePassword_cases username hash with
      | inl heq => exact .none (by rw [heq])
      | inr hid =>
        obtain ⟨id, heq⟩ := hid
        exact .none (by rw [heq]; rfl)
    | _ => exact .none (Option.some.inj h ▸ rfl)

/-- A session that was not there is one that the statement opens. -/
theorem keepsAccounts_effect (st : AuthStatement) (w : RequestWorld) (db : AuthDb) :
    KeepsAccounts db (st.effect w db)
      fun sid userId => sid = w.sessionId ∧ ∃ path, st = .createSession path userId := by
  cases effect_cases st w db with
  | inl h =>
    rw [h]
    exact (Keeps.refl db _).toKeepsAccounts
  | inr h =>
    generalize st.effect w db = db' at h
    cases st with
    | rotateSessions userId =>
      exact Option.some.inj h ▸ (keeps_deleteSessionsOf userId).toKeepsAccounts
    | revokeSession sid => exact Option.some.inj h ▸ (keeps_deleteSession sid).toKeepsAccounts
    | revokeAllSessions caller userId =>
      exact Option.some.inj h ▸ (keeps_deleteSessionsOf userId).toKeepsAccounts
    | setMfa userId enabled =>
      exact Option.some.inj h ▸ keepsAccounts_updateUser userId fun _ => rfl
    | mergeOauth userId body =>
      exact Option.some.inj h ▸ keepsAccounts_updateUser userId fun _ => rfl
    | verifyEmail token userId =>
      exact Option.some.inj h ▸ (keeps_verified token userId).toKeepsAccounts
    | consumeToken tokenHash => exact Option.some.inj h ▸ keeps_of_tokens.toKeepsAccounts
    | createResetToken userId tokenHash expiresAt =>
      rw [(of_insertResetToken h).2]
      exact keeps_of_tokens.toKeepsAccounts
    | createSession path userId =>
      obtain ⟨-, rfl⟩ := of_insertSession h
      refine ⟨fun _ user huser => ⟨user, huser, rfl⟩, id, fun sid row hrow => ?_⟩
      dsimp only at hrow
      by_cases heq : sid = w.sessionId
      · subst heq
        rw [AList.lookup_insert] at hrow
        exact Or.inr ⟨rfl, path, Option.some.inj hrow ▸ rfl⟩
      · rw [AList.lookup_insert_ne heq] at hrow
        exact Or.inl hrow
    | createUser body => exact (keeps_insertUser rfl h).toKeepsAccounts
    | insertPassword username hash => exact (keeps_insertUser rfl h).toKeepsAccounts
    | setUserActive userId isActive =>
      rw [of_setUserActive h]
      exact keepsAccounts_updateUser userId fun _ => rfl
    | updatePassword username hash =>
      obtain rfl := Option.some.inj h
      cases updatePassword_cases username hash with
      | inl heq =>
        rw [heq]
        exact (Keeps.refl db _).toKeepsAccounts
      | inr hid =>
        obtain ⟨id, heq⟩ := hid
        rw [heq]
        exact keepsAccounts_updateUser id fun _ => rfl
    | _ => exact Option.some.inj h ▸ .of_eq rfl rfl

/-! ### Who is active -/

/-- The user is there, and inactive. -/
def AuthDb.Inactive (db : AuthDb) (userId : Nat) : Prop :=
  ∃ user, db.users.lookup userId = some user ∧ user.isActive = false

theorem AuthDb.Inactive.of_eq {db' : AuthDb} {u : Nat} (h : db.Inactive u)
    (heq : db'.users.lookup u = db.users.lookup u) : db'.Inactive u := by
  obtain ⟨user, huser, hactive⟩ := h
  exact ⟨user, heq.trans huser, hactive⟩

theorem inactive_updateUser {id u : Nat} {f : WebuiUser → WebuiUser} (h : db.Inactive u)
    (hf : u = id → ∀ v, v.isActive = false → (f v).isActive = false) :
    (db.updateUser id f).Inactive u := by
  obtain ⟨user, huser, hactive⟩ := h
  have hlookup : (db.updateUser id f).users.lookup u =
      if u = id then (db.users.lookup id).map f else db.users.lookup u := lookup_modify id u f _
  by_cases heq : u = id
  · subst heq
    rw [if_pos rfl, huser] at hlookup
    exact ⟨_, hlookup, hf rfl user hactive⟩
  · rw [if_neg heq] at hlookup
    exact ⟨user, hlookup.trans huser, hactive⟩

theorem inactive_insertUser {user : WebuiUser} {u : Nat} {db' : AuthDb} (h : db.Inactive u)
    (hinsert : db.insertUser user = some db') : db'.Inactive u := by
  refine h.of_eq ?_
  obtain ⟨row, hrow, -⟩ := h
  rw [of_insertUser hinsert]
  refine AList.lookup_insert_ne fun heq => ?_
  rw [heq, lookup_nextUserId] at hrow
  exact absurd hrow (by simp)

/-- **Only `set_user_active` activates a user.** -/
theorem inactive_effect {u : Nat} (h : db.Inactive u)
    (hst : st = .setUserActive u true → w.answers .setActive = .refused) :
    (st.effect w db).Inactive u := by
  by_cases hrefused : st = .setUserActive u true
  · rw [effect_refused (by rw [hrefused]; rfl) (hst hrefused)]
    exact h
  cases effect_cases st w db with
  | inl heq =>
    rw [heq]
    exact h
  | inr htarget =>
    generalize st.effect w db = db' at htarget
    cases st with
    | createSession path userId => exact h.of_eq (by rw [(of_insertSession htarget).2])
    | createResetToken userId tokenHash expiresAt =>
      exact h.of_eq (by rw [(of_insertResetToken htarget).2])
    | createUser body => exact inactive_insertUser h htarget
    | insertPassword username hash => exact inactive_insertUser h htarget
    | setMfa userId enabled =>
      obtain rfl := Option.some.inj htarget
      exact inactive_updateUser h fun _ _ hv => hv
    | mergeOauth userId body =>
      obtain rfl := Option.some.inj htarget
      exact inactive_updateUser h fun _ _ hv => hv
    | verifyEmail token userId =>
      obtain rfl := Option.some.inj htarget
      exact @inactive_updateUser (db.markUsed token w.now) userId u _ h fun _ _ hv => hv
    | updatePassword username hash =>
      obtain rfl := Option.some.inj htarget
      cases updatePassword_cases username hash with
      | inl heq =>
        rw [heq]
        exact h
      | inr hid =>
        obtain ⟨id, heq⟩ := hid
        rw [heq]
        exact inactive_updateUser h fun _ _ hv => hv
    | setUserActive userId isActive =>
      rw [of_setUserActive htarget]
      refine inactive_updateUser h fun heq _ _ => ?_
      cases isActive with
      | false => rfl
      | true => exact absurd (heq ▸ rfl) hrefused
    | _ =>
      obtain rfl := Option.some.inj htarget
      exact h.of_eq rfl

end Effect

end OdooSemantic
