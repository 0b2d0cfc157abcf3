import OdooSemantic.Proof.SessionIdentity
import OdooSemantic.Proof.Statements
import OdooSemantic.Web.UserRoutes

/-!
# What a request knows by the time it writes

A request is on its own between its statements: all it has is what it has read, and the tables
may have moved on. `Warrant` is what its own steps so far say about the statement it is about to
execute, and `CookieOutcome` what they say about the cookie it hands out. Both are checked along the
programs (`sound_webProgram`), and hold from there on in every schedule.

For four of the statements there is something to say. Two of the logins have found the user
active when they open the session; the other two have not asked.
-/

namespace OdooSemantic

open KeyedStore Threads

variable {T : Type}

/-! ## Warrants -/

/-- Behind this step the user is there. -/
def Found (userId : Nat) (user : WebuiUser) (e : WebEntry T) : Prop :=
  (e.after AuthStatement.effect).users.lookup userId = some user

/-- The request has gone on from here. -/
def Answered (e : WebEntry T) : Prop := (e.label.exec e.input e.before).1 = true

/-- One code that has not been used is marked. -/
def MarksOne (stored updated : List BackupCode) : Prop :=
  ∃ i entry now, stored[i]? = some entry ∧ entry.usedAt = none ∧
    updated = stored.set i { entry with usedAt := some now }

def AuthStatement.opensSession : AuthStatement → Bool
  | createSession _ _ => true
  | _ => false

/-- What the endpoint asks about the user. -/
def Checked (h : List (WebEntry T)) (userId : Nat) : SessionPath → Prop
  | .password | .oauth => ∃ e ∈ h, ∃ user, Found userId user e ∧ user.isActive = true
  | .totp | .email => True

/-- **What the steps so far say about the next statement.** -/
def Warrant (enrols : Bool) (cookie : Cookie) (h : List (WebEntry T)) : AuthStatement → Prop
  | .createSession path userId =>
      (∀ e ∈ h, e.label.opensSession = false) ∧ Checked h userId path
  | .updateBackupCodes _ stored updated => MarksOne stored updated
  | .revokeAllSessions .deactivation userId =>
      ∃ e ∈ h, e.label = .setUserActive userId false ∧ Answered e
  | .setUserActive userId _ => ∃ e ∈ h, ∃ user, Found userId user e
  | .upsertTotp _ _ | .enableTotp _ _ | .deleteTotp _ => enrols = true
  | .admission sent | .identify sent => sent = cookie
  | _ => True

/-- **What they say about the cookie in the end.** -/
inductive CookieOutcome (cookie : Cookie) : List (WebEntry T) → Response × Cookie → Prop
  | same {h : List (WebEntry T)} {response : Response} : CookieOutcome cookie h (response, cookie)
  | cleared {h : List (WebEntry T)} {response : Response} : CookieOutcome cookie h (response, {})
  | opened {h : List (WebEntry T)} {response : Response} {e : WebEntry T} {path : SessionPath}
      {userId : Nat} {user : WebuiUser} {cookieId : Option Nat}
      (hlabel : e.label = .createSession path userId) (hanswered : Answered e)
      (huser : ∃ e' ∈ h, Found userId user e')
      (hid : cookieId = some userId ∨ path = .oauth ∧ cookieId = cookie.userId) :
      CookieOutcome cookie (e :: h) (response,
        { cookie with
          sessionId := some e.input.sessionId, username := some user.username, userId := cookieId
          sessionAt := some e.input.now })

/-- From here on the program has its warrants. -/
def Program.Sound (t : T) (enrols : Bool) (cookie : Cookie) (p : Program) (h : List (WebEntry T)) :
    Prop :=
  Prog.Meets t (Warrant enrols cookie) (CookieOutcome cookie) p h

section Sound

variable {t : T} {enrols : Bool} {cookie : Cookie} {h : List (WebEntry T)} {d : Deployment}

theorem sound_reply (response : Response) :
    (Stepwise.reply cookie response).Sound t enrols cookie h := .same

theorem sound_step {st : AuthStatement} {next : RequestWorld → AuthDb → Program}
    (hst : Warrant enrols cookie h st)
    (hnext : ∀ w db, (next w db).Sound t enrols cookie (⟨t, st, w, db⟩ :: h)) :
    Program.Sound t enrols cookie (.step st next) h := ⟨hst, hnext⟩

theorem sound_perform {st : AuthStatement} {next : RequestWorld → AuthDb → Program}
    {response : Response} (hst : Warrant enrols cookie h st)
    (hnext : ∀ w db, (st.exec w db).1 = true →
      (next w db).Sound t enrols cookie (⟨t, st, w, db⟩ :: h)) :
    (perform st next (Stepwise.reply cookie response)).Sound t enrols cookie h := by
  refine sound_step hst fun w db => ?_
  split
  · exact hnext w db ‹_›
  · exact sound_reply response

theorem sound_openSession {path : SessionPath} {userId : Nat} {user : WebuiUser}
    (hfirst : ∀ e ∈ h, e.label.opensSession = false) (hchecked : Checked h userId path)
    (huser : ∃ e ∈ h, Found userId user e) :
    (Stepwise.openSession cookie path userId user.username).Sound t enrols cookie h :=
  sound_perform ⟨hfirst, hchecked⟩ fun _ _ hanswered =>
    .opened rfl hanswered huser (Or.inl rfl)

theorem sound_loginPost (body : LoginBody) :
    (Stepwise.loginPost d cookie body).Sound t enrols cookie [] := by
  unfold Stepwise.loginPost
  split
  · exact sound_reply _
  split
  · exact sound_reply _
  refine sound_step trivial fun w _ => ?_
  split
  · exact sound_reply _
  refine sound_step trivial fun w db => ?_
  split
  · exact sound_reply _
  rename_i userId user hread
  obtain ⟨huser, hname⟩ := of_findWhere (of_read_join hread)
  split
  · rename_i hfits
    simp only [Bool.and_eq_true] at hfits
    refine sound_step trivial fun w' db' => ?_
    split
    · exact sound_reply _
    refine sound_step trivial fun w'' db'' => ?_
    rw [← of_decide_eq_true hname]
    refine sound_openSession (by simp [AuthStatement.opensSession]) ?_ ?_
    · exact ⟨⟨t, .select .lookupUser, w, db⟩, by simp, user, huser, hfits.1.2⟩
    · exact ⟨⟨t, .select .lookupUser, w, db⟩, by simp, huser⟩
  · exact sound_reply _

theorem sound_logout : (Stepwise.logout cookie).Sound t enrols cookie [] := by
  unfold Stepwise.logout
  split
  · exact .cleared
  · exact sound_step trivial fun _ _ => .cleared

theorem sound_setNewPassword (userId : Nat) (newPassword : String) :
    (Stepwise.setNewPassword d cookie userId newPassword).Sound t enrols cookie h := by
  unfold Stepwise.setNewPassword
  refine sound_step trivial fun w db => ?_
  split
  · refine sound_step trivial fun w' db' => ?_
    split
    · exact sound_reply _
    · exact sound_perform trivial fun _ _ _ => sound_perform trivial fun _ _ _ => sound_reply _
    · exact sound_perform trivial fun _ _ _ => sound_perform trivial fun _ _ _ => sound_reply _
  · exact sound_reply _

theorem sound_resetPassword (token newPassword : String) :
    (Stepwise.resetPassword d cookie token newPassword).Sound t enrols cookie [] := by
  unfold Stepwise.resetPassword Stepwise.consumeResetToken
  refine sound_step trivial fun w db => ?_
  split
  · exact sound_reply _
  · exact sound_reply _
  split
  · exact sound_reply _
  split
  · exact sound_reply _
  · exact sound_perform trivial fun _ _ _ => sound_setNewPassword _ _

theorem sound_oauthSession {userId : Nat} {user : WebuiUser}
    (hfirst : ∀ e ∈ h, e.label.opensSession = false) (huser : ∃ e ∈ h, Found userId user e) :
    (Stepwise.oauthSession cookie userId user).Sound t enrols cookie h := by
  unfold Stepwise.oauthSession
  split
  · rename_i hactive
    obtain ⟨e, he, hfound⟩ := huser
    exact sound_perform ⟨hfirst, e, he, user, hfound, hactive⟩ fun _ _ hanswered =>
      .opened rfl hanswered ⟨e, he, hfound⟩ (Or.inr ⟨rfl, rfl⟩)
  · exact sound_reply _

/-- The row that an `INSERT` has made. -/
theorem found_createUser {w : RequestWorld} {db : AuthDb} {body : OAuthLoginBody}
    (hexec : ((AuthStatement.createUser body).exec w db).1 = true) :
    Found db.nextUserId (body.newUser w) (⟨t, .createUser body, w, db⟩ : WebEntry T) := by
  have htarget := (target_of_exec rfl hexec).2
  unfold Found Entry.after
  dsimp only
  rw [of_insertUser htarget]
  exact AList.lookup_insert _

theorem sound_oauthLogin (body : OAuthLoginBody) :
    (Stepwise.oauthLogin d cookie body).Sound t enrols cookie [] := by
  unfold Stepwise.oauthLogin
  split
  · exact sound_reply _
  rename_i body' _
  dsimp only
  refine sound_step trivial fun w db => ?_
  split
  · rename_i userId user hread
    refine sound_oauthSession (by simp [AuthStatement.opensSession]) ?_
    exact ⟨_, List.mem_cons_self, (of_findWhere (of_read_join hread)).1⟩
  refine sound_step trivial fun w' db' => ?_
  split
  · rename_i userId user hread
    split
    · refine sound_perform trivial fun w'' db'' _ => ?_
      refine sound_oauthSession (by simp [AuthStatement.opensSession]) ?_
      exact ⟨⟨t, .select .emailUser, w', db'⟩, by simp, (of_findWhere (of_read_join hread)).1⟩
    · exact sound_reply _
  · refine sound_perform trivial fun w'' db'' hexec => ?_
    refine sound_oauthSession (by simp [AuthStatement.opensSession]) ?_
    exact ⟨_, List.mem_cons_self, found_createUser hexec⟩

theorem sound_verifyEmail (token : String) :
    (Stepwise.verifyEmail d cookie token).Sound t enrols cookie [] := by
  unfold Stepwise.verifyEmail
  dsimp only
  split
  · exact sound_reply _
  refine sound_step trivial fun w db => ?_
  split
  · exact sound_reply _
  · exact sound_reply _
  split
  · exact sound_reply _
  refine sound_step trivial fun w' db' => ?_
  split
  · exact sound_reply _
  · exact sound_reply _
  rename_i row _ _ _ user hread
  refine sound_perform trivial fun w'' db'' _ => ?_
  refine sound_openSession (by simp [AuthStatement.opensSession]) trivial ?_
  exact ⟨⟨t, .select .userRow, w', db'⟩, by simp, (of_read hread).symm⟩

/-! ### `totp.py` -/

theorem sound_withSessionUser {go : Nat → Program}
    (hgo : ∀ userId w db, (go userId).Sound t enrols cookie [⟨t, .identify cookie, w, db⟩]) :
    (Stepwise.withSessionUser cookie go).Sound t enrols cookie [] := by
  unfold Stepwise.withSessionUser
  split
  · exact sound_reply _
  refine sound_step rfl fun w db => ?_
  split
  · exact sound_reply _
  · exact sound_reply _
  · exact hgo _ w db

theorem sound_totpSetup : (Stepwise.totpSetup d cookie).Sound t true cookie [] := by
  refine sound_withSessionUser fun userId _ _ => sound_step trivial fun w _ => ?_
  split
  · exact sound_reply _
  · exact sound_perform rfl fun _ _ _ => sound_reply _

theorem sound_totpVerify (code : String) :
    (Stepwise.totpVerify d cookie code).Sound t true cookie [] := by
  refine sound_withSessionUser fun userId _ _ => sound_step trivial fun w db => ?_
  split
  · exact sound_reply _
  · exact sound_reply _
  split
  · exact sound_reply _
  · exact sound_reply _
  · exact sound_perform rfl fun _ _ _ => sound_perform trivial fun _ _ _ => sound_reply _

theorem sound_totpDisable (password code : String) :
    (Stepwise.totpDisable d cookie password code).Sound t true cookie [] := by
  refine sound_withSessionUser fun userId _ _ => sound_step trivial fun w db => ?_
  split
  · exact sound_reply _
  split
  · refine sound_step trivial fun w' db' => ?_
    split
    · exact sound_reply _
    · exact sound_reply _
    split
    · split
      · exact sound_reply _
      · exact sound_reply _
      · exact sound_perform rfl fun _ _ _ => sound_perform trivial fun _ _ _ => sound_reply _
    · exact sound_reply _
  · exact sound_reply _

theorem sound_totpStatus : (Stepwise.totpStatus cookie).Sound t enrols cookie [] := by
  refine sound_withSessionUser fun userId _ _ => sound_step trivial fun w db => ?_
  split <;> exact sound_reply _

/-- **A backup code that is accepted is marked**, and it was not marked before. -/
theorem marksOne_of_checkBackupCode {codeHash : String} {now : Nat}
    {stored updated : List BackupCode}
    (hcheck : checkBackupCode codeHash now stored = (true, updated)) :
    MarksOne stored updated := by
  induction stored generalizing updated with
  | nil => simp [checkBackupCode] at hcheck
  | cons entry rest ih =>
    rw [checkBackupCode] at hcheck
    split at hcheck
    · rename_i hfits
      rw [Bool.and_eq_true] at hfits
      obtain ⟨-, rfl⟩ := Prod.mk.inj hcheck
      exact ⟨0, entry, now, rfl, Option.isNone_iff_eq_none.mp hfits.1, rfl⟩
    · cases hrest : checkBackupCode codeHash now rest with
      | mk found updated' =>
        rw [hrest] at hcheck
        obtain ⟨rfl, rfl⟩ := Prod.mk.inj hcheck
        obtain ⟨i, entry', now', hget, hunused, rfl⟩ := ih hrest
        exact ⟨i + 1, entry', now', hget, hunused, rfl⟩

theorem sound_totpLogin (body : MfaLoginBody) :
    (Stepwise.totpLogin d cookie body).Sound t enrols cookie [] := by
  unfold Stepwise.totpLogin
  refine sound_step trivial fun w db => ?_
  split
  · exact sound_reply _
  · exact sound_reply _
  refine sound_step trivial fun w' db' => ?_
  split
  · exact sound_reply _
  · exact sound_reply _
  rename_i id _ _ user hread
  have huser : Found id.toNat user (⟨t, .select .username, w', db'⟩ : WebEntry T) :=
    of_userById (of_read hread).symm
  refine sound_step trivial fun w'' db'' => ?_
  split
  · exact sound_reply _
  · exact sound_reply _
  split
  · unfold Stepwise.secondFactor
    split
    · exact sound_reply _
    split
    · split
      · exact sound_openSession (by simp [AuthStatement.opensSession]) trivial
          ⟨_, by simp, huser⟩
      · exact sound_reply _
    · split
      · exact sound_reply _
      · rename_i updated hcheck
        refine sound_perform (marksOne_of_checkBackupCode hcheck) fun _ _ _ => ?_
        exact sound_openSession (by simp [AuthStatement.opensSession]) trivial
          ⟨_, by simp, huser⟩
    · exact sound_reply _
  · exact sound_reply _

/-! ### `admin_users.py` -/

theorem sound_adminRoute {go : Nat → Program}
    (hgo : ∀ actorId w db, (go actorId).Sound t enrols cookie [⟨t, .admission cookie, w, db⟩]) :
    (Stepwise.adminRoute cookie go).Sound t enrols cookie [] := by
  refine sound_step rfl fun w db => ?_
  split
  · split
    · exact sound_reply _
    · exact hgo _ w db
  · exact sound_reply _

theorem sound_withUser {userId : Nat} {go : Program}
    (hgo : ∀ w db user, db.users.lookup userId = some user →
      go.Sound t enrols cookie (⟨t, .select .userRow, w, db⟩ :: h)) :
    (Stepwise.withUser cookie userId go).Sound t enrols cookie h := by
  refine sound_step trivial fun w db => ?_
  split
  · exact sound_reply _
  · exact sound_reply _
  · rename_i user hread
    exact hgo w db user (of_read hread).symm

theorem sound_deactivateUser (userId : Nat) :
    (Stepwise.deactivateUser cookie userId).Sound t enrols cookie [] := by
  refine sound_adminRoute fun actorId _ _ => ?_
  split
  · exact sound_reply _
  refine sound_withUser fun w db user huser => ?_
  refine sound_step ⟨_, List.mem_cons_self, user, huser⟩ fun w' db' => ?_
  split
  · rename_i hanswered
    exact sound_perform ⟨_, List.mem_cons_self, rfl, hanswered⟩ fun _ _ _ => sound_reply _
  split <;> exact sound_reply _

theorem sound_reactivateUser (userId : Nat) :
    (Stepwise.reactivateUser cookie userId).Sound t enrols cookie [] := by
  refine sound_adminRoute fun _ _ _ => sound_withUser fun w db user huser => ?_
  exact sound_perform ⟨_, List.mem_cons_self, user, huser⟩ fun _ _ _ => sound_reply _

theorem sound_resetPasswordLink (userId : Nat) :
    (Stepwise.resetPasswordLink d cookie userId).Sound t enrols cookie [] := by
  refine sound_adminRoute fun _ _ _ => sound_withUser fun w db user huser => ?_
  exact sound_step trivial fun _ _ => sound_perform trivial fun _ _ _ => sound_reply _

end Sound

/-- The requests that write secrets. -/
def WebRequest.enrols : WebRequest → Bool
  | .auth r => r.enrols
  | _ => false

/-- **Every request has its warrants.** -/
theorem sound_webProgram (d : Deployment) (t : T) (call : WebCall) :
    (webProgram d call.cookie call.request).Sound t call.request.enrols call.cookie [] := by
  obtain ⟨cookie, request⟩ := call
  cases request with
  | auth r =>
    cases r with
    | login body => exact sound_loginPost body
    | logout => exact sound_logout
    | resetPassword token newPassword => exact sound_resetPassword token newPassword
    | oauthLogin body => exact sound_oauthLogin body
    | verifyEmail token => exact sound_verifyEmail token
    | totpSetup => exact sound_totpSetup
    | totpVerify code => exact sound_totpVerify code
    | totpDisable password code => exact sound_totpDisable password code
    | totpLogin body => exact sound_totpLogin body
  | totpStatus => exact sound_totpStatus
  | guarded =>
    refine sound_step rfl fun w db => ?_
    split <;> exact sound_reply _
  | deactivateUser userId => exact sound_deactivateUser userId
  | reactivateUser userId => exact sound_reactivateUser userId
  | resetPasswordLink userId => exact sound_resetPasswordLink userId

end OdooSemantic
