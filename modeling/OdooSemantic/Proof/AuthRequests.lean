import OdooSemantic.Web.LoginRoutes

/-!
# What the authentication requests keep

A request to one of the login routes writes a good deal, and most of it bears on no one's rights:
it marks tokens, uses up backup codes, removes sessions, makes or merges accounts. `Keeps` says
what all of it leaves alone, and leaves open which session may be new. One lemma for each
statement, and from these one for each endpoint, with what the endpoint has checked by then
(`OpenedBy`).
-/

namespace OdooSemantic

open KeyedStore

/-! ## What a request may keep -/

/-- `username` is the primary key. -/
def AuthDb.UniqueNames (db : AuthDb) : Prop :=
  ∀ i j u v, db.users.lookup i = some u → db.users.lookup j = some v →
    u.username = v.username → i = j

/-- Nobody loses an account or a name, and a session that was not there is one that may be
    opened. -/
structure KeepsAccounts (db db' : AuthDb) (opened : String → Nat → Prop) : Prop where
  users : ∀ id user, db.users.lookup id = some user →
    ∃ user', db'.users.lookup id = some user' ∧ user'.username = user.username
  unique : db.UniqueNames → db'.UniqueNames
  sessions : ∀ sid row, db'.activeSessions.lookup sid = some row →
    db.activeSessions.lookup sid = some row ∨ opened sid row.userId

/-- Besides, nothing happens to the second factors. -/
structure Keeps (db db' : AuthDb) (opened : String → Nat → Prop) : Prop extends
    KeepsAccounts db db' opened where
  enabled : ∀ u, db'.totpEnabled u = db.totpEnabled u
  mfa : ∀ u, db'.mfaEnabled u = db.mfaEnabled u

section Keeps

variable {db db' db'' : AuthDb} {opened : String → Nat → Prop}

theorem KeepsAccounts.of_eq (h : db'.users = db.users)
    (hsessions : db'.activeSessions = db.activeSessions) : KeepsAccounts db db' opened where
  users := fun _ user hlookup => ⟨user, by rw [h]; exact hlookup, rfl⟩
  unique := by
    unfold AuthDb.UniqueNames
    rw [h]
    exact id
  sessions := by
    intro sid row hrow
    rw [hsessions] at hrow
    exact Or.inl hrow

theorem KeepsAccounts.trans (h : KeepsAccounts db db' opened) (h' : KeepsAccounts db' db'' opened) :
    KeepsAccounts db db'' opened where
  users := by
    intro id user hlookup
    obtain ⟨user', hlookup', hname'⟩ := h.users id user hlookup
    obtain ⟨user'', hlookup'', hname''⟩ := h'.users id user' hlookup'
    exact ⟨user'', hlookup'', hname''.trans hname'⟩
  unique := fun hunique => h'.unique (h.unique hunique)
  sessions := by
    intro sid row hrow
    cases h'.sessions sid row hrow with
    | inl hold => exact h.sessions sid row hold
    | inr hopened => exact Or.inr hopened

theorem Keeps.refl (db : AuthDb) (opened : String → Nat → Prop) : Keeps db db opened where
  toKeepsAccounts := .of_eq rfl rfl
  enabled := fun _ => rfl
  mfa := fun _ => rfl

theorem Keeps.trans (h : Keeps db db' opened) (h' : Keeps db' db'' opened) :
    Keeps db db'' opened where
  toKeepsAccounts := h.toKeepsAccounts.trans h'.toKeepsAccounts
  enabled := fun u => (h'.enabled u).trans (h.enabled u)
  mfa := fun u => (h'.mfa u).trans (h.mfa u)

/-- A statement does what it says, or nothing. -/
theorem snd_write (a : DbAnswer) (db db' : AuthDb) :
    (a.write db db').2 = db ∨ (a.write db db').2 = db' := by
  cases a with
  | applied => exact Or.inr rfl
  | refused => exact Or.inl rfl
  | lost => exact Or.inr rfl

/-- Where the users stay, they stay whether or not the statement takes effect. -/
theorem users_write (a : DbAnswer) {db db' : AuthDb} (h : db'.users = db.users) :
    (a.write db db').2.users = db.users := by
  cases snd_write a db db' with
  | inl heq => rw [heq]
  | inr heq => rw [heq, h]

theorem Keeps.write (h : Keeps db db' opened) (a : DbAnswer) :
    Keeps db (a.write db db').2 opened := by
  cases snd_write a db db' with
  | inl heq =>
    rw [heq]
    exact Keeps.refl db opened
  | inr heq =>
    rw [heq]
    exact h

theorem keeps_of_write {a : DbAnswer} {b : Bool} (h : Keeps db db' opened)
    (hwrite : a.write db db' = (b, db'')) : Keeps db db'' opened := by
  have hkeeps := h.write a
  rw [hwrite] at hkeeps
  exact hkeeps

theorem keepsAccounts_updateUser (id : Nat) {f : WebuiUser → WebuiUser}
    (hf : ∀ u, (f u).username = u.username) : KeepsAccounts db (db.updateUser id f) opened := by
  have hlookup : ∀ i, (db.updateUser id f).users.lookup i =
      if i = id then (db.users.lookup id).map f else db.users.lookup i :=
    fun i => lookup_modify id i f db.users
  have hback : ∀ i u, (db.updateUser id f).users.lookup i = some u →
      ∃ u', db.users.lookup i = some u' ∧ u.username = u'.username := by
    intro i u hu
    rw [hlookup] at hu
    split at hu
    · rename_i heq
      obtain ⟨u', hu', rfl⟩ := Option.map_eq_some_iff.mp hu
      exact ⟨u', heq ▸ hu', hf u'⟩
    · exact ⟨u, hu, rfl⟩
  refine ⟨fun i user huser => ?_, fun hunique i j u v hu hv hname => ?_, fun _ _ h => Or.inl h⟩
  · rw [hlookup]
    split
    · rename_i heq
      rw [← heq, huser]
      exact ⟨f user, rfl, hf user⟩
    · exact ⟨user, huser, rfl⟩
  · obtain ⟨u', hu', hnu⟩ := hback i u hu
    obtain ⟨v', hv', hnv⟩ := hback j v hv
    exact hunique i j u' v' hu' hv' (by rw [← hnu, ← hnv, hname])

/-- A change of a user that leaves the name and the flag alone. -/
theorem keeps_updateUser (id : Nat) {f : WebuiUser → WebuiUser}
    (hname : ∀ u, (f u).username = u.username) (hmfa : ∀ u, (f u).mfaEnabled = u.mfaEnabled) :
    Keeps db (db.updateUser id f) opened where
  toKeepsAccounts := keepsAccounts_updateUser id hname
  enabled := fun _ => rfl
  mfa := by
    intro u
    unfold AuthDb.mfaEnabled AuthDb.updateUser
    rw [lookup_modify]
    split
    · rename_i heq
      subst heq
      cases db.users.lookup u with
      | none => rfl
      | some user => exact hmfa user
    · rfl

/-- Whatever becomes of the tokens. -/
theorem keeps_of_tokens {tokens : KeyedStore.Store String EmailVerification} :
    Keeps db { db with emailVerifications := tokens } opened where
  toKeepsAccounts := .of_eq rfl rfl
  enabled := fun _ => rfl
  mfa := fun _ => rfl

/-- Removing sessions. -/
theorem keeps_of_sessions {sessions : Store String Session}
    (h : ∀ sid row, sessions.lookup sid = some row → db.activeSessions.lookup sid = some row) :
    Keeps db { db with activeSessions := sessions } opened where
  users := fun _ user hlookup => ⟨user, hlookup, rfl⟩
  unique := fun hunique => hunique
  sessions := fun sid row hrow => Or.inl (h sid row hrow)
  enabled := fun _ => rfl
  mfa := fun _ => rfl

theorem keeps_deleteSession (sid : String) : Keeps db (db.deleteSession sid) opened := by
  refine keeps_of_sessions fun sid' row hrow => ?_
  by_cases heq : sid' = sid
  · subst heq
    rw [AList.lookup_erase] at hrow
    exact absurd hrow (by simp)
  · rw [AList.lookup_erase_ne heq] at hrow
    exact hrow

theorem keeps_deleteSessionsOf (u : Nat) : Keeps db (db.deleteSessionsOf u) opened := by
  refine keeps_of_sessions fun sid row hrow => ?_
  rw [lookup_eraseWhere] at hrow
  split at hrow
  · exact absurd hrow (by simp)
  · exact hrow

theorem lookup_nextUserId (db : AuthDb) : db.users.lookup db.nextUserId = none := by
  rw [AList.lookup_eq_none]
  intro hmem
  have hlt := lt_nextKey hmem
  unfold AuthDb.nextUserId at hlt
  omega

/-- A new user has a name of their own, no second factor, and no flag. -/
theorem keeps_insertUser {user : WebuiUser} (hmfa : user.mfaEnabled = false)
    (h : db.insertUser user = some db') : Keeps db db' opened := by
  unfold AuthDb.insertUser at h
  split at h
  · exact absurd h (by simp)
  rename_i hname
  split at h
  · exact absurd h (by simp)
  obtain rfl := Option.some.inj h
  have hfree : ∀ i u, db.users.lookup i = some u → u.username ≠ user.username := by
    intro i u hu
    have hnone := findWhere_eq_none_iff.mp (Option.not_isSome_iff_eq_none.mp hname) i u hu
    simpa using hnone
  have hne : ∀ i u, db.users.lookup i = some u → i ≠ db.nextUserId := by
    intro i u hu heq
    rw [heq, lookup_nextUserId] at hu
    exact absurd hu (by simp)
  have hcases : ∀ i u, (db.users.insert db.nextUserId user).lookup i = some u →
      i = db.nextUserId ∧ u = user ∨ db.users.lookup i = some u := by
    intro i u hu
    by_cases heq : i = db.nextUserId
    · subst heq
      rw [AList.lookup_insert] at hu
      exact Or.inl ⟨rfl, (Option.some.inj hu).symm⟩
    · rw [AList.lookup_insert_ne heq] at hu
      exact Or.inr hu
  refine ⟨⟨fun i u hu => ⟨u, ?_, rfl⟩, ?_, fun _ _ h => Or.inl h⟩, fun _ => rfl, fun u => ?_⟩
  · exact (AList.lookup_insert_ne (hne i u hu)).trans hu
  · intro hunique i j u v hu hv huv
    rcases hcases i u hu with ⟨hi, hu'⟩ | hu'
    · rcases hcases j v hv with ⟨hj, -⟩ | hv'
      · exact hi.trans hj.symm
      · exact absurd (huv.symm.trans (congrArg _ hu')) (hfree j v hv')
    · rcases hcases j v hv with ⟨-, hv'⟩ | hv'
      · exact absurd (huv.trans (congrArg _ hv')) (hfree i u hu')
      · exact hunique i j u v hu' hv' huv
  · unfold AuthDb.mfaEnabled
    by_cases heq : u = db.nextUserId
    · rw [heq, lookup_nextUserId]
      simp [hmfa]
    · simp [heq]

theorem totpEnabled_nextUserId (db : AuthDb) : db.totpEnabled db.nextUserId = false := by
  have hnone : db.totpSecrets.lookup db.nextUserId = none := by
    rw [AList.lookup_eq_none]
    intro hmem
    have hlt := lt_nextKey hmem
    unfold AuthDb.nextUserId at hlt
    omega
  unfold AuthDb.totpEnabled
  rw [hnone]
  rfl

theorem keeps_updateBackupCodes (u : Nat) (codes : List BackupCode) :
    Keeps db (db.updateBackupCodes u codes) opened where
  toKeepsAccounts := .of_eq rfl rfl
  enabled := by
    intro u'
    unfold AuthDb.totpEnabled AuthDb.updateBackupCodes
    rw [lookup_modify]
    split
    · rename_i heq
      subst heq
      cases db.totpSecrets.lookup u' <;> rfl
    · rfl
  mfa := fun _ => rfl

/-- **A session is made for one user.** -/
theorem keeps_createSession {w : RequestWorld} {u : Nat} (hopened : opened w.sessionId u) :
    Keeps db (w.createSession u db).2 opened := by
  unfold RequestWorld.createSession
  split
  · exact Keeps.refl db opened
  rename_i db' hinsert
  refine Keeps.write ?_ _
  unfold AuthDb.insertSession at hinsert
  split at hinsert
  · exact absurd hinsert (by simp)
  split at hinsert
  · obtain rfl := Option.some.inj hinsert
    refine ⟨⟨fun _ user hu => ⟨user, hu, rfl⟩, fun hunique => hunique, fun sid row hrow => ?_⟩,
      fun _ => rfl, fun _ => rfl⟩
    dsimp only at hrow
    by_cases heq : sid = w.sessionId
    · subst heq
      rw [AList.lookup_insert] at hrow
      obtain rfl := Option.some.inj hrow
      exact Or.inr hopened
    · rw [AList.lookup_insert_ne heq] at hrow
      exact Or.inl hrow
  · exact absurd hinsert (by simp)

theorem keeps_of_createSession {w : RequestWorld} {u : Nat} {b : Bool}
    (hopened : opened w.sessionId u)
    (h : w.createSession u db = (b, db')) : Keeps db db' opened := by
  have hkeeps : Keeps db (w.createSession u db).2 opened := keeps_createSession hopened
  rw [h] at hkeeps
  exact hkeeps

theorem of_read {w : RequestWorld} {q : AuthQuery} {α : Type} {x y : α}
    (h : w.read q x = some y) : y = x := DbAnswer.of_read h

theorem of_read_join {w : RequestWorld} {q : AuthQuery} {α : Type} {x : Option α} {y : α}
    (h : (w.read q x).join = some y) : x = some y := by
  exact (of_read (Option.join_eq_some_iff.mp h)).symm

end Keeps

/-! ## The ways in, and out -/

section Ways

variable (d : Deployment) (w : RequestWorld) (cookie : Cookie) (db : AuthDb)

/-- **How a session comes about** for a user with a second factor. -/
inductive OpenedBy : AuthRequest → Nat → Prop
  | code {body : MfaLoginBody} {userId : Nat} {row : TotpSecret} {secret code : String}
      (hrow : db.totpSecrets.lookup userId = some row)
      (hsecret : d.decryptSecret row.secretEncrypted = some secret) (hcode : body.code = some code)
      (hvalid : d.totpValid secret (PyText.strip code) w.now = true) :
      OpenedBy (.totpLogin body) userId
  | backupCode {body : MfaLoginBody} {userId : Nat} {row : TotpSecret} {backupCode : String}
      {entry : BackupCode} (hrow : db.totpSecrets.lookup userId = some row)
      (hcode : body.backupCode = some backupCode) (hentry : entry ∈ row.backupCodesHash)
      (hunused : entry.usedAt = none) (hhash : entry.hash = d.hmac (PyText.strip backupCode)) :
      OpenedBy (.totpLogin body) userId
  /-- The identity at the provider is stored with the user. -/
  | oauthIdentity {body body' : OAuthLoginBody} {userId : Nat} {user : WebuiUser}
      (hbody : body.validated d = some body') (huser : db.users.lookup userId = some user)
      (hprovider : user.oauthProvider = some body'.provider)
      (hid : user.oauthId = some body'.oauthId) : OpenedBy (.oauthLogin body) userId
  /-- The provider vouches for the mail address of the user. -/
  | oauthEmail {body body' : OAuthLoginBody} {userId : Nat} {user : WebuiUser}
      (hbody : body.validated d = some body') (huser : db.users.lookup userId = some user)
      (hemail : user.email.map d.lower = some (d.lower body'.email))
      (hverified : body'.emailVerified = true) : OpenedBy (.oauthLogin body) userId
  | verifyEmail {token : String} {row : EmailVerification}
      (hrow : db.emailVerifications.lookup (d.sha256 (PyText.strip token)) = some row)
      (hpurpose : row.purpose = .emailVerify) (hunused : row.usedAt = none)
      (hfresh : w.now ≤ row.expiresAt) : OpenedBy (.verifyEmail token) row.userId
  /-- The password fits, and the query for the second factor fails. -/
  | unanswered {body : LoginBody} {userId : Nat} {user : WebuiUser}
      (huser : db.userByName (PyText.strip body.username) = some (userId, user))
      (hpassword : passwordFits d user body.password = true) (hactive : user.isActive = true)
      (hquery : w.answers .checkTotp ≠ .applied) : OpenedBy (.login body) userId

/-- The user the cookie names. -/
def CookieUser (userId : Nat) : Prop :=
  ∃ name user, cookie.username = some name ∧ db.userByName name = some (userId, user)

/-- **How a second factor is given up.** -/
inductive DisabledBy : AuthRequest → Nat → Prop
  | disable {password code hash : String} {userId : Nat} {user : WebuiUser} {row : TotpSecret}
      (hcookie : CookieUser cookie db userId) (huser : db.users.lookup userId = some user)
      (hhash : user.passwordHash = some hash) (hpassword : d.verifyPassword password hash = true)
      (hrow : db.totpSecrets.lookup userId = some row)
      (hcode : d.verifyCode row code w.now = some true) :
      DisabledBy (.totpDisable password code) userId
  | setup {userId : Nat} (hcookie : CookieUser cookie db userId) : DisabledBy .totpSetup userId

/-- The first statement takes effect, and the second does not. -/
def RequestWorld.Cuts (q q' : AuthQuery) : Prop :=
  w.answers q = .lost ∨ w.answers q = .applied ∧ w.answers q' = .refused

end Ways

/-! ## Endpoints that open sessions -/

/-- What is known of an endpoint that breaks off with an answer, and of one that goes on. -/
def RouteOutcome {A : Type} (answered : Reply → Prop) (goesOn : A → Prop) : Except Reply A → Prop
  | .error reply => answered reply
  | .ok a => goesOn a

theorem RouteOutcome.of_error {A : Type} {answered : Reply → Prop} {goesOn : A → Prop}
    {x : Except Reply A} (h : RouteOutcome answered goesOn x) {reply : Reply}
    (hx : x = .error reply) : answered reply := by
  subst hx
  exact h

theorem RouteOutcome.of_ok {A : Type} {answered : Reply → Prop} {goesOn : A → Prop}
    {x : Except Reply A} (h : RouteOutcome answered goesOn x) {a : A} (hx : x = .ok a) :
    goesOn a := by
  subst hx
  exact h

section Opening

variable {d : Deployment} {w : RequestWorld} {cookie : Cookie} {db : AuthDb}

/-- The session a request may make: the id is fresh, and a user with a second factor is let in. -/
def MayOpen (d : Deployment) (w : RequestWorld) (db : AuthDb) (r : AuthRequest) (sid : String)
    (u : Nat) : Prop :=
  sid = w.sessionId ∧ (db.totpEnabled u = true → OpenedBy d w db r u)

theorem enabledUser_ne_none {name : String} {u : Nat} {user : WebuiUser}
    (huser : db.userByName name = some (u, user)) (henabled : db.totpEnabled u = true) :
    db.enabledUser name ≠ none := by
  intro hnone
  obtain ⟨hlookup, hname⟩ := of_findWhere huser
  have hmem : u ∈ db.users.keys :=
    AList.mem_keys.mp (AList.lookup_isSome.mp (by rw [hlookup]; rfl))
  have hfalse := List.find?_eq_none.mp hnone u hmem
  rw [hlookup] at hfalse
  exact hfalse (by simpa [henabled] using hname)

theorem keeps_loginPost (body : LoginBody) :
    Keeps db (loginPost d w cookie db body).db (MayOpen d w db (.login body)) := by
  unfold loginPost
  split
  · exact Keeps.refl db _
  split
  · exact Keeps.refl db _
  split
  · exact Keeps.refl db _
  dsimp only
  split
  · exact Keeps.refl db _
  rename_i userId user hlookup
  have huser := of_read_join hlookup
  split
  · rename_i hfits
    simp only [Bool.and_eq_true] at hfits
    split
    · exact Keeps.refl db _
    rename_i hcheck
    have hopened : MayOpen d w db (.login body) w.sessionId userId := by
      refine ⟨rfl, fun henabled => ?_⟩
      refine .unanswered huser hfits.1.1 hfits.1.2 fun hanswer => ?_
      unfold checkTotpEnabled RequestWorld.read DbAnswer.read at hcheck
      rw [if_pos hanswer] at hcheck
      exact enabledUser_ne_none huser henabled hcheck
    have hrotated : Keeps db (w.write .revokeSessions db (db.deleteSessionsOf userId)).2
        (MayOpen d w db (.login body)) := (keeps_deleteSessionsOf userId).write _
    split
    · rename_i hcreate
      exact hrotated.trans (keeps_of_createSession hopened hcreate)
    · rename_i hcreate
      exact hrotated.trans (keeps_of_createSession hopened hcreate)
  · exact Keeps.refl db _

theorem keeps_logout {opened : String → Nat → Prop} : Keeps db (logout w cookie db).db opened := by
  unfold logout
  split
  · exact Keeps.refl db _
  · exact (keeps_deleteSession _).write _

theorem keeps_setNewPassword {opened : String → Nat → Prop} (userId : Nat) (newPassword : String) :
    Keeps db (setNewPassword d w cookie db userId newPassword).db opened := by
  unfold setNewPassword
  dsimp only
  split
  · rename_i hash user _ huser
    split
    · rename_i db' hset
      have hkeeps : Keeps db db' opened := by
        have hset := of_read hset
        unfold AuthDb.setUserPassword at hset
        split at hset
        · obtain rfl := Option.some.inj hset
          exact keeps_updateUser _ (fun _ => rfl) fun _ => rfl
        · exact keeps_insertUser rfl hset.symm
      split
      · rename_i hwrite
        exact keeps_of_write hkeeps hwrite
      · rename_i hwrite
        have hset := keeps_of_write hkeeps hwrite
        split
        · rename_i hrevoke
          exact hset.trans (keeps_of_write (keeps_deleteSessionsOf userId) hrevoke)
        · rename_i hrevoke
          exact hset.trans (keeps_of_write (keeps_deleteSessionsOf userId) hrevoke)
    · exact Keeps.refl db _
  · exact Keeps.refl db _

theorem keeps_resetPassword {opened : String → Nat → Prop} (token newPassword : String) :
    Keeps db (resetPassword d w cookie db token newPassword).db opened := by
  unfold resetPassword
  split
  · exact Keeps.refl db _
  · exact Keeps.refl db _
  split
  · exact Keeps.refl db _
  split
  · exact Keeps.refl db _
  split
  · rename_i hwrite
    exact keeps_of_write keeps_of_tokens hwrite
  · rename_i hwrite
    exact (keeps_of_write keeps_of_tokens hwrite).trans (keeps_setNewPassword _ _)

theorem keeps_promote {opened : String → Nat → Prop} {userId : Nat}
    (hopened : opened w.sessionId userId) (username : String) :
    Keeps db (promote w cookie db userId username).db opened := by
  unfold promote
  split
  · rename_i hcreate
    exact keeps_of_createSession hopened hcreate
  · rename_i hcreate
    exact keeps_of_createSession hopened hcreate

/-- The user an OAuth login comes to is let in, and nothing else has happened by then. -/
theorem keeps_oauthUser {body body' : OAuthLoginBody} (hbody : body.validated d = some body') :
    RouteOutcome (fun reply => Keeps db reply.db (MayOpen d w db (.oauthLogin body)))
      (fun found => MayOpen d w db (.oauthLogin body) w.sessionId found.1 ∧
        Keeps db found.2.2 (MayOpen d w db (.oauthLogin body)))
      (oauthUser d w cookie db body') := by
  unfold oauthUser
  split
  · rename_i userId user hlookup
    obtain ⟨huser, hidentity⟩ := of_findWhere (of_read_join hlookup)
    simp only [Bool.and_eq_true, decide_eq_true_eq] at hidentity
    exact ⟨⟨rfl, fun _ => .oauthIdentity hbody huser hidentity.1 hidentity.2⟩, Keeps.refl _ _⟩
  split
  · rename_i userId user hlookup
    obtain ⟨huser, hemail⟩ := of_findWhere (of_read_join hlookup)
    have hkeeps : Keeps db (db.mergeOauth userId body') (MayOpen d w db (.oauthLogin body)) :=
      keeps_updateUser _ (fun _ => rfl) fun _ => rfl
    split
    · rename_i hverified
      split
      · rename_i hwrite
        exact ⟨⟨rfl, fun _ => .oauthEmail hbody huser (of_decide_eq_true hemail) hverified⟩,
          keeps_of_write hkeeps hwrite⟩
      · rename_i hwrite
        exact keeps_of_write hkeeps hwrite
    · exact Keeps.refl db _
  split
  · exact Keeps.refl db _
  rename_i db' hinsert
  have hkeeps : Keeps db db' (MayOpen d w db (.oauthLogin body)) := keeps_insertUser rfl hinsert
  split
  · rename_i hwrite
    refine ⟨⟨rfl, fun henabled => ?_⟩, keeps_of_write hkeeps hwrite⟩
    rw [totpEnabled_nextUserId] at henabled
    exact absurd henabled (by simp)
  · rename_i hwrite
    exact keeps_of_write hkeeps hwrite

theorem keeps_oauthLogin (body : OAuthLoginBody) :
    Keeps db (oauthLogin d w cookie db body).db (MayOpen d w db (.oauthLogin body)) := by
  unfold oauthLogin
  split
  · exact Keeps.refl db _
  rename_i body' hbody
  have houtcome := @keeps_oauthUser d w cookie db body body' hbody
  split
  · rename_i reply hreply
    exact houtcome.of_error hreply
  rename_i userId user db' huser
  obtain ⟨hopened, hkeeps⟩ := houtcome.of_ok huser
  split
  · split
    · rename_i hcreate
      exact hkeeps.trans (keeps_of_createSession hopened hcreate)
    · rename_i hcreate
      exact hkeeps.trans (keeps_of_createSession hopened hcreate)
  · exact hkeeps

theorem keeps_verified {opened : String → Nat → Prop} (token : String) (userId : Nat) :
    Keeps db (db.verifyEmail w token userId) opened := by
  have hverified : Keeps db (db.updateUser userId fun u => { u with emailVerified := true })
      opened := keeps_updateUser _ (fun _ => rfl) fun _ => rfl
  exact hverified.trans keeps_of_tokens

theorem keeps_verifyEmail (token : String) :
    Keeps db (verifyEmail d w cookie db token).db (MayOpen d w db (.verifyEmail token)) := by
  unfold verifyEmail
  dsimp only
  split
  · exact Keeps.refl db _
  split
  · exact Keeps.refl db _
  · exact Keeps.refl db _
  rename_i row hread
  obtain ⟨hrow, hpurpose⟩ := Option.filter_eq_some_iff.mp (of_read hread).symm
  split
  · exact Keeps.refl db _
  rename_i hfresh
  simp only [Bool.or_eq_true, decide_eq_true_eq, not_or, Nat.not_lt] at hfresh
  have hunused : row.usedAt = none := by
    cases hused : row.usedAt with
    | none => rfl
    | some _ => simp [hused] at hfresh
  split
  · exact Keeps.refl db _
  · exact Keeps.refl db _
  rename_i user huser
  split
  · rename_i hwrite
    exact keeps_of_write (keeps_verified _ _) hwrite
  · rename_i hwrite
    refine (keeps_of_write (keeps_verified _ _) hwrite).trans (keeps_promote ⟨rfl, fun _ => ?_⟩ _)
    exact .verifyEmail hrow (of_decide_eq_true hpurpose) hunused hfresh.2

/-- A backup code is found among the unused ones. -/
theorem exists_of_checkBackupCode {codeHash : String} {now : Nat} {codes updated : List BackupCode}
    (h : checkBackupCode codeHash now codes = (true, updated)) :
    ∃ entry ∈ codes, entry.usedAt = none ∧ entry.hash = codeHash := by
  induction codes generalizing updated with
  | nil => exact absurd (Prod.mk.inj h).1 (by simp)
  | cons entry rest ih =>
    unfold checkBackupCode at h
    split at h
    · rename_i hentry
      simp only [Bool.and_eq_true, Option.isNone_iff_eq_none, decide_eq_true_eq] at hentry
      exact ⟨entry, List.mem_cons_self, hentry⟩
    · obtain ⟨hfound, -⟩ := Prod.mk.inj h
      obtain ⟨entry', hmem, hentry'⟩ := ih (Prod.ext hfound rfl)
      exact ⟨entry', List.mem_cons_of_mem _ hmem, hentry'⟩

/-- **The second factor of a login** is a code or an unused backup code. -/
theorem keeps_secondFactor {opened : String → Nat → Prop} {body : MfaLoginBody} {userId : Nat}
    {row : TotpSecret} (hrow : db.totpSecrets.lookup userId = some row) :
    RouteOutcome (fun reply => Keeps db reply.db opened)
      (fun db' => OpenedBy d w db (.totpLogin body) userId ∧ Keeps db db' opened)
      (secondFactor d w cookie db body userId row) := by
  unfold secondFactor
  split
  · exact Keeps.refl db _
  rename_i secret hsecret
  split
  · rename_i code hcode
    split
    · rename_i hvalid
      exact ⟨.code hrow hsecret hcode hvalid, Keeps.refl db _⟩
    · exact Keeps.refl db _
  · rename_i backupCode _ hcode
    split
    · exact Keeps.refl db _
    rename_i updated hcheck
    obtain ⟨entry, hentry, hunused, hhash⟩ := exists_of_checkBackupCode hcheck
    split
    · rename_i hwrite
      exact ⟨.backupCode hrow hcode hentry hunused hhash,
        keeps_of_write (keeps_updateBackupCodes _ _) hwrite⟩
    · rename_i hwrite
      exact keeps_of_write (keeps_updateBackupCodes _ _) hwrite
  · exact Keeps.refl db _

theorem keeps_totpLogin (body : MfaLoginBody) :
    Keeps db (totpLogin d w cookie db body).db (MayOpen d w db (.totpLogin body)) := by
  unfold totpLogin
  split
  · exact Keeps.refl db _
  · exact Keeps.refl db _
  split
  · exact Keeps.refl db _
  · exact Keeps.refl db _
  split
  · exact Keeps.refl db _
  · exact Keeps.refl db _
  rename_i row hread
  have houtcome := @keeps_secondFactor d w cookie db
    (MayOpen d w db (.totpLogin body)) body _ row (of_read hread).symm
  split
  · split
    · rename_i reply hreply
      exact houtcome.of_error hreply
    · rename_i db' hfactor
      obtain ⟨hopened, hkeeps⟩ := houtcome.of_ok hfactor
      exact hkeeps.trans (keeps_promote ⟨rfl, fun _ => hopened⟩ _)
  · exact Keeps.refl db _

end Opening

/-! ## Endpoints that change an enrolment -/

section Enrolment

variable {d : Deployment} {w : RequestWorld} {cookie : Cookie} {db : AuthDb}

theorem withSessionUser_cases (w : RequestWorld) (cookie : Cookie) (db : AuthDb)
    (go : Nat → Reply) :
    (withSessionUser w cookie db go).db = db ∨
      ∃ u, CookieUser cookie db u ∧ withSessionUser w cookie db go = go u := by
  unfold withSessionUser
  split
  · exact Or.inl rfl
  rename_i name hname
  split
  · exact Or.inl rfl
  · exact Or.inl rfl
  · rename_i userId user hread
    have hcookie := (Option.filter_eq_some_iff.mp hname).1
    exact Or.inr ⟨userId, ⟨name, user, hcookie, (of_read hread).symm⟩, rfl⟩

theorem snd_writeTwice (q q' : AuthQuery) (f f' : AuthDb → AuthDb) (db : AuthDb) :
    (w.writeTwice q q' f f' db).2 = db ∨
    w.Cuts q q' ∧ (w.writeTwice q q' f f' db).2 = f db ∨
    (w.writeTwice q q' f f' db).2 = f' (f db) := by
  unfold RequestWorld.writeTwice RequestWorld.write RequestWorld.Cuts
  cases hq : w.answers q with
  | refused => exact Or.inl rfl
  | lost => exact Or.inr (Or.inl ⟨Or.inl rfl, rfl⟩)
  | applied =>
    cases hq' : w.answers q' with
    | refused => exact Or.inr (Or.inl ⟨Or.inr ⟨rfl, rfl⟩, rfl⟩)
    | lost => exact Or.inr (Or.inr rfl)
    | applied => exact Or.inr (Or.inr rfl)

theorem db_totpSetup :
    (totpSetup d w cookie db).db = db ∨ ∃ u token, CookieUser cookie db u ∧
      (totpSetup d w cookie db).db = db.upsertTotpSecret u token := by
  unfold totpSetup
  rcases withSessionUser_cases w cookie db _ with h | ⟨u, hu, h⟩
  · exact Or.inl h
  rw [h]
  split
  · exact Or.inl rfl
  rename_i token _
  have hwrite := snd_write (w.answers .upsertTotp) db (db.upsertTotpSecret u token)
  split
  · rename_i heq
    rw [show (w.answers .upsertTotp).write db _ = _ from heq] at hwrite
    exact hwrite.imp id fun h => ⟨u, token, hu, h⟩
  · rename_i heq
    rw [show (w.answers .upsertTotp).write db _ = _ from heq] at hwrite
    exact hwrite.imp id fun h => ⟨u, token, hu, h⟩

theorem db_totpVerify (code : String) :
    (totpVerify d w cookie db code).db = db ∨ ∃ u codes, CookieUser cookie db u ∧
      (∃ row, db.totpSecrets.lookup u = some row) ∧
      (totpVerify d w cookie db code).db = (w.enableTotp u codes db).2 := by
  unfold totpVerify
  rcases withSessionUser_cases w cookie db _ with h | ⟨u, hu, h⟩
  · exact Or.inl h
  rw [h]
  split
  · exact Or.inl rfl
  · exact Or.inl rfl
  rename_i row hread
  split
  · exact Or.inl rfl
  · exact Or.inl rfl
  split
  · rename_i heq
    exact Or.inr ⟨u, _, hu, ⟨row, (of_read hread).symm⟩, (congrArg Prod.snd heq).symm⟩
  · rename_i heq
    exact Or.inr ⟨u, _, hu, ⟨row, (of_read hread).symm⟩, (congrArg Prod.snd heq).symm⟩

/-- **Disabling takes the password and a code.** -/
theorem db_totpDisable (password code : String) :
    (totpDisable d w cookie db password code).db = db ∨
      ∃ u, DisabledBy d w cookie db (.totpDisable password code) u ∧
        (totpDisable d w cookie db password code).db = (w.deleteTotp u db).2 := by
  unfold totpDisable
  rcases withSessionUser_cases w cookie db _ with h | ⟨u, hu, h⟩
  · exact Or.inl h
  rw [h]
  split
  · exact Or.inl rfl
  rename_i user hread
  split
  · rename_i hpassword
    obtain ⟨hash, hhash, hfits⟩ := (Option.any_eq_true _ _).mp hpassword
    obtain ⟨user, rfl, hhash⟩ := Option.bind_eq_some_iff.mp hhash
    split
    · exact Or.inl rfl
    · exact Or.inl rfl
    rename_i row hrow
    split
    · split
      · exact Or.inl rfl
      · exact Or.inl rfl
      rename_i hcode
      have hdisabled : DisabledBy d w cookie db (.totpDisable password code) u :=
        .disable hu (of_read hread).symm hhash hfits (of_read hrow).symm hcode
      split
      · rename_i heq
        exact Or.inr ⟨u, hdisabled, (congrArg Prod.snd heq).symm⟩
      · rename_i heq
        exact Or.inr ⟨u, hdisabled, (congrArg Prod.snd heq).symm⟩
    · exact Or.inl rfl
  · exact Or.inl rfl

theorem keepsAccounts_writeTwice {opened : String → Nat → Prop} {q q' : AuthQuery}
    {f f' : AuthDb → AuthDb} (hf : KeepsAccounts db (f db) opened)
    (hf' : KeepsAccounts (f db) (f' (f db)) opened) :
    KeepsAccounts db (w.writeTwice q q' f f' db).2 opened := by
  rcases @snd_writeTwice w q q' f f' db with h | ⟨-, h⟩ | h
  · rw [h]
    exact .of_eq rfl rfl
  · rw [h]
    exact hf
  · rw [h]
    exact hf.trans hf'

theorem keepsAccounts_totpSetup {opened : String → Nat → Prop} :
    KeepsAccounts db (totpSetup d w cookie db).db opened := by
  rcases @db_totpSetup d w cookie db with h | ⟨u, token, -, h⟩
  · rw [h]
    exact .of_eq rfl rfl
  · rw [h]
    exact .of_eq rfl rfl

theorem keepsAccounts_totpVerify {opened : String → Nat → Prop} (code : String) :
    KeepsAccounts db (totpVerify d w cookie db code).db opened := by
  rcases @db_totpVerify d w cookie db code with h | ⟨u, codes, -, -, h⟩
  · rw [h]
    exact .of_eq rfl rfl
  · rw [h]
    exact keepsAccounts_writeTwice (.of_eq rfl rfl) (keepsAccounts_updateUser u fun _ => rfl)

theorem keepsAccounts_totpDisable {opened : String → Nat → Prop} (password code : String) :
    KeepsAccounts db (totpDisable d w cookie db password code).db opened := by
  rcases @db_totpDisable d w cookie db password code with h | ⟨u, -, h⟩
  · rw [h]
    exact .of_eq rfl rfl
  · rw [h]
    exact keepsAccounts_writeTwice (.of_eq rfl rfl) (keepsAccounts_updateUser u fun _ => rfl)

end Enrolment

/-! ## Every request -/

section Requests

variable {d : Deployment} {w : RequestWorld} {cookie : Cookie} {db : AuthDb}

def AuthRequest.enrols : AuthRequest → Bool
  | .totpSetup => true
  | .totpVerify _ => true
  | .totpDisable _ _ => true
  | _ => false

/-- **Second factors are the business of three endpoints.** -/
theorem keeps_handle {r : AuthRequest} (h : r.enrols = false) :
    Keeps db (handle d w cookie db r).db (MayOpen d w db r) := by
  cases r with
  | login body => exact @keeps_loginPost d w cookie db body
  | logout => exact @keeps_logout w cookie db _
  | resetPassword token newPassword => exact @keeps_resetPassword d w cookie db _ token newPassword
  | oauthLogin body => exact @keeps_oauthLogin d w cookie db body
  | verifyEmail token => exact @keeps_verifyEmail d w cookie db token
  | totpLogin body => exact @keeps_totpLogin d w cookie db body
  | totpSetup => exact absurd h (by decide)
  | totpVerify code => exact absurd h (by simp [AuthRequest.enrols])
  | totpDisable password code => exact absurd h (by simp [AuthRequest.enrols])

/-- **Accounts stay, and a new session is one that may be opened.** -/
theorem keepsAccounts_handle (r : AuthRequest) :
    KeepsAccounts db (handle d w cookie db r).db (MayOpen d w db r) := by
  cases henrols : r.enrols with
  | false => exact (keeps_handle henrols).toKeepsAccounts
  | true =>
    cases r with
    | totpSetup => exact @keepsAccounts_totpSetup d w cookie db _
    | totpVerify code => exact @keepsAccounts_totpVerify d w cookie db _ code
    | totpDisable password code => exact @keepsAccounts_totpDisable d w cookie db _ password code
    | _ => exact absurd henrols (by simp [AuthRequest.enrols])

end Requests

end OdooSemantic
