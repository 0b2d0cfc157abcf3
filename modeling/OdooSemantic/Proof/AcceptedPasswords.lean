import OdooSemantic.Proof.AccountLinking

/-!
# Whether an accepted password works

What a registration or a reset stores is the hash of the password, and a login that finds the hash and
nothing else in its way goes through, if the password passes the rules of the login. The registration
has only one of them, and the reset has none.
-/

namespace OdooSemantic

open KeyedStore

section Accepted

variable (d : Deployment)

/-! ## The rules -/

/-- What the login asks of a password, in `LoginBody` and in `login_post`. -/
structure LoginAdmits (password : String) : Prop where
  atLeast : 12 ≤ password.length
  atMost : password.length ≤ 128
  uncommon : d.isCommon password = false

/-- The three endpoints have the same answer to a password that can be hashed. The reset asks nothing
    of it. -/
structure SameRules (password : String) : Prop where
  register : validatePassword d password = none ↔ LoginAdmits d password
  reset : LoginAdmits d password

theorem validatePassword_eq_none_iff {password : String} : validatePassword d password = none ↔
    12 ≤ password.length ∧ d.lower password ∉ commonPasswords := by
  unfold validatePassword
  split
  · rename_i hshort
    simp only [reduceCtorEq, false_iff, not_and_or]
    exact Or.inl (by omega)
  · rename_i hlong
    split
    · rename_i hcommon
      simp [hcommon]
    · rename_i huncommon
      exact iff_of_true rfl ⟨by omega, huncommon⟩

theorem sameRules_iff {password : String} : SameRules d password ↔
    LoginAdmits d password ∧ d.lower password ∉ commonPasswords := by
  constructor
  · rintro ⟨hregister, hreset⟩
    exact ⟨hreset, ((validatePassword_eq_none_iff d).mp (hregister.mpr hreset)).2⟩
  · rintro ⟨hlogin, huncommon⟩
    refine ⟨iff_of_true ?_ hlogin, hlogin⟩
    exact (validatePassword_eq_none_iff d).mpr ⟨hlogin.atLeast, huncommon⟩

/-! ## What is stored -/

/-- The tables behind a request that has accepted a password, and whose password it is. -/
inductive AcceptsPassword : AuthDb → String → String → Prop
  | register {w : SignupWorld} {cookie : Cookie} {db : AuthDb} {body : RegisterBody} :
      (register d w cookie db body).response = .verificationEmailSent →
      AcceptsPassword (register d w cookie db body).db (PyText.strip body.username) body.password
  | reset {w : RequestWorld} {cookie : Cookie} {db : AuthDb} {token key password : String}
      {row : EmailVerification} :
      db.resetToken (d.sha256 token) = some (key, row) →
      (resetPassword d w cookie db token password).response = .ok →
      AcceptsPassword (resetPassword d w cookie db token password).db
        (((db.users.lookup row.userId).map (·.username)).getD (PyText.str row.userId)) password

/-- A user of that name has the hash. -/
def Stored (db : AuthDb) (name hash : String) : Prop :=
  ∃ id user, db.users.lookup id = some user ∧ user.username = name ∧ user.passwordHash = some hash

theorem Stored.of_eq {db db' : AuthDb} {name hash : String} (h : Stored db name hash)
    (hdb : db'.users = db.users) : Stored db' name hash := by
  unfold Stored
  rwa [hdb]

theorem stored_insertUser {db db' : AuthDb} {user : WebuiUser} {hash : String}
    (h : db.insertUser user = some db') (hhash : user.passwordHash = some hash) :
    Stored db' user.username hash :=
  ⟨db.nextUserId, user, lookup_of_insertUser h, rfl, hhash⟩

theorem stored_setUserPassword {db db' : AuthDb} {now : Nat} {name hash : String}
    (h : db.setUserPassword now name hash = some db') : Stored db' name hash := by
  unfold AuthDb.setUserPassword at h
  split at h
  · rename_i id user hfind
    obtain rfl := Option.some.inj h
    obtain ⟨hlookup, hname⟩ := of_findWhere hfind
    refine ⟨id, { user with passwordHash := some hash }, ?_, by simpa using hname, rfl⟩
    rw [AuthDb.updateUser, lookup_modify_self, hlookup]
    rfl
  · exact stored_insertUser h rfl

variable {d} {db : AuthDb} {cookie : Cookie}

theorem eq_of_write {a : DbAnswer} {db db' db'' : AuthDb} (h : a.write db db' = (true, db'')) :
    db'' = db' := by
  cases a with
  | applied => exact (Prod.mk.inj h).2.symm
  | refused => exact absurd (Prod.mk.inj h).1 (by simp)
  | lost => exact absurd (Prod.mk.inj h).1 (by simp)

theorem stored_createAccount {w : SignupWorld} {email username hash : String}
    (h : (createAccount d w cookie db email username hash).response = .verificationEmailSent) :
    Stored (createAccount d w cookie db email username hash).db username hash := by
  unfold createAccount at h ⊢
  split at h
  · exact absurd h (by simp)
  · rename_i db' hinsert
    split at h
    · exact absurd h (by simp)
    · rename_i db'' hwrite
      obtain rfl := eq_of_write hwrite
      exact (stored_insertUser hinsert rfl).of_eq (users_sendVerification _)

theorem stored_register {w : SignupWorld} {body : RegisterBody}
    (h : (register d w cookie db body).response = .verificationEmailSent) :
    ∃ hash, d.hashPassword body.password w.seed = some hash ∧
      Stored (register d w cookie db body).db (PyText.strip body.username) hash := by
  unfold register at h ⊢
  dsimp only at h ⊢
  split at h
  · exact absurd h (by simp)
  rename_i hemail
  split at h
  · exact absurd h (by simp)
  rename_i hlength
  split at h
  · exact absurd h (by simp)
  rename_i hconfirm
  rw [if_neg hemail, if_neg hlength, if_neg hconfirm]
  split at h
  · exact absurd h (by simp)
  rename_i hvalid
  split at h
  · rename_i hcaptcha
    split at h
    · exact absurd h (by simp)
    · rename_i hash hhash
      rw [if_pos hcaptcha]
      refine ⟨hash, hhash, ?_⟩
      split at h
      · exact stored_createAccount h
      · exact absurd h (by simp)
      · exact absurd h (by simp)
  · exact absurd h (by simp)

theorem stored_setNewPassword {w : RequestWorld} {userId : Nat} {password : String}
    (h : (setNewPassword d w cookie db userId password).response = .ok) :
    ∃ hash, d.hashPassword password w.seed = some hash ∧
      Stored (setNewPassword d w cookie db userId password).db
        (((db.users.lookup userId).map (·.username)).getD (PyText.str userId)) hash := by
  unfold setNewPassword at h ⊢
  dsimp only at h ⊢
  split at h
  · rename_i hash user hhash huser
    obtain rfl := of_read huser
    refine ⟨hash, hhash, ?_⟩
    split at h
    · rename_i db' hset
      have hstored := stored_setUserPassword (of_read hset).symm
      split at h
      · exact absurd h (by simp)
      · rename_i db'' hwrite
        obtain rfl := eq_of_write hwrite
        split at h
        · exact absurd h (by simp)
        · rename_i hrevoke
          rw [eq_of_write hrevoke]
          exact hstored.of_eq rfl
    · exact absurd h (by simp)
  · exact absurd h (by simp)

theorem stored_resetPassword {w : RequestWorld} {token key password : String}
    {row : EmailVerification} (hrow : db.resetToken (d.sha256 token) = some (key, row))
    (h : (resetPassword d w cookie db token password).response = .ok) :
    ∃ hash, d.hashPassword password w.seed = some hash ∧
      Stored (resetPassword d w cookie db token password).db
        (((db.users.lookup row.userId).map (·.username)).getD (PyText.str row.userId)) hash := by
  unfold resetPassword at h ⊢
  rw [hrow] at h ⊢
  split at h
  · exact absurd h (by simp)
  · exact absurd h (by simp)
  rename_i hread
  have heq := of_read hread
  simp only [Option.some.injEq, Prod.mk.injEq] at heq
  obtain ⟨rfl, rfl⟩ := heq
  split at h
  · exact absurd h (by simp)
  rename_i hused
  split at h
  · exact absurd h (by simp)
  rename_i hexpired
  rw [if_neg hused, if_neg hexpired]
  split at h
  · exact absurd h (by simp)
  · rename_i db' hwrite
    obtain rfl := eq_of_write hwrite
    exact stored_setNewPassword h

/-- **A password that is accepted is hashed, and the hash is stored.** -/
theorem AcceptsPassword.stored {name password : String} (h : AcceptsPassword d db name password) :
    ∃ salt hash, d.hashPassword password salt = some hash ∧ Stored db name hash := by
  cases h with
  | register hsent => exact ⟨_, stored_register hsent⟩
  | reset hrow hok => exact ⟨_, stored_resetPassword hrow hok⟩

/-! ## The login -/

/-- An active user of that name with that hash and without a second factor, and nothing in the way. -/
structure LoginMeets (w : RequestWorld) (db : AuthDb) (name hash : String) : Prop where
  up : ∀ q, w.answers q = .applied
  allowed : w.rateLimited = false
  fresh : w.sessionId ∉ db.activeSessions
  user : ∃ id user, db.userByName name = some (id, user) ∧ user.passwordHash = some hash ∧
    user.isActive = true
  noFactor : db.enabledUser name = none

/-- Every later login with the name and the password succeeds, while the hash is the user's. -/
def Works (d : Deployment) (name password hash : String) : Prop :=
  ∀ w cookie db, LoginMeets w db name hash →
    (loginPost d w cookie db ⟨name, password⟩).response = .loggedIn name

theorem RequestWorld.read_of_up {w : RequestWorld} (h : ∀ q, w.answers q = .applied)
    {A : Type} (q : AuthQuery) (x : A) : w.read q x = some x := by
  rw [RequestWorld.read, h q]
  rfl

theorem RequestWorld.write_of_up {w : RequestWorld} (h : ∀ q, w.answers q = .applied)
    (q : AuthQuery) (db db' : AuthDb) : w.write q db db' = (true, db') := by
  rw [RequestWorld.write, h q]
  rfl

theorem createSession_of_up {w : RequestWorld} (h : ∀ q, w.answers q = .applied) {userId : Nat}
    (hfresh : w.sessionId ∉ db.activeSessions) (huser : userId ∈ db.users) :
    ∃ db', w.createSession userId db = (true, db') := by
  unfold RequestWorld.createSession AuthDb.insertSession
  rw [if_neg hfresh, if_pos huser]
  exact ⟨_, w.write_of_up h _ _ _⟩

theorem login_of_admits {name password hash : String} (hadmits : LoginAdmits d password)
    (hname : PyText.strip name = name) (hverify : d.verifyPassword password hash = true) :
    Works d name password hash := by
  intro w cookie db hmeets
  obtain ⟨id, user, hfind, hhash, hactive⟩ := hmeets.user
  have hlong := hadmits.atLeast
  have hmost := hadmits.atMost
  have hlength : (password.length < 1 || 128 < password.length) = false := by
    simp only [Bool.or_eq_false_iff, decide_eq_false_iff_not]
    omega
  have hfits : (passwordFits d user password && user.isActive && !d.isCommon password) = true := by
    simp [passwordFits, hhash, hverify, hactive, hadmits.uncommon]
  have hlookup : ((w.read .lookupUser (db.userByName name)).join) = some (id, user) := by
    rw [w.read_of_up hmeets.up, hfind]
    rfl
  have hfactor : checkTotpEnabled w db name = none := by
    rw [checkTotpEnabled, w.read_of_up hmeets.up, hmeets.noFactor]
    rfl
  have hmem : id ∈ db.users := by
    rw [← AList.lookup_isSome, (of_findWhere hfind).1]
    rfl
  have hfresh : w.sessionId ∉ (db.deleteSessionsOf id).activeSessions := by
    intro h
    rw [AuthDb.deleteSessionsOf, mem_eraseWhere] at h
    exact hmeets.fresh h.1
  obtain ⟨db', hcreate⟩ := createSession_of_up hmeets.up hfresh hmem
  unfold loginPost
  simp only [hlength, Bool.false_eq_true, if_false, if_neg (show ¬ password.length < 12 by omega),
    hmeets.allowed, hname, hlookup, hfits, if_true, hfactor, w.write_of_up hmeets.up, hcreate]

/-- A database with the one user, for whom nothing is in the way. -/
def onlyUser (name hash : String) : AuthDb where
  users := AList.insert 1 { username := name, passwordHash := some hash } ∅

def upWorld : RequestWorld := { now := 0, sessionId := "session" }

theorem userByName_onlyUser (name hash name' : String) : (onlyUser name hash).userByName name' =
    if name = name' then some (1, { username := name, passwordHash := some hash }) else none := by
  unfold AuthDb.userByName findWhere onlyUser
  by_cases h : name = name' <;> simp [h, AList.insert, AList.keys, AList.lookup]

theorem loginMeets_onlyUser (name hash : String) :
    LoginMeets upWorld (onlyUser name hash) name hash where
  up _ := rfl
  allowed := rfl
  fresh := AList.notMem_empty _
  user := ⟨1, _, by rw [userByName_onlyUser, if_pos rfl], rfl, rfl⟩
  noFactor := by
    unfold AuthDb.enabledUser AuthDb.totpEnabled
    rw [List.find?_eq_none]
    intro id _
    simp [onlyUser]

theorem admits_of_works {name password hash : String} (h : Works d name password hash) :
    LoginAdmits d password ∧ PyText.strip name = name := by
  have hlogin := h upWorld {} _ (loginMeets_onlyUser name hash)
  unfold loginPost at hlogin
  dsimp only at hlogin
  split at hlogin
  · exact absurd hlogin (by simp)
  rename_i hlength
  split at hlogin
  · exact absurd hlogin (by simp)
  rename_i hshort
  split at hlogin
  · exact absurd hlogin (by simp)
  split at hlogin
  · exact absurd hlogin (by simp)
  rename_i userId user hfind
  have hname : PyText.strip name = name := by
    have huser := of_read_join hfind
    rw [userByName_onlyUser] at huser
    by_contra hne
    rw [if_neg fun heq => hne heq.symm] at huser
    exact absurd huser (by simp)
  split at hlogin
  · rename_i hfits
    simp only [Bool.and_eq_true, Bool.not_eq_true'] at hfits
    simp only [Bool.or_eq_true, decide_eq_true_eq, not_or] at hlength
    exact ⟨⟨by omega, by omega, hfits.2⟩, hname⟩
  · exact absurd hlogin (by simp)

end Accepted

/-- An accepted password is stored and works if the login admits it and finds the name, and the three
endpoints agree on those passwords that all of them admit. -/
theorem accepted_password_works_iff (d : Deployment)
    (hbcrypt : ∀ password salt hash, d.hashPassword password salt = some hash →
      d.verifyPassword password hash = true) :
    (∀ db name password, AcceptsPassword d db name password →
      ∃ salt hash, d.hashPassword password salt = some hash ∧ Stored db name hash ∧
        (Works d name password hash ↔ LoginAdmits d password ∧ PyText.strip name = name)) ∧
    ∀ password, SameRules d password ↔
      LoginAdmits d password ∧ d.lower password ∉ commonPasswords := by
  refine ⟨fun db name password h => ?_, fun password => sameRules_iff d⟩
  obtain ⟨salt, hash, hhash, hstored⟩ := h.stored
  refine ⟨salt, hash, hhash, hstored, admits_of_works, fun hadmits => ?_⟩
  exact login_of_admits hadmits.1 hadmits.2 (hbcrypt password salt hash hhash)

namespace BobResets

def bob : WebuiUser where
  username := "bob"
  passwordHash := some "bcrypt:correct horse battery"

def db : AuthDb where
  users := AList.insert 3 bob ∅
  emailVerifications := AList.insert "sha256:link"
    { userId := 3, purpose := .passwordReset, tokenHash := some "sha256:link", expiresAt := 4600 } ∅

def reply : Reply := resetPassword Alice.site Alice.world {} db "link" "secret1"

theorem accepted : AcceptsPassword Alice.site reply.db "bob" "secret1" :=
  @AcceptsPassword.reset Alice.site Alice.world {} db "link" "sha256:link" "secret1" _ rfl rfl

/-- More than the login reads. -/
def longPassword : String := String.ofList (List.replicate 129 'x')

def signup : Reply :=
  register Alice.site { Alice.world with rawToken := "mail" } {} {}
    ⟨"eve@shop.example", "eve", longPassword, longPassword, ""⟩

theorem accepted_password_works_site : ∃ salt hash,
    Alice.site.hashPassword "secret1" salt = some hash ∧ Stored reply.db "bob" hash ∧
      (Works Alice.site "bob" "secret1" hash ↔
        LoginAdmits Alice.site "secret1" ∧ PyText.strip "bob" = "bob") := by
  refine (accepted_password_works_iff Alice.site fun password salt hash h => ?_).1 _ _ _ accepted
  obtain rfl := Option.some.inj h
  exact decide_eq_true rfl

/-- **A password that is too short for the login, set by a reset, and one that is too long for it, set
by a registration**: both are stored, and the logins with them fail. -/
theorem accepted_and_locked_out :
    (AcceptsPassword Alice.site reply.db "bob" "secret1" ∧
      reply.db.userByName "bob" = some (3, { bob with passwordHash := some "bcrypt:secret1" }) ∧
      (loginPost Alice.site Alice.world {} reply.db ⟨"bob", "secret1"⟩).response =
        .failed 401 "invalid_credentials") ∧
    signup.response = .verificationEmailSent ∧
      (loginPost Alice.site Alice.world {} signup.db ⟨"eve", longPassword⟩).response =
        .failed 422 "password" := by
  refine ⟨⟨accepted, rfl, rfl⟩, by decide +kernel, by decide +kernel⟩

end BobResets

end OdooSemantic
