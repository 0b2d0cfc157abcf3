import OdooSemantic.Proof.SessionIdentity
import OdooSemantic.Proof.Statements
import OdooSemantic.Web.Signup

/-!
# Who has an account

An account has a password, set by whoever registered it, and an OAuth identity, linked by whoever
came from a provider with the same e-mail address. The address joins the two, so somebody should
have proved that it is theirs. `register` asks nobody; `oauth_login` asks the provider about the
one who comes, and nobody about the one who is there.

So what is safe hangs on the moment of a merge (`MergesSafely`): there is no identity to be
replaced, and no password of somebody who has proved nothing (`linking_safe`). `oauth_login`
reads the columns that say so, and does not look at them (`Squatter`).
-/

namespace OdooSemantic

open KeyedStore

/-! ## Credentials -/

/-- The OAuth identity of the account. -/
def WebuiUser.identity (u : WebuiUser) : Option (String × String) :=
  match u.oauthProvider, u.oauthId with
  | some provider, some oauthId => some (provider, oauthId)
  | _, _ => none

namespace AuthDb

variable (db : AuthDb) (id : Nat)

def password : Option String := (db.users.lookup id).bind (·.passwordHash)

def identity : Option (String × String) := (db.users.lookup id).bind WebuiUser.identity

end AuthDb

/-- The account has the same password and the same identity. -/
structure SameCredentials (db db' : AuthDb) (id : Nat) : Prop where
  password : db'.password id = db.password id
  identity : db'.identity id = db.identity id

section Same

variable {db db' db'' : AuthDb} {id : Nat}

theorem SameCredentials.of_lookup (h : db'.users.lookup id = db.users.lookup id) :
    SameCredentials db db' id where
  password := by
    unfold AuthDb.password
    rw [h]
  identity := by
    unfold AuthDb.identity
    rw [h]

theorem SameCredentials.trans (h : SameCredentials db db' id) (h' : SameCredentials db' db'' id) :
    SameCredentials db db'' id where
  password := h'.password.trans h.password
  identity := h'.identity.trans h.identity

theorem lookup_updateUser_ne {f : WebuiUser → WebuiUser} {v : Nat} (h : v ≠ id) :
    (db.updateUser id f).users.lookup v = db.users.lookup v := lookup_modify_ne h f _

theorem lookup_updateUser_self {f : WebuiUser → WebuiUser} :
    (db.updateUser id f).users.lookup id = (db.users.lookup id).map f := lookup_modify_self id f _

/-- Verifying an address does nothing to a credential. -/
theorem sameCredentials_updateUser {f : WebuiUser → WebuiUser}
    (hpassword : ∀ u, (f u).passwordHash = u.passwordHash)
    (hidentity : ∀ u, (f u).identity = u.identity) (v : Nat) :
    SameCredentials db (db.updateUser id f) v := by
  by_cases hv : v = id
  · subst hv
    refine ⟨?_, ?_⟩
    · unfold AuthDb.password
      rw [lookup_updateUser_self]
      cases db.users.lookup v with
      | none => rfl
      | some u => exact hpassword u
    · unfold AuthDb.identity
      rw [lookup_updateUser_self]
      cases db.users.lookup v with
      | none => rfl
      | some u => exact hidentity u
  · exact .of_lookup (lookup_updateUser_ne hv)

theorem users_createSession (w : RequestWorld) (u : Nat) (db : AuthDb) :
    (w.createSession u db).2.users = db.users := by
  unfold RequestWorld.createSession
  split
  · rfl
  · rename_i db' hinsert
    exact users_write _ (by rw [(of_insertSession hinsert).2])

theorem users_of_createSession {w : RequestWorld} {u : Nat} {b : Bool}
    (h : w.createSession u db = (b, db')) : db'.users = db.users := by
  rw [← users_createSession w u db, h]

end Same

/-! ## Requests -/

inductive LinkRequest where
  | register (body : RegisterBody)
  | verifyEmail (token : String)
  | login (body : LoginBody)
  | oauthLogin (body : OAuthLoginBody)

/-- A request, and whose it is. -/
structure LinkAct (P : Type) where
  principal : P
  world : SignupWorld
  cookie : Cookie := {}
  request : LinkRequest

def LinkRequest.reply (d : Deployment) (w : SignupWorld) (cookie : Cookie) (db : AuthDb) :
    LinkRequest → Reply
  | .register body => OdooSemantic.register d w cookie db body
  | .verifyEmail token => OdooSemantic.verifyEmail d w.toRequestWorld cookie db token
  | .login body => loginPost d w.toRequestWorld cookie db body
  | .oauthLogin body => OdooSemantic.oauthLogin d w.toRequestWorld cookie db body

/-- The accounts, who has set each password and linked each identity last, and who has presented
    the token that was mailed to an account's address. -/
structure LinkState (P : Type) where
  db : AuthDb
  passwordBy : Nat → Option P := fun _ => none
  linkedBy : Nat → Option P := fun _ => none
  proved : List (Nat × P) := []

/-- The accounts whose tokens were used up between the one and the other. -/
def AuthDb.verifiedSince (db db' : AuthDb) : List Nat :=
  db.emailVerifications.keys.filterMap fun token =>
    match db.emailVerifications.lookup token, db'.emailVerifications.lookup token with
    | some row, some row' =>
        if row.purpose = .emailVerify && row.usedAt.isNone && row'.usedAt.isSome then
          some row.userId
        else none
    | _, _ => none

namespace LinkState

variable {P : Type}

/-- What a principal's request has changed is theirs. -/
def observe (s : LinkState P) (p : P) (db : AuthDb) : LinkState P where
  db := db
  passwordBy := fun id => if db.password id = s.db.password id then s.passwordBy id else some p
  linkedBy := fun id => if db.identity id = s.db.identity id then s.linkedBy id else some p
  proved := (s.db.verifiedSince db).map (fun id => (id, p)) ++ s.proved

def step (d : Deployment) (s : LinkState P) (act : LinkAct P) : Option (LinkState P) :=
  some (s.observe act.principal (act.request.reply d act.world act.cookie s.db).db)

/-- The account has a password that somebody has set who has proved nothing, and an identity that
    somebody else has linked. -/
def Exposed (s : LinkState P) (id : Nat) : Prop :=
  (s.db.password id).isSome = true ∧ (s.db.identity id).isSome = true ∧
    ∃ p q, s.passwordBy id = some p ∧ (id, p) ∉ s.proved ∧ s.linkedBy id = some q ∧ q ≠ p

/-- An OAuth login that is merged into an account: the account has no identity, and whoever has
    set its password is the one who comes or has proved that the address is theirs. Or it has that
    identity already. -/
def MergesSafely (d : Deployment) (s : LinkState P) (act : LinkAct P) : Prop :=
  ∀ body body' id user, act.request = .oauthLogin body → body.validated d = some body' →
    act.world.toRequestWorld.oauthMatch s.db body' = none →
    act.world.toRequestWorld.emailMatch d s.db body' = some (id, user) →
    body'.emailVerified = true → act.world.answers .mergeOauth ≠ .refused →
    s.db.identity id = some (body'.provider, body'.oauthId) ∨
      s.db.identity id = none ∧ ((s.db.password id).isSome = true →
        ∀ p, s.passwordBy id = some p → p = act.principal ∨ (id, p) ∈ s.proved)

end LinkState

/-! ## What a request does to the credentials -/

/-- **Three ways to change a credential.** -/
inductive CredentialEffect (d : Deployment) (w : RequestWorld) (db : AuthDb) :
    LinkRequest → AuthDb → Prop
  | kept {r : LinkRequest} {db' : AuthDb} (h : ∀ id, SameCredentials db db' id) :
      CredentialEffect d w db r db'
  | registered {body : RegisterBody} {db' : AuthDb} {id : Nat} (hnew : db.users.lookup id = none)
      (hothers : ∀ v, v ≠ id → SameCredentials db db' v) (hidentity : db'.identity id = none) :
      CredentialEffect d w db (.register body) db'
  | created {body : OAuthLoginBody} {db' : AuthDb} {id : Nat} (hnew : db.users.lookup id = none)
      (hothers : ∀ v, v ≠ id → SameCredentials db db' v) (hpassword : db'.password id = none) :
      CredentialEffect d w db (.oauthLogin body) db'
  | merged {body body' : OAuthLoginBody} {db' : AuthDb} {id : Nat} {user : WebuiUser}
      (hbody : body.validated d = some body') (hnone : w.oauthMatch db body' = none)
      (hmatch : w.emailMatch d db body' = some (id, user)) (hverified : body'.emailVerified = true)
      (hanswer : w.answers .mergeOauth ≠ .refused)
      (hothers : ∀ v, v ≠ id → SameCredentials db db' v)
      (hpassword : db'.password id = db.password id)
      (hidentity : db'.identity id = some (body'.provider, body'.oauthId)) :
      CredentialEffect d w db (.oauthLogin body) db'

section Effect

variable {d : Deployment} {w : RequestWorld} {cookie : Cookie} {db db' db'' : AuthDb}
  {r : LinkRequest}

theorem CredentialEffect.of_users (h : CredentialEffect d w db r db')
    (husers : db''.users = db'.users) : CredentialEffect d w db r db'' := by
  have hsame : ∀ id, SameCredentials db' db'' id := fun id => .of_lookup (by rw [husers])
  cases h with
  | kept h => exact .kept fun id => (h id).trans (hsame id)
  | @registered body _ id hnew hothers hidentity =>
    exact .registered hnew (fun v hv => (hothers v hv).trans (hsame v))
      ((hsame id).identity.trans hidentity)
  | @created body _ id hnew hothers hpassword =>
    exact .created hnew (fun v hv => (hothers v hv).trans (hsame v))
      ((hsame id).password.trans hpassword)
  | @merged body body' _ id user hbody hnone hmatch hverified hanswer hothers hpassword hidentity =>
    exact .merged hbody hnone hmatch hverified hanswer (fun v hv => (hothers v hv).trans (hsame v))
      ((hsame id).password.trans hpassword) ((hsame id).identity.trans hidentity)

theorem CredentialEffect.refl : CredentialEffect d w db r db := .kept fun _ => .of_lookup rfl

theorem CredentialEffect.of_users_eq (h : db'.users = db.users) : CredentialEffect d w db r db' :=
  CredentialEffect.refl.of_users h

/-- A statement that may not take effect. -/
theorem CredentialEffect.write {a : DbAnswer} {b : Bool}
    (h : CredentialEffect d w db r db') (hwrite : a.write db db' = (b, db'')) :
    CredentialEffect d w db r db'' := by
  have hcases := snd_write a db db'
  rw [hwrite] at hcases
  obtain rfl | rfl := hcases
  · exact .refl
  · exact h

theorem effect_loginPost (body : LoginBody) :
    CredentialEffect d w db (.login body) (loginPost d w cookie db body).db := by
  refine .of_users_eq ?_
  unfold loginPost
  split
  · rfl
  split
  · rfl
  split
  · rfl
  dsimp only
  split
  · rfl
  rename_i userId user _
  split
  · split
    · rfl
    have hrevoked : (w.write .revokeSessions db (db.deleteSessionsOf userId)).2.users =
        db.users := users_write _ rfl
    split
    · rename_i hcreate
      exact (users_of_createSession hcreate).trans hrevoked
    · rename_i hcreate
      exact (users_of_createSession hcreate).trans hrevoked
  · rfl

theorem users_promote (userId : Nat) (username : String) :
    (promote w cookie db userId username).db.users = db.users := by
  unfold promote
  split
  · rename_i hcreate
    exact users_of_createSession hcreate
  · rename_i hcreate
    exact users_of_createSession hcreate

theorem effect_verifyEmail (token : String) :
    CredentialEffect d w db (.verifyEmail token) (verifyEmail d w cookie db token).db := by
  unfold verifyEmail
  dsimp only
  split
  · exact .refl
  split
  · exact .refl
  · exact .refl
  rename_i row _
  split
  · exact .refl
  split
  · exact .refl
  · exact .refl
  have hverified : CredentialEffect d w db (.verifyEmail token)
      (db.verifyEmail w (d.sha256 (PyText.strip token)) row.userId) := by
    have hkept : CredentialEffect d w db (.verifyEmail token)
        (db.updateUser row.userId fun u => { u with emailVerified := true }) :=
      .kept fun v => @sameCredentials_updateUser db row.userId
        (fun u => { u with emailVerified := true }) (fun _ => rfl) (fun _ => rfl) v
    exact hkept.of_users rfl
  split
  · rename_i hwrite
    exact hverified.write hwrite
  · rename_i hwrite
    exact (hverified.write hwrite).of_users (users_promote _ _)

/-- A new row is that of a new account. -/
theorem sameCredentials_insertUser {user : WebuiUser} (h : db.insertUser user = some db') {v : Nat}
    (hv : v ≠ db.nextUserId) : SameCredentials db db' v := by
  refine .of_lookup ?_
  rw [of_insertUser h]
  exact AList.lookup_insert_ne hv

theorem lookup_of_insertUser {user : WebuiUser} (h : db.insertUser user = some db') :
    db'.users.lookup db.nextUserId = some user := by
  rw [of_insertUser h]
  exact AList.lookup_insert _

theorem users_sendVerification {w : SignupWorld} (userId : Nat) :
    (sendVerification d w cookie db userId).db.users = db.users := by
  unfold sendVerification
  split
  · rfl
  rename_i db' hinsert
  have husers : db'.users = db.users := by
    unfold AuthDb.insertVerification at hinsert
    split at hinsert
    · exact absurd hinsert (by simp)
    · exact (Option.some.inj hinsert) ▸ rfl
  have hwritten : (w.write .insertVerification db db').2.users = db.users := users_write _ husers
  split
  · rename_i hwrite
    rw [hwrite] at hwritten
    exact hwritten
  · rename_i hwrite
    rw [hwrite] at hwritten
    exact hwritten

theorem effect_createAccount {w : SignupWorld} {body : RegisterBody}
    (email username hash : String) :
    CredentialEffect d w.toRequestWorld db (.register body)
      (createAccount d w cookie db email username hash).db := by
  unfold createAccount
  split
  · exact .refl
  rename_i db' hinsert
  have hnew : CredentialEffect d w.toRequestWorld db (.register body) db' := by
    refine .registered (lookup_nextUserId db) (fun v hv => sameCredentials_insertUser hinsert hv) ?_
    unfold AuthDb.identity
    rw [lookup_of_insertUser hinsert]
    rfl
  split
  · rename_i hwrite
    exact hnew.write hwrite
  · rename_i hwrite
    exact (hnew.write hwrite).of_users (users_sendVerification _)

theorem effect_register {w : SignupWorld} (body : RegisterBody) :
    CredentialEffect d w.toRequestWorld db (.register body) (register d w cookie db body).db := by
  unfold register
  dsimp only
  split
  · exact .refl
  split
  · exact .refl
  split
  · exact .refl
  split
  · exact .refl
  split
  · split
    · exact .refl
    · split
      · exact effect_createAccount _ _ _
      · exact .refl
      · exact .refl
  · exact .refl

/-- A merge sets both columns of the account. -/
theorem effect_merge {body body' : OAuthLoginBody} {id : Nat} {user : WebuiUser}
    (hbody : body.validated d = some body') (hnone : w.oauthMatch db body' = none)
    (hmatch : w.emailMatch d db body' = some (id, user)) (hverified : body'.emailVerified = true)
    (hanswer : w.answers .mergeOauth ≠ .refused) :
    CredentialEffect d w db (.oauthLogin body) (db.mergeOauth id body') := by
  have huser : db.users.lookup id = some user := (of_findWhere (of_read_join hmatch)).1
  have hmerged : (db.mergeOauth id body').users.lookup id = some
      { user with oauthProvider := some body'.provider, oauthId := some body'.oauthId } := by
    unfold AuthDb.mergeOauth
    rw [lookup_updateUser_self, huser]
    rfl
  refine .merged hbody hnone hmatch hverified hanswer
    (fun v hv => .of_lookup (lookup_updateUser_ne hv)) ?_ ?_
  · unfold AuthDb.password
    rw [hmerged, huser]
    rfl
  · unfold AuthDb.identity
    rw [hmerged]
    rfl

theorem effect_oauthUser {body body' : OAuthLoginBody} (hbody : body.validated d = some body') :
    RouteOutcome (fun reply => CredentialEffect d w db (.oauthLogin body) reply.db)
      (fun found => CredentialEffect d w db (.oauthLogin body) found.2.2)
      (oauthUser d w cookie db body') := by
  unfold oauthUser
  split
  · exact .refl
  rename_i hnone
  split
  · rename_i id user hmatch
    split
    · rename_i hverified
      have hmerge : ∀ {b : Bool} {db'' : AuthDb},
          w.write .mergeOauth db (db.mergeOauth id body') = (b, db'') →
          CredentialEffect d w db (.oauthLogin body) db'' := by
        intro b db'' hwrite
        by_cases hanswer : w.answers .mergeOauth = .refused
        · unfold RequestWorld.write at hwrite
          rw [hanswer] at hwrite
          exact (Prod.mk.inj hwrite).2 ▸ .refl
        · exact (effect_merge hbody hnone hmatch hverified hanswer).write hwrite
      split
      · rename_i hwrite
        exact hmerge hwrite
      · rename_i hwrite
        exact hmerge hwrite
    · exact .refl
  split
  · exact .refl
  rename_i db' hinsert
  have hnew : CredentialEffect d w db (.oauthLogin body) db' := by
    refine .created (lookup_nextUserId db) (fun v hv => sameCredentials_insertUser hinsert hv) ?_
    unfold AuthDb.password
    rw [lookup_of_insertUser hinsert]
    rfl
  split
  · rename_i hwrite
    exact hnew.write hwrite
  · rename_i hwrite
    exact hnew.write hwrite

theorem effect_oauthLogin (body : OAuthLoginBody) :
    CredentialEffect d w db (.oauthLogin body) (oauthLogin d w cookie db body).db := by
  unfold oauthLogin
  split
  · exact .refl
  rename_i body' hbody
  have houtcome := @effect_oauthUser d w cookie db body body' hbody
  split
  · rename_i reply hreply
    exact houtcome.of_error hreply
  rename_i userId user db' huser
  have heffect := houtcome.of_ok huser
  split
  · split
    · rename_i hcreate
      exact heffect.of_users (users_of_createSession hcreate)
    · rename_i hcreate
      exact heffect.of_users (users_of_createSession hcreate)
  · exact heffect

theorem effect_reply (w : SignupWorld) (r : LinkRequest) :
    CredentialEffect d w.toRequestWorld db r (r.reply d w cookie db).db := by
  cases r with
  | register body => exact effect_register body
  | verifyEmail token => exact effect_verifyEmail token
  | login body => exact effect_loginPost body
  | oauthLogin body => exact effect_oauthLogin body

end Effect

/-! ## Runs -/

section Runs

variable {P : Type} {d : Deployment} {s s' : LinkState P} {act : LinkAct P} {db : AuthDb} {id : Nat}
  {p : P}

theorem identity_of_new (h : db.users.lookup id = none) : db.identity id = none := by
  unfold AuthDb.identity
  rw [h]
  rfl

/-- An account whose credentials are left alone is no more exposed than before. -/
theorem not_exposed_observe (h : ¬s.Exposed id) (hsame : SameCredentials s.db db id) :
    ¬(s.observe p db).Exposed id := by
  rintro ⟨hpassword, hidentity, q, r, hset, hproved, hlinked, hne⟩
  refine h ⟨hsame.password ▸ hpassword, hsame.identity ▸ hidentity, q, r, ?_, ?_, ?_, hne⟩
  · simpa [LinkState.observe, hsame.password] using hset
  · exact fun hmem => hproved (List.mem_append_right _ hmem)
  · simpa [LinkState.observe, hsame.identity] using hlinked

/-- Not even by a merge, if it is a safe one. -/
theorem not_exposed_merge {provider oauthId : String} (h : ¬s.Exposed id)
    (hpassword : db.password id = s.db.password id)
    (hidentity : db.identity id = some (provider, oauthId))
    (hsafe : s.db.identity id = some (provider, oauthId) ∨
      s.db.identity id = none ∧ ((s.db.password id).isSome = true →
        ∀ q, s.passwordBy id = some q → q = p ∨ (id, q) ∈ s.proved)) :
    ¬(s.observe p db).Exposed id := by
  cases hsafe with
  | inl hsame => exact not_exposed_observe h ⟨hpassword, hidentity.trans hsame.symm⟩
  | inr hfree =>
    rintro ⟨hset, -, q, r, hby, hproved, hlinked, hne⟩
    have hby' : s.passwordBy id = some q := by simpa [LinkState.observe, hpassword] using hby
    -- the identity is new, so it is the one who comes that has linked it
    have hlinked' : p = r := by simpa [LinkState.observe, hidentity, hfree.1] using hlinked
    cases hfree.2 (hpassword ▸ hset) q hby' with
    | inl heq => exact hne (hlinked'.symm.trans heq.symm)
    | inr hmem => exact hproved (List.mem_append_right _ hmem)

theorem exposed_step (hstep : s.step d act = some s') (hok : s.MergesSafely d act)
    (h : ∀ id, ¬s.Exposed id) (id : Nat) : ¬s'.Exposed id := by
  obtain rfl := Option.some.inj hstep
  have heffect := @effect_reply d act.cookie s.db act.world act.request
  generalize (act.request.reply d act.world act.cookie s.db).db = db at heffect
  generalize hr : act.request = r at heffect
  cases heffect with
  | kept hsame => exact not_exposed_observe (h id) (hsame id)
  | @registered body _ new hnew hothers hidentity =>
    by_cases hid : id = new
    · -- a password, and nobody has linked anything yet
      subst hid
      exact fun hexposed => absurd hexposed.2.1 (by simp [LinkState.observe, hidentity])
    · exact not_exposed_observe (h id) (hothers id hid)
  | @created body _ new hnew hothers hpassword =>
    by_cases hid : id = new
    · -- an identity, and `password_hash` is `NULL`
      subst hid
      exact fun hexposed => absurd hexposed.1 (by simp [LinkState.observe, hpassword])
    · exact not_exposed_observe (h id) (hothers id hid)
  | @merged body body' _ merged user hbody hnone hmatch hverified hanswer hothers hpassword
      hidentity =>
    by_cases hid : id = merged
    · subst hid
      exact not_exposed_merge (h id) hpassword hidentity
        (hok body body' id user hr hbody hnone hmatch hverified hanswer)
    · exact not_exposed_observe (h id) (hothers id hid)

theorem identity_step {x : String × String} (hstep : s.step d act = some s')
    (hok : s.MergesSafely d act) (h : s.db.identity id = some x) : s'.db.identity id = some x := by
  obtain rfl := Option.some.inj hstep
  have heffect := @effect_reply d act.cookie s.db act.world act.request
  show (act.request.reply d act.world act.cookie s.db).db.identity id = some x
  generalize (act.request.reply d act.world act.cookie s.db).db = db at heffect
  generalize hr : act.request = r at heffect
  cases heffect with
  | kept hsame => exact (hsame id).identity.trans h
  | @registered body _ new hnew hothers _ =>
    have hid : id ≠ new := fun heq => absurd (heq ▸ h) (by simp [identity_of_new hnew])
    exact (hothers id hid).identity.trans h
  | @created body _ new hnew hothers _ =>
    have hid : id ≠ new := fun heq => absurd (heq ▸ h) (by simp [identity_of_new hnew])
    exact (hothers id hid).identity.trans h
  | @merged body body' _ merged user hbody hnone hmatch hverified hanswer hothers _ hidentity =>
    by_cases hid : id = merged
    · subst hid
      cases hok body body' id user hr hbody hnone hmatch hverified hanswer with
      | inl hsame => exact hidentity.trans (hsame.symm.trans h)
      | inr hfree => exact absurd (hfree.1.symm.trans h) (by simp)
    · exact (hothers id hid).identity.trans h

end Runs

/-- **Linking is safe where every merge is**: no account is exposed, and an identity stays. -/
theorem linking_safe {P : Type} (d : Deployment) {s₀ s : LinkState P}
    (hstart : ∀ id, ¬s₀.Exposed id) {acts : List (LinkAct P)}
    (hrun : Machine.Runs (LinkState.step d) (LinkState.MergesSafely d) s₀ acts s) :
    (∀ id, ¬s.Exposed id) ∧
      ∀ id x, s₀.db.identity id = some x → s.db.identity id = some x := by
  refine ⟨hrun.invariant (fun _ _ _ hstep hok h => exposed_step hstep hok h) hstart,
    fun id x hx => ?_⟩
  exact @Machine.Runs.invariant _ _ _ _ (fun s => s.db.identity id = some x)
    (fun _ _ _ hstep hok h => identity_step hstep hok h) _ _ _ hrun hx

/-! ## Somebody else's address

The address is Alice's. Mallory comes first. -/

namespace Squatter

inductive Person where
  | alice
  | mallory
deriving DecidableEq

def site : Deployment := Alice.site

def register (principal : Person) (password : String) : LinkAct Person where
  principal
  world := { now := 1000, sessionId := "s1", rawToken := "mailed" }
  request := .register
    { email := "alice@shop.example", username := "alice", password, confirmPassword := password }

def google (principal : Person) : LinkAct Person where
  principal
  world := { now := 2000, sessionId := "s2", suffix := "0a1b2c3d", rawToken := "" }
  request := .oauthLogin ⟨"google", "g-1", "alice@shop.example", true⟩

/-- At this provider anybody may claim any address. -/
def github (principal : Person) : LinkAct Person where
  principal
  world := { now := 1000, sessionId := "s1", suffix := "4e5f6a7b", rawToken := "" }
  request := .oauthLogin ⟨"github", "m-1", "alice@shop.example", false⟩

def start : LinkState Person := { db := {} }

def next (s : LinkState Person) (act : LinkAct Person) : LinkState Person :=
  s.observe act.principal (act.request.reply site act.world act.cookie s.db).db

theorem not_exposed_start (id : Nat) : ¬start.Exposed id := by
  rintro ⟨hpassword, -⟩
  exact absurd hpassword (by simp [start, AuthDb.password])

theorem run_two {ok : LinkState Person → LinkAct Person → Prop} {first second : LinkAct Person}
    (hfirst : ok start first) (hsecond : ok (next start first) second) :
    Machine.Runs (LinkState.step site) ok start [first, second]
      (next (next start first) second) :=
  .cons rfl hfirst (.cons rfl hsecond (.nil _))

def aliceRegisters : LinkAct Person := register .alice "correct horse battery"

def malloryRegisters : LinkAct Person := register .mallory "mallory's password"

/-- The password is Alice's own. -/
theorem mergesSafely_own :
    (next start aliceRegisters).MergesSafely site (google .alice) := by
  intro body body' id user hr hbody _ hmatch _ _
  obtain rfl : body = ⟨"google", "g-1", "alice@shop.example", true⟩ :=
    (LinkRequest.oauthLogin.inj hr).symm
  obtain rfl : body' = ⟨"google", "g-1", "alice@shop.example", true⟩ :=
    (Option.some.inj hbody).symm
  obtain ⟨rfl, -⟩ := Prod.mk.inj (Option.some.inj hmatch)
  exact Or.inr ⟨rfl, fun _ p hp => Or.inl (Option.some.inj hp).symm⟩

/-- A registration merges nothing. -/
theorem mergesSafely_register (s : LinkState Person) (principal : Person) (password : String) :
    s.MergesSafely site (register principal password) := by
  intro body _ _ _ hr
  exact absurd hr (by simp [register])

/-- Alice registers, and comes back by Google. -/
theorem linking_safe_own : ¬(next (next start aliceRegisters) (google .alice)).Exposed 1 :=
  (linking_safe site not_exposed_start
    (run_two (mergesSafely_register _ _ _) mergesSafely_own)).1 1

/-- **Mallory keeps the password of Alice's account, and Mallory's identity gives way to
    Alice's.** -/
theorem linking_unsafe :
    (¬∀ acts s, Machine.Runs (LinkState.step site) (fun _ _ => True) start acts s →
      ∀ id, ¬s.Exposed id) ∧
    ¬∀ acts s act s', Machine.Runs (LinkState.step site) (fun _ _ => True) start acts s →
      s.step site act = some s' → ∀ id x, s.db.identity id = some x →
        s'.db.identity id = some x := by
  refine ⟨fun h => ?_, fun h => ?_⟩
  · have hrun : Machine.Runs (LinkState.step site) (fun _ _ => True) start
        [malloryRegisters, google .alice] (next (next start malloryRegisters) (google .alice)) :=
      run_two trivial trivial
    refine h _ _ hrun 1 ⟨rfl, rfl, .mallory, .alice, rfl, ?_, rfl, by decide⟩
    exact List.not_mem_nil
  · have hrun : Machine.Runs (LinkState.step site) (fun _ _ => True) start [github .mallory]
        (next start (github .mallory)) := .cons rfl trivial (.nil _)
    have hkept := h _ _ (google .alice) _ hrun rfl 1 ("github", "m-1") rfl
    exact absurd hkept (by decide)

end Squatter

end OdooSemantic
