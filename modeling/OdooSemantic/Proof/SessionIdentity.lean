import OdooSemantic.Proof.SecondFactor

/-!
# Whose session it is

A cookie names a user three times over: by `username`, by `user_id`, and by the owner of its
`session_id`. Each login writes the fields anew, over whatever an earlier login has left, and as
long as each of them writes all of them the three agree (`Agrees`). The OAuth login leaves
`user_id` alone, and `current_user_id` reads `user_id` first: so an OAuth login over the cookie of
another user acts for the other user from then on (`Mallory`).

A listing of API keys has a way of its own to go wrong. Where nobody has written a `user_id`, the
name is looked up, and if that query fails the listing has no user to filter by, and filters by
none.
-/

namespace OdooSemantic

open KeyedStore

/-! ## Runs -/

/-- The tables, and every cookie a browser may send: the empty one, and those handed out. -/
structure SessionState where
  db : AuthDb
  issued : List Cookie := [{}]

namespace SessionState

variable (d : Deployment) (s : SessionState)

/-- `secrets.token_urlsafe(32)` does not repeat itself, and is not empty. -/
def isFresh (sessionId : String) : Bool :=
  sessionId ≠ "" && s.issued.all fun c => c.sessionId ≠ some sessionId

/-- Any browser sends a request with any cookie it has been handed. Time is part of the request:
    a session expires by it. -/
def step (call : AuthCall) : Option SessionState :=
  if call.cookie ∈ s.issued ∧ s.isFresh call.world.sessionId = true then
    let reply := handle d call.world call.cookie s.db call.request
    some { db := reply.db, issued := reply.cookie :: s.issued }
  else none

end SessionState

/-! ## When an OAuth login gets in -/

section OAuth

variable (d : Deployment) (w : RequestWorld) (db : AuthDb) (body : OAuthLoginBody)

def RequestWorld.oauthMatch : Option (Nat × WebuiUser) :=
  (w.read .oauthUser (db.userByOauth body.provider body.oauthId)).join

def RequestWorld.emailMatch : Option (Nat × WebuiUser) :=
  (w.read .emailUser (db.userByEmail d.lower body.email)).join

/-- **As whom an OAuth login gets in**: as the user of the identity, as the user of the verified
    address, or as a new user. -/
inductive LetsIn : Nat → Prop
  | identity {id : Nat} {user : WebuiUser} (hmatch : w.oauthMatch db body = some (id, user))
      (hactive : user.isActive = true) : LetsIn id
  | address {id : Nat} {user : WebuiUser} (hnone : w.oauthMatch db body = none)
      (hmatch : w.emailMatch d db body = some (id, user)) (hverified : body.emailVerified = true)
      (hmerge : w.answers .mergeOauth = .applied) (hactive : user.isActive = true) : LetsIn id
  | newcomer (hnone : w.oauthMatch db body = none) (hnone' : w.emailMatch d db body = none)
      (hinsert : (db.insertUser (body.newUser w)).isSome = true)
      (hcreate : w.answers .createUser = .applied) : LetsIn db.nextUserId

/-- An OAuth login that gets in comes without a `user_id`, or with that of the user it gets in
    as. -/
def KeepsIdentity (cookie : Cookie) : AuthRequest → Prop
  | .oauthLogin body => ∀ body' id, body.validated d = some body' → LetsIn d w db body' id →
      w.answers .createSession = .applied → cookie.userId = none ∨ cookie.userId = some id
  | _ => True

end OAuth

/-! ## What a request hands out -/

section Cookies

variable {d : Deployment} {w : RequestWorld} {cookie : Cookie} {db : AuthDb}

/-- The cookie of a login, and the tables that go with it. -/
structure LoggedIn (w : RequestWorld) (sent : Cookie) (reply : Reply) (id : Nat)
    (userId : Option Nat) : Prop where
  cookie : ∃ user, reply.db.users.lookup id = some user ∧ reply.cookie =
    { sent with
      sessionId := some w.sessionId, username := some user.username, userId
      sessionAt := some w.now }
  session : ∀ row, reply.db.activeSessions.lookup w.sessionId = some row → row.userId = id

/-- **What a request does to the cookie.** Only an OAuth login keeps a part of the old one. -/
inductive Hands (d : Deployment) (w : RequestWorld) (cookie : Cookie) (db : AuthDb) :
    AuthRequest → Reply → Prop
  | same {r : AuthRequest} {reply : Reply} (h : reply.cookie = cookie) : Hands d w cookie db r reply
  | cleared {r : AuthRequest} {reply : Reply} (h : reply.cookie = {}) : Hands d w cookie db r reply
  | login {r : AuthRequest} {reply : Reply} {id : Nat} (h : LoggedIn w cookie reply id (some id)) :
      Hands d w cookie db r reply
  | oauth {body body' : OAuthLoginBody} {reply : Reply} {id : Nat}
      (hbody : body.validated d = some body') (hin : LetsIn d w db body' id)
      (hcreate : w.answers .createSession = .applied)
      (h : LoggedIn w cookie reply id cookie.userId) :
      Hands d w cookie db (.oauthLogin body) reply

theorem createSession_true {u : Nat} {db' : AuthDb} (h : w.createSession u db = (true, db')) :
    w.answers .createSession = .applied ∧ db'.users = db.users ∧
      ∀ row, db'.activeSessions.lookup w.sessionId = some row → row.userId = u := by
  unfold RequestWorld.createSession at h
  split at h
  · exact absurd (Prod.mk.inj h).1 (by simp)
  rename_i db'' hinsert
  unfold RequestWorld.write DbAnswer.write at h
  split at h
  · rename_i hanswer
    obtain rfl := (Prod.mk.inj h).2
    unfold AuthDb.insertSession at hinsert
    split at hinsert
    · exact absurd hinsert (by simp)
    split at hinsert
    · obtain rfl := Option.some.inj hinsert
      refine ⟨hanswer, rfl, fun row hrow => ?_⟩
      dsimp only at hrow
      rw [AList.lookup_insert] at hrow
      exact (Option.some.inj hrow) ▸ rfl
    · exact absurd hinsert (by simp)
  · exact absurd (Prod.mk.inj h).1 (by simp)
  · exact absurd (Prod.mk.inj h).1 (by simp)

theorem of_write_true {q : AuthQuery} {db' db'' : AuthDb} (h : w.write q db db' = (true, db'')) :
    w.answers q = .applied ∧ db'' = db' := by
  unfold RequestWorld.write at h
  cases hanswer : w.answers q with
  | applied =>
    rw [hanswer] at h
    exact ⟨rfl, (Prod.mk.inj h).2.symm⟩
  | refused =>
    rw [hanswer] at h
    exact absurd (Prod.mk.inj h).1 (by simp)
  | lost =>
    rw [hanswer] at h
    exact absurd (Prod.mk.inj h).1 (by simp)

theorem hands_loginPost (body : LoginBody) :
    Hands d w cookie db (.login body) (loginPost d w cookie db body) := by
  unfold loginPost
  split
  · exact .same rfl
  split
  · exact .same rfl
  split
  · exact .same rfl
  dsimp only
  split
  · exact .same rfl
  rename_i userId user hlookup
  obtain ⟨huser, hname⟩ := of_findWhere (of_read_join hlookup)
  split
  · split
    · exact .same rfl
    split
    · exact .same rfl
    · rename_i hcreate
      obtain ⟨-, husers, hsession⟩ := createSession_true hcreate
      have hrevoked : (w.write .revokeSessions db (db.deleteSessionsOf userId)).2.users =
          db.users := users_write _ rfl
      refine .login ⟨⟨user, ?_, ?_⟩, hsession⟩
      · exact (congrArg _ (husers.trans hrevoked)).trans huser
      · rw [of_decide_eq_true hname]
  · exact .same rfl

theorem hands_promote {r : AuthRequest} {u : Nat} {user : WebuiUser} {db' : AuthDb}
    (huser : db'.users.lookup u = some user) :
    Hands d w cookie db r (promote w cookie db' u user.username) := by
  unfold promote
  split
  · exact .same rfl
  · rename_i hcreate
    obtain ⟨-, husers, hsession⟩ := createSession_true hcreate
    exact .login ⟨⟨user, (congrArg _ husers).trans huser, rfl⟩, hsession⟩

theorem of_userById {id : Int} {user : WebuiUser} (h : db.userById id = some user) :
    db.users.lookup id.toNat = some user := by
  unfold AuthDb.userById at h
  split at h
  · exact absurd h (by simp)
  · exact h

/-- Whoever is asked for a second factor and has none keeps the cookie. -/
theorem cookie_secondFactor (body : MfaLoginBody) (userId : Nat) (row : TotpSecret) :
    RouteOutcome (fun reply => reply.cookie = cookie) (fun _ => True)
      (secondFactor d w cookie db body userId row) := by
  unfold secondFactor
  split
  · exact rfl
  split
  · split
    · trivial
    · exact rfl
  · split
    · exact rfl
    split
    · trivial
    · exact rfl
  · exact rfl

theorem hands_verifyEmail (token : String) :
    Hands d w cookie db (.verifyEmail token) (verifyEmail d w cookie db token) := by
  unfold verifyEmail
  dsimp only
  split
  · exact .same rfl
  split
  · exact .same rfl
  · exact .same rfl
  split
  · exact .same rfl
  split
  · exact .same rfl
  · exact .same rfl
  rename_i row _ _ _ user hread
  have huser : db.users.lookup row.userId = some user := (of_read hread).symm
  split
  · exact .same rfl
  · rename_i db' hwrite
    obtain ⟨-, rfl⟩ := of_write_true hwrite
    have hkeeps : Keeps db (db.verifyEmail w (d.sha256 (PyText.strip token)) row.userId)
        fun _ _ => False := keeps_verified _ _
    obtain ⟨user', huser', hname⟩ := hkeeps.users row.userId user huser
    rw [← hname]
    exact hands_promote huser'

theorem hands_totpLogin (body : MfaLoginBody) :
    Hands d w cookie db (.totpLogin body) (totpLogin d w cookie db body) := by
  unfold totpLogin
  split
  · exact .same rfl
  · exact .same rfl
  split
  · exact .same rfl
  · exact .same rfl
  rename_i id _ _ user hread
  split
  · exact .same rfl
  · exact .same rfl
  rename_i hrow
  split
  · split
    · rename_i reply hreply
      exact .same ((cookie_secondFactor body _ _).of_error hreply)
    · rename_i db' hfactor
      have hkeeps : Keeps db db' fun _ _ => False :=
        ((keeps_secondFactor (of_read hrow).symm).of_ok hfactor).2
      obtain ⟨user', huser', hname⟩ := hkeeps.users id.toNat user (of_userById (of_read hread).symm)
      rw [← hname]
      exact hands_promote huser'
  · exact .same rfl

/-- An OAuth login that has come to a user will let them in, and has their row. -/
theorem oauthUser_outcome (body : OAuthLoginBody) :
    RouteOutcome (fun reply => reply.cookie = cookie)
      (fun found => (found.2.1.isActive = true → LetsIn d w db body found.1) ∧
        ∃ user, found.2.2.users.lookup found.1 = some user ∧
          user.username = found.2.1.username)
      (oauthUser d w cookie db body) := by
  unfold oauthUser
  split
  · rename_i id user hmatch
    exact ⟨fun hactive => .identity hmatch hactive, user,
      (of_findWhere (of_read_join hmatch)).1, rfl⟩
  rename_i hnone
  split
  · rename_i id user hmatch
    split
    · rename_i hverified
      split
      · rename_i db' hwrite
        obtain ⟨hmerge, rfl⟩ := of_write_true hwrite
        have hkeeps : Keeps db (db.mergeOauth id body) fun _ _ => False :=
          keeps_updateUser id (fun _ => rfl) fun _ => rfl
        exact ⟨fun hactive => .address hnone hmatch hverified hmerge hactive,
          hkeeps.users id user (of_findWhere (of_read_join hmatch)).1⟩
      · exact rfl
    · exact rfl
  rename_i hnone'
  split
  · exact rfl
  rename_i db' hinsert
  split
  · rename_i db'' hwrite
    obtain ⟨hcreate, rfl⟩ := of_write_true hwrite
    refine ⟨fun _ => .newcomer hnone hnone' (by rw [hinsert]; rfl) hcreate, body.newUser w, ?_, rfl⟩
    unfold AuthDb.insertUser at hinsert
    split at hinsert
    · exact absurd hinsert (by simp)
    split at hinsert
    · exact absurd hinsert (by simp)
    · exact (Option.some.inj hinsert) ▸ AList.lookup_insert _
  · exact rfl

theorem hands_oauthLogin (body : OAuthLoginBody) :
    Hands d w cookie db (.oauthLogin body) (oauthLogin d w cookie db body) := by
  unfold oauthLogin
  split
  · exact .same rfl
  rename_i body' hbody
  have houtcome := @oauthUser_outcome d w cookie db body'
  split
  · rename_i reply hreply
    exact .same (houtcome.of_error hreply)
  rename_i id user db' hfound
  obtain ⟨hin, user', huser', hname⟩ := houtcome.of_ok hfound
  split
  · rename_i hactive
    split
    · exact .same rfl
    · rename_i hcreate
      obtain ⟨hanswer, husers, hsession⟩ := createSession_true hcreate
      refine .oauth hbody (hin hactive) hanswer ⟨⟨user', ?_, ?_⟩, hsession⟩
      · exact (congrArg _ husers).trans huser'
      · rw [hname]
  · exact .same rfl

theorem cookie_resetPassword (token newPassword : String) :
    (resetPassword d w cookie db token newPassword).cookie = cookie := by
  unfold resetPassword setNewPassword
  dsimp only
  repeat' split
  all_goals rfl

theorem cookie_withSessionUser {go : Nat → Reply} (h : ∀ u, (go u).cookie = cookie) :
    (withSessionUser w cookie db go).cookie = cookie := by
  unfold withSessionUser
  repeat' split
  · rfl
  · rfl
  · rfl
  · exact h _

/-- **Every request hands out one of these.** -/
theorem hands_handle (r : AuthRequest) : Hands d w cookie db r (handle d w cookie db r) := by
  cases r with
  | login body => exact @hands_loginPost d w cookie db body
  | logout =>
    show Hands d w cookie db .logout (logout w cookie db)
    unfold logout
    split
    · exact .cleared rfl
    · exact .cleared rfl
  | resetPassword token newPassword =>
    exact .same (@cookie_resetPassword d w cookie db token newPassword)
  | oauthLogin body => exact @hands_oauthLogin d w cookie db body
  | verifyEmail token => exact @hands_verifyEmail d w cookie db token
  | totpLogin body => exact @hands_totpLogin d w cookie db body
  | totpSetup =>
    refine .same (@cookie_withSessionUser w cookie db _ fun u => ?_)
    repeat' split
    all_goals rfl
  | totpVerify code =>
    refine .same (@cookie_withSessionUser w cookie db _ fun u => ?_)
    repeat' split
    all_goals rfl
  | totpDisable password code =>
    refine .same (@cookie_withSessionUser w cookie db _ fun u => ?_)
    repeat' split
    all_goals rfl

end Cookies

/-! ## One user to a cookie -/

/-- The user of a cookie: whoever of `username`, `user_id` and the owner of the session speaks,
    speaks of them. -/
structure Owns (db : AuthDb) (c : Cookie) (name : String) (id : Nat) : Prop where
  user : ∃ user, db.users.lookup id = some user ∧ user.username = name
  userId : c.userId = none ∨ c.userId = some id
  session : ∃ sid, c.sessionId = some sid ∧ sid ≠ "" ∧
    ∀ row, db.activeSessions.lookup sid = some row → row.userId = id

/-- **The names of a cookie agree**; a cookie without a name is empty. -/
structure Agrees (db : AuthDb) (c : Cookie) : Prop where
  named : ∀ name, c.username = some name → ∃ id, Owns db c name id
  blank : c.username = none → c.userId = none ∧ c.sessionId = none

section Agreement

variable {d : Deployment} {w : RequestWorld} {cookie c : Cookie} {db db' : AuthDb}

theorem agrees_empty : Agrees db {} where
  named := fun _ h => absurd h (by simp)
  blank := fun _ => ⟨rfl, rfl⟩

/-- Opening sessions under other ids does nothing to a cookie. -/
theorem Agrees.of_keepsAccounts {opened : String → Nat → Prop} (h : Agrees db c)
    (hkeeps : KeepsAccounts db db' opened)
    (hfresh : ∀ sid userId, c.sessionId = some sid → ¬opened sid userId) : Agrees db' c where
  named := by
    intro name hname
    obtain ⟨id, ⟨user, huser, huname⟩, huid, sid, hsid, hne, hsession⟩ := h.named name hname
    obtain ⟨user', huser', hname'⟩ := hkeeps.users id user huser
    refine ⟨id, ⟨user', huser', hname'.trans huname⟩, huid, sid, hsid, hne, fun row hrow => ?_⟩
    exact hsession row ((hkeeps.sessions sid row hrow).resolve_right (hfresh sid _ hsid))
  blank := h.blank

/-- A request does nothing to the cookies that other browsers hold. -/
theorem Agrees.keeps {r : AuthRequest} (h : Agrees db c)
    (hkeeps : KeepsAccounts db db' (MayOpen d w db r)) (hfresh : c.sessionId ≠ some w.sessionId) :
    Agrees db' c :=
  h.of_keepsAccounts hkeeps fun _ _ hsid hopened => hfresh (hopened.1 ▸ hsid)

theorem LoggedIn.agrees {reply : Reply} {id : Nat} {userId : Option Nat}
    (h : LoggedIn w cookie reply id userId) (hne : w.sessionId ≠ "")
    (huid : userId = none ∨ userId = some id) : Agrees reply.db reply.cookie := by
  obtain ⟨⟨user, huser, hcookie⟩, hsession⟩ := h
  rw [hcookie]
  refine ⟨fun name hname => ?_, fun hname => absurd hname (by simp)⟩
  obtain rfl := Option.some.inj hname
  exact ⟨id, ⟨user, huser, rfl⟩, huid, w.sessionId, rfl, hne, hsession⟩

/-- **The cookie of a reply agrees**, if that of the request did. -/
theorem Hands.agrees {r : AuthRequest} {reply : Reply} (h : Hands d w cookie db r reply)
    (hok : KeepsIdentity d w db cookie r) (hne : w.sessionId ≠ "")
    (hsame : Agrees reply.db cookie) : Agrees reply.db reply.cookie := by
  cases h with
  | same h =>
    rw [h]
    exact hsame
  | cleared h =>
    rw [h]
    exact agrees_empty
  | login h => exact h.agrees hne (Or.inr rfl)
  | oauth hbody hin hcreate h => exact h.agrees hne (hok _ _ hbody hin hcreate)

end Agreement

/-! ## The checks -/

section Checks

variable {w : RequestWorld} {c : Cookie} {db : AuthDb}

/-- The user the query finds is the owner. -/
theorem Owns.userByName {name : String} {id : Nat} (h : Owns db c name id)
    (hunique : db.UniqueNames) : ∃ user, db.userByName name = some (id, user) := by
  obtain ⟨user, huser, hname⟩ := h.user
  cases hfound : db.userByName name with
  | none =>
    have hother := findWhere_eq_none_iff.mp hfound id user huser
    exact absurd hname (by simpa using hother)
  | some found =>
    obtain ⟨id', user'⟩ := found
    obtain ⟨huser', hname'⟩ := of_findWhere hfound
    have heq : id' = id :=
      hunique id' id user' user huser' huser ((of_decide_eq_true hname').trans hname.symm)
    exact ⟨user', by rw [heq]⟩

/-- **`current_user_id` is the owner**, or nobody. -/
theorem Owns.currentUserId {name : String} {id : Nat} (h : Owns db c name id)
    (hunique : db.UniqueNames) (hname : c.username = some name) {q : AuthQuery} {uid : Nat}
    (huid : currentUserId w c db q = some uid) : uid = id := by
  unfold OdooSemantic.currentUserId at huid
  split at huid
  · rename_i uid' huserId
    obtain rfl := Option.some.inj huid
    cases h.userId with
    | inl hnone => exact absurd (hnone.symm.trans huserId) (by simp)
    | inr hsome => exact Option.some.inj (huserId.symm.trans hsome)
  · split at huid
    · exact absurd huid (by simp)
    rename_i name' hname'
    obtain rfl : name = name' := Option.some.inj (hname.symm.trans hname')
    split at huid
    · exact absurd huid (by simp)
    · obtain ⟨⟨id', user'⟩, hread, rfl⟩ := Option.map_eq_some_iff.mp huid
      obtain ⟨user, hfound⟩ := h.userByName hunique
      exact (Prod.mk.inj (Option.some.inj ((of_read_join hread).symm.trans hfound))).1

theorem Owns.isAdmin {name : String} {id : Nat} (h : Owns db c name id) (hunique : db.UniqueNames)
    (hname : c.username = some name) (hadmin : isAdminSession w c db = true) :
    db.isAdmin id = true := by
  unfold isAdminSession at hadmin
  split at hadmin
  · exact absurd hadmin (by simp)
  rename_i uid huid
  obtain rfl := h.currentUserId hunique hname huid
  cases hread : w.read .isAdmin (db.isAdmin uid) with
  | none => simp [hread] at hadmin
  | some b =>
    rw [hread] at hadmin
    exact (of_read hread) ▸ hadmin

theorem Owns.requireAdmin {name : String} {id : Nat} (h : Owns db c name id)
    (hunique : db.UniqueNames) (hname : c.username = some name) {uid : Nat}
    (hok : requireAdmin w c db = .ok uid) : uid = id ∧ db.isAdmin id = true := by
  unfold OdooSemantic.requireAdmin at hok
  split at hok
  · exact absurd hok (by simp)
  rename_i uid' huid
  obtain rfl := h.currentUserId hunique hname huid
  split at hok
  · exact absurd hok (by simp)
  rename_i b hread
  split at hok
  · rename_i hb
    refine ⟨(Except.ok.inj hok).symm, ?_⟩
    rw [← of_read hread]
    exact hb
  · exact absurd hok (by simp)

/-- The user is written in the cookie, or the query for them is answered. -/
def Resolves (w : RequestWorld) (c : Cookie) : Prop :=
  c.userId ≠ none ∨ w.answers .resolveUser = .applied

theorem Owns.resolved {name : String} {id : Nat} (h : Owns db c name id) (hunique : db.UniqueNames)
    (hname : c.username = some name) (hne : name ≠ "") (hres : Resolves w c) :
    OdooSemantic.currentUserId w c db .resolveUser = some id := by
  cases hcurrent : OdooSemantic.currentUserId w c db .resolveUser with
  | some uid => rw [h.currentUserId hunique hname hcurrent]
  | none =>
    exfalso
    unfold OdooSemantic.currentUserId at hcurrent
    split at hcurrent
    · exact absurd hcurrent (by simp)
    rename_i hnone
    obtain ⟨user, hfound⟩ := h.userByName hunique
    have hanswer := hres.resolve_left (not_not_intro hnone)
    simp [hname, hne, hfound, RequestWorld.read, DbAnswer.read, hanswer] at hcurrent

/-- **A listing shows the owner their own keys**, or every key to an admin. -/
theorem Owns.lists {name : String} {id : Nat} (h : Owns db c name id) (hunique : db.UniqueNames)
    (hname : c.username = some name) (hne : name ≠ "") (hres : Resolves w c) {k : Nat × ApiKey}
    (hk : k ∈ listApiKeysRoute w c db) : db.isAdmin id = true ∨ k.2.userId = some id := by
  unfold listApiKeysRoute at hk
  rw [h.resolved hunique hname hne hres] at hk
  cases hread : w.read .listKeys (db.listApiKeys (some id) (isAdminSession w c db)) with
  | none => simp [hread] at hk
  | some keys =>
    simp only [hread, Option.getD_some] at hk
    rw [of_read hread] at hk
    unfold AuthDb.listApiKeys at hk
    dsimp only at hk
    split at hk
    · rename_i hadmin
      exact Or.inl (h.isAdmin hunique hname hadmin)
    · exact Or.inr (of_decide_eq_true (List.mem_filter.mp hk).2)

/-- **Whoever the middleware lets in** has a session, and it is that of the owner. -/
theorem Agrees.admitted (h : Agrees db c) (hauth : authRequired w c db = true) :
    ∃ name id sid row, c.username = some name ∧ name ≠ "" ∧ Owns db c name id ∧
      c.sessionId = some sid ∧ db.activeSessions.lookup sid = some row ∧ row.userId = id := by
  simp only [authRequired, sessionValid, Bool.and_eq_true] at hauth
  obtain ⟨⟨⟨hvalid, -⟩, hserver⟩, -⟩ := hauth
  obtain ⟨name, hname, hne⟩ := (Option.any_eq_true _ _).mp hvalid
  obtain ⟨id, howns⟩ := h.named name hname
  obtain ⟨sid, hsid, hsne, hsession⟩ := howns.session
  have hlive : serverSessionValid w db sid = true := by
    simpa [hsid, Option.filter, hsne] using hserver
  obtain ⟨owner, howner⟩ := Option.isSome_iff_exists.mp hlive
  obtain ⟨row, hrow, -⟩ := Option.map_eq_some_iff.mp (of_read_join howner)
  have hlookup := (Option.filter_eq_some_iff.mp hrow).1
  exact ⟨name, id, sid, row, hname, of_decide_eq_true hne, howns, hsid, hlookup,
    hsession row hlookup⟩

/-- **The session speaks for its owner**, at any time and whatever the database answers. -/
structure SpeaksForOwner (db : AuthDb) (c : Cookie) : Prop where
  acts : ∀ sid row, c.sessionId = some sid → db.activeSessions.lookup sid = some row → ∀ w,
    (∀ q uid, currentUserId w c db q = some uid → uid = row.userId) ∧
    (isAdminSession w c db = true → db.isAdmin row.userId = true) ∧
    ∀ uid, requireAdmin w c db = .ok uid → uid = row.userId ∧ db.isAdmin row.userId = true
  lists : ∀ w, Resolves w c → ∀ k ∈ getApiKeys w c db, ∃ owner,
    (c.sessionId.bind db.activeSessions.lookup).map (·.userId) = some owner ∧
      (db.isAdmin owner = true ∨ k.2.userId = some owner)

theorem Agrees.speaksForOwner (h : Agrees db c) (hunique : db.UniqueNames) :
    SpeaksForOwner db c := by
  constructor
  · intro sid row hsid hrow w
    cases hname : c.username with
    | none => exact absurd ((h.blank hname).2.symm.trans hsid) (by simp)
    | some name =>
      obtain ⟨id, howns⟩ := h.named name hname
      obtain ⟨sid', hsid', -, hsession⟩ := howns.session
      obtain rfl : sid = sid' := Option.some.inj (hsid.symm.trans hsid')
      rw [hsession row hrow]
      exact ⟨fun q uid => howns.currentUserId hunique hname, howns.isAdmin hunique hname,
        fun uid => howns.requireAdmin hunique hname⟩
  · intro w hres k hk
    unfold getApiKeys at hk
    split at hk
    · rename_i hauth
      obtain ⟨name, id, sid, row, hname, hne, howns, hsid, hlookup, howner⟩ := h.admitted hauth
      refine ⟨id, ?_, howns.lists hunique hname hne hres hk⟩
      rw [hsid]
      show (db.activeSessions.lookup sid).map _ = _
      rw [hlookup]
      exact congrArg some howner
    · exact absurd hk (by simp)

end Checks

/-! ## Every run -/

section Runs

variable {d : Deployment}

/-- Every cookie that has been handed out agrees with the tables. -/
structure SessionState.Consistent (s : SessionState) : Prop where
  unique : s.db.UniqueNames
  agrees : ∀ c ∈ s.issued, Agrees s.db c

theorem consistent_step {s s' : SessionState} {call : AuthCall} (hstep : s.step d call = some s')
    (hok : KeepsIdentity d call.world s.db call.cookie call.request) (h : s.Consistent) :
    s'.Consistent := by
  unfold SessionState.step at hstep
  split at hstep
  · rename_i hguard
    obtain ⟨hissued, hfresh⟩ := hguard
    simp only [SessionState.isFresh, Bool.and_eq_true, decide_eq_true_eq, List.all_eq_true]
      at hfresh
    obtain ⟨hne, hfresh⟩ := hfresh
    obtain rfl := Option.some.inj hstep
    have hkeeps := @keepsAccounts_handle d call.world call.cookie s.db call.request
    have hothers : ∀ c ∈ s.issued,
        Agrees (handle d call.world call.cookie s.db call.request).db c :=
      fun c hc => (h.agrees c hc).keeps hkeeps (hfresh c hc)
    refine ⟨hkeeps.unique h.unique, fun c hc => ?_⟩
    cases List.mem_cons.mp hc with
    | inl heq =>
      rw [heq]
      exact (hands_handle call.request).agrees hok hne (hothers call.cookie hissued)
    | inr hc => exact hothers c hc
  · exact absurd hstep (by simp)

/-- **Whose session it is**: in every run in which no OAuth login gets in over another user's
    `user_id`, each cookie names one user, and the session speaks for that user. -/
theorem session_identity {db : AuthDb} (hunique : db.UniqueNames) {calls : List AuthCall}
    {s : SessionState}
    (hrun : Machine.Runs (fun s call => SessionState.step d s call)
      (fun s call => KeepsIdentity d call.world s.db call.cookie call.request) { db } calls s) :
    ∀ c ∈ s.issued, Agrees s.db c ∧ SpeaksForOwner s.db c := by
  have hstart : SessionState.Consistent { db } := by
    refine ⟨hunique, fun c hc => ?_⟩
    obtain rfl := List.mem_singleton.mp hc
    exact agrees_empty
  have hend := hrun.invariant (fun _ _ _ hstep hok h => consistent_step hstep hok h) hstart
  exact fun c hc => ⟨hend.agrees c hc, (hend.agrees c hc).speaksForOwner hend.unique⟩

end Runs

/-! ## An OAuth login over the cookie of an admin -/

namespace Mallory

def root : WebuiUser where
  username := "root"
  passwordHash := some "bcrypt:correct horse battery"
  isAdmin := true

def mallory : WebuiUser where
  username := "mallory"
  email := some "mallory@shop.example"
  oauthProvider := some "google"
  oauthId := some "g-2"

def db : AuthDb where
  users := AList.insert 1 root (AList.insert 2 mallory ∅)
  apiKeys := AList.insert 5 { name := "deploy", keyPrefix := "osm_", userId := some 1 } ∅

theorem uniqueNames : db.UniqueNames := by
  have hcases : ∀ i u, db.users.lookup i = some u → i = 1 ∧ u = root ∨ i = 2 ∧ u = mallory := by
    intro i u hu
    by_cases h1 : i = 1
    · subst h1
      exact Or.inl ⟨rfl, (Option.some.inj hu).symm⟩
    · unfold db at hu
      rw [AList.lookup_insert_ne h1] at hu
      by_cases h2 : i = 2
      · subst h2
        exact Or.inr ⟨rfl, (Option.some.inj hu).symm⟩
      · rw [AList.lookup_insert_ne h2] at hu
        exact absurd hu (by simp)
  intro i j u v hu hv hname
  rcases hcases i u hu with ⟨rfl, rfl⟩ | ⟨rfl, rfl⟩
  · rcases hcases j v hv with ⟨rfl, -⟩ | ⟨-, rfl⟩
    · rfl
    · exact absurd hname (by decide)
  · rcases hcases j v hv with ⟨-, rfl⟩ | ⟨rfl, -⟩
    · exact absurd hname (by decide)
    · rfl

/-- The admin logs in, with a password. -/
def login : AuthCall :=
  ⟨{ now := 1000, sessionId := "s1" }, {}, .login ⟨"root", "correct horse battery"⟩⟩

def rootCookie : Cookie := ⟨some "s1", some "root", some 1, some 1000, none⟩

/-- Mallory logs in, through the provider. -/
def google (cookie : Cookie) : AuthCall :=
  ⟨{ now := 2000, sessionId := "s2" }, cookie,
    .oauthLogin ⟨"google", "g-2", "mallory@shop.example", true⟩⟩

def afterLogin : SessionState := ((SessionState.step Alice.site { db } login).getD { db })

/-- Both of them are logged in, in this order; Mallory over this cookie. -/
def afterGoogle (cookie : Cookie) : SessionState :=
  (SessionState.step Alice.site afterLogin (google cookie)).getD afterLogin

/-- In a browser of his own. -/
theorem run_own : Machine.Runs (fun s call => SessionState.step Alice.site s call)
    (fun s call => KeepsIdentity Alice.site call.world s.db call.cookie call.request) { db }
    [login, google {}] (afterGoogle {}) :=
  .cons (show _ = some afterLogin from rfl) trivial
    (.cons rfl (fun _ _ _ _ _ => Or.inl rfl) (.nil _))

theorem session_identity_own :
    Agrees (afterGoogle {}).db rootCookie ∧ SpeaksForOwner (afterGoogle {}).db rootCookie :=
  session_identity uniqueNames run_own rootCookie (by decide)

def unanswered : RequestWorld :=
  { now := 2001, sessionId := "s3"
    answers := fun q => if q = .resolveUser then .refused else .applied }

/-- **In the browser of the admin**, Mallory's cookie has the `user_id` of the admin, and its
    session is an admin's. In a browser of his own it has none, and a listing whose query for
    the user fails shows the key of the admin. -/
theorem session_identity_breaks :
    (Machine.Runs (fun s call => SessionState.step Alice.site s call) (fun _ _ => True) { db }
      [login, google rootCookie] (afterGoogle rootCookie)) ∧
    (∃ c ∈ (afterGoogle rootCookie).issued, c.username = some "mallory" ∧ c.userId = some 1 ∧
      (afterGoogle rootCookie).db.sessionOwner 2001 "s2" = some 2 ∧ c.sessionId = some "s2" ∧
      isAdminSession unanswered c (afterGoogle rootCookie).db = true ∧
      (afterGoogle rootCookie).db.isAdmin 2 = false) ∧
    (Machine.Runs (fun s call => SessionState.step Alice.site s call) (fun _ _ => True) { db }
      [login, google {}] (afterGoogle {})) ∧
    ∃ c ∈ (afterGoogle {}).issued, c.sessionId = some "s2" ∧
      (afterGoogle {}).db.sessionOwner 2001 "s2" = some 2 ∧
      isAdminSession unanswered c (afterGoogle {}).db = false ∧
      (getApiKeys unanswered c (afterGoogle {}).db).map (·.2.userId) = [some 1] := by
  have hlogin : SessionState.step Alice.site { db } login = some afterLogin := rfl
  refine ⟨.cons hlogin trivial (.cons rfl trivial (.nil _)), ?_,
    .cons hlogin trivial (.cons rfl trivial (.nil _)), ?_⟩
  · exact ⟨_, List.mem_cons_self, rfl, rfl, rfl, rfl, rfl, rfl⟩
  · exact ⟨_, List.mem_cons_self, rfl, rfl, rfl, rfl⟩

end Mallory

end OdooSemantic
