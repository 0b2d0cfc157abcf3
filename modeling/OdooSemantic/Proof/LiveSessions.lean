import OdooSemantic.Proof.SessionIdentity
import OdooSemantic.Web.Routing

/-!
# What a request gets without a session

The middleware asks for a row of `active_sessions`, and lets everything below `/api/auth/` pass.
Below it there are the endpoints that are meant for everybody, `verify_session`, which asks for
the row itself, and four endpoints of the second factor. These ask for a name in the cookie. A
cookie is signed once and for all, so it keeps its name when its session is revoked.
-/

namespace OdooSemantic

open KeyedStore

/-! ## Paths -/

/-- A character that `request.url.path` keeps, and that does not end it. -/
def isUnescaped (c : Char) : Bool := c ∉ ['?', '#', '\t', '\r', '\n']

/-- **`request.url.path` begins as the path does**, as far as there are only plain characters. -/
def KeepsPrefix (urlPath : String → String) : Prop :=
  ∀ path pre, pre <+: path.toList → (∀ c ∈ pre, isUnescaped c = true) → pre <+: (urlPath path).toList

theorem eq_append_of_afterText {text cs rest : List Char} (h : afterText text cs = some rest) :
    cs = text ++ rest := by
  induction text generalizing cs with
  | nil => exact Option.some.inj h
  | cons c text ih =>
    cases cs with
    | nil => exact absurd h (by simp [afterText])
    | cons c' cs =>
      rw [afterText] at h
      split at h
      · rename_i heq
        rw [← heq, ih h, List.cons_append]
      · exact absurd h (by simp)

theorem prefix_of_fits {s : String} {parts : List PathPart} {cs : List Char}
    (h : PathPart.fits (.text s :: parts) cs = true) : s.toList <+: cs := by
  rw [PathPart.fits] at h
  split at h
  · rename_i rest hafter
    exact ⟨rest, (eq_append_of_afterText hafter).symm⟩
  · exact absurd h (by simp)

/-- The text that the path of a route begins with. -/
def Route.start (route : Route) : List Char :=
  match route.parts with
  | .text s :: _ => s.toList
  | _ => []

def authPrefix : List Char := "/api/auth/".toList

/-- No path that begins like this is exempt. -/
def isBehind (start : List Char) : Bool :=
  start.all isUnescaped && !authPrefix.isPrefixOf start && !start.isPrefixOf authPrefix &&
    ["/health", "/api/health", "/openapi.json", "/docs", "/redoc"].all fun path =>
      !start.isPrefixOf path.toList

/-- Every path that begins like this is exempt. -/
def isBelow (start : List Char) : Bool := start.all isUnescaped && authPrefix.isPrefixOf start

section Exempt

variable {urlPath : String → String} {path : String} {start : List Char}

theorem not_isExempt_of_isBehind (hurl : KeepsPrefix urlPath) (hpath : start <+: path.toList)
    (h : isBehind start = true) : isExempt (urlPath path) = false := by
  simp only [isBehind, Bool.and_eq_true, Bool.not_eq_true', List.all_eq_true] at h
  obtain ⟨⟨⟨hplain, hauth⟩, hauth'⟩, hexact⟩ := h
  have hstart := hurl path start hpath hplain
  rw [← Bool.not_eq_true]
  intro hexempt
  rw [isExempt, Bool.or_eq_true, decide_eq_true_eq] at hexempt
  cases hexempt with
  | inl hmem =>
    have hno := hexact _ hmem
    rw [← Bool.not_eq_true, List.isPrefixOf_iff_prefix] at hno
    exact hno hstart
  | inr hbelow =>
    rw [List.isPrefixOf_iff_prefix] at hbelow
    rw [← Bool.not_eq_true, List.isPrefixOf_iff_prefix] at hauth hauth'
    cases List.prefix_or_prefix_of_prefix hbelow hstart with
    | inl h => exact hauth h
    | inr h => exact hauth' h

theorem isExempt_of_isBelow (hurl : KeepsPrefix urlPath) (hpath : start <+: path.toList)
    (h : isBelow start = true) : isExempt (urlPath path) = true := by
  rw [isBelow, Bool.and_eq_true, List.all_eq_true, List.isPrefixOf_iff_prefix] at h
  rw [isExempt, Bool.or_eq_true, List.isPrefixOf_iff_prefix]
  exact Or.inr (h.2.trans (hurl path start hpath h.1))

end Exempt

/-! ## Routes -/

namespace Endpoint

/-- Login and logout, registration, e-mail verification, password reset. -/
def isAnonymous : Endpoint → Bool
  | login | logout | resetPassword | oauthLogin | register | verifyEmail | resendVerification
  | totpLogin => true
  | _ => false

/-- A name in the cookie is all that they ask for. -/
def takesCookie : Endpoint → Bool
  | totpSetup | totpVerify | totpDisable | totpStatus => true
  | _ => false

def isGuarded : Endpoint → Bool
  | guarded _ => true
  | _ => false

end Endpoint

/-- **The prefix divides the routes**: what is not modelled here is behind the middleware, and the
    four endpoints are not. -/
theorem routes_divided : routes.all (fun route =>
    (!route.endpoint.isGuarded || isBehind route.start) &&
      (!route.endpoint.takesCookie || isBelow route.start)) = true := by decide +kernel

theorem exists_of_route {r : HttpRequest} {e : Endpoint} (h : r.route = some e) :
    ∃ route ∈ routes, route.endpoint = e ∧ route.start <+: r.path.toList := by
  obtain ⟨route, hfind, rfl⟩ := Option.map_eq_some_iff.mp h
  refine ⟨route, List.mem_of_find?_eq_some hfind, rfl, ?_⟩
  have hfits := List.find?_some hfind
  rw [Bool.and_eq_true] at hfits
  unfold Route.start
  split
  · rename_i s parts hparts
    rw [hparts] at hfits
    exact prefix_of_fits hfits.2
  · exact List.nil_prefix

section Divided

variable {urlPath : String → String} {r : HttpRequest} {e : Endpoint}

theorem not_isExempt_of_isGuarded (hurl : KeepsPrefix urlPath) (hroute : r.route = some e)
    (he : e.isGuarded = true) : isExempt (urlPath r.path) = false := by
  obtain ⟨route, hmem, rfl, hstart⟩ := exists_of_route hroute
  have hdivided := List.all_eq_true.mp routes_divided route hmem
  rw [Bool.and_eq_true, he] at hdivided
  exact not_isExempt_of_isBehind hurl hstart (by simpa using hdivided.1)

theorem isExempt_of_takesCookie (hurl : KeepsPrefix urlPath) (hroute : r.route = some e)
    (he : e.takesCookie = true) : isExempt (urlPath r.path) = true := by
  obtain ⟨route, hmem, rfl, hstart⟩ := exists_of_route hroute
  have hdivided := List.all_eq_true.mp routes_divided route hmem
  rw [Bool.and_eq_true, he] at hdivided
  exact isExempt_of_isBelow hurl hstart (by simpa using hdivided.2)

end Divided

/-! ## Cookies -/

/-- A cookie with a name has a session. -/
def Cookie.HasSession (c : Cookie) : Prop :=
  ∀ name, c.username = some name → ∃ sid, c.sessionId = some sid ∧ sid ≠ ""

/-- **The cookie's session is a row that has neither expired nor been revoked.** -/
def LiveSession (c : Cookie) (db : AuthDb) (now : Nat) : Prop :=
  ∃ sid, c.sessionId = some sid ∧ (db.sessionOwner now sid).isSome = true

section Cookies

variable {d : Deployment} {w : RequestWorld} {cookie : Cookie} {db : AuthDb}

theorem hasSession_handle (hne : w.sessionId ≠ "") (h : cookie.HasSession) (r : AuthRequest) :
    (handle d w cookie db r).cookie.HasSession := by
  have hlogin : ∀ {reply : Reply} {id : Nat} {userId : Option Nat},
      LoggedIn w cookie reply id userId → reply.cookie.HasSession := by
    intro reply id userId hlogin
    obtain ⟨user, -, hcookie⟩ := hlogin.cookie
    rw [hcookie]
    exact fun _ _ => ⟨w.sessionId, rfl, hne⟩
  cases @hands_handle d w cookie db r with
  | same heq =>
    rw [heq]
    exact h
  | cleared heq =>
    rw [heq]
    exact fun _ hname => absurd hname (by simp)
  | login hin => exact hlogin hin
  | oauth _ _ _ hin => exact hlogin hin

/-- The check of the middleware, which `verify_session` repeats. -/
theorem liveSession_of_valid (h : cookie.HasSession) (hvalid : sessionValid w cookie = true)
    (hserver : (cookie.sessionId.filter (· ≠ "")).all (serverSessionValid w db) = true) :
    LiveSession cookie db w.now := by
  rw [sessionValid, Bool.and_eq_true] at hvalid
  obtain ⟨name, hname, -⟩ := (Option.any_eq_true _ _).mp hvalid.1
  obtain ⟨sid, hsid, hne⟩ := h name hname
  have hlive : serverSessionValid w db sid = true := by
    simpa [hsid, Option.filter, hne] using hserver
  obtain ⟨owner, howner⟩ := Option.isSome_iff_exists.mp hlive
  exact ⟨sid, hsid, by rw [of_read_join howner]; rfl⟩

theorem liveSession_of_authRequired (h : cookie.HasSession)
    (hauth : authRequired w cookie db = true) : LiveSession cookie db w.now := by
  simp only [authRequired, Bool.and_eq_true] at hauth
  exact liveSession_of_valid h hauth.1.1 hauth.1.2

end Cookies

/-! ## What the four endpoints ask for -/

/-- The request changes the tables, or its answer has data of a user. -/
def HttpReply.Acts (db : AuthDb) (reply : HttpReply) : Prop :=
  reply.answer.showsUser = true ∨ reply.db ≠ db

/-- What an endpoint asks for, of the user in the cookie. -/
def Endpoint.Grants (d : Deployment) (db : AuthDb) (now : Nat) (body : RequestBody) (userId : Nat)
    (user : WebuiUser) : Endpoint → Prop
  | totpStatus => True
  | totpSetup => d.fernetKey.isSome = true
  | totpVerify => ∃ code row, body = .code code ∧ db.totpSecrets.lookup userId = some row ∧
      d.verifyCode row code now = some true
  | totpDisable => ∃ password code row, body = .disable password code ∧
      user.passwordHash.any (d.verifyPassword password) = true ∧
      db.totpSecrets.lookup userId = some row ∧ row.enabled = true ∧
      d.verifyCode row code now = some true
  | _ => False

/-- **One of the four endpoints takes the cookie**: there is a user of that name, and they pass
    the checks of the endpoint. -/
def TakesCookie (d : Deployment) (cookie : Cookie) (db : AuthDb) (now : Nat) (body : RequestBody)
    (e : Endpoint) : Prop :=
  ∃ name userId user, cookie.username = some name ∧ name ≠ "" ∧
    db.userByName name = some (userId, user) ∧ e.Grants d db now body userId user

section Takes

variable {d : Deployment} {w : RequestWorld} {cookie : Cookie} {db : AuthDb}

theorem not_acts_failed {status : Nat} {error : String} :
    ¬(Reply.http ⟨.failed status error, cookie, db⟩).Acts db :=
  fun h => h.elim Bool.false_ne_true fun h => h rfl

theorem not_acts_crashed : ¬(Reply.http ⟨.crashed, cookie, db⟩).Acts db :=
  fun h => h.elim Bool.false_ne_true fun h => h rfl

/-- An endpoint that acts has found the user. -/
theorem of_withSessionUser_acts {go : Nat → Reply}
    (h : (withSessionUser w cookie db go).http.Acts db) : ∃ name userId user,
      cookie.username = some name ∧ name ≠ "" ∧ db.userByName name = some (userId, user) ∧
        (go userId).http.Acts db := by
  unfold withSessionUser at h
  split at h
  · exact absurd h not_acts_failed
  rename_i name hname
  obtain ⟨hname, hne⟩ := Option.filter_eq_some_iff.mp hname
  split at h
  · exact absurd h not_acts_crashed
  · exact absurd h not_acts_failed
  · rename_i userId user hread
    exact ⟨name, userId, user, hname, of_decide_eq_true hne, (of_read hread).symm, h⟩

theorem takesCookie_of_totpSetup {body : RequestBody}
    (h : (totpSetup d w cookie db).http.Acts db) :
    TakesCookie d cookie db w.now body .totpSetup := by
  obtain ⟨name, userId, user, hname, hne, huser, hacts⟩ := of_withSessionUser_acts h
  refine ⟨name, userId, user, hname, hne, huser, ?_⟩
  split at hacts
  · exact absurd hacts not_acts_crashed
  · rename_i token hencrypt
    obtain ⟨key, hkey, -⟩ := Option.map_eq_some_iff.mp hencrypt
    exact Option.isSome_iff_exists.mpr ⟨key, hkey⟩

theorem takesCookie_of_totpVerify {code : String}
    (h : (totpVerify d w cookie db code).http.Acts db) :
    TakesCookie d cookie db w.now (.code code) .totpVerify := by
  obtain ⟨name, userId, user, hname, hne, huser, hacts⟩ := of_withSessionUser_acts h
  refine ⟨name, userId, user, hname, hne, huser, ?_⟩
  split at hacts
  · exact absurd hacts not_acts_crashed
  · exact absurd hacts not_acts_failed
  rename_i row hread
  split at hacts
  · exact absurd hacts not_acts_crashed
  · exact absurd hacts not_acts_failed
  · rename_i hcode
    exact ⟨code, row, rfl, (of_read hread).symm, hcode⟩

theorem takesCookie_of_totpDisable {password code : String}
    (h : (totpDisable d w cookie db password code).http.Acts db) :
    TakesCookie d cookie db w.now (.disable password code) .totpDisable := by
  obtain ⟨name, userId, user, hname, hne, huser, hacts⟩ := of_withSessionUser_acts h
  refine ⟨name, userId, user, hname, hne, huser, ?_⟩
  split at hacts
  · exact absurd hacts not_acts_crashed
  rename_i found hfound
  obtain rfl : found = some user :=
    (of_read hfound).trans (of_findWhere huser).1
  split at hacts
  · rename_i hpassword
    split at hacts
    · exact absurd hacts not_acts_crashed
    · exact absurd hacts not_acts_failed
    rename_i row hread
    split at hacts
    · rename_i henabled
      split at hacts
      · exact absurd hacts not_acts_crashed
      · exact absurd hacts not_acts_failed
      · rename_i hcode
        exact ⟨password, code, row, rfl, hpassword, (of_read hread).symm, henabled, hcode⟩
    · exact absurd hacts not_acts_failed
  · exact absurd hacts not_acts_failed

theorem takesCookie_of_totpStatus {body : RequestBody}
    (h : (totpStatus w cookie db).http.Acts db) :
    TakesCookie d cookie db w.now body .totpStatus := by
  obtain ⟨name, userId, user, hname, hne, huser, -⟩ := of_withSessionUser_acts h
  exact ⟨name, userId, user, hname, hne, huser, trivial⟩

/-- Surroundings in which nothing goes wrong. -/
def calm (now : Nat) : RequestWorld := { now, sessionId := "" }

theorem read_calm {α : Type} (now : Nat) (q : AuthQuery) (x : α) : (calm now).read q x = some x :=
  rfl

theorem write_calm (now : Nat) (q : AuthQuery) (db db' : AuthDb) :
    (calm now).write q db db' = (true, db') := rfl

theorem withSessionUser_calm {now : Nat} {name : String} {userId : Nat} {user : WebuiUser}
    (hname : cookie.username = some name) (hne : name ≠ "")
    (huser : db.userByName name = some (userId, user)) (go : Nat → Reply) :
    withSessionUser (calm now) cookie db go = go userId := by
  unfold withSessionUser
  rw [hname, Option.filter_some, if_pos (decide_eq_true hne)]
  dsimp only
  rw [huser]
  rfl

/-- **Where nothing goes wrong, the endpoint acts.** -/
theorem acts_of_takesCookie {now : Nat} {r : HttpRequest} {elsewhere : AuthDb} {e : Endpoint}
    (h : TakesCookie d cookie db now r.body e) :
    ((HttpCall.mk (calm now) cookie r elsewhere).run d db e).Acts db := by
  obtain ⟨name, userId, user, hname, hne, huser, hgrants⟩ := h
  cases e with
  | totpStatus =>
    refine Or.inl ?_
    show (totpStatus (calm now) cookie db).http.answer.showsUser = true
    unfold totpStatus
    rw [withSessionUser_calm hname hne huser]
    rfl
  | totpSetup =>
    refine Or.inl ?_
    show (totpSetup d (calm now) cookie db).http.answer.showsUser = true
    unfold totpSetup
    rw [withSessionUser_calm hname hne huser]
    obtain ⟨key, hkey⟩ := Option.isSome_iff_exists.mp hgrants
    simp only [Deployment.encryptSecret, hkey, Option.map_some, write_calm]
    rfl
  | totpVerify =>
    obtain ⟨code, row, hbody, hrow, hcode⟩ := hgrants
    refine Or.inl ?_
    unfold HttpCall.run
    dsimp only
    rw [hbody]
    show (totpVerify d (calm now) cookie db code).http.answer.showsUser = true
    unfold totpVerify
    rw [withSessionUser_calm hname hne huser]
    simp only [read_calm, hrow]
    have hcode' : d.verifyCode row code (calm now).now = some true := hcode
    rw [hcode']
    rfl
  | totpDisable =>
    obtain ⟨password, code, row, hbody, hpassword, hrow, henabled, hcode⟩ := hgrants
    refine Or.inr ?_
    unfold HttpCall.run
    dsimp only
    rw [hbody]
    have hdb : (totpDisable d (calm now) cookie db password code).db =
        (db.deleteTotp userId).setMfaEnabled userId false := by
      unfold totpDisable
      rw [withSessionUser_calm hname hne huser]
      simp only [read_calm, (of_findWhere huser).1, Option.bind_some, hpassword, hrow, henabled,
        if_true]
      have hcode' : d.verifyCode row code (calm now).now = some true := hcode
      rw [hcode']
      rfl
    show (totpDisable d (calm now) cookie db password code).db ≠ db
    intro heq
    have hgone : (totpDisable d (calm now) cookie db password code).db.totpSecrets.lookup userId =
        none := by
      rw [hdb]
      exact AList.lookup_erase userId _
    rw [heq, hrow] at hgone
    exact absurd hgone (by simp)
  | _ => exact absurd hgrants id

end Takes

/-! ## Every request -/

section Requests

variable {d : Deployment} {urlPath : String → String} {db : AuthDb}

/-- **What acts has a session, or is one of the four.** -/
theorem liveSession_or_takesCookie {call : HttpCall} {e : Endpoint}
    (hsession : call.cookie.HasSession) (hurl : KeepsPrefix urlPath)
    (hroute : call.request.route = some e) (he : e.isAnonymous = false)
    (hacts : (call.dispatch d urlPath db).Acts db) :
    LiveSession call.cookie db call.world.now ∨
      TakesCookie d call.cookie db call.world.now call.request.body e := by
  obtain ⟨w, cookie, ⟨method, path, body⟩, elsewhere⟩ := call
  have hnothing : ∀ {answer : Answer}, answer.showsUser = false →
      ¬(⟨answer, cookie, db⟩ : HttpReply).Acts db :=
    fun hanswer h => h.elim (by simp [hanswer]) fun h => h rfl
  unfold HttpCall.dispatch at hacts
  by_cases hauth : authRequired w cookie db = true
  · exact Or.inl (liveSession_of_authRequired hsession hauth)
  dsimp only at hroute hacts
  rw [Bool.not_eq_true] at hauth
  rw [hroute, hauth, Bool.or_false] at hacts
  split at hacts
  · rename_i hexempt
    cases e with
    | guarded handler =>
      rw [not_isExempt_of_isGuarded hurl hroute rfl] at hexempt
      exact absurd hexempt (by simp)
    | verify =>
      cases hacts with
      | inr hdb => exact absurd rfl hdb
      | inl hshows =>
        change (verifySession w cookie db).showsUser = true at hshows
        unfold verifySession at hshows
        split at hshows
        · rename_i hvalid
          rw [Bool.and_eq_true] at hvalid
          exact Or.inl (liveSession_of_valid hsession hvalid.1 hvalid.2)
        · exact absurd hshows Bool.false_ne_true
    | totpStatus => exact Or.inr (takesCookie_of_totpStatus hacts)
    | totpSetup => exact Or.inr (takesCookie_of_totpSetup hacts)
    | totpVerify =>
      cases body with
      | code code => exact Or.inr (takesCookie_of_totpVerify hacts)
      | _ => exact absurd hacts (hnothing rfl)
    | totpDisable =>
      cases body with
      | disable password code => exact Or.inr (takesCookie_of_totpDisable hacts)
      | _ => exact absurd hacts (hnothing rfl)
    | health => exact absurd hacts (hnothing rfl)
    | openapi => exact absurd hacts (hnothing rfl)
    | _ => exact absurd he Bool.false_ne_true.symm
  · exact absurd hacts not_acts_failed

/-- One of the four endpoints, without a session. -/
theorem acts_of_route {r : HttpRequest} {e : Endpoint} {cookie : Cookie} {now : Nat}
    (hurl : KeepsPrefix urlPath) (hroute : r.route = some e)
    (h : TakesCookie d cookie db now r.body e) :
    e.isAnonymous = false ∧
      ((HttpCall.mk (calm now) cookie r db).dispatch d urlPath db).Acts db := by
  obtain ⟨name, userId, user, hname, hne, huser, hgrants⟩ := h
  have he : e.isAnonymous = false ∧ e.takesCookie = true := by
    cases e with
    | totpSetup | totpVerify | totpDisable | totpStatus => exact ⟨rfl, rfl⟩
    | _ => exact absurd hgrants id
  refine ⟨he.1, ?_⟩
  unfold HttpCall.dispatch
  dsimp only
  rw [isExempt_of_takesCookie hurl hroute he.2, Bool.true_or, if_pos rfl, hroute]
  exact acts_of_takesCookie ⟨name, userId, user, hname, hne, huser, hgrants⟩

end Requests

/-! ## Every run -/

/-- A request, or something that is done to the tables elsewhere. -/
inductive SiteAction where
  | visit (call : HttpCall)
  | outside (db : AuthDb)

/-- Any browser sends any request with any cookie it has been handed. -/
def SessionState.visit (d : Deployment) (urlPath : String → String) (s : SessionState) :
    SiteAction → Option SessionState
  | .visit call =>
      if call.cookie ∈ s.issued ∧ call.world.sessionId ≠ "" then
        let reply := call.dispatch d urlPath s.db
        some { db := reply.db, issued := reply.cookie :: s.issued }
      else none
  | .outside db => some { s with db }

section Runs

variable {d : Deployment} {urlPath : String → String}

theorem hasSession_dispatch {call : HttpCall} {db : AuthDb} (hne : call.world.sessionId ≠ "")
    (h : call.cookie.HasSession) : (call.dispatch d urlPath db).cookie.HasSession := by
  have hstatus : ∀ w, (totpStatus w call.cookie db).cookie = call.cookie := by
    intro w
    refine @cookie_withSessionUser w call.cookie db _ fun u => ?_
    split
    · rfl
    · rfl
  unfold HttpCall.dispatch
  split
  · split
    · exact h
    unfold HttpCall.run
    split
    · exact h
    · show (totpStatus call.world call.cookie db).cookie.HasSession
      rw [hstatus]
      exact h
    · exact h
    · exact h
    · exact h
    · exact h
    · exact h
    split
    · exact h
    · exact hasSession_handle hne h _
  · exact h

/-- **No effect without a live session**, for exactly those requests that are not one of the four
    with the name of a user in the cookie: whatever the path, and for every cookie that has ever
    been handed out. -/
theorem effect_needs_session (d : Deployment) (hurl : KeepsPrefix urlPath) {db : AuthDb}
    {acts : List SiteAction} {s : SessionState}
    (hrun : Machine.Runs (SessionState.visit d urlPath) (fun _ _ => True) { db } acts s)
    {cookie : Cookie} (hcookie : cookie ∈ s.issued) (r : HttpRequest) (now : Nat) :
    (∀ call : HttpCall, call.cookie = cookie → call.request = r → call.world.now = now →
      ∀ e, r.route = some e → e.isAnonymous = false →
        (call.dispatch d urlPath s.db).Acts s.db → LiveSession cookie s.db now) ↔
    ∀ e, r.route = some e → TakesCookie d cookie s.db now r.body e →
      LiveSession cookie s.db now := by
  have hsession : cookie.HasSession := by
    refine @Machine.Runs.invariant _ _ _ _ (fun s => ∀ c ∈ s.issued, c.HasSession)
      (fun s a s' hstep _ h => ?_) _ _ _ hrun (fun c hc => ?_) cookie hcookie
    · cases a with
      | outside db' =>
        obtain rfl := Option.some.inj hstep
        exact h
      | visit call =>
        rw [SessionState.visit] at hstep
        split at hstep
        · rename_i hguard
          obtain rfl := Option.some.inj hstep
          intro c hc
          cases List.mem_cons.mp hc with
          | inl heq =>
            rw [heq]
            exact hasSession_dispatch hguard.2 (h _ hguard.1)
          | inr hold => exact h c hold
        · exact absurd hstep (by simp)
    · obtain rfl := List.mem_singleton.mp hc
      exact fun _ hname => absurd hname (by simp)
  constructor
  · intro hneeds e hroute htakes
    obtain ⟨he, hacts⟩ := acts_of_route hurl hroute htakes
    exact hneeds _ rfl rfl rfl e hroute he hacts
  · rintro hfour call rfl rfl rfl e hroute he hacts
    exact (liveSession_or_takesCookie hsession hurl hroute he hacts).elim id (hfour e hroute)

end Runs

/-! ## A cookie that is kept -/

namespace LoggedOut

/-- The path of a URL ends at a `?` or `#`, and `urlsplit` drops tabs and line ends. -/
def urlPath (path : String) : String :=
  String.ofList ((path.toList.takeWhile fun c => c ∉ ['?', '#']).filter fun c =>
    c ∉ ['\t', '\r', '\n'])

theorem keepsPrefix_urlPath : KeepsPrefix urlPath := by
  rintro path pre ⟨rest, hrest⟩ hplain
  have hkeep : ∀ c ∈ pre, c ∉ ['?', '#'] ∧ c ∉ ['\t', '\r', '\n'] := by
    intro c hc
    have hc := of_decide_eq_true (hplain c hc)
    simp only [List.mem_cons, List.not_mem_nil, or_false, not_or] at hc ⊢
    exact ⟨⟨hc.1, hc.2.1⟩, hc.2.2⟩
  unfold urlPath
  rw [String.toList_ofList, ← hrest,
    List.takeWhile_append_of_pos fun c hc => decide_eq_true (hkeep c hc).1, List.filter_append,
    List.filter_eq_self.mpr fun c hc => decide_eq_true (hkeep c hc).2]
  exact List.prefix_append _ _

def request (method : Method) (path : String) (body : RequestBody) : HttpRequest :=
  ⟨method, path, body⟩

/-- What Alice is handed when she logs in. -/
def cookie : Cookie := ⟨some "fresh", some "alice", none, some 1000, none⟩

def login : HttpCall where
  world := Alice.world
  cookie := {}
  request := request .post "/api/auth/oauth-login"
    (.oauth ⟨"google", "g-1", "alice@shop.example", true⟩)
  elsewhere := {}

/-- A request with the cookie of the first login. -/
def later (r : HttpRequest) : HttpCall where
  world := { now := 2000, sessionId := "another" }
  cookie := cookie
  request := r
  elsewhere := {}

def logout : HttpCall := later (request .post "/api/auth/logout" .none)

def after : SessionState :=
  (Machine.replay (SessionState.visit Alice.site urlPath) (fun _ _ => true)
    [.visit login, .visit logout] { db := Alice.db }).getD { db := Alice.db }

theorem run_after : Machine.Runs (SessionState.visit Alice.site urlPath) (fun _ _ => True)
    { db := Alice.db } [.visit login, .visit logout] after :=
  (@Machine.runs_of_replay _ _ (SessionState.visit Alice.site urlPath) (fun _ _ => true) _ _ after
    rfl).imp fun _ _ _ => trivial

theorem not_liveSession : ¬LiveSession cookie after.db 2000 := by
  rintro ⟨sid, hsid, hlive⟩
  obtain rfl := Option.some.inj hsid
  exact absurd hlive (by decide)

def listKeys : HttpRequest := request .get "/api/api-keys" .none

/-- The list of keys is behind the middleware: for this cookie it is gone. -/
theorem effect_needs_session_listKeys : ¬LiveSession cookie after.db 2000 ∧
    ∀ call : HttpCall, call.cookie = cookie → call.request = listKeys → call.world.now = 2000 →
      ∀ e, listKeys.route = some e → e.isAnonymous = false →
        (call.dispatch Alice.site urlPath after.db).Acts after.db →
          LiveSession cookie after.db 2000 := by
  refine ⟨not_liveSession, (effect_needs_session Alice.site keepsPrefix_urlPath run_after
    (by decide) listKeys 2000).mpr fun e hroute htakes => ?_⟩
  have hguarded : listKeys.route = some (.guarded "list_api_keys") := by decide +kernel
  obtain rfl := Option.some.inj (hguarded.symm.trans hroute)
  obtain ⟨name, userId, user, -, -, -, hgrants⟩ := htakes
  exact absurd hgrants id

/-- **Logged out, and served**: Alice's second factor is shown, and then taken away, on a cookie
    whose session has been revoked. -/
theorem effect_without_session :
    ¬(∀ acts s, Machine.Runs (SessionState.visit Alice.site urlPath) (fun _ _ => True)
      { db := Alice.db } acts s → ∀ call : HttpCall, call.cookie ∈ s.issued →
        ∀ e, call.request.route = some e → e.isAnonymous = false →
          (call.dispatch Alice.site urlPath s.db).Acts s.db →
            LiveSession call.cookie s.db call.world.now) ∧
    ((later (request .get "/api/auth/totp/status" .none)).dispatch Alice.site urlPath
      after.db).answer = .reply (.totpStatus true true) ∧
    ((later (request .post "/api/auth/totp/setup" .none)).dispatch Alice.site urlPath
      after.db).db.totpEnabled 7 = false := by
  refine ⟨fun h => ?_, by rfl, by rfl⟩
  exact not_liveSession (h _ after run_after (later (request .get "/api/auth/totp/status" .none))
    (by decide) .totpStatus (by decide) rfl (Or.inl rfl))

end LoggedOut

end OdooSemantic
