import OdooSemantic.Proof.HeldCookies

/-!
# What a deactivation puts an end to

`deactivate_user` clears the flag, and then deletes the sessions. From there on it is up to the
logins not to make new ones. Two of them ask for the flag, some statements before they insert the
row; the other two do not ask. So a login that has asked in time, or does not ask at all, gives a
session to a user who is deactivated (`Overtaken`). The middleware never asks: a session is all
it takes.

Four endpoints do not even take a session. They believe the name in the cookie.
-/

namespace OdooSemantic

open KeyedStore Threads

/-! ## From the deactivation on -/

section Events

variable {T : Type}

/-- `set_user_active(user_id, is_active=True)` takes effect. -/
def Reactivates (userId : Nat) (e : WebEntry T) : Prop :=
  e.label = .setUserActive userId true ∧ e.input.answers .setActive ≠ .refused

/-- This request has cleared the flag, and nobody has set it since. -/
def Off (t : T) (userId : Nat) : List (WebEntry T) → Prop :=
  Machine.Since
    (fun e _ => e.thread = t ∧ e.label = .setUserActive userId false ∧ Answered e)
    (Reactivates userId)

/-- A `revoke_all_sessions` of `deactivate_user` is through. -/
def Revokes (userId : Nat) (e : WebEntry T) : Prop :=
  e.label = .revokeAllSessions .deactivation userId ∧ Answered e

/-- **A deactivation has returned, and nobody has reactivated the user since.** -/
def Deactivated (userId : Nat) : List (WebEntry T) → Prop :=
  Machine.Since (fun e older => Revokes userId e ∧ Off e.thread userId older) (Reactivates userId)

theorem Revokes.not_reactivates {u : Nat} {e : WebEntry T} (h : Revokes u e) :
    ¬Reactivates u e := by
  intro hre
  exact absurd (h.1.symm.trans hre.1) (by simp)

theorem Deactivated.off {u : Nat} {trace : List (WebEntry T)} (h : Deactivated u trace) :
    ∃ t, Off t u trace := by
  induction h with
  | @here e older h => exact ⟨e.thread, .later h.2 h.1.not_reactivates⟩
  | later _ hstop ih =>
    obtain ⟨t, hoff⟩ := ih
    exact ⟨t, .later hoff hstop⟩

/-- The cookie speaks of this user. -/
def Speaks (db : AuthDb) (c : Cookie) (userId : Nat) : Prop :=
  c.userId = some userId ∨
    ∃ user, db.users.lookup userId = some user ∧ c.username = some user.username

/-- **A request is let in as this user**: by the middleware, or by an endpoint that has no
    other check. -/
inductive ServedAs (userId : Nat) (e : WebEntry T) : Prop
  | admitted {c : Cookie} (hlabel : e.label = .admission c) (hspeaks : Speaks e.before c userId)
      (hauth : authRequired e.input c e.before = true)
  | identified {c : Cookie} {name : String} {user : WebuiUser} (hlabel : e.label = .identify c)
      (hname : c.username = some name)
      (hread : e.input.read .resolveUser (e.before.userByName name) = some (some (userId, user)))

/-! ## The condition -/

/-- Since the request has asked whether the user is active, a deactivation has gone through; or it
    has not asked. -/
def Overtaken (t : T) (userId : Nat) (trace : List (WebEntry T)) : SessionPath → Prop
  | .password | .oauth => ∃ newer e older, trace = newer ++ e :: older ∧ e.thread = t ∧
      (∃ user, Found userId user e ∧ user.isActive = true) ∧ ∃ r ∈ newer, Revokes userId r
  | .totp | .email => True

/-- **No login is overtaken by a deactivation that is still good, and none of the endpoints that
    believe the cookie is called for a user who is deactivated.** -/
def WebPool.SeesDeactivations (p : WebPool T) : Act T RequestWorld → Prop
  | .begin _ => True
  | .take t w =>
      (∀ path userId, p.next t = some (.createSession path userId) →
        w.answers .createSession ≠ .refused → Overtaken t userId p.trace path →
          ¬Deactivated userId p.trace) ∧
      ∀ c name userId user, p.next t = some (.identify c) → c.username = some name →
        p.state.userByName name = some (userId, user) → ¬Deactivated userId p.trace

end Events

/-! ## Every run -/

section Runs

variable {T : Type} {d : Deployment} {calls : T → WebCall}

/-- What every such run keeps. -/
structure Ended (p : WebPool T) : Prop where
  inactive : ∀ t u, Off t u p.trace → p.state.Inactive u
  left : ∀ newer e older t u, p.trace = newer ++ e :: older → Off t u (e :: older) →
    (e.after AuthStatement.effect).Inactive u
  sessions : ∀ u, Deactivated u p.trace →
    ∀ sid row, p.state.activeSessions.lookup sid = some row → row.userId ≠ u
  served : ∀ newer e older u, p.trace = newer ++ e :: older → Deactivated u older → ¬ServedAs u e

theorem ended_start (db : AuthDb) : Ended ({ state := db } : WebPool T) where
  inactive := fun _ _ h => absurd h Machine.not_since_nil
  left := fun newer _ _ _ _ heq => by simp at heq
  sessions := fun _ h => absurd h Machine.not_since_nil
  served := fun newer _ _ _ heq => by simp at heq

/-- **A login that has asked is overtaken**, if the user is deactivated now. -/
theorem Ended.overtaken {p : WebPool T} (h : Ended p) {t : T} {u : Nat} {path : SessionPath}
    [DecidableEq T] (hchecked : Checked (history t p.trace) u path)
    (hoff : Deactivated u p.trace) : Overtaken t u p.trace path := by
  have hasked : (∃ e ∈ history t p.trace, ∃ user, Found u user e ∧ user.isActive = true) →
      ∃ newer e older, p.trace = newer ++ e :: older ∧ e.thread = t ∧
        (∃ user, Found u user e ∧ user.isActive = true) ∧ ∃ r ∈ newer, Revokes u r := by
    rintro ⟨e, he, user, hfound, hactive⟩
    obtain ⟨hmem, hthread⟩ := mem_history.mp he
    obtain ⟨newer, older, heq⟩ := List.mem_iff_append.mp hmem
    refine ⟨newer, e, older, heq, hthread, ⟨user, hfound, hactive⟩, ?_⟩
    by_contra hnone
    -- otherwise the user was deactivated when the request asked
    rw [heq] at hoff
    have hbefore : Deactivated u (e :: older) :=
      hoff.of_append fun r hr _ hrevokes => hnone ⟨r, hr, hrevokes.1⟩
    obtain ⟨t', hoff'⟩ := hbefore.off
    obtain ⟨user', huser', hactive'⟩ := h.left newer e older t' u heq hoff'
    obtain rfl := Option.some.inj (huser'.symm.trans hfound)
    exact absurd (hactive'.symm.trans hactive) (by simp)
  cases path with
  | password => exact hasked hchecked
  | oauth => exact hasked hchecked
  | totp => trivial
  | email => trivial

/-- The user of a cookie that gets in has a session. -/
theorem exists_session_of_admitted {db : AuthDb} {c : Cookie} {w : RequestWorld} {u : Nat}
    (h : Agrees db c) (hunique : db.UniqueNames) (hspeaks : Speaks db c u)
    (hauth : authRequired w c db = true) :
    ∃ sid row, db.activeSessions.lookup sid = some row ∧ row.userId = u := by
  obtain ⟨name, id, sid, row, hname, -, howns, -, hlookup, howner⟩ := h.admitted hauth
  have hid : id = u := by
    cases hspeaks with
    | inl huid =>
      cases howns.userId with
      | inl hnone => exact absurd (hnone.symm.trans huid) (by simp)
      | inr hsome => exact Option.some.inj (hsome.symm.trans huid)
    | inr huser =>
      obtain ⟨user, hlookup, huname⟩ := huser
      obtain ⟨user', hlookup', huname'⟩ := howns.user
      refine hunique id u user' user hlookup' hlookup (huname'.trans ?_)
      exact Option.some.inj (hname.symm.trans huname)
  exact ⟨sid, row, hlookup, howner.trans hid⟩

/-- A deactivation leaves the user inactive. -/
theorem inactive_of_deactivates {t : T} {w : RequestWorld} {db : AuthDb} {u : Nat}
    (hanswered : Answered (⟨t, .setUserActive u false, w, db⟩ : WebEntry T))
    (huser : ∃ user, db.users.lookup u = some user) :
    ((AuthStatement.setUserActive u false).effect w db).Inactive u := by
  obtain ⟨user, huser⟩ := huser
  rw [of_setUserActive (target_of_exec rfl hanswered).2]
  refine ⟨{ user with isActive := false }, ?_, rfl⟩
  exact (lookup_modify_self u _ _).trans (by rw [huser]; rfl)

/-- No session survives `revoke_all_sessions`. -/
theorem sessions_of_revokes {t : T} {w : RequestWorld} {db : AuthDb} {u : Nat} {caller : RevokedBy}
    (hanswered : Answered (⟨t, .revokeAllSessions caller u, w, db⟩ : WebEntry T)) {sid : String}
    {row : Session} (hrow : ((AuthStatement.revokeAllSessions caller u).effect w
      db).activeSessions.lookup sid = some row) : row.userId ≠ u := by
  rw [← Option.some.inj (target_of_exec rfl hanswered).2] at hrow
  unfold AuthDb.deleteSessionsOf at hrow
  dsimp only at hrow
  rw [lookup_eraseWhere] at hrow
  split at hrow
  · exact absurd hrow (by simp)
  · rename_i hother
    intro heq
    exact hother (by rw [hrow]; exact decide_eq_true heq)

variable [DecidableEq T]

theorem ended_take {db : AuthDb} {p : WebPool T} {t : T} {w : RequestWorld} {st : AuthStatement}
    {next : RequestWorld → AuthDb → Program} {enrols : T → Bool} (h : Ended p)
    (hsees : p.SeesDeactivations (.take t w)) (ht : p.threads t = some (.step st next))
    (hobeys : p.Obeys (fun t => Warrant (enrols t) (calls t).cookie)
      (fun t => CookieOutcome (calls t).cookie)) (hcookies : p.Consistent calls db) :
    Ended (p.take AuthStatement.effect t w st next) := by
  have hnext : p.next t = some st := by rw [WebPool.next, ht]
  have hwarrant : Warrant (enrols t) (calls t).cookie (history t p.trace) st :=
    (hobeys.threads t _ ht).1
  have hinactive : ∀ t' u, Off t' u (⟨t, st, w, p.state⟩ :: p.trace) →
      (st.effect w p.state).Inactive u := by
    intro t' u hoff
    cases Machine.since_cons_iff.mp hoff with
    | inl hnow =>
      obtain ⟨-, hlabel, hanswered⟩ := hnow
      dsimp only at hlabel
      subst hlabel
      obtain ⟨e, he, user, hfound⟩ := hwarrant
      obtain ⟨user', huser', -⟩ := hcookies.names.trace e (mem_history.mp he).1 u user hfound
      exact inactive_of_deactivates hanswered ⟨user', huser'⟩
    | inr hold =>
      refine inactive_effect (h.inactive t' u hold.1) fun hst => ?_
      by_contra hne
      exact hold.2 ⟨hst, hne⟩
  have hsessions : ∀ u, Deactivated u (⟨t, st, w, p.state⟩ :: p.trace) → ∀ sid row,
      (st.effect w p.state).activeSessions.lookup sid = some row → row.userId ≠ u := by
    intro u hdead sid row hrow
    cases Machine.since_cons_iff.mp hdead with
    | inl hnow =>
      obtain ⟨hlabel, hanswered⟩ := hnow.1
      dsimp only at hlabel
      subst hlabel
      exact sessions_of_revokes hanswered hrow
    | inr hold =>
      cases (keepsAccounts_effect st w p.state).sessions sid row hrow with
      | inl hrow' => exact h.sessions u hold.1 sid row hrow'
      | inr hopened =>
        obtain ⟨-, path, rfl⟩ := hopened
        by_cases hrefused : w.answers .createSession = .refused
        · rw [effect_refused rfl hrefused] at hrow
          exact h.sessions u hold.1 sid row hrow
        · rintro rfl
          exact hsees.1 path row.userId hnext hrefused (h.overtaken hwarrant.2 hold.1) hold.1
  refine ⟨hinactive, fun newer e older t' u heq hoff => ?_, hsessions,
    fun newer e older u heq hdead hserved => ?_⟩
  · cases append_of_cons_eq heq with
    | inl hnew =>
      obtain ⟨-, rfl, rfl⟩ := hnew
      exact hinactive t' u hoff
    | inr hold =>
      obtain ⟨newer', -, htrace⟩ := hold
      exact h.left newer' e older t' u htrace hoff
  · cases append_of_cons_eq heq with
    | inr hold =>
      obtain ⟨newer', -, htrace⟩ := hold
      exact h.served newer' e older u htrace hdead hserved
    | inl hnew =>
      obtain ⟨-, rfl, rfl⟩ := hnew
      cases hserved with
      | @admitted c hlabel hspeaks hauth =>
        dsimp only at hlabel
        subst hlabel
        obtain rfl : c = (calls t).cookie := hwarrant
        have hagrees := hcookies.agrees _ (hcookies.begun t (by simp [ht]))
        obtain ⟨sid, row, hrow, howner⟩ :=
          exists_session_of_admitted hagrees hcookies.unique hspeaks hauth
        exact h.sessions u hdead sid row hrow howner
      | @identified c name user hlabel hname hread =>
        dsimp only at hlabel
        subst hlabel
        exact hsees.2 c name u user hnext hname (of_read hread).symm hdead

/-- **A deactivation is effective**, in every run in which no login is overtaken by it, no OAuth
    login gets in over another user's `user_id`, and nobody calls the endpoints that believe the
    cookie: until the user is reactivated there is no session of theirs, and no request is served
    as them. -/
theorem deactivation_effective (d : Deployment) (calls : T → WebCall) {db : AuthDb}
    (hunique : db.UniqueNames) {acts : List (Act T RequestWorld)} {p : WebPool T}
    (hrun : Machine.Runs (WebPool.step d calls) (fun p a => p.Plausible calls a ∧
      p.KeepsIdentity calls a ∧ p.SeesDeactivations a) { state := db } acts p) :
    (∀ u, Deactivated u p.trace →
      ∀ sid row, p.state.activeSessions.lookup sid = some row → row.userId ≠ u) ∧
    ∀ newer e older u, p.trace = newer ++ e :: older → Deactivated u older → ¬ServedAs u e := by
  have hmeets : ∀ t, Prog.Meets t (Warrant (calls t).request.enrols (calls t).cookie)
      (CookieOutcome (calls t).cookie) (webProgram d (calls t).cookie (calls t).request) [] :=
    fun t => sound_webProgram d t (calls t)
  have hend := @Machine.Runs.invariant _ _ _ _
    (fun p => p.Obeys (fun t => Warrant (calls t).request.enrols (calls t).cookie)
      (fun t => CookieOutcome (calls t).cookie) ∧ p.Consistent calls db ∧ Ended p)
    (fun p a p' hstep hok h => ?_) _ _ _ hrun
    ⟨obeys_start db, consistent_start hunique, ended_start db⟩
  · exact ⟨hend.2.2.sessions, hend.2.2.served⟩
  obtain ⟨hobeys, hcookies, hended⟩ := h
  obtain ⟨hsensible, hidentity, hsees⟩ := hok
  have hobeys' := obeys_step hmeets hstep hobeys
  cases a with
  | begin t =>
    obtain ⟨ht, rfl⟩ := Pool.step_begin hstep
    refine ⟨hobeys', consistent_begin hcookies hsensible ht fun response c hdone => ?_,
      hended.inactive, hended.left, hended.sessions, hended.served⟩
    have hout := hmeets t
    rw [hdone] at hout
    exact hout
  | take t w =>
    obtain ⟨st, next, ht, rfl⟩ := Pool.step_take hstep
    exact ⟨hobeys', consistent_take hcookies hsensible hidentity ht hobeys',
      ended_take hended hsees ht hobeys hcookies⟩

end Runs

/-! ## A login that is held up, a mail that is opened late, and a cookie that is kept -/

namespace Held

def db : AuthDb :=
  { Mallory.db with
    emailVerifications := AList.insert "sha256:mail" { userId := 2, expiresAt := 90000 } ∅ }

/-- The admin logs in and deactivates Mallory; Mallory logs in, opens a mail, asks for the state
    of the second factor. -/
inductive Tab where
  | root
  | deactivate
  | google
  | mail
  | status
deriving DecidableEq

def malloryCookie : Cookie := ⟨some "s2", some "mallory", none, some 2000, none⟩

def calls : Tab → WebCall
  | .root => ⟨{}, .auth Mallory.login.request⟩
  | .deactivate => ⟨Mallory.rootCookie, .deactivateUser 2⟩
  | .google => ⟨{}, .auth (Mallory.google {}).request⟩
  | .mail => ⟨{}, .auth (.verifyEmail "mail")⟩
  | .status => ⟨malloryCookie, .totpStatus⟩

/-- A number of steps at one time. -/
def steps (t : Tab) (k now : Nat) (sessionId : String) : List (Act Tab RequestWorld) :=
  List.replicate k (.take t { now, sessionId })

def login : List (Act Tab RequestWorld) := .begin .root :: steps .root 5 1000 "s1"

def deactivate : List (Act Tab RequestWorld) := .begin .deactivate :: steps .deactivate 4 3000 ""

/-- Mallory has a session when the admin comes. -/
def inTurn : List (Act Tab RequestWorld) :=
  login ++ .begin .google :: steps .google 2 2000 "s2" ++ deactivate

/-- The login has found Mallory active, and inserts the session when the admin is through. -/
def overtaken : List (Act Tab RequestWorld) :=
  login ++ .begin .google :: steps .google 1 2000 "s2" ++ deactivate ++ steps .google 1 3001 "s2"

/-- The mail is opened when the admin is through. -/
def late : List (Act Tab RequestWorld) :=
  login ++ deactivate ++ .begin .mail :: steps .mail 4 3001 "s3"

/-- The cookie of the first login is still good for the second factor. -/
def kept : List (Act Tab RequestWorld) := inTurn ++ .begin .status :: steps .status 1 3001 ""

def after (acts : List (Act Tab RequestWorld)) : WebPool Tab :=
  (Machine.replay (WebPool.step Alice.site calls) (fun _ _ => true) acts { state := db }).getD
    { state := db }

def isHeld (p : WebPool Tab) (c : Cookie) : Bool :=
  [Tab.root, .google, .mail].any fun t =>
    match p.threads t with
    | some (.done (_, c')) => c = c'
    | _ => false

/-- `Plausible` and `KeepsIdentity`, as a test. -/
def isOwn (p : WebPool Tab) : Act Tab RequestWorld → Bool
  | .begin t => (calls t).cookie = {} || isHeld p (calls t).cookie
  | .take t w =>
      match p.next t with
      | some (.createSession _ userId) =>
          w.sessionId ≠ "" && (calls t).cookie.userId.all (· = userId) &&
            p.trace.all fun e => !e.label.opensSession || e.input.sessionId ≠ w.sessionId
      | _ => true

theorem own_of_isOwn (p : WebPool Tab) (a : Act Tab RequestWorld) (h : isOwn p a = true) :
    p.Plausible calls a ∧ p.KeepsIdentity calls a := by
  cases a with
  | begin t =>
    refine ⟨?_, trivial⟩
    cases (Bool.or_eq_true _ _).mp h with
    | inl hempty => exact Or.inl (of_decide_eq_true hempty)
    | inr hheld =>
      obtain ⟨t', -, hheld⟩ := List.any_eq_true.mp hheld
      split at hheld
      · rename_i response c' hdone
        exact Or.inr ⟨t', response, (of_decide_eq_true hheld).symm ▸ hdone⟩
      · exact absurd hheld (by simp)
  | take t w =>
    constructor
    · intro path userId hnext
      simp only [isOwn, hnext, Bool.and_eq_true, decide_eq_true_eq, List.all_eq_true] at h
      refine ⟨h.1.1, fun e he hopens => ?_⟩
      simpa [hopens] using h.2 e he
    · intro userId hnext _
      simp only [isOwn, hnext, Bool.and_eq_true] at h
      cases hid : (calls t).cookie.userId with
      | none => exact Or.inl rfl
      | some id =>
        have hall := h.1.2
        rw [hid] at hall
        exact Or.inr (congrArg some (of_decide_eq_true hall))

/-- `SeesDeactivations`, as a test: nobody has been deactivated. -/
def isEarly (p : WebPool Tab) : Act Tab RequestWorld → Bool
  | .begin _ => true
  | .take t _ =>
      match p.next t with
      | some (.createSession _ _) | some (.identify _) => p.trace.all fun e =>
          match e.label with
          | .revokeAllSessions .deactivation _ => false
          | _ => true
      | _ => true

theorem not_deactivated {trace : List (WebEntry Tab)} {u : Nat} (h : (trace.all fun e =>
    match e.label with
    | .revokeAllSessions .deactivation _ => false
    | _ => true) = true) : ¬Deactivated u trace := by
  intro hdead
  obtain ⟨newer, e, older, rfl, ⟨⟨hlabel, -⟩, -⟩, -⟩ := hdead.split
  have he := List.all_eq_true.mp h e (by simp)
  rw [hlabel] at he
  exact absurd he (by simp)

theorem sees_of_isEarly (p : WebPool Tab) (a : Act Tab RequestWorld) (h : isEarly p a = true) :
    p.SeesDeactivations a := by
  cases a with
  | begin t => trivial
  | take t w =>
    constructor
    · intro path userId hnext _ _
      simp only [isEarly, hnext] at h
      exact not_deactivated h
    · intro c name userId user hnext _ _
      simp only [isEarly, hnext] at h
      exact not_deactivated h

theorem run_after {acts : List (Act Tab RequestWorld)} {p : WebPool Tab}
    (h : Machine.replay (WebPool.step Alice.site calls) isOwn acts { state := db } = some p) :
    Machine.Runs (WebPool.step Alice.site calls)
      (fun p a => p.Plausible calls a ∧ p.KeepsIdentity calls a) { state := db } acts p :=
  (Machine.runs_of_replay h).imp own_of_isOwn

theorem uniqueNames : db.UniqueNames := Mallory.uniqueNames

theorem not_reactivates {e : WebEntry Tab} {u : Nat} (h : (match e.label with
    | .setUserActive _ _ => false
    | _ => true) = true) : ¬Reactivates u e := by
  rintro ⟨hlabel, -⟩
  rw [hlabel] at h
  exact absurd h (by simp)

theorem deactivated_inTurn : Deactivated 2 (after inTurn).trace :=
  .here ⟨⟨rfl, rfl⟩, .here ⟨rfl, rfl, rfl⟩⟩

theorem deactivated_overtaken : Deactivated 2 (after overtaken).trace :=
  .later (.here ⟨⟨rfl, rfl⟩, .here ⟨rfl, rfl, rfl⟩⟩) (not_reactivates rfl)

theorem deactivated_late : Deactivated 2 (after late).trace :=
  .later (.later (.later (.later (.here ⟨⟨rfl, rfl⟩, .here ⟨rfl, rfl, rfl⟩⟩)
    (not_reactivates rfl)) (not_reactivates rfl)) (not_reactivates rfl)) (not_reactivates rfl)

/-- **The session of Mallory is gone** when the admin is through. -/
theorem deactivation_effective_inTurn : Deactivated 2 (after inTurn).trace ∧
    ∀ sid row, (after inTurn).state.activeSessions.lookup sid = some row → row.userId ≠ 2 := by
  have hrun := @Machine.runs_of_replay _ _ (WebPool.step Alice.site calls)
    (fun p a => isOwn p a && isEarly p a) inTurn { state := db } (after inTurn) rfl
  refine ⟨deactivated_inTurn, (deactivation_effective Alice.site calls uniqueNames (hrun.imp
    fun p a h => ?_)).1 2 deactivated_inTurn⟩
  rw [Bool.and_eq_true] at h
  have hown := own_of_isOwn p a h.1
  exact ⟨hown.1, hown.2, sees_of_isEarly p a h.2⟩

/-- **Deactivated, and logged in**: by a login that was under way, or by a mail. Deactivated, and
    served, with a cookie whose session is gone. -/
theorem deactivation_ineffective :
    ¬(∀ p, Machine.Runs (WebPool.step Alice.site calls)
      (fun p a => p.Plausible calls a ∧ p.KeepsIdentity calls a) { state := db } overtaken p →
        Deactivated 2 p.trace → ∀ sid row, p.state.activeSessions.lookup sid = some row →
          row.userId ≠ 2) ∧
    ¬(∀ p, Machine.Runs (WebPool.step Alice.site calls)
      (fun p a => p.Plausible calls a ∧ p.KeepsIdentity calls a) { state := db } late p →
        Deactivated 2 p.trace → ∀ sid row, p.state.activeSessions.lookup sid = some row →
          row.userId ≠ 2) ∧
    ¬∀ p, Machine.Runs (WebPool.step Alice.site calls)
      (fun p a => p.Plausible calls a ∧ p.KeepsIdentity calls a) { state := db } kept p →
        ∀ newer e older, p.trace = newer ++ e :: older → Deactivated 2 older → ¬ServedAs 2 e := by
  refine ⟨fun h => ?_, fun h => ?_, fun h => ?_⟩
  · exact h (after overtaken) (run_after rfl) deactivated_overtaken "s2" _ rfl rfl
  · exact h (after late) (run_after rfl) deactivated_late "s3" _ rfl rfl
  · exact h (after kept) (run_after rfl) [] _ _ rfl deactivated_inTurn
      (.identified rfl rfl rfl)

end Held

end OdooSemantic
