import OdooSemantic.Proof.Programs

/-!
# Whose cookie it is, while other requests are under way

`SessionIdentity` has one request after the other. Here the requests take turns, and what is said
of a cookie stays true in the turns of the others: a session that one of them opens has an id of
its own, and an account keeps its name. The cookie that a request hands out itself is made of
what the request has read before, and the account it has found then is still there.
-/

namespace OdooSemantic

open KeyedStore Threads

section Held

variable {T : Type}

/-- A browser holds this cookie: the empty one, or one that a request has handed out. -/
def WebPool.Holds (p : WebPool T) (c : Cookie) : Prop :=
  c = {} ∨ ∃ t response, p.threads t = some (.done (response, c))

/-- **What the surroundings see to**: a request comes with a cookie that its browser holds, and
    `secrets.token_urlsafe(32)` does not repeat itself, and is not empty. -/
def WebPool.Plausible (calls : T → WebCall) (p : WebPool T) : Act T RequestWorld → Prop
  | .begin t => p.Holds (calls t).cookie
  | .take t w => ∀ path userId, p.next t = some (.createSession path userId) → w.sessionId ≠ "" ∧
      ∀ e ∈ p.trace, e.label.opensSession = true → e.input.sessionId ≠ w.sessionId

/-- An OAuth login that gets in comes without a `user_id`, or with that of the user it gets in
    as. -/
def WebPool.KeepsIdentity (calls : T → WebCall) (p : WebPool T) : Act T RequestWorld → Prop
  | .begin _ => True
  | .take t w => ∀ userId, p.next t = some (.createSession .oauth userId) →
      w.answers .createSession = .applied →
        (calls t).cookie.userId = none ∨ (calls t).cookie.userId = some userId

/-- Nobody loses an account or a name. -/
def NamesStay (db db' : AuthDb) : Prop :=
  ∀ id user, db.users.lookup id = some user →
    ∃ user', db'.users.lookup id = some user' ∧ user'.username = user.username

theorem namesStay_refl (db : AuthDb) : NamesStay db db := fun _ user huser => ⟨user, huser, rfl⟩

theorem NamesStay.trans {db db' db'' : AuthDb} (h : NamesStay db db') (h' : NamesStay db' db'') :
    NamesStay db db'' := by
  intro id user huser
  obtain ⟨user', huser', hname'⟩ := h id user huser
  obtain ⟨user'', huser'', hname''⟩ := h' id user' huser'
  exact ⟨user'', huser'', hname''.trans hname'⟩

/-- Every cookie that a browser holds agrees with the tables. -/
structure WebPool.Consistent (calls : T → WebCall) (db : AuthDb) (p : WebPool T) : Prop where
  unique : p.state.UniqueNames
  names : p.Related AuthStatement.effect NamesStay db
  begun : ∀ t, p.threads t ≠ none → p.Holds (calls t).cookie
  agrees : ∀ c, p.Holds c → Agrees p.state c
  known : ∀ c sid, p.Holds c → c.sessionId = some sid →
    ∃ e ∈ p.trace, e.label.opensSession = true ∧ e.input.sessionId = sid

theorem consistent_start {calls : T → WebCall} {db : AuthDb} (hunique : db.UniqueNames) :
    WebPool.Consistent calls db { state := db } where
  unique := hunique
  names := related_start namesStay_refl db
  begun := fun _ h => absurd rfl h
  agrees := by
    rintro c (rfl | ⟨t, response, ht⟩)
    · exact agrees_empty
    · exact absurd ht (by simp)
  known := by
    rintro c sid (rfl | ⟨t, response, ht⟩) hsid
    · exact absurd hsid (by simp)
    · exact absurd ht (by simp)

variable {calls : T → WebCall} {db : AuthDb} {p : WebPool T} {t : T} {w : RequestWorld}
  {st : AuthStatement} {next : RequestWorld → AuthDb → Program}

/-- A step under its own id leaves the cookies of the others alone. -/
theorem agrees_effect {c : Cookie} (h : Agrees p.state c)
    (hfresh : ∀ path userId, st = .createSession path userId → c.sessionId ≠ some w.sessionId) :
    Agrees (st.effect w p.state) c := by
  refine h.of_keepsAccounts (keepsAccounts_effect st w p.state) fun sid userId hsid hopened => ?_
  obtain ⟨rfl, path, hst⟩ := hopened
  exact hfresh path userId hst hsid

/-- **The cookie of a login agrees.** -/
theorem agrees_of_opened {sent : Cookie} {id : Nat} {path : SessionPath} {user : WebuiUser}
    {userId : Option Nat}
    (hanswered : Answered (⟨t, .createSession path id, w, db⟩ : WebEntry T))
    (hne : w.sessionId ≠ "")
    (huser : ∃ user', ((AuthStatement.createSession path id).effect w db).users.lookup id =
      some user' ∧ user'.username = user.username) (huid : userId = none ∨ userId = some id) :
    Agrees ((AuthStatement.createSession path id).effect w db)
      { sent with
        sessionId := some w.sessionId, username := some user.username, userId
        sessionAt := some w.now } := by
  have hinsert := (of_insertSession (target_of_exec rfl hanswered).2).2
  refine ⟨fun name hname => ?_, fun hname => absurd hname (by simp)⟩
  obtain rfl := Option.some.inj hname
  refine ⟨id, huser, huid, w.sessionId, rfl, hne, fun row hrow => ?_⟩
  rw [hinsert] at hrow
  dsimp only at hrow
  rw [AList.lookup_insert] at hrow
  exact Option.some.inj hrow ▸ rfl

variable [DecidableEq T]

/-- A request that is under way hands out one cookie at most. -/
theorem holds_take (ht : p.threads t = some (.step st next)) {c : Cookie} :
    WebPool.Holds (p.take AuthStatement.effect t w st next) c ↔
      p.Holds c ∨ ∃ response, next w p.state = .done (response, c) := by
  constructor
  · rintro (rfl | ⟨t', response, ht'⟩)
    · exact Or.inl (Or.inl rfl)
    rw [Pool.threads_take] at ht'
    split at ht'
    · exact Or.inr ⟨response, Option.some.inj ht'⟩
    · exact Or.inl (Or.inr ⟨t', response, ht'⟩)
  · rintro ((rfl | ⟨t', response, ht'⟩) | ⟨response, hdone⟩)
    · exact Or.inl rfl
    · refine Or.inr ⟨t', response, ?_⟩
      rw [Pool.threads_take, if_neg]
      · exact ht'
      · rintro rfl
        exact absurd (ht.symm.trans ht') (by simp)
    · exact Or.inr ⟨t, response, by rw [Pool.threads_take, if_pos rfl, hdone]⟩

theorem consistent_begin {d : Deployment} (h : p.Consistent calls db)
    (hsensible : p.Plausible calls (.begin t)) (ht : p.threads t = none)
    (hstep : ∀ response c, webProgram d (calls t).cookie (calls t).request = .done (response, c) →
      CookieOutcome (calls t).cookie ([] : List (WebEntry T)) (response, c)) :
    WebPool.Consistent calls db
      (p.begin (fun t => webProgram d (calls t).cookie (calls t).request) t) := by
  have hkeep : ∀ {c}, p.Holds c →
      WebPool.Holds (p.begin (fun t => webProgram d (calls t).cookie (calls t).request) t) c := by
    rintro c (rfl | ⟨t', response, ht'⟩)
    · exact Or.inl rfl
    · refine Or.inr ⟨t', response, ?_⟩
      rw [Pool.threads_begin, if_neg]
      · exact ht'
      · rintro rfl
        exact absurd (ht.symm.trans ht') (by simp)
  -- a request that ends before its first statement hands out the cookie it has come with
  have hback : ∀ {c},
      WebPool.Holds (p.begin (fun t => webProgram d (calls t).cookie (calls t).request) t) c →
        p.Holds c := by
    rintro c (rfl | ⟨t', response, ht'⟩)
    · exact Or.inl rfl
    rw [Pool.threads_begin] at ht'
    split at ht'
    · rename_i heq
      subst heq
      cases hstep response c (Option.some.inj ht') with
      | same => exact hsensible
      | cleared => exact Or.inl rfl
    · exact Or.inr ⟨t', response, ht'⟩
  refine ⟨h.unique, h.names.begin t, fun t' ht' => hkeep ?_, fun c hc => h.agrees c (hback hc),
    fun c sid hc => h.known c sid (hback hc)⟩
  rw [Pool.threads_begin] at ht'
  split at ht'
  · rename_i heq
    exact heq ▸ hsensible
  · exact h.begun t' ht'

theorem consistent_take {P : T → List (WebEntry T) → AuthStatement → Prop}
    (h : p.Consistent calls db) (hsensible : p.Plausible calls (.take t w))
    (hidentity : p.KeepsIdentity calls (.take t w)) (ht : p.threads t = some (.step st next))
    (hobeys : Pool.Obeys P (fun t => CookieOutcome (calls t).cookie)
      (p.take AuthStatement.effect t w st next)) :
    WebPool.Consistent calls db (p.take AuthStatement.effect t w st next) := by
  have hnext : p.next t = some st := by rw [WebPool.next, ht]
  have hkeeps := keepsAccounts_effect st w p.state
  have hnames : Pool.Related AuthStatement.effect NamesStay db
      (p.take AuthStatement.effect t w st next) :=
    h.names.take namesStay_refl (fun h h' => h.trans h') hkeeps.users
  have hcookie : p.Holds (calls t).cookie := h.begun t (by simp [ht])
  have hold : ∀ c, p.Holds c → Agrees (st.effect w p.state) c := by
    intro c hc
    refine agrees_effect (h.agrees c hc) fun path userId hst hsid => ?_
    obtain ⟨e, he, hopens, hid⟩ := h.known c _ hc hsid
    exact (hsensible path userId (hnext.trans (congrArg some hst))).2 e he hopens hid
  have hknown : ∀ c sid, p.Holds c → c.sessionId = some sid → ∃ e ∈
      (p.take AuthStatement.effect t w st next).trace, e.label.opensSession = true ∧
        e.input.sessionId = sid := by
    intro c sid hc hsid
    obtain ⟨e, he, hopens, hid⟩ := h.known c sid hc hsid
    exact ⟨e, List.mem_cons_of_mem _ he, hopens, hid⟩
  -- what the request hands out, if it ends here
  have hnew : ∀ c response, next w p.state = .done (response, c) → Agrees (st.effect w p.state) c ∧
      ∀ sid, c.sessionId = some sid → ∃ e ∈ (p.take AuthStatement.effect t w st next).trace,
        e.label.opensSession = true ∧ e.input.sessionId = sid := by
    intro c response hdone
    have houtcome := hobeys.threads t _ (by rw [Pool.threads_take, if_pos rfl, hdone])
    generalize hhistory : history t (p.take AuthStatement.effect t w st next).trace = steps
      at houtcome
    cases houtcome with
    | same => exact ⟨hold _ hcookie, fun sid => hknown _ sid hcookie⟩
    | cleared => exact ⟨agrees_empty, fun _ hsid => absurd hsid (by simp)⟩
    | @opened older _ e path id user cookieId hlabel hanswered huser hid =>
      rw [Pool.take, history_cons_self] at hhistory
      obtain ⟨rfl, rfl⟩ := List.cons.inj hhistory
      dsimp only at hlabel
      subst hlabel
      obtain ⟨e', he', hfound⟩ := huser
      have hlater := hnames.trace e' (List.mem_cons_of_mem _ (mem_history.mp he').1) id user hfound
      refine ⟨agrees_of_opened hanswered (hsensible path id hnext).1 hlater ?_, fun sid hsid =>
        ⟨_, List.mem_cons_self, rfl, Option.some.inj hsid⟩⟩
      cases hid with
      | inl hown => exact Or.inr hown
      | inr hoauth =>
        obtain ⟨rfl, rfl⟩ := hoauth
        exact hidentity id hnext (target_of_exec rfl hanswered).1
  refine ⟨hkeeps.unique h.unique, hnames, fun t' ht' => (holds_take ht).mpr (Or.inl ?_),
    fun c hc => ?_, fun c sid hc hsid => ?_⟩
  · rw [Pool.threads_take] at ht'
    split at ht'
    · rename_i heq
      exact heq ▸ hcookie
    · exact h.begun t' ht'
  · cases (holds_take ht).mp hc with
    | inl hc => exact hold c hc
    | inr hdone => exact (hnew c _ hdone.choose_spec).1
  · cases (holds_take ht).mp hc with
    | inl hc => exact hknown c sid hc hsid
    | inr hdone => exact (hnew c _ hdone.choose_spec).2 sid hsid

end Held

end OdooSemantic
