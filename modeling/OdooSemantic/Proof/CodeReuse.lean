import OdooSemantic.Proof.Programs

/-!
# How often a second factor opens a session

A backup code is used up in three steps: the list is read, the code is marked in memory, and the
whole list is written back. Nothing holds the row in between, and the `UPDATE` does not ask
whether the list is still the one that was read. So two requests may mark the same code in their
own copies, and a request that writes an old list takes back the marks of others.

A code of the authenticator leaves no trace at all: it is good for as long as the window of
its time step is open, for any number of requests.
-/

namespace OdooSemantic

open KeyedStore Threads

/-! ## Backup codes -/

/-- The backup code at this place of the list is marked. -/
def AuthDb.CodeUsed (db : AuthDb) (userId i : Nat) : Prop :=
  ∃ row entry, db.totpSecrets.lookup userId = some row ∧ row.backupCodesHash[i]? = some entry ∧
    entry.usedAt.isSome = true

/-- No mark is taken back. -/
def UsedStays (db db' : AuthDb) : Prop := ∀ userId i, db.CodeUsed userId i → db'.CodeUsed userId i

theorem usedStays_refl (db : AuthDb) : UsedStays db db := fun _ _ => id

theorem UsedStays.trans {db db' db'' : AuthDb} (h : UsedStays db db') (h' : UsedStays db' db'') :
    UsedStays db db'' := fun userId i hused => h' userId i (h userId i hused)

section Codes

variable {T : Type} {db db' : AuthDb} {stored updated : List BackupCode} {userId i : Nat}

/-- A list with one more mark. -/
theorem MarksOne.used (h : MarksOne stored updated) {entry : BackupCode}
    (hget : stored[i]? = some entry) (hused : entry.usedAt.isSome = true) :
    updated[i]? = some entry := by
  obtain ⟨j, entry', now, hget', hunused, rfl⟩ := h
  have hne : j ≠ i := by
    rintro rfl
    obtain rfl := Option.some.inj (hget.symm.trans hget')
    rw [hunused] at hused
    exact absurd hused (by simp)
  rw [List.getElem?_set_ne hne]
  exact hget

/-- The row still has the codes that the request has read. -/
def AuthDb.StillStored (db : AuthDb) (userId : Nat) (stored : List BackupCode) : Prop :=
  ∃ row, db.totpSecrets.lookup userId = some row ∧ row.backupCodesHash = stored

theorem lookup_updateBackupCodes {row : TotpSecret}
    (hrow : db.totpSecrets.lookup userId = some row) (u : Nat) :
    (db.updateBackupCodes userId updated).totpSecrets.lookup u =
      if u = userId then some { row with backupCodesHash := updated }
      else db.totpSecrets.lookup u := by
  unfold AuthDb.updateBackupCodes
  rw [lookup_modify, hrow]
  rfl

/-- **Writing back what has not changed takes no mark away.** -/
theorem usedStays_updateBackupCodes (hmarks : MarksOne stored updated)
    (hstored : db.StillStored userId stored) :
    UsedStays db (db.updateBackupCodes userId updated) := by
  obtain ⟨row, hrow, rfl⟩ := hstored
  intro u i hused
  obtain ⟨row', entry, hrow', hget, hentry⟩ := hused
  unfold AuthDb.CodeUsed
  rw [lookup_updateBackupCodes hrow]
  split
  · rename_i heq
    subst heq
    obtain rfl := Option.some.inj (hrow.symm.trans hrow')
    exact ⟨_, entry, rfl, hmarks.used hget hentry, hentry⟩
  · exact ⟨row', entry, hrow', hget, hentry⟩

theorem UsedStays.of_eq (h : db'.totpSecrets = db.totpSecrets) : UsedStays db db' := by
  intro u i hused
  obtain ⟨row, entry, hrow, hget, hentry⟩ := hused
  exact ⟨row, entry, by rw [h]; exact hrow, hget, hentry⟩

/-- At this step the request has marked the code at this place, and goes on. -/
def Redeems (e : WebEntry T) (userId i : Nat) : Prop :=
  Answered e ∧ ∃ stored updated entry entry', e.label = .updateBackupCodes userId stored updated ∧
    stored[i]? = some entry ∧ entry.usedAt = none ∧ updated[i]? = some entry' ∧
      entry'.usedAt.isSome = true

end Codes

/-! ## Codes of the authenticator -/

/-- `valid_window=1`, in time steps of thirty seconds. -/
def inWindow (now n : Nat) : Prop := n ≤ now / 30 + 1 ∧ now / 30 ≤ n + 1

section Steps

variable {T : Type} (d : Deployment) (fits : String → String → Nat → Prop) (calls : T → WebCall)

/-- At this step the code of the time step `n` is accepted, where `fits secret code n` says that
    it is the code of that time step. -/
def CodeAccepted (e : WebEntry T) (userId n : Nat) : Prop :=
  e.label = .readTotp userId ∧ e.input.answers .totpRow = .applied ∧ ∃ body code row secret,
    (calls e.thread).request = .auth (.totpLogin body) ∧ body.code = some code ∧
    e.before.totpSecrets.lookup userId = some row ∧ row.enabled = true ∧
    d.decryptSecret row.secretEncrypted = some secret ∧
    d.totpValid secret (PyText.strip code) e.input.now = true ∧
    inWindow e.input.now n ∧ fits secret (PyText.strip code) n

/-! ## Every run -/

/-- **The codes are still the ones that were read, when they are written; and no code is presented
    whose time step has been accepted before.** -/
def CodesGuarded (p : WebPool T) : Act T RequestWorld → Prop
  | .begin _ => True
  | .take t w =>
      (∀ userId stored updated, p.next t = some (.updateBackupCodes userId stored updated) →
        w.answers .updateBackupCodes ≠ .refused → p.state.StillStored userId stored) ∧
      ∀ userId n, p.next t = some (.readTotp userId) →
        CodeAccepted d fits calls ⟨t, .readTotp userId, w, p.state⟩ userId n →
          ∀ e ∈ p.trace, ¬CodeAccepted d fits calls e userId n

/-- A session of a `totp_login`, behind a step of the same request of which `P` holds. -/
def OpensWith (P : WebEntry T → Prop) (trace : List (WebEntry T)) (s : WebEntry T) : Prop :=
  (∃ userId, s.label = .createSession .totp userId) ∧ ∃ e ∈ trace, e.thread = s.thread ∧ P e

end Steps

/-- Two members of which the one that is later excludes the other are one. -/
theorem eq_of_once {E : Type} {P : E → Prop} {trace : List E}
    (honce : ∀ newer e older, trace = newer ++ e :: older → P e → ∀ e' ∈ older, ¬P e') {e e' : E}
    (he : e ∈ trace) (he' : e' ∈ trace) (hp : P e) (hp' : P e') : e = e' := by
  obtain ⟨newer, older, rfl⟩ := List.mem_iff_append.mp he
  cases List.mem_append.mp he' with
  | inl hnewer =>
    obtain ⟨newest, between, rfl⟩ := List.mem_iff_append.mp hnewer
    rw [List.append_assoc, List.cons_append] at honce
    exact absurd hp (honce newest e' _ rfl hp' e (by simp))
  | inr holder =>
    cases List.mem_cons.mp holder with
    | inl heq => exact heq.symm
    | inr hmem => exact absurd hp' (honce newer e older rfl hp e' hmem)

section Runs

variable {T : Type} {d : Deployment} {fits : String → String → Nat → Prop} {calls : T → WebCall}

/-- **No request takes a mark back**, if it writes over what it has read. -/
theorem usedStays_effect {w : RequestWorld} {db : AuthDb} {h : List (WebEntry T)}
    {st : AuthStatement} {cookie : Cookie} (hwarrant : Warrant false cookie h st)
    (hstored : ∀ userId stored updated, st = .updateBackupCodes userId stored updated →
      w.answers .updateBackupCodes ≠ .refused → db.StillStored userId stored) :
    UsedStays db (st.effect w db) := by
  have heffect := totpEffect st w db
  generalize hdb : st.effect w db = db' at heffect
  cases heffect with
  | none heq => exact .of_eq heq
  | enrols henrols => cases st <;> simp_all [AuthStatement.enrols, Warrant]
  | @codes userId stored updated _ heq =>
    by_cases hrefused : w.answers .updateBackupCodes = .refused
    · obtain rfl : db' = db := hdb.symm.trans (effect_refused rfl hrefused)
      exact usedStays_refl db'
    · exact (usedStays_updateBackupCodes hwarrant (hstored _ _ _ rfl hrefused)).trans (.of_eq heq)

/-- What every such run keeps. -/
structure Spending (d : Deployment) (fits : String → String → Nat → Prop) (calls : T → WebCall)
    (db : AuthDb) (p : WebPool T) : Prop where
  stays : p.Related AuthStatement.effect UsedStays db
  marked : ∀ e ∈ p.trace, ∀ userId i, Redeems e userId i →
    (e.after AuthStatement.effect).CodeUsed userId i
  redeemed : ∀ userId i newer e older, p.trace = newer ++ e :: older → Redeems e userId i →
    ∀ e' ∈ older, ¬Redeems e' userId i
  accepted : ∀ userId n newer e older, p.trace = newer ++ e :: older →
    CodeAccepted d fits calls e userId n → ∀ e' ∈ older, ¬CodeAccepted d fits calls e' userId n

/-- A step that redeems a code finds it unmarked, and leaves it marked. -/
theorem of_redeems {e : WebEntry T} {userId i : Nat} (h : Redeems e userId i)
    (hstored : ∀ userId stored updated, e.label = .updateBackupCodes userId stored updated →
      e.input.answers .updateBackupCodes ≠ .refused → e.before.StillStored userId stored) :
    ¬e.before.CodeUsed userId i ∧ (e.after AuthStatement.effect).CodeUsed userId i := by
  obtain ⟨hanswered, stored, updated, entry, entry', hlabel, hget, hunused, hget', hused⟩ := h
  unfold Answered at hanswered
  unfold Entry.after
  rw [hlabel] at hanswered ⊢
  obtain ⟨hanswer, htarget⟩ := target_of_exec rfl hanswered
  have hne : e.input.answers .updateBackupCodes ≠ .refused := by
    rw [hanswer]
    decide
  obtain ⟨row, hrow, rfl⟩ := hstored userId stored updated hlabel hne
  constructor
  · rintro ⟨row', entry'', hrow', hget'', hused''⟩
    obtain rfl := Option.some.inj (hrow.symm.trans hrow')
    obtain rfl := Option.some.inj (hget.symm.trans hget'')
    rw [hunused] at hused''
    exact absurd hused'' (by simp)
  · rw [← Option.some.inj htarget]
    unfold AuthDb.CodeUsed
    rw [lookup_updateBackupCodes hrow, if_pos rfl]
    exact ⟨_, entry', rfl, hget', hused⟩

variable [DecidableEq T]

theorem spending_step {db : AuthDb} {p p' : WebPool T} {a : Act T RequestWorld}
    (hstep : WebPool.step d calls p a = some p') (hguarded : CodesGuarded d fits calls p a)
    (hobeys : p.Obeys (fun t => Warrant false (calls t).cookie)
      (fun t => CookieOutcome (calls t).cookie))
    (h : Spending d fits calls db p) : Spending d fits calls db p' := by
  cases a with
  | begin t =>
    obtain ⟨-, rfl⟩ := Pool.step_begin hstep
    exact ⟨h.stays.begin t, h.marked, h.redeemed, h.accepted⟩
  | take t w =>
    obtain ⟨st, next, ht, rfl⟩ := Pool.step_take hstep
    have hnext : p.next t = some st := by rw [WebPool.next, ht]
    have hstored : ∀ userId stored updated, st = .updateBackupCodes userId stored updated →
        w.answers .updateBackupCodes ≠ .refused → p.state.StillStored userId stored :=
      fun userId stored updated heq => hguarded.1 userId stored updated (hnext.trans (by rw [heq]))
    refine ⟨h.stays.take usedStays_refl (fun h h' => h.trans h')
        (usedStays_effect (hobeys.threads t _ ht).1 hstored), fun e he userId i hredeems => ?_,
      fun userId i newer e older heq hredeems e' he' hredeems' => ?_,
      fun userId n newer e older heq haccepted e' he' => ?_⟩
    · cases List.mem_cons.mp he with
      | inl hnew =>
        subst hnew
        exact (of_redeems hredeems hstored).2
      | inr hold => exact h.marked e hold userId i hredeems
    · cases append_of_cons_eq heq with
      | inr hold =>
        obtain ⟨newer', -, htrace⟩ := hold
        exact h.redeemed userId i newer' e older htrace hredeems e' he' hredeems'
      | inl hnew =>
        obtain ⟨-, rfl, rfl⟩ := hnew
        have hused := h.stays.trace e' he' userId i (h.marked e' he' userId i hredeems')
        exact (of_redeems hredeems hstored).1 hused
    · cases append_of_cons_eq heq with
      | inr hold =>
        obtain ⟨newer', -, htrace⟩ := hold
        exact h.accepted userId n newer' e older htrace haccepted e' he'
      | inl hnew =>
        obtain ⟨-, rfl, rfl⟩ := hnew
        have hlabel : st = .readTotp userId := haccepted.1
        subst hlabel
        exact hguarded.2 userId n hnext haccepted e' he'

/-- **Second-factor codes are single-use**, in every run in which no code list changes between the
    read and the write of a request, and no time step is presented again: a backup code opens
    one session, a mark is never taken back, and the code of a time step opens one session. -/
theorem codes_single_use (d : Deployment) (fits : String → String → Nat → Prop)
    (calls : T → WebCall) (hcalls : ∀ t, (calls t).request.enrols = false) (db : AuthDb)
    {acts : List (Act T RequestWorld)} {p : WebPool T}
    (hrun : Machine.Runs (WebPool.step d calls) (CodesGuarded d fits calls) { state := db } acts
      p) :
    (∀ userId i newer s older, p.trace = newer ++ s :: older →
      OpensWith (Redeems · userId i) p.trace s →
        ∀ s' ∈ older, ¬OpensWith (Redeems · userId i) p.trace s') ∧
    (UsedStays db p.state ∧ ∀ e ∈ p.trace, UsedStays (e.after AuthStatement.effect) p.state) ∧
    ∀ userId n newer s older, p.trace = newer ++ s :: older →
      OpensWith (CodeAccepted d fits calls · userId n) p.trace s →
        ∀ s' ∈ older, ¬OpensWith (CodeAccepted d fits calls · userId n) p.trace s' := by
  have hmeets : ∀ t, Prog.Meets t (Warrant false (calls t).cookie) (CookieOutcome (calls t).cookie)
      (webProgram d (calls t).cookie (calls t).request) [] := by
    intro t
    rw [← hcalls t]
    exact sound_webProgram d t (calls t)
  have hstart : Spending d fits calls db ({ state := db } : WebPool T) :=
    ⟨related_start usedStays_refl db, fun _ he => absurd he (by simp),
      fun _ _ newer _ _ heq => by simp at heq, fun _ _ newer _ _ heq => by simp at heq⟩
  obtain ⟨hobeys, h⟩ := @Machine.Runs.invariant _ _ _ _
    (fun p => p.Obeys (fun t => Warrant false (calls t).cookie)
      (fun t => CookieOutcome (calls t).cookie) ∧ Spending d fits calls db p)
    (fun _ _ _ hstep hguarded h =>
      ⟨obeys_step hmeets hstep h.1, spending_step hstep hguarded h.1 h.2⟩)
    _ _ _ hrun ⟨obeys_start db, hstart⟩
  -- a request opens one session, so two sessions belong to two requests
  have hsessions : ∀ {P : WebEntry T → Prop} {newer older : List (WebEntry T)} {s : WebEntry T},
      (∀ newer e older, p.trace = newer ++ e :: older → P e → ∀ e' ∈ older, ¬P e') →
      p.trace = newer ++ s :: older → OpensWith P p.trace s →
        ∀ s' ∈ older, ¬OpensWith P p.trace s' := by
    intro P newer older s honce htrace hopens s' hs' hopens'
    obtain ⟨⟨u, hlabel⟩, e, he, hthread, hp⟩ := hopens
    obtain ⟨⟨u', hlabel'⟩, e', he', hthread', hp'⟩ := hopens'
    obtain rfl := eq_of_once honce he he' hp hp'
    have hwarrant := hobeys.trace newer s older htrace
    rw [hlabel] at hwarrant
    have hno := hwarrant.1 s' (mem_history.mpr ⟨hs', hthread'.symm.trans hthread⟩)
    rw [hlabel'] at hno
    exact absurd hno (by simp [AuthStatement.opensSession])
  exact ⟨fun userId i newer s older => hsessions (h.redeemed userId i),
    ⟨h.stays.start, h.stays.trace⟩,
    fun userId n newer s older => hsessions (h.accepted userId n)⟩

end Runs

/-! ## Two browsers with one code -/

namespace SharedCode

/-- An authenticator whose code is the number of the time step. -/
def site : Deployment :=
  { Alice.site with
    totpValid := fun _ code now =>
      [now / 30 - 1, now / 30, now / 30 + 1].any fun n => code = PyText.str n }

def fits : String → String → Nat → Prop := fun _ code n => code = PyText.str n

def db : AuthDb where
  users := AList.insert 7 Alice.alice ∅
  totpSecrets := AList.insert 7
    { secretEncrypted := "SECRET", enabled := true
      backupCodesHash := [{ hash := "hmac:first" }, { hash := "hmac:second" }] } ∅

/-- What `login_post` has handed out. -/
def token : String := site.createMfaToken 7 5000

def backup (code : String) : WebCall :=
  ⟨{}, .auth (.totpLogin { mfaToken := token, backupCode := some code })⟩

def totp (code : String) : WebCall :=
  ⟨{}, .auth (.totpLogin { mfaToken := token, code := some code })⟩

def both (first second : WebCall) : Bool → WebCall
  | false => first
  | true => second

def at' (t : Bool) : Act Bool RequestWorld :=
  .take t { now := 3000, sessionId := if t then "s2" else "s1" }

/-- The second browser comes when the first is logged in. -/
def inTurn : List (Act Bool RequestWorld) :=
  [.begin false, at' false, at' false, at' false, at' false, at' false,
    .begin true, at' true, at' true, at' true, at' true, at' true]

/-- Both have read the codes before either writes them. -/
def together : List (Act Bool RequestWorld) :=
  [.begin false, at' false, at' false, at' false, .begin true, at' true, at' true, at' true,
    at' false, at' false, at' true, at' true]

/-- A code of the authenticator takes no statement of its own. -/
def replayed : List (Act Bool RequestWorld) :=
  [.begin false, at' false, at' false, at' false, at' false,
    .begin true, at' true, at' true, at' true, at' true]

def after (calls : Bool → WebCall) (acts : List (Act Bool RequestWorld)) : WebPool Bool :=
  (Machine.replay (WebPool.step site calls) (fun _ _ => true) acts { state := db }).getD
    { state := db }

theorem run_after {calls : Bool → WebCall} {acts : List (Act Bool RequestWorld)}
    {p : WebPool Bool}
    (h : Machine.replay (WebPool.step site calls) (fun _ _ => true) acts { state := db } =
      some p) :
    Machine.Runs (WebPool.step site calls) (fun _ _ => True) { state := db } acts
      (after calls acts) :=
  Machine.runs_getD h _

/-- `CodesGuarded`, as a test, where all codes are backup codes. -/
def isGuarded (p : WebPool Bool) : Act Bool RequestWorld → Bool
  | .begin _ => true
  | .take t _ =>
      match p.next t with
      | some (.updateBackupCodes userId stored _) =>
          (p.state.totpSecrets.lookup userId).any fun row => row.backupCodesHash = stored
      | _ => true

def twoCodes : Bool → WebCall := both (backup "first") (backup "second")

theorem codesGuarded_of_isGuarded (p : WebPool Bool) (a : Act Bool RequestWorld)
    (h : isGuarded p a = true) : CodesGuarded site fits twoCodes p a := by
  cases a with
  | begin t => trivial
  | take t w =>
    refine ⟨fun userId stored updated hnext _ => ?_, fun userId n _ haccepted => ?_⟩
    · simp only [isGuarded, hnext] at h
      obtain ⟨row, hrow, heq⟩ := (Option.any_eq_true _ _).mp h
      exact ⟨row, hrow, of_decide_eq_true heq⟩
    · obtain ⟨-, -, body, code, -, -, hrequest, hcode, -⟩ := haccepted
      cases t with
      | false =>
        cases hrequest
        exact absurd hcode (by simp)
      | true =>
        cases hrequest
        exact absurd hcode (by simp)

def oneCode : Bool → WebCall := both (backup "first") (backup "first")

def oneStep : Bool → WebCall := both (totp "100") (totp "100")

/-- The steps of a run, the latest first. -/
abbrev steps (calls : Bool → WebCall) (acts : List (Act Bool RequestWorld)) :
    List (WebEntry Bool) :=
  (after calls acts).trace

abbrev nth (calls : Bool → WebCall) (acts : List (Act Bool RequestWorld)) (k : Nat)
    (h : k < (steps calls acts).length) : WebEntry Bool :=
  (steps calls acts).get ⟨k, h⟩

/-- A session at one step of a run, with a code at another. -/
theorem opensWith_nth {P : WebEntry Bool → Prop} {calls : Bool → WebCall}
    {acts : List (Act Bool RequestWorld)} (j k : Nat) {hj : j < (steps calls acts).length}
    {hk : k < (steps calls acts).length}
    (hlabel : (nth calls acts j hj).label = .createSession .totp 7)
    (hthread : (nth calls acts k hk).thread = (nth calls acts j hj).thread)
    (hp : P (nth calls acts k hk)) : OpensWith P (steps calls acts) (nth calls acts j hj) :=
  ⟨⟨7, hlabel⟩, nth calls acts k hk, List.get_mem _ _, hthread, hp⟩

/-- The code that the second browser has used was not used by the first, and no mark is gone. -/
theorem codes_single_use_inTurn :
    ¬OpensWith (Redeems · 7 1) (steps twoCodes inTurn) (nth twoCodes inTurn 5 (by decide)) ∧
      UsedStays db (after twoCodes inTurn).state := by
  have h := codes_single_use site fits twoCodes (fun t => by cases t <;> rfl) db
    ((@Machine.runs_of_replay _ _ (WebPool.step site twoCodes) isGuarded inTurn { state := db }
      (after twoCodes inTurn) rfl).imp codesGuarded_of_isGuarded)
  have hredeems : Redeems (nth twoCodes inTurn 1 (by decide)) 7 1 :=
    ⟨rfl, _, _, _, _, rfl, rfl, rfl, rfl, rfl⟩
  have hopens : OpensWith (Redeems · 7 1) (steps twoCodes inTurn)
      (nth twoCodes inTurn 0 (by decide)) := opensWith_nth 0 1 rfl rfl hredeems
  exact ⟨h.1 7 1 [] _ ((steps twoCodes inTurn).drop 1) rfl hopens _ (List.get_mem _ ⟨4, by decide⟩),
    h.2.1.1⟩

theorem redeems_first (k : Nat) (hk : k < (steps oneCode together).length)
    (h : k = 1 ∨ k = 3) : Redeems (nth oneCode together k hk) 7 0 := by
  rcases h with rfl | rfl <;> exact ⟨rfl, _, _, _, _, rfl, rfl, rfl, rfl, rfl⟩

theorem accepted_100 (k : Nat) (hk : k < (steps oneStep replayed).length) (h : k = 1 ∨ k = 5) :
    CodeAccepted site fits oneStep (nth oneStep replayed k hk) 7 100 := by
  have hvalid : ∀ secret, site.totpValid secret (PyText.strip "100") 3000 = true := fun _ => rfl
  have hwindow : inWindow 3000 100 := ⟨by decide, by decide⟩
  rcases h with rfl | rfl <;>
    exact ⟨rfl, rfl, _, "100", _, _, rfl, rfl, rfl, rfl, rfl, hvalid _, hwindow, rfl⟩

/-- **One code, two sessions.** Both browsers use the first backup code; the second browser, with
    the second code, takes back the mark of the first; and both use the code of time step 100. -/
theorem codes_reused :
    ¬(∀ acts (p : WebPool Bool),
      Machine.Runs (WebPool.step site oneCode) (fun _ _ => True) { state := db } acts p →
        ∀ newer s older, p.trace = newer ++ s :: older → OpensWith (Redeems · 7 0) p.trace s →
          ∀ s' ∈ older, ¬OpensWith (Redeems · 7 0) p.trace s') ∧
    ¬(∀ acts (p : WebPool Bool),
      Machine.Runs (WebPool.step site twoCodes) (fun _ _ => True) { state := db } acts p →
        ∀ e ∈ p.trace, UsedStays (e.after AuthStatement.effect) p.state) ∧
    ¬∀ acts (p : WebPool Bool),
      Machine.Runs (WebPool.step site oneStep) (fun _ _ => True) { state := db } acts p →
        ∀ newer s older, p.trace = newer ++ s :: older →
          OpensWith (CodeAccepted site fits oneStep · 7 100) p.trace s →
            ∀ s' ∈ older, ¬OpensWith (CodeAccepted site fits oneStep · 7 100) p.trace s' := by
  refine ⟨fun h => ?_, fun h => ?_, fun h => ?_⟩
  · have hopens : OpensWith (Redeems · 7 0) (steps oneCode together)
        (nth oneCode together 0 (by decide)) :=
      opensWith_nth 0 1 rfl rfl (redeems_first 1 (by decide) (Or.inl rfl))
    have hopens' : OpensWith (Redeems · 7 0) (steps oneCode together)
        (nth oneCode together 2 (by decide)) :=
      opensWith_nth 2 3 rfl rfl (redeems_first 3 (by decide) (Or.inr rfl))
    exact h together _ (run_after rfl) [] _ ((steps oneCode together).drop 1) rfl hopens _
      (List.get_mem _ ⟨1, by decide⟩) hopens'
  · have hstays := h together _ (run_after rfl) (nth twoCodes together 3 (by decide))
      (List.get_mem _ _) 7 0 ⟨_, _, rfl, rfl, rfl⟩
    obtain ⟨row, entry, hrow, hget, hused⟩ := hstays
    obtain rfl := Option.some.inj hrow
    obtain rfl := Option.some.inj hget
    exact absurd hused (by decide)
  · have hopens : OpensWith (CodeAccepted site fits oneStep · 7 100) (steps oneStep replayed)
        (nth oneStep replayed 0 (by decide)) :=
      opensWith_nth 0 1 rfl rfl (accepted_100 1 (by decide) (Or.inl rfl))
    have hopens' : OpensWith (CodeAccepted site fits oneStep · 7 100) (steps oneStep replayed)
        (nth oneStep replayed 4 (by decide)) :=
      opensWith_nth 4 5 rfl rfl (accepted_100 5 (by decide) (Or.inr rfl))
    exact h replayed _ (run_after rfl) [] _ ((steps oneStep replayed).drop 1) rfl hopens _
      (List.get_mem _ ⟨3, by decide⟩) hopens'

end SharedCode

end OdooSemantic
