import OdooSemantic.Proof.SessionIdentity

/-!
# The gate before a restore

`require_admin_with_fresh_mfa` wants a time in the session at which a second factor was verified.
`totp_login` verifies a second factor, `totp_verify` does, and `auth.py` says that such a time is
stored. Nobody stores it. A login writes the other fields of the session, a logout clears them
all, and so the field is empty in every cookie there ever is (`issued_unverified`).

The gate is shut, then. It is right about whoever it should not let through, and wrong about an
admin who has just logged in with a second factor (`gate_exact_iff`).
-/

namespace OdooSemantic

/-! ## Runs -/

/-- The session state of `SessionIdentity`, with a clock and a record of the second factors. -/
structure MfaState extends SessionState where
  clock : Nat := 0
  /-- A session, and when it has completed a second factor. -/
  factors : List (String × Nat) := []

inductive MfaAct where
  | auth (call : AuthCall)
  /-- `POST /api/operations/restore`; `restored` is what the uploaded bundle holds. -/
  | restore (world : RequestWorld) (cookie : Cookie) (restored : AuthDb)

/-- The session that completes a second factor, if the request does. -/
def AuthCall.factor (call : AuthCall) (reply : Reply) : Option String :=
  match call.request, reply.response with
  | .totpLogin _, .loggedIn _ => some call.world.sessionId
  | .totpVerify _, .enrolled _ => call.cookie.sessionId
  | _, _ => none

namespace MfaState

variable (d : Deployment) (s : MfaState)

def step : MfaAct → Option MfaState
  | .auth call =>
      if s.clock ≤ call.world.now then
        (s.toSessionState.step d call).map fun next =>
          let reply := handle d call.world call.cookie s.db call.request
          { toSessionState := next, clock := call.world.now
            factors :=
              (call.factor reply).toList.map (fun sid => (sid, call.world.now)) ++ s.factors }
      else none
  | .restore w cookie restored =>
      if cookie ∈ s.issued ∧ s.clock ≤ w.now then
        match requireAdminWithFreshMfa w cookie s.db with
        | .ok _ => some { s with db := restored, clock := w.now }
        | .error _ => some { s with clock := w.now }
      else none

/-- The session's user is an admin, and the session has completed a second factor lately. -/
def IsFreshAdmin (w : RequestWorld) (cookie : Cookie) : Prop :=
  (∃ uid, requireAdmin w cookie s.db = .ok uid) ∧
    ∃ sid at', cookie.sessionId = some sid ∧ (sid, at') ∈ s.factors ∧
      w.now ≤ at' + mfaFreshnessSeconds

end MfaState

/-! ## Nobody writes the field -/

section

variable {d : Deployment} {w : RequestWorld} {cookie : Cookie} {db : AuthDb}

/-- A login keeps the field, a logout clears it. -/
theorem mfaVerifiedAt_handle (h : cookie.mfaVerifiedAt = none) (r : AuthRequest) :
    (handle d w cookie db r).cookie.mfaVerifiedAt = none := by
  have hlogin : ∀ {reply : Reply} {id : Nat} {userId : Option Nat},
      LoggedIn w cookie reply id userId → reply.cookie.mfaVerifiedAt = none := by
    intro reply id userId hlogin
    obtain ⟨user, -, hcookie⟩ := hlogin.cookie
    rw [hcookie]
    exact h
  cases @hands_handle d w cookie db r with
  | same heq =>
    rw [heq]
    exact h
  | cleared heq => rw [heq]
  | login hin => exact hlogin hin
  | oauth _ _ _ hin => exact hlogin hin

/-- Without the field the gate is shut. -/
theorem gate_shut (h : cookie.mfaVerifiedAt = none) (uid : Nat) :
    requireAdminWithFreshMfa w cookie db ≠ .ok uid := by
  unfold requireAdminWithFreshMfa
  rw [h]
  split <;> simp

def MfaState.Unverified (s : MfaState) : Prop := ∀ cookie ∈ s.issued, cookie.mfaVerifiedAt = none

theorem unverified_step {s s' : MfaState} {act : MfaAct} (hstep : s.step d act = some s')
    (h : s.Unverified) : s'.Unverified := by
  cases act with
  | auth call =>
    simp only [MfaState.step] at hstep
    split at hstep
    · obtain ⟨next, hnext, rfl⟩ := Option.map_eq_some_iff.mp hstep
      unfold SessionState.step at hnext
      split at hnext
      · rename_i hok
        obtain rfl := Option.some.inj hnext
        intro cookie hcookie
        cases List.mem_cons.mp hcookie with
        | inl heq =>
          rw [heq]
          exact mfaVerifiedAt_handle (h _ hok.1) _
        | inr hmem => exact h cookie hmem
      · exact absurd hnext (by simp)
    · exact absurd hstep (by simp)
  | restore w cookie restored =>
    simp only [MfaState.step] at hstep
    split at hstep
    · split at hstep
      · obtain rfl := Option.some.inj hstep
        exact h
      · obtain rfl := Option.some.inj hstep
        exact h
    · exact absurd hstep (by simp)

end

/-- **The field is empty in every cookie.** -/
theorem issued_unverified {d : Deployment} {db : AuthDb} {acts : List MfaAct} {s : MfaState}
    (hrun : Machine.Runs (MfaState.step d) (fun _ _ => True) { db } acts s) : s.Unverified := by
  refine hrun.invariant (fun _ _ _ hstep _ h => unverified_step hstep h) ?_
  intro cookie hcookie
  obtain rfl := List.mem_singleton.mp hcookie
  rfl

/-- **When the gate is right**: exactly about those it should not let through. -/
theorem gate_exact_iff (d : Deployment) {db : AuthDb} {acts : List MfaAct} {s : MfaState}
    (hrun : Machine.Runs (MfaState.step d) (fun _ _ => True) { db } acts s) (w : RequestWorld)
    {cookie : Cookie} (hcookie : cookie ∈ s.issued) :
    ((∃ uid, requireAdminWithFreshMfa w cookie s.db = .ok uid) ↔ s.IsFreshAdmin w cookie) ↔
      ¬s.IsFreshAdmin w cookie := by
  have hshut : ¬∃ uid, requireAdminWithFreshMfa w cookie s.db = .ok uid :=
    fun ⟨uid, hopen⟩ => gate_shut (issued_unverified hrun cookie hcookie) uid hopen
  constructor
  · intro hexact hfresh
    exact hshut (hexact.mpr hfresh)
  · intro hstale
    exact ⟨fun hopen => absurd hopen hshut, fun hfresh => absurd hfresh hstale⟩

/-! ## An admin with a second factor

`root` logs in with a password and a code, and asks for a restore in the same second. -/

namespace RestoreGate

def site : Deployment := { Alice.site with totpValid := fun _ code _ => code = "123456" }

def db : AuthDb where
  users := AList.insert 1
    { username := "root", passwordHash := some "bcrypt:correct horse battery", isAdmin := true
      mfaEnabled := true } ∅
  totpSecrets := AList.insert 1 { secretEncrypted := "SECRET", enabled := true } ∅

def world : RequestWorld := { now := 1000, sessionId := "s1" }

def password : MfaAct := .auth ⟨world, {}, .login ⟨"root", "correct horse battery"⟩⟩

def code : MfaAct :=
  .auth ⟨world, {},
    .totpLogin { mfaToken := site.createMfaToken 1 1300, code := some "123456" }⟩

def after (acts : List MfaAct) : MfaState :=
  (Machine.replay (MfaState.step site) (fun _ _ => true) acts { db }).getD { db }

theorem run_after {acts : List MfaAct} {s : MfaState}
    (h : Machine.replay (MfaState.step site) (fun _ _ => true) acts { db } = some s) :
    Machine.Runs (MfaState.step site) (fun _ _ => True) { db } acts (after acts) :=
  Machine.runs_getD h _

def cookie : Cookie where
  sessionId := some "s1"
  username := some "root"
  userId := some 1
  sessionAt := some 1000

theorem isFreshAdmin_root : (after [password, code]).IsFreshAdmin world cookie :=
  ⟨⟨1, rfl⟩, "s1", 1000, rfl, List.mem_cons_self, by decide⟩

/-- Before the code there is nothing to let through. -/
theorem gate_exact_password :
    (∃ uid, requireAdminWithFreshMfa world {} (after [password]).db = .ok uid) ↔
      (after [password]).IsFreshAdmin world {} := by
  refine (gate_exact_iff site (run_after rfl) world (List.mem_cons_self)).mpr fun hfresh => ?_
  obtain ⟨sid, at', hsid, -⟩ := hfresh.2
  exact absurd hsid (by simp)

/-- **The gate is shut for an admin who has just logged in with a second factor.** -/
theorem gate_never_opens :
    ¬∀ acts s, Machine.Runs (MfaState.step site) (fun _ _ => True) { db } acts s →
      ∀ w, s.clock ≤ w.now → ∀ cookie ∈ s.issued,
        ((∃ uid, requireAdminWithFreshMfa w cookie s.db = .ok uid) ↔ s.IsFreshAdmin w cookie) := by
  intro h
  have hrun : Machine.Runs (MfaState.step site) (fun _ _ => True) { db } [password, code]
      (after [password, code]) := run_after rfl
  have hissued : cookie ∈ (after [password, code]).issued := by decide
  obtain ⟨uid, hopen⟩ := (h _ _ hrun world (by decide) cookie hissued).mpr isFreshAdmin_root
  exact gate_shut rfl uid hopen

end RestoreGate

end OdooSemantic
