import OdooSemantic.Proof.AccountLinking
import OdooSemantic.Proof.ResetTokens
import OdooSemantic.Web.SignupCalls

/-!
# How often a verification token is redeemed

`verify_email` has the row of its token locked from the moment that it reads it. So a token that is
unused when it is read is unused when it is redeemed, and no two calls redeem it, whatever else
goes on (`verification_tokens_single_use`). With reset tokens it is another story (`ResetTokens`).

`next_moves` says once what a call can do; everything else that is going on is `keepsRows_effect`
and `keepsUsers_effect`.
-/

namespace OdooSemantic

open KeyedStore

/-! ## Where a call is -/

namespace SignupPhase

/-- The row that the call has locked, and when it was checked. -/
def row : SignupPhase → Option (EmailVerification × Nat)
  | locked row now | found row now _ => some (row, now)
  | _ => none

/-- Whom the call is about to send a token to. -/
def recipient : SignupPhase → Option (Nat × String)
  | unverified userId email | sending userId email _ _ => some (userId, email)
  | _ => none

/-- The call has nothing in hand. -/
structure Idle (p : SignupPhase) : Prop where
  row : p.row = none
  recipient : p.recipient = none

theorem idle_done (response : Response) : (done response).Idle := ⟨rfl, rfl⟩

end SignupPhase

/-- What has been redeemed, for whom, and when its expiry was compared. -/
def SignupEvent.redemption {T : Type} : SignupEvent T → Option (String × Nat × Nat)
  | redeemed _ tokenHash userId checked => some (tokenHash, userId, checked)
  | _ => none

def redemptions {T : Type} (trace : List (SignupEvent T)) : List (String × Nat × Nat) :=
  trace.filterMap SignupEvent.redemption

/-! ## What a step can do -/

section Moves

variable {T : Type} [DecidableEq T]

/-- **What a call can do.** -/
inductive SignupMove (d : Deployment) (calls : T → SignupCall) (s : SignupTxs T) (t : T)
    (w : CallWorld) : SignupTxs T → Prop
  | ended {db : AuthDb} {response : Response} (husers : db.users = s.db.users)
      (htokens : db.emailVerifications = s.db.emailVerifications) :
      SignupMove d calls s t w ((s.write db).finish t response)
  | moved {phase : SignupPhase} (hidle : phase.Idle) : SignupMove d calls s t w (s.become t phase)
  | locked {token : String} {row : EmailVerification} (hcall : calls t = .verifyEmail token)
      (hfree : s.isFree t (d.sha256 (PyText.strip token)) = true)
      (hrow : s.db.verification (d.sha256 (PyText.strip token)) = some row)
      (hunused : row.usedAt = none) (hlive : w.now ≤ row.expiresAt) :
      SignupMove d calls s t w
        ((s.lock t (d.sha256 (PyText.strip token))).become t (.locked row w.now))
  | found {row : EmailVerification} {now : Nat} {username : String}
      (hphase : s.phase t = .locked row now) :
      SignupMove d calls s t w (s.become t (.found row now username))
  | redeemed {token : String} {row : EmailVerification} {now : Nat} {phase : SignupPhase}
      (hcall : calls t = .verifyEmail token) (hrow : (s.phase t).row = some (row, now))
      (hidle : phase.Idle) :
      SignupMove d calls s t w
        (((s.redeem t (d.sha256 (PyText.strip token)) row now w).release t).become t phase)
  | unverified {userId : Nat} {email : String} {user : WebuiUser}
      (hfound : s.db.unverified email = some (userId, user)) :
      SignupMove d calls s t w (s.become t (.unverified userId email))
  | counted {userId : Nat} {email : String} (hphase : s.phase t = .unverified userId email)
      (hcount : s.db.tokensOfLastHour userId w.now < 3) :
      SignupMove d calls s t w (s.become t (.sending userId email w.now .ok))
  | created {user : WebuiUser} {email : String} {db : AuthDb} {phase : SignupPhase}
      (hinsert : s.db.insertUser user = some db) (hemail : user.email = some email)
      (hverified : user.emailVerified = false)
      (hphase : phase.Idle ∨
        phase = .sending s.db.nextUserId email w.now .verificationEmailSent) :
      SignupMove d calls s t w
        (((s.recordUser t db s.db.nextUserId email).release t).become t phase)
  | made {userId since : Nat} {email tokenHash : String} {response : Response}
      {row : EmailVerification} {db : AuthDb} {phase : SignupPhase}
      (hphase : s.phase t = .sending userId email since response)
      (hinsert : s.db.insertVerification tokenHash row = some db) (huser : row.userId = userId)
      (hpurpose : row.purpose = .emailVerify) (hidle : phase.Idle) :
      SignupMove d calls s t w
        (((s.record t db userId email tokenHash w.now).release t).become t phase)

variable {d : Deployment} {calls : T → SignupCall} {s s' : SignupTxs T} {t : T} {w : CallWorld}

theorem moves_finish (response : Response) : SignupMove d calls s t w (s.finish t response) := by
  show SignupMove d calls s t w ((s.write s.db.toAuthDb).finish t response)
  exact .ended rfl rfl

theorem commit_cases (s : SignupTxs T) (t : T) (answer : DbAnswer) (committed : SignupTxs T)
    (next : SignupPhase) :
    s.commit t answer committed next = s.finish t .crashed ∨
      ∃ phase, (phase = next ∨ phase = .done .crashed) ∧
        s.commit t answer committed next = (committed.release t).become t phase := by
  cases answer with
  | applied => exact Or.inr ⟨next, Or.inl rfl, rfl⟩
  | refused => exact Or.inl rfl
  | lost => exact Or.inr ⟨_, Or.inr rfl, rfl⟩

theorem moves_beginRegister (body : RegisterBody) :
    SignupMove d calls s t w (s.beginRegister t d body w) := by
  unfold SignupTxs.beginRegister
  dsimp only
  split
  · exact moves_finish _
  split
  · exact moves_finish _
  split
  · exact moves_finish _
  split
  · exact moves_finish _
  split
  · split
    · exact moves_finish _
    · split
      · exact moves_finish _
      · exact .moved ⟨rfl, rfl⟩
  · exact moves_finish _

theorem moves_readEmail (email username hash : String) (taken : Bool) :
    SignupMove d calls s t w (s.readEmail t email username hash taken w) := by
  unfold SignupTxs.readEmail
  split
  · exact moves_finish _
  · split
    · exact moves_finish _
    · exact .moved ⟨rfl, rfl⟩

theorem moves_createUser (email username hash : String) :
    SignupMove d calls s t w (s.createUser t email username hash w) := by
  unfold SignupTxs.createUser
  split
  · exact moves_finish _
  · rename_i db hinsert
    cases commit_cases s t (w.answers .insertSignup) (s.recordUser t db s.db.nextUserId email)
        (.sending s.db.nextUserId email w.now .verificationEmailSent) with
    | inl heq =>
      rw [heq]
      exact moves_finish _
    | inr hcommit =>
      obtain ⟨phase, hphase, heq⟩ := hcommit
      rw [heq]
      apply SignupMove.created hinsert rfl rfl
      cases hphase with
      | inl hnext => exact Or.inr hnext
      | inr hdone => exact Or.inl (hdone ▸ SignupPhase.idle_done _)

theorem moves_lockToken {token : String} (hcall : calls t = .verifyEmail token)
    (h : s.lockToken t d token w = some s') : SignupMove d calls s t w s' := by
  unfold SignupTxs.lockToken at h
  dsimp only at h
  split at h
  · obtain rfl := Option.some.inj h
    exact moves_finish _
  split at h
  · exact absurd h (by simp)
  rename_i hwait
  split at h
  · obtain rfl := Option.some.inj h
    exact moves_finish _
  · obtain rfl := Option.some.inj h
    exact moves_finish _
  · rename_i row hread
    have hrow := (of_read hread).symm
    split at h
    · obtain rfl := Option.some.inj h
      exact moves_finish _
    · rename_i hgood
      obtain rfl := Option.some.inj h
      simp only [Bool.or_eq_true, Option.isSome_iff_ne_none, decide_eq_true_eq, not_or,
        not_not, Nat.not_lt] at hgood
      -- there is a row, so it was free
      have hfree : s.isFree t (d.sha256 (PyText.strip token)) = true := by
        simpa [hrow] using hwait
      exact .locked hcall hfree hrow hgood.1 hgood.2

theorem moves_findUser {row : EmailVerification} {now : Nat} (hphase : s.phase t = .locked row now) :
    SignupMove d calls s t w (s.findUser t row now w) := by
  unfold SignupTxs.findUser
  split
  · exact moves_finish _
  · exact moves_finish _
  · exact .found hphase

theorem moves_commitVerified {token username : String} {row : EmailVerification} {now : Nat}
    (hcall : calls t = .verifyEmail token) (hphase : s.phase t = .found row now username) :
    SignupMove d calls s t w (s.commit t (w.answers .verifyCommit)
      (s.redeem t (d.sha256 (PyText.strip token)) row now w) (.verified row.userId username)) := by
  cases commit_cases s t (w.answers .verifyCommit)
      (s.redeem t (d.sha256 (PyText.strip token)) row now w) (.verified row.userId username) with
  | inl heq =>
    rw [heq]
    exact moves_finish _
  | inr hcommit =>
    obtain ⟨phase, hnext, heq⟩ := hcommit
    rw [heq]
    apply SignupMove.redeemed hcall
    · rw [hphase]
      rfl
    · cases hnext with
      | inl hverified => exact hverified ▸ ⟨rfl, rfl⟩
      | inr hdone => exact hdone ▸ SignupPhase.idle_done _

theorem moves_logIn (userId : Nat) (username : String) :
    SignupMove d calls s t w (s.logIn t userId username w) := by
  have husers := users_createSession w.toRequestWorld userId s.db.toAuthDb
  have htokens : (w.createSession userId s.db.toAuthDb).2.emailVerifications =
      s.db.emailVerifications := by
    unfold RequestWorld.createSession
    split
    · rfl
    · rename_i db' hinsert
      cases snd_write (w.answers .createSession) s.db.toAuthDb db' with
      | inl heq => exact congrArg AuthDb.emailVerifications heq
      | inr heq =>
        refine (congrArg AuthDb.emailVerifications heq).trans ?_
        rw [(of_insertSession hinsert).2]
  unfold SignupTxs.logIn
  split
  · rename_i db heq
    rw [heq] at husers htokens
    exact .ended husers htokens
  · rename_i db heq
    rw [heq] at husers htokens
    exact .ended husers htokens

theorem moves_findUnverified (body : String) :
    SignupMove d calls s t w (s.findUnverified t d body w) := by
  unfold SignupTxs.findUnverified
  dsimp only
  split
  · exact moves_finish _
  split
  · exact moves_finish _
  · exact moves_finish _
  · rename_i userId user hread
    exact .unverified (DbAnswer.of_read hread).symm

theorem moves_countTokens {userId : Nat} {email : String}
    (hphase : s.phase t = .unverified userId email) :
    SignupMove d calls s t w (s.countTokens t userId email w) := by
  unfold SignupTxs.countTokens
  split
  · exact moves_finish _
  · rename_i count hread
    obtain rfl := DbAnswer.of_read hread
    split
    · exact moves_finish _
    · exact .counted hphase (Nat.lt_of_not_le ‹_›)

theorem moves_makeToken {userId since : Nat} {email : String} {response response' : Response}
    (hphase : s.phase t = .sending userId email since response) :
    SignupMove d calls s t w (s.makeToken t d userId email response' w) := by
  unfold SignupTxs.makeToken
  dsimp only
  split
  · exact moves_finish _
  · rename_i db hinsert
    cases commit_cases s t (w.answers .insertVerification)
        (s.record t db userId email (d.sha256 w.rawToken) w.now) (.done response') with
    | inl heq =>
      rw [heq]
      exact moves_finish _
    | inr hcommit =>
      obtain ⟨phase, hnext, heq⟩ := hcommit
      rw [heq]
      apply SignupMove.made hphase hinsert rfl rfl
      cases hnext with
      | inl hdone => exact hdone ▸ SignupPhase.idle_done _
      | inr hdone => exact hdone ▸ SignupPhase.idle_done _

theorem next_moves (h : s.next t d calls w = some s') : SignupMove d calls s t w s' := by
  unfold SignupTxs.next at h
  split at h
  · obtain rfl := Option.some.inj h
    exact moves_beginRegister _
  · obtain rfl := Option.some.inj h
    exact moves_readEmail _ _ _ _
  · obtain rfl := Option.some.inj h
    exact moves_createUser _ _ _
  · exact moves_lockToken ‹_› h
  · obtain rfl := Option.some.inj h
    exact moves_findUser ‹_›
  · obtain rfl := Option.some.inj h
    exact moves_commitVerified ‹_› ‹_›
  · obtain rfl := Option.some.inj h
    exact moves_logIn _ _
  · obtain rfl := Option.some.inj h
    exact moves_findUnverified _
  · obtain rfl := Option.some.inj h
    exact moves_countTokens ‹_›
  · obtain rfl := Option.some.inj h
    exact moves_makeToken ‹_›
  · obtain rfl := Option.some.inj h
    exact moves_makeToken ‹_›
  · exact absurd h (by simp)

end Moves

/-! ## The tables -/

/-- The same token, and used if it was. -/
structure SameToken (row row' : EmailVerification) : Prop where
  userId : row'.userId = row.userId
  purpose : row'.purpose = row.purpose
  expiresAt : row'.expiresAt = row.expiresAt
  used : row.usedAt.isSome = true → row'.usedAt.isSome = true

/-- No row has gone. -/
def RowsStay (db db' : AuthDb) : Prop :=
  ∀ key row, db.emailVerifications.lookup key = some row →
    ∃ row', db'.emailVerifications.lookup key = some row' ∧ SameToken row row'

/-- No row has come that `verify_email` would look at. -/
def NoNewRows (db db' : AuthDb) : Prop :=
  ∀ key row', db'.emailVerifications.lookup key = some row' → row'.purpose = .emailVerify →
    ∃ row, db.emailVerifications.lookup key = some row ∧ SameToken row row'

/-- Nobody has gone, or has another address; and nobody has been verified but `newly`. -/
def KeepsUsers (db db' : AuthDb) (newly : Nat → Prop) : Prop :=
  ∀ id user, db.users.lookup id = some user → ∃ user', db'.users.lookup id = some user' ∧
    user'.email = user.email ∧ (user'.emailVerified = true → user.emailVerified = true ∨ newly id)

section Tables

variable {db db' : AuthDb} {w : RequestWorld} {st : AuthStatement} {newly : Nat → Prop}

theorem SameToken.refl (row : EmailVerification) : SameToken row row := ⟨rfl, rfl, rfl, id⟩

theorem SameToken.trans {row row' row'' : EmailVerification} (h : SameToken row row')
    (h' : SameToken row' row'') : SameToken row row'' where
  userId := h'.userId.trans h.userId
  purpose := h'.purpose.trans h.purpose
  expiresAt := h'.expiresAt.trans h.expiresAt
  used := fun hused => h'.used (h.used hused)

theorem sameToken_use (row : EmailVerification) (now : Nat) :
    SameToken row { row with usedAt := some now } := ⟨rfl, rfl, rfl, fun _ => rfl⟩

/-- Rows that are changed one by one. -/
theorem keepsRows_of_map {f : String → EmailVerification → EmailVerification}
    (hf : ∀ key row, SameToken row (f key row))
    (h : ∀ key, db'.emailVerifications.lookup key =
      (db.emailVerifications.lookup key).map (f key)) :
    RowsStay db db' ∧ NoNewRows db db' := by
  constructor
  · intro key row hrow
    exact ⟨f key row, by rw [h, hrow]; rfl, hf key row⟩
  · intro key row' hrow' _
    rw [h] at hrow'
    obtain ⟨row, hrow, rfl⟩ := Option.map_eq_some_iff.mp hrow'
    exact ⟨row, hrow, hf key row⟩

theorem keepsRows_of_eq (h : db'.emailVerifications = db.emailVerifications) :
    RowsStay db db' ∧ NoNewRows db db' := by
  apply keepsRows_of_map (f := fun _ row => row)
  · exact fun _ row => .refl row
  · intro key
    rw [h, Option.map_id']

theorem lookup_markUsed (token : String) (now : Nat) (key : String) :
    (db.markUsed token now).emailVerifications.lookup key =
      (db.emailVerifications.lookup key).map fun row =>
        if key = token then { row with usedAt := some now } else row := by
  refine (lookup_modify token key _ _).trans ?_
  by_cases heq : key = token
  · subst heq
    simp
  · simp [heq]

theorem keepsRows_markUsed {token : String} {now : Nat}
    (h : db'.emailVerifications = (db.markUsed token now).emailVerifications) :
    RowsStay db db' ∧ NoNewRows db db' := by
  apply keepsRows_of_map
    (f := fun key row => if key = token then { row with usedAt := some now } else row)
  · intro key row
    split
    · exact sameToken_use row now
    · exact .refl row
  · intro key
    rw [h, lookup_markUsed]

theorem keepsRows_effect (st : AuthStatement) (w : RequestWorld) (db : AuthDb) :
    RowsStay db (st.effect w db) ∧ NoNewRows db (st.effect w db) := by
  cases tokenEffect st w db with
  | none h => exact keepsRows_of_eq h
  | verify h => exact keepsRows_markUsed h
  | @consume tokenHash _ h =>
    apply keepsRows_of_map
      (f := fun _ row => if row.tokenHash = some tokenHash then { row with usedAt := some w.now }
        else row)
    · intro _ row
      split
      · exact sameToken_use row w.now
      · exact .refl row
    · intro key
      rw [h, lookup_consumeToken]
  | @create userId expiresAt tokenHash _ h =>
    obtain ⟨hfree, heq⟩ := of_insertResetToken h
    rw [heq]
    constructor
    · intro key row hrow
      refine ⟨row, ?_, .refl row⟩
      have hne : key ≠ tokenHash := by
        intro hkey
        exact hfree (hkey ▸ AList.lookup_isSome.mp (by rw [hrow]; rfl))
      exact (AList.lookup_insert_ne hne).trans hrow
    · intro key row' hrow' hpurpose
      dsimp only at hrow'
      by_cases hkey : key = tokenHash
      · subst hkey
        rw [AList.lookup_insert] at hrow'
        obtain rfl := Option.some.inj hrow'
        -- a reset token is none for `verify_email`
        exact absurd hpurpose (by simp)
      · rw [AList.lookup_insert_ne hkey] at hrow'
        exact ⟨row', hrow', .refl row'⟩

theorem keepsUsers_of_eq (h : db'.users = db.users) : KeepsUsers db db' newly := by
  intro id user huser
  exact ⟨user, by rw [h]; exact huser, rfl, Or.inl⟩

theorem keepsUsers_updateUser (id : Nat) {f : WebuiUser → WebuiUser}
    (hemail : ∀ user, (f user).email = user.email)
    (hverified : ∀ user, (f user).emailVerified = true → user.emailVerified = true ∨ newly id) :
    KeepsUsers db (db.updateUser id f) newly := by
  intro v user huser
  by_cases heq : v = id
  · subst heq
    refine ⟨f user, ?_, hemail user, hverified user⟩
    exact lookup_updateUser_self.trans (by rw [huser]; rfl)
  · exact ⟨user, (lookup_updateUser_ne heq).trans huser, rfl, Or.inl⟩

theorem keepsUsers_insertUser {user : WebuiUser} (h : db.insertUser user = some db') :
    KeepsUsers db db' newly := by
  intro id row hrow
  refine ⟨row, ?_, rfl, Or.inl⟩
  rw [of_insertUser h]
  refine (AList.lookup_insert_ne ?_).trans hrow
  intro heq
  rw [heq, lookup_nextUserId] at hrow
  exact absurd hrow (by simp)

theorem keepsUsers_verifyEmail (tokenHash : String) (userId : Nat) :
    KeepsUsers db (db.verifyEmail w tokenHash userId) (· = userId) := by
  show KeepsUsers db (db.updateUser userId _) _
  exact keepsUsers_updateUser userId (fun _ => rfl) fun _ _ => Or.inr rfl

/-- Only `verify_email` verifies anybody who is there. -/
theorem keepsUsers_effect (hst : ∀ token userId, st ≠ .verifyEmail token userId) :
    KeepsUsers db (st.effect w db) newly := by
  cases effect_cases st w db with
  | inl h => exact keepsUsers_of_eq (congrArg _ h)
  | inr h =>
    generalize st.effect w db = db' at h
    cases st with
    | verifyEmail token userId => exact absurd rfl (hst token userId)
    | createSession path userId => exact keepsUsers_of_eq (by rw [(of_insertSession h).2])
    | createUser body => exact keepsUsers_insertUser h
    | insertPassword username hash => exact keepsUsers_insertUser h
    | createResetToken userId tokenHash expiresAt =>
      exact keepsUsers_of_eq (by rw [(of_insertResetToken h).2])
    | setMfa userId enabled =>
      obtain rfl := Option.some.inj h
      exact keepsUsers_updateUser userId (fun _ => rfl) fun _ => Or.inl
    | mergeOauth userId body =>
      obtain rfl := Option.some.inj h
      exact keepsUsers_updateUser userId (fun _ => rfl) fun _ => Or.inl
    | setUserActive userId isActive =>
      rw [of_setUserActive h]
      exact keepsUsers_updateUser userId (fun _ => rfl) fun _ => Or.inl
    | updatePassword username hash =>
      obtain rfl := Option.some.inj h
      cases updatePassword_cases username hash with
      | inl heq => exact keepsUsers_of_eq (congrArg _ heq)
      | inr hid =>
        obtain ⟨id, heq⟩ := hid
        show KeepsUsers db (db.updatePassword username hash) newly
        rw [heq]
        exact keepsUsers_updateUser id (fun _ => rfl) fun _ => Or.inl
    | _ => exact keepsUsers_of_eq (Option.some.inj h ▸ rfl)

theorem of_insertVerification {tokenHash : String} {row : EmailVerification}
    (h : db.insertVerification tokenHash row = some db') :
    tokenHash ∉ db.emailVerifications ∧
      db' = { db with emailVerifications := db.emailVerifications.insert tokenHash row } := by
  unfold AuthDb.insertVerification at h
  split at h
  · exact absurd h (by simp)
  · exact ⟨‹_›, (Option.some.inj h).symm⟩

theorem rowsStay_insertVerification {tokenHash : String} {row : EmailVerification}
    (h : db.insertVerification tokenHash row = some db') : RowsStay db db' := by
  obtain ⟨hfree, rfl⟩ := of_insertVerification h
  intro key row' hrow'
  refine ⟨row', ?_, .refl row'⟩
  refine (AList.lookup_insert_ne ?_).trans hrow'
  intro heq
  exact hfree (heq ▸ AList.lookup_isSome.mp (by rw [hrow']; rfl))

theorem of_verification {db : SignupDb} {tokenHash : String} {row : EmailVerification}
    (h : db.verification tokenHash = some row) :
    db.emailVerifications.lookup tokenHash = some row ∧ row.purpose = .emailVerify := by
  obtain ⟨hlookup, hpurpose⟩ := Option.filter_eq_some_iff.mp h
  exact ⟨hlookup, of_decide_eq_true hpurpose⟩

end Tables

/-! ## Tokens are redeemed once -/

section SingleUse

variable {T : Type} {d : Deployment} {calls : T → SignupCall} {s s' : SignupTxs T} {t : T}

/-- What is known of a call that has the row of its token locked. -/
structure Holds (d : Deployment) (calls : T → SignupCall) (s : SignupTxs T) (t : T)
    (row : EmailVerification) (now : Nat) (tokenHash : String) : Prop where
  token : ∃ token, calls t = .verifyEmail token ∧ tokenHash = d.sha256 (PyText.strip token)
  lock : s.locks tokenHash = some t
  live : now ≤ row.expiresAt
  purpose : row.purpose = .emailVerify
  row : ∃ row', s.db.emailVerifications.lookup tokenHash = some row' ∧ SameToken row row'
  unredeemed : tokenHash ∉ (redemptions s.trace).map (·.1)

/-- The row behind a redemption: the token of that user, not expired when it was checked. -/
def SignupTxs.Redeemed (s : SignupTxs T) (r : String × Nat × Nat) : Prop :=
  ∃ row, s.db.emailVerifications.lookup r.1 = some row ∧ row.purpose = .emailVerify ∧
    row.userId = r.2.1 ∧ r.2.2 ≤ row.expiresAt ∧ row.usedAt.isSome = true

/-- What every run keeps. -/
structure RedeemedOnce (d : Deployment) (calls : T → SignupCall) (s : SignupTxs T) : Prop where
  held : ∀ t row now, (s.phase t).row = some (row, now) →
    ∃ tokenHash, Holds d calls s t row now tokenHash
  redeemed : ∀ r ∈ redemptions s.trace, s.Redeemed r
  once : ((redemptions s.trace).map (·.1)).Nodup

theorem SignupTxs.Redeemed.of_rowsStay {r : String × Nat × Nat} (h : s.Redeemed r)
    (hrows : RowsStay s.db.toAuthDb s'.db.toAuthDb) : s'.Redeemed r := by
  obtain ⟨row, hrow, hpurpose, huser, hlive, hused⟩ := h
  obtain ⟨row', hrow', hsame⟩ := hrows _ row hrow
  refine ⟨row', hrow', hsame.purpose.trans hpurpose, hsame.userId.trans huser, ?_, hsame.used hused⟩
  rw [hsame.expiresAt]
  exact hlive

theorem Holds.of_rowsStay {row : EmailVerification} {now : Nat} {tokenHash : String}
    (h : Holds d calls s t row now tokenHash) (hlock : s'.locks tokenHash = some t)
    (hrows : RowsStay s.db.toAuthDb s'.db.toAuthDb)
    (htrace : tokenHash ∉ (redemptions s'.trace).map (·.1)) :
    Holds d calls s' t row now tokenHash where
  token := h.token
  lock := hlock
  live := h.live
  purpose := h.purpose
  row := by
    obtain ⟨row', hrow', hsame⟩ := h.row
    obtain ⟨row'', hrow'', hsame'⟩ := hrows _ row' hrow'
    exact ⟨row'', hrow'', hsame.trans hsame'⟩
  unredeemed := htrace

/-- Nobody comes to hold a row, and nothing is redeemed. -/
theorem RedeemedOnce.of_quiet (h : RedeemedOnce d calls s)
    (hphase : ∀ u, (s'.phase u).row = none ∨
      s'.phase u = s.phase u ∧ ∀ key, s.locks key = some u → s'.locks key = some u)
    (hrows : RowsStay s.db.toAuthDb s'.db.toAuthDb)
    (htrace : redemptions s'.trace = redemptions s.trace) : RedeemedOnce d calls s' where
  held := by
    intro u row now hheld
    cases hphase u with
    | inl hnone => exact absurd (hnone.symm.trans hheld) (by simp)
    | inr hsame =>
      obtain ⟨tokenHash, hholds⟩ := h.held u row now (hsame.1 ▸ hheld)
      refine ⟨tokenHash, hholds.of_rowsStay (hsame.2 _ hholds.lock) hrows ?_⟩
      rw [htrace]
      exact hholds.unredeemed
  redeemed := by
    intro r hr
    rw [htrace] at hr
    exact (h.redeemed r hr).of_rowsStay hrows
  once := by
    rw [htrace]
    exact h.once

theorem redeemedOnce_start (db : SignupDb) : RedeemedOnce d calls ({ db := db } : SignupTxs T) where
  held := fun _ _ _ hheld => absurd hheld (by simp [SignupPhase.row])
  redeemed := fun _ hr => absurd hr (by simp [redemptions])
  once := List.nodup_nil

theorem rowsStay_redeem (tokenHash : String) (row : EmailVerification) (now : Nat)
    (w : CallWorld) : RowsStay s.db.toAuthDb (s.redeem t tokenHash row now w).db.toAuthDb :=
  (keepsRows_markUsed rfl).1

variable [DecidableEq T]

theorem SignupTxs.phase_become_self (s : SignupTxs T) (t : T) (phase : SignupPhase) :
    (s.become t phase).phase t = phase := Function.update_self ..

theorem SignupTxs.phase_become_ne (s : SignupTxs T) (phase : SignupPhase) {u : T} (h : u ≠ t) :
    (s.become t phase).phase u = s.phase u := Function.update_of_ne h ..

/-- Who ends a transaction takes no lock from the others. -/
theorem SignupTxs.locks_release (s : SignupTxs T) {u : T} (h : u ≠ t) {key : String}
    (hlock : s.locks key = some u) : (s.release t).locks key = some u := by
  show (s.locks key).filter _ = some u
  rw [hlock]
  simp [h]

theorem SignupTxs.locks_lock {u : T} {tokenHash key : String} (hfree : s.isFree t tokenHash = true)
    (h : u ≠ t) (hlock : s.locks key = some u) : (s.lock t tokenHash).locks key = some u := by
  show Function.update s.locks tokenHash (some t) key = some u
  by_cases heq : key = tokenHash
  · subst heq
    rw [SignupTxs.isFree, hlock] at hfree
    exact absurd (of_decide_eq_true hfree) h
  · rw [Function.update_of_ne heq]
    exact hlock

/-- A call that goes on with nothing in hand, or with something else, leaves the others alone. -/
theorem RedeemedOnce.of_move (h : RedeemedOnce d calls s) {moved : SignupTxs T}
    {phase : SignupPhase} (hphases : moved.phase = s.phase)
    (hlocks : ∀ u, u ≠ t → ∀ key, s.locks key = some u → moved.locks key = some u)
    (hidle : phase.row = none) (hrows : RowsStay s.db.toAuthDb moved.db.toAuthDb)
    (htrace : redemptions moved.trace = redemptions s.trace) :
    RedeemedOnce d calls (moved.become t phase) := by
  refine h.of_quiet (fun u => ?_) hrows htrace
  by_cases hu : u = t
  · subst hu
    rw [SignupTxs.phase_become_self]
    exact Or.inl hidle
  · rw [SignupTxs.phase_become_ne moved phase hu, hphases]
    exact Or.inr ⟨rfl, hlocks u hu⟩

theorem rowsStay_refl (db : AuthDb) : RowsStay db db := (keepsRows_of_eq rfl).1

/-- The row is there, unused, and nobody has it: nobody has redeemed it either. -/
theorem redeemedOnce_locked (h : RedeemedOnce d calls s) {token : String} {row : EmailVerification}
    {now : Nat} (hcall : calls t = .verifyEmail token)
    (hfree : s.isFree t (d.sha256 (PyText.strip token)) = true)
    (hrow : s.db.verification (d.sha256 (PyText.strip token)) = some row)
    (hunused : row.usedAt = none) (hlive : now ≤ row.expiresAt) :
    RedeemedOnce d calls
      ((s.lock t (d.sha256 (PyText.strip token))).become t (.locked row now)) where
  held := by
    intro u row' now' hheld
    by_cases hu : u = t
    · subst hu
      rw [SignupTxs.phase_become_self] at hheld
      obtain ⟨rfl, rfl⟩ := Prod.mk.inj (Option.some.inj hheld)
      obtain ⟨hlookup, hpurpose⟩ := of_verification hrow
      refine ⟨_, ⟨token, hcall, rfl⟩, Function.update_self .., hlive, hpurpose,
        ⟨row, hlookup, .refl row⟩, ?_⟩
      intro hmem
      obtain ⟨r, hr, heq⟩ := List.mem_map.mp hmem
      obtain ⟨used, hused, -, -, -, hsome⟩ := h.redeemed r hr
      rw [heq, hlookup] at hused
      obtain rfl := Option.some.inj hused
      exact absurd hsome (by simp [hunused])
    · rw [SignupTxs.phase_become_ne _ _ hu] at hheld
      obtain ⟨tokenHash, hholds⟩ := h.held u row' now' hheld
      exact ⟨tokenHash, hholds.of_rowsStay (SignupTxs.locks_lock hfree hu hholds.lock) (rowsStay_refl _)
        hholds.unredeemed⟩
  redeemed := fun r hr => (h.redeemed r hr).of_rowsStay (rowsStay_refl _)
  once := h.once

theorem redeemedOnce_found (h : RedeemedOnce d calls s) {row : EmailVerification} {now : Nat}
    {username : String} (hphase : s.phase t = .locked row now) :
    RedeemedOnce d calls (s.become t (.found row now username)) where
  held := by
    intro u row' now' hheld
    have hbefore : (s.phase u).row = some (row', now') := by
      by_cases hu : u = t
      · subst hu
        rw [SignupTxs.phase_become_self] at hheld
        rw [hphase]
        exact hheld
      · rw [SignupTxs.phase_become_ne _ _ hu] at hheld
        exact hheld
    obtain ⟨tokenHash, hholds⟩ := h.held u row' now' hbefore
    exact ⟨tokenHash, hholds.of_rowsStay hholds.lock (rowsStay_refl _) hholds.unredeemed⟩
  redeemed := fun r hr => (h.redeemed r hr).of_rowsStay (rowsStay_refl _)
  once := h.once

/-- **The one redemption of a token**: until now it had not been redeemed, and now it is used. -/
theorem redeemedOnce_redeemed (h : RedeemedOnce d calls s) {token : String}
    {row : EmailVerification} {now : Nat} {phase : SignupPhase} {w : CallWorld}
    (hcall : calls t = .verifyEmail token) (hheld : (s.phase t).row = some (row, now))
    (hidle : phase.Idle) :
    RedeemedOnce d calls
      (((s.redeem t (d.sha256 (PyText.strip token)) row now w).release t).become t phase) := by
  obtain ⟨tokenHash, hholds⟩ := h.held t row now hheld
  obtain ⟨token', hcall', rfl⟩ := hholds.token
  obtain rfl : token = token' := SignupCall.verifyEmail.inj (hcall.symm.trans hcall')
  have hrows := rowsStay_redeem (s := s) (t := t) (d.sha256 (PyText.strip token)) row now w
  constructor
  · intro u row' now' hother
    by_cases hu : u = t
    · subst hu
      rw [SignupTxs.phase_become_self, hidle.row] at hother
      exact absurd hother (by simp)
    · rw [SignupTxs.phase_become_ne _ _ hu] at hother
      obtain ⟨other, hholds'⟩ := h.held u row' now' hother
      refine ⟨other, hholds'.of_rowsStay (SignupTxs.locks_release _ hu hholds'.lock) hrows ?_⟩
      intro hmem
      cases List.mem_cons.mp hmem with
      | inl heq =>
        -- they would have the same row locked
        have hlock : s.locks other = some t := heq ▸ hholds.lock
        exact hu (Option.some.inj (hholds'.lock.symm.trans hlock))
      | inr hold => exact hholds'.unredeemed hold
  · intro r hr
    cases List.mem_cons.mp hr with
    | inl heq =>
      subst heq
      obtain ⟨row', hrow', hsame⟩ := hholds.row
      refine ⟨{ row' with usedAt := some w.now }, ?_, hsame.purpose.trans hholds.purpose,
        hsame.userId, ?_, rfl⟩
      · refine (lookup_markUsed _ _ _).trans ?_
        show Option.map _ (s.db.emailVerifications.lookup _) = _
        rw [hrow']
        simp
      · show now ≤ row'.expiresAt
        rw [hsame.expiresAt]
        exact hholds.live
    | inr hold => exact (h.redeemed r hold).of_rowsStay hrows
  · exact List.nodup_cons.mpr ⟨hholds.unredeemed, h.once⟩

theorem redeemedOnce_move {w : CallWorld} (hmove : SignupMove d calls s t w s')
    (h : RedeemedOnce d calls s) : RedeemedOnce d calls s' := by
  have hstays := rowsStay_refl s.db.toAuthDb
  cases hmove with
  | ended husers htokens =>
    exact h.of_move rfl (fun u hu key hlock => SignupTxs.locks_release s hu hlock) rfl
      (keepsRows_of_eq htokens).1 rfl
  | moved hidle => exact h.of_move rfl (fun _ _ _ hlock => hlock) hidle.row hstays rfl
  | locked hcall hfree hrow hunused hlive =>
    exact redeemedOnce_locked h hcall hfree hrow hunused hlive
  | found hphase => exact redeemedOnce_found h hphase
  | redeemed hcall hrow hidle => exact redeemedOnce_redeemed h hcall hrow hidle
  | unverified hfound => exact h.of_move rfl (fun _ _ _ hlock => hlock) rfl hstays rfl
  | counted hphase hcount => exact h.of_move rfl (fun _ _ _ hlock => hlock) rfl hstays rfl
  | created hinsert hemail hverified hphase =>
    refine h.of_move rfl (fun u hu key hlock => SignupTxs.locks_release s hu hlock) ?_ ?_ rfl
    · cases hphase with
      | inl hidle => exact hidle.row
      | inr hsending => exact hsending ▸ rfl
    · obtain rfl := of_insertUser hinsert
      exact (keepsRows_of_eq rfl).1
  | made hphase hinsert huser hpurpose hidle =>
    exact h.of_move rfl (fun u hu key hlock => SignupTxs.locks_release s hu hlock) hidle.row
      (rowsStay_insertVerification hinsert) rfl

theorem redeemedOnce_step {a : SignupAct T} (hstep : s.step d calls a = some s')
    (h : RedeemedOnce d calls s) : RedeemedOnce d calls s' := by
  cases a with
  | take t w => exact redeemedOnce_move (next_moves hstep) h
  | stop t =>
    rw [SignupTxs.step] at hstep
    split at hstep
    · exact absurd hstep (by simp)
    · obtain rfl := Option.some.inj hstep
      exact h.of_move rfl (fun u hu key hlock => SignupTxs.locks_release s hu hlock) rfl
        (rowsStay_refl _) rfl
  | elsewhere st w =>
    rw [SignupTxs.step] at hstep
    split at hstep
    · obtain rfl := Option.some.inj hstep
      exact h.of_quiet (fun _ => Or.inr ⟨rfl, fun _ => id⟩) (keepsRows_effect st w _).1 rfl
    · exact absurd hstep (by simp)

/-- **Verification tokens are single-use**, in every run: each is redeemed once at most, for the
    user that it is of, and it had not expired when it was checked. -/
theorem verification_tokens_single_use (d : Deployment) (calls : T → SignupCall) {db : SignupDb}
    {acts : List (SignupAct T)} {s : SignupTxs T}
    (hrun : Machine.Runs (SignupTxs.step d calls) (fun _ _ => True) { db := db } acts s) :
    ((redemptions s.trace).map (·.1)).Nodup ∧ ∀ r ∈ redemptions s.trace, s.Redeemed r := by
  have h : RedeemedOnce d calls s := by
    exact hrun.invariant (fun _ _ _ hstep _ h => redeemedOnce_step hstep h) (redeemedOnce_start db)
  exact ⟨h.once, h.redeemed⟩

end SingleUse

/-! ## A call on its own -/

section Alone

variable {T : Type} [DecidableEq T] {d : Deployment} {calls : T → SignupCall}
  {s s' : SignupTxs T} {t : T} {w : CallWorld} {reply : Reply}

/-- With nobody else about, the call comes to this response, and leaves these tables. -/
inductive Ends (d : Deployment) (calls : T → SignupCall) (t : T) (w : CallWorld) :
    SignupTxs T → Reply → Prop
  | done {s : SignupTxs T} {reply : Reply} (hphase : s.phase t = .done reply.response)
      (hdb : s.db.toAuthDb = reply.db) : Ends d calls t w s reply
  | step {s s' : SignupTxs T} {reply : Reply} (hstep : s.step d calls (.take t w) = some s')
      (h : Ends d calls t w s' reply) : Ends d calls t w s reply

theorem ends_finish (s : SignupTxs T) (response : Response) (cookie : Cookie) :
    Ends d calls t w (s.finish t response) ⟨response, cookie, s.db.toAuthDb⟩ :=
  .done (SignupTxs.phase_become_self ..) rfl

theorem ends_logIn {userId : Nat} {username token : String} {cookie : Cookie}
    (hcall : calls t = .verifyEmail token) (hphase : s.phase t = .verified userId username) :
    Ends d calls t w s (promote w.toRequestWorld cookie s.db.toAuthDb userId username) := by
  have hstep : s.step d calls (.take t w) = some (s.logIn t userId username w) := by
    rw [SignupTxs.step, SignupTxs.next, hcall, hphase]
  refine .step hstep ?_
  rcases heq : w.createSession userId s.db.toAuthDb with ⟨_ | _, db⟩
  · simp only [SignupTxs.logIn, promote, heq]
    exact ends_finish (s.write db) _ _
  · simp only [SignupTxs.logIn, promote, heq]
    exact ends_finish (s.write db) _ _

/-- The reply from the commit on. -/
def verifyCommitted (w : RequestWorld) (cookie : Cookie) (db : AuthDb) (tokenHash : String)
    (userId : Nat) (username : String) : Reply :=
  match w.write .verifyCommit db (db.verifyEmail w tokenHash userId) with
  | (false, db) => ⟨.crashed, cookie, db⟩
  | (true, db) => promote w cookie db userId username

theorem ends_found {row : EmailVerification} {now : Nat} {username token : String} {cookie : Cookie}
    (hcall : calls t = .verifyEmail token) (hphase : s.phase t = .found row now username) :
    Ends d calls t w s (verifyCommitted w.toRequestWorld cookie s.db.toAuthDb
      (d.sha256 (PyText.strip token)) row.userId username) := by
  have hstep : s.step d calls (.take t w) = some (s.commit t (w.answers .verifyCommit)
      (s.redeem t (d.sha256 (PyText.strip token)) row now w) (.verified row.userId username)) := by
    rw [SignupTxs.step, SignupTxs.next, hcall, hphase]
  refine .step hstep ?_
  unfold verifyCommitted RequestWorld.write
  cases w.answers .verifyCommit with
  | applied => exact ends_logIn hcall (SignupTxs.phase_become_self ..)
  | refused => exact ends_finish s _ _
  | lost => exact ends_finish (s.redeem t (d.sha256 (PyText.strip token)) row now w) _ _

/-- `verify_email` of `LoginRoutes`. -/
theorem alone_verify {token : String} {cookie : Cookie} (hcall : calls t = .verifyEmail token)
    (hphase : s.phase t = .begun) (hfree : s.isFree t (d.sha256 (PyText.strip token)) = true) :
    Ends d calls t w s (verifyEmail d w.toRequestWorld cookie s.db.toAuthDb token) := by
  have hstep : s.step d calls (.take t w) = s.lockToken t d token w := by
    rw [SignupTxs.step, SignupTxs.next, hcall, hphase]
  unfold verifyEmail
  unfold SignupTxs.lockToken SignupDb.verification at hstep
  dsimp only at hstep ⊢
  rw [hfree] at hstep
  simp only [Bool.not_true, Bool.and_false, Bool.false_eq_true, if_false] at hstep
  by_cases hempty : PyText.strip token = ""
  · rw [if_pos hempty] at hstep ⊢
    exact .step hstep (ends_finish s _ _)
  rw [if_neg hempty] at hstep ⊢
  split
  · rename_i hread
    rw [hread] at hstep
    exact .step hstep (ends_finish s _ _)
  · rename_i hread
    rw [hread] at hstep
    exact .step hstep (ends_finish s _ _)
  · rename_i row hread
    rw [hread] at hstep
    dsimp only at hstep
    split
    · rename_i hgone
      rw [if_pos hgone] at hstep
      exact .step hstep (ends_finish s _ _)
    · rename_i hgood
      rw [if_neg hgood] at hstep
      refine .step hstep ?_
      -- the row is locked, and the user is looked up
      generalize hs' : (s.lock t (d.sha256 (PyText.strip token))).become t (.locked row w.now) = s'
      have hdb : s'.db = s.db := hs' ▸ rfl
      have hphase' : s'.phase t = .locked row w.now := hs' ▸ SignupTxs.phase_become_self ..
      have hstep' : s'.step d calls (.take t w) = some (s'.findUser t row w.now w) := by
        rw [SignupTxs.step, SignupTxs.next, hcall, hphase']
      refine .step hstep' ?_
      rw [← hdb]
      unfold SignupTxs.findUser
      cases w.read .userRow (s'.db.users.lookup row.userId) with
      | none => exact ends_finish s' _ _
      | some user =>
        cases user with
        | none => exact ends_finish s' _ _
        | some user => exact ends_found hcall (SignupTxs.phase_become_self ..)

theorem ends_sending {userId since : Nat} {email : String} {body : RegisterBody} {cookie : Cookie}
    (hcall : calls t = .register body)
    (hphase : s.phase t = .sending userId email since .verificationEmailSent) :
    Ends d calls t w s (sendVerification d w.toSignupWorld cookie s.db.toAuthDb userId) := by
  have hstep : s.step d calls (.take t w) =
      some (s.makeToken t d userId email .verificationEmailSent w) := by
    rw [SignupTxs.step, SignupTxs.next, hcall, hphase]
  refine .step hstep ?_
  unfold SignupTxs.makeToken sendVerification RequestWorld.write
  dsimp only
  cases s.db.insertVerification (d.sha256 w.rawToken)
      { userId, purpose := .emailVerify, expiresAt := w.now + 24 * 3600 } with
  | none => exact ends_finish s _ _
  | some db =>
    dsimp only
    cases w.answers .insertVerification with
    | applied => exact .done (SignupTxs.phase_become_self ..) rfl
    | refused => exact ends_finish s _ _
    | lost => exact .done (SignupTxs.phase_become_self ..) rfl

theorem ends_free {email username hash : String} {body : RegisterBody} {cookie : Cookie}
    (hcall : calls t = .register body) (hphase : s.phase t = .free email username hash) :
    Ends d calls t w s (createAccount d w.toSignupWorld cookie s.db.toAuthDb email username hash) := by
  have hstep : s.step d calls (.take t w) = some (s.createUser t email username hash w) := by
    rw [SignupTxs.step, SignupTxs.next, hcall, hphase]
  refine .step hstep ?_
  unfold SignupTxs.createUser createAccount RequestWorld.write
  cases s.db.insertUser
      { username, passwordHash := some hash, email := some email, createdAt := some w.now } with
  | none => exact ends_finish s _ _
  | some db =>
    dsimp only
    cases w.answers .insertSignup with
    | applied => exact ends_sending hcall (SignupTxs.phase_become_self ..)
    | refused => exact ends_finish s _ _
    | lost => exact .done (SignupTxs.phase_become_self ..) rfl

/-- The reply of `register` from the second `SELECT` on. -/
def emailReply (d : Deployment) (w : SignupWorld) (cookie : Cookie) (db : AuthDb)
    (email username hash : String) (nameTaken : Bool) : Reply :=
  match w.read .signupEmail (db.emailTaken email) with
  | none => ⟨.crashed, cookie, db⟩
  | some taken =>
      if nameTaken || taken then
        ⟨.failed 409 "Email or username already registered. If this is yours, try logging in.",
          cookie, db⟩
      else createAccount d w cookie db email username hash

theorem ends_nameRead {body : RegisterBody} {cookie : Cookie} {email username hash : String}
    {taken : Bool} (hcall : calls t = .register body)
    (hphase : s.phase t = .nameRead email username hash taken) :
    Ends d calls t w s
      (emailReply d w.toSignupWorld cookie s.db.toAuthDb email username hash taken) := by
  have hstep : s.step d calls (.take t w) = some (s.readEmail t email username hash taken w) := by
    rw [SignupTxs.step, SignupTxs.next, hcall, hphase]
  refine .step hstep ?_
  unfold SignupTxs.readEmail emailReply
  cases w.read .signupEmail (s.db.emailTaken email) with
  | none => exact ends_finish s _ _
  | some emailTaken =>
    dsimp only
    by_cases htaken : (taken || emailTaken) = true
    · rw [if_pos htaken, if_pos htaken]
      exact ends_finish s _ _
    · rw [if_neg htaken, if_neg htaken]
      exact ends_free hcall (SignupTxs.phase_become_self ..)

/-- `register` of `Signup`. -/
theorem alone_register {body : RegisterBody} {cookie : Cookie} (hcall : calls t = .register body)
    (hphase : s.phase t = .begun) :
    Ends d calls t w s (register d w.toSignupWorld cookie s.db.toAuthDb body) := by
  have hstep : s.step d calls (.take t w) = some (s.beginRegister t d body w) := by
    rw [SignupTxs.step, SignupTxs.next, hcall, hphase]
  refine .step hstep ?_
  unfold SignupTxs.beginRegister
  dsimp only
  split
  · rename_i hemail
    simp only [register, if_pos hemail]
    exact ends_finish s _ _
  rename_i hemail
  split
  · rename_i hname
    simp only [register, if_neg hemail, if_pos hname]
    exact ends_finish s _ _
  rename_i hname
  split
  · rename_i hconfirm
    simp only [register, if_neg hemail, if_neg hname, if_pos hconfirm]
    exact ends_finish s _ _
  rename_i hconfirm
  split
  · rename_i error hpassword
    simp only [register, if_neg hemail, if_neg hname, if_neg hconfirm, hpassword]
    exact ends_finish s _ _
  rename_i hpassword
  simp only [register, if_neg hemail, if_neg hname, if_neg hconfirm, hpassword]
  by_cases hcaptcha : w.verifyHcaptcha body.hcaptchaToken = true
  · rw [if_pos hcaptcha, if_pos hcaptcha]
    cases d.hashPassword body.password w.seed with
    | none => exact ends_finish s _ _
    | some hash =>
      dsimp only
      cases w.read .signupUser (s.db.userByName (PyText.strip body.username)).isSome with
      | none => exact ends_finish s _ _
      | some taken =>
        have hends : Ends d calls t w (s.become t (.nameRead (d.lower (PyText.strip body.email))
            (PyText.strip body.username) hash taken))
            (emailReply d w.toSignupWorld cookie s.db.toAuthDb (d.lower (PyText.strip body.email))
              (PyText.strip body.username) hash taken) :=
          ends_nameRead hcall (SignupTxs.phase_become_self ..)
        -- `register` makes one case distinction of the two answers
        convert hends using 1
        unfold emailReply
        cases w.read .signupEmail (s.db.emailTaken (d.lower (PyText.strip body.email))) with
        | none => cases taken <;> rfl
        | some emailTaken => cases taken <;> cases emailTaken <;> rfl
  · rw [if_neg hcaptcha, if_neg hcaptcha]
    exact ends_finish s _ _

end Alone

end OdooSemantic
