import OdooSemantic.Lib.Machine
import OdooSemantic.Proof.AuthRequests

/-!
# Where the second factor is asked for

Of the four endpoints that make a session, one asks for a code. The password login leaves that to
it, if the query goes through that says who has a second factor; the OAuth login and the mail
verification never ask. `OpenedBy` is the list of the ways in, for a user who has one.

Of the three endpoints that change an enrolment, two disable one: `totp_disable`, and a new
set-up, which asks for nothing but a session. The copy of the flag in `webui_users` follows the
first and not the second, and it follows neither enabling nor disabling where the database gives
out between their two statements (`Desyncs`).
-/

namespace OdooSemantic

open KeyedStore

/-! ## What the writes do to an enrolment -/

/-- The flag of this user is left behind: by a new set-up, or by half of a write. -/
def Desyncs (w : RequestWorld) (cookie : Cookie) (db : AuthDb) (userId : Nat) : AuthRequest → Prop
  | .totpSetup => CookieUser cookie db userId ∧ db.totpEnabled userId = true
  | .totpVerify _ => CookieUser cookie db userId ∧ w.Cuts .enableTotp .setMfa
  | .totpDisable _ _ => CookieUser cookie db userId ∧ w.Cuts .deleteTotp .clearMfa
  | _ => False

section Effects

variable {cookie : Cookie} {db : AuthDb} (u v : Nat)

theorem totpEnabled_upsertTotpSecret (token : String) :
    (db.upsertTotpSecret u token).totpEnabled v = if v = u then false else db.totpEnabled v := by
  unfold AuthDb.totpEnabled AuthDb.upsertTotpSecret
  by_cases h : v = u
  · subst h
    simp
  · simp [h]

theorem totpEnabled_enableTotp (codes : List BackupCode) :
    (db.enableTotp u codes).totpEnabled v =
      if v = u then (db.totpSecrets.lookup u).isSome else db.totpEnabled v := by
  unfold AuthDb.totpEnabled AuthDb.enableTotp
  rw [lookup_modify]
  by_cases h : v = u
  · subst h
    rw [if_pos rfl, if_pos rfl]
    cases db.totpSecrets.lookup v <;> rfl
  · rw [if_neg h, if_neg h]

theorem totpEnabled_deleteTotp :
    (db.deleteTotp u).totpEnabled v = if v = u then false else db.totpEnabled v := by
  unfold AuthDb.totpEnabled AuthDb.deleteTotp
  by_cases h : v = u
  · subst h
    simp
  · simp [h]

theorem mfaEnabled_setMfaEnabled (enabled : Bool) :
    (db.setMfaEnabled u enabled).mfaEnabled v =
      if v = u then (db.users.lookup u).isSome && enabled else db.mfaEnabled v := by
  unfold AuthDb.mfaEnabled AuthDb.setMfaEnabled AuthDb.updateUser
  rw [lookup_modify]
  by_cases h : v = u
  · subst h
    rw [if_pos rfl, if_pos rfl]
    cases db.users.lookup v with
    | none => rfl
    | some user => simp
  · rw [if_neg h, if_neg h]

theorem CookieUser.isSome_lookup {u : Nat} (h : CookieUser cookie db u) :
    (db.users.lookup u).isSome = true := by
  obtain ⟨name, user, -, huser⟩ := h
  rw [(of_findWhere huser).1]
  rfl

end Effects

/-! ## Every request -/

namespace AuthCall

variable (d : Deployment) (call : AuthCall) (db : AuthDb)

/-- The tables behind the request. -/
def after : AuthDb := (handle d call.world call.cookie db call.request).db

/-- Every request is possible. -/
def step (db : AuthDb) (call : AuthCall) : Option AuthDb := some (call.after d db)

/-- The request makes this session. -/
def Creates (sid : String) (row : Session) : Prop :=
  (call.after d db).activeSessions.lookup sid = some row ∧
    db.activeSessions.lookup sid ≠ some row

/-- **What is promised of one request.** -/
structure Guarded : Prop where
  opened : ∀ sid row, call.Creates d db sid row → db.totpEnabled row.userId = true →
    OpenedBy d call.world db call.request row.userId
  disabled : ∀ u, db.totpEnabled u = true → (call.after d db).totpEnabled u = false →
    DisabledBy d call.world call.cookie db call.request u

end AuthCall

/-- The two flags agree. -/
def AuthDb.Synced (db : AuthDb) (u : Nat) : Prop := db.mfaEnabled u = db.totpEnabled u

section Requests

variable {d : Deployment} {db : AuthDb}

theorem Keeps.synced {db' : AuthDb} {opened : String → Nat → Prop} {u : Nat}
    (h : Keeps db db' opened) (hs : db.Synced u) : db'.Synced u := by
  unfold AuthDb.Synced
  rw [h.mfa u, h.enabled u]
  exact hs

/-- A new set-up takes the factor from the user of the cookie. -/
theorem disabledBy_totpSetup {w : RequestWorld} {cookie : Cookie} {u : Nat}
    (henabled : db.totpEnabled u = true)
    (hdisabled : (totpSetup d w cookie db).db.totpEnabled u = false) :
    DisabledBy d w cookie db .totpSetup u := by
  rcases @db_totpSetup d w cookie db with h | ⟨v, token, hv, h⟩
  · rw [h, henabled] at hdisabled
    exact absurd hdisabled (by simp)
  · rw [h, totpEnabled_upsertTotpSecret] at hdisabled
    split at hdisabled
    · rename_i heq
      exact heq ▸ .setup hv
    · rw [henabled] at hdisabled
      exact absurd hdisabled (by simp)

/-- Whether one statement of an enabling takes effect or two, nobody loses the factor. -/
theorem totpEnabled_totpVerify {w : RequestWorld} {cookie : Cookie} {code : String} {u : Nat}
    (henabled : db.totpEnabled u = true) :
    (totpVerify d w cookie db code).db.totpEnabled u = true := by
  rcases @db_totpVerify d w cookie db code with h | ⟨v, codes, -, ⟨row, hrow⟩, h⟩
  · rw [h]
    exact henabled
  have henable : (db.enableTotp v codes).totpEnabled u = true := by
    rw [totpEnabled_enableTotp]
    split
    · rw [hrow]
      rfl
    · exact henabled
  rw [h, RequestWorld.enableTotp]
  rcases @snd_writeTwice w .enableTotp .setMfa (·.enableTotp v codes) (·.setMfaEnabled v true) db
    with h | ⟨-, h⟩ | h
  · rw [h]
    exact henabled
  · rw [h]
    exact henable
  · rw [h]
    exact henable

theorem disabledBy_totpDisable {w : RequestWorld} {cookie : Cookie} {password code : String}
    {u : Nat} (henabled : db.totpEnabled u = true)
    (hdisabled : (totpDisable d w cookie db password code).db.totpEnabled u = false) :
    DisabledBy d w cookie db (.totpDisable password code) u := by
  rcases @db_totpDisable d w cookie db password code with h | ⟨v, hv, h⟩
  · rw [h, henabled] at hdisabled
    exact absurd hdisabled (by simp)
  -- only the rows of `v` are touched, and `v` has shown the password and a code
  by_cases heq : u = v
  · exact heq ▸ hv
  have hdelete : (db.deleteTotp v).totpEnabled u = true := by
    rw [totpEnabled_deleteTotp, if_neg heq]
    exact henabled
  rw [h, RequestWorld.deleteTotp] at hdisabled
  rcases @snd_writeTwice w .deleteTotp .clearMfa (·.deleteTotp v) (·.setMfaEnabled v false) db
    with h | ⟨-, h⟩ | h
  · rw [h, henabled] at hdisabled
    exact absurd hdisabled (by simp)
  · rw [h] at hdisabled
    exact absurd (hdelete.symm.trans hdisabled) (by simp)
  · rw [h] at hdisabled
    exact absurd (hdelete.symm.trans hdisabled) (by simp)

theorem guarded (call : AuthCall) : call.Guarded d db := by
  obtain ⟨w, cookie, r⟩ := call
  constructor
  · intro sid row hcreates henabled
    obtain ⟨hnew, hold⟩ := hcreates
    cases (@keepsAccounts_handle d w cookie db r).sessions sid row hnew with
    | inl hsame => exact absurd hsame hold
    | inr hopened => exact hopened.2 henabled
  · intro u henabled hdisabled
    cases henrols : r.enrols with
    | false =>
      rw [AuthCall.after, (keeps_handle henrols).enabled u, henabled] at hdisabled
      exact absurd hdisabled (by simp)
    | true =>
      cases r with
      | totpSetup => exact disabledBy_totpSetup henabled hdisabled
      | totpVerify code =>
        exact absurd ((totpEnabled_totpVerify henabled).symm.trans hdisabled) (by simp)
      | totpDisable password code => exact disabledBy_totpDisable henabled hdisabled
      | _ => exact absurd henrols (by simp [AuthRequest.enrols])

/-! ## The copy of the flag -/

theorem synced_totpSetup {w : RequestWorld} {cookie : Cookie} {u : Nat}
    (hok : ¬ Desyncs w cookie db u .totpSetup) (hs : db.Synced u) :
    (totpSetup d w cookie db).db.Synced u := by
  rcases @db_totpSetup d w cookie db with h | ⟨v, token, hv, h⟩
  · rw [h]
    exact hs
  rw [h]
  show db.mfaEnabled u = _
  rw [totpEnabled_upsertTotpSecret]
  split
  · rename_i heq
    -- the user had no second factor, so the flag was down
    rw [hs, ← Bool.not_eq_true]
    exact fun henabled => hok ⟨heq ▸ hv, henabled⟩
  · exact hs

/-- Both statements speak of the user `v`, and the second makes up for the first. -/
theorem synced_writeTwice {w : RequestWorld} {q q' : AuthQuery} {f f' : AuthDb → AuthDb}
    {u v : Nat} (hs : db.Synced u) (hcut : ¬ (u = v ∧ w.Cuts q q'))
    (hf : u ≠ v → (f db).Synced u) (hf' : (f' (f db)).Synced u) :
    (w.writeTwice q q' f f' db).2.Synced u := by
  rcases @snd_writeTwice w q q' f f' db with h | ⟨hc, h⟩ | h
  · rw [h]
    exact hs
  · rw [h]
    exact hf fun heq => hcut ⟨heq, hc⟩
  · rw [h]
    exact hf'

theorem synced_totpVerify {w : RequestWorld} {cookie : Cookie} {code : String} {u : Nat}
    (hok : ¬ Desyncs w cookie db u (.totpVerify code)) (hs : db.Synced u) :
    (totpVerify d w cookie db code).db.Synced u := by
  rcases @db_totpVerify d w cookie db code with h | ⟨v, codes, hv, ⟨row, hrow⟩, h⟩
  · rw [h]
    exact hs
  rw [h]
  refine @synced_writeTwice _ w _ _ _ _ u v hs (fun hcut => hok ⟨hcut.1 ▸ hv, hcut.2⟩)
    (fun hne => ?_) ?_
  · show db.mfaEnabled u = (db.enableTotp v codes).totpEnabled u
    rw [totpEnabled_enableTotp, if_neg hne]
    exact hs
  · show ((db.enableTotp v codes).setMfaEnabled v true).mfaEnabled u =
      (db.enableTotp v codes).totpEnabled u
    rw [mfaEnabled_setMfaEnabled, totpEnabled_enableTotp]
    split
    · rw [hrow]
      show ((db.users.lookup v).isSome && true) = true
      rw [hv.isSome_lookup]
      rfl
    · exact hs

theorem synced_totpDisable {w : RequestWorld} {cookie : Cookie} {password code : String} {u : Nat}
    (hok : ¬ Desyncs w cookie db u (.totpDisable password code)) (hs : db.Synced u) :
    (totpDisable d w cookie db password code).db.Synced u := by
  rcases @db_totpDisable d w cookie db password code with h | ⟨v, hv, h⟩
  · rw [h]
    exact hs
  have hcookie : CookieUser cookie db v := by
    cases hv with
    | disable hcookie => exact hcookie
  rw [h]
  refine @synced_writeTwice _ w _ _ _ _ u v hs (fun hcut => hok ⟨hcut.1 ▸ hcookie, hcut.2⟩)
    (fun hne => ?_) ?_
  · show db.mfaEnabled u = (db.deleteTotp v).totpEnabled u
    rw [totpEnabled_deleteTotp, if_neg hne]
    exact hs
  · show ((db.deleteTotp v).setMfaEnabled v false).mfaEnabled u = (db.deleteTotp v).totpEnabled u
    rw [mfaEnabled_setMfaEnabled, totpEnabled_deleteTotp]
    split
    · exact Bool.and_false _
    · exact hs

/-- **One request leaves the flags together**, unless it is one of those that do not. -/
theorem synced_step {u : Nat} (call : AuthCall)
    (hok : ¬ Desyncs call.world call.cookie db u call.request) (hs : db.Synced u) :
    (call.after d db).Synced u := by
  obtain ⟨w, cookie, r⟩ := call
  cases henrols : r.enrols with
  | false => exact (keeps_handle henrols).synced hs
  | true =>
    cases r with
    | totpSetup => exact @synced_totpSetup d db w cookie u hok hs
    | totpVerify code => exact @synced_totpVerify d db w cookie code u hok hs
    | totpDisable password code => exact @synced_totpDisable d db w cookie password code u hok hs
    | _ => exact absurd henrols (by simp [AuthRequest.enrols])

/-- **Where the second factor is asked for, and how it is given up**, from any content of the
    tables and with any failures of the database; and the two flags of a user agree after every
    run in which no request leaves one behind. -/
theorem second_factor (d : Deployment) :
    (∀ db call, AuthCall.Guarded d call db) ∧
    ∀ u db calls db', Machine.Runs (fun db call => AuthCall.step d db call)
      (fun db call => ¬ Desyncs call.world call.cookie db u call.request) db calls db' →
        db.Synced u → db'.Synced u := by
  refine ⟨fun db call => guarded call, fun u db calls db' hrun hs => ?_⟩
  refine @Machine.Runs.invariant _ _ _ _ (AuthDb.Synced · u) (fun s call s' hstep hok hs => ?_)
    _ _ _ hrun hs
  obtain rfl := Option.some.inj hstep
  exact synced_step call hok hs

end Requests

/-! ## Four ways round the code -/

namespace Alice

/-- Encryption under one key. -/
def plain : Fernet where
  Key := Unit
  key := fun _ => .ok ()
  encrypt := fun _ _ data => String.ofList (data.map fun b => Char.ofNat b.toNat)
  decrypt := fun _ token => some (token.toList.map fun c => UInt8.ofNat c.toNat)

def site : Deployment where
  verifyPassword := fun password hash => hash = "bcrypt:" ++ password
  hashPassword := fun password _ => some ("bcrypt:" ++ password)
  dummyHash := "bcrypt:dummy-for-timing-defense"
  isCommon := fun _ => false
  fernet := plain
  fernetKey := some ()
  totpValid := fun _ _ _ => false
  hmac := fun text => "hmac:" ++ text
  sha256 := fun text => "sha256:" ++ text
  lower := id
  floatText := PyText.str
  expired := fun text now => (PyText.int text).map fun expiresAt => expiresAt < (now : Int)

def alice : WebuiUser where
  username := "alice"
  passwordHash := some "bcrypt:correct horse battery"
  email := some "alice@shop.example"
  oauthProvider := some "google"
  oauthId := some "g-1"
  mfaEnabled := true

def db : AuthDb where
  users := AList.insert 7 alice ∅
  totpSecrets := AList.insert 7 { secretEncrypted := "SECRET", enabled := true } ∅
  emailVerifications := AList.insert "sha256:mail" { userId := 7, expiresAt := 90000 } ∅

def world : RequestWorld := { now := 1000, sessionId := "fresh" }

/-- The query for the second factor fails. -/
def failing : RequestWorld :=
  { world with answers := fun q => if q = .checkTotp then .refused else .applied }

def google : AuthCall := ⟨world, {}, .oauthLogin ⟨"google", "g-1", "alice@shop.example", true⟩⟩

def mail : AuthCall := ⟨world, {}, .verifyEmail "mail"⟩

def password : AuthCall := ⟨failing, {}, .login ⟨"alice", "correct horse battery"⟩⟩

def setup : AuthCall := ⟨world, { username := some "alice" }, .totpSetup⟩

def session : Session := ⟨7, 29800⟩

/-- **Alice has a second factor, and none of these requests carries a code**: three of them make a
    session for her, and the fourth disables the factor and leaves the copy of the flag. -/
theorem second_factor_bypassed :
    db.totpEnabled 7 = true ∧ db.Synced 7 ∧ google.Creates site db "fresh" session ∧
    mail.Creates site db "fresh" session ∧ password.Creates site db "fresh" session ∧
    (setup.after site db).totpEnabled 7 = false ∧ ¬ (setup.after site db).Synced 7 := by
  have hnew : db.activeSessions.lookup "fresh" ≠ some session := by decide
  have hdisabled : (setup.after site db).totpEnabled 7 = false := rfl
  have hflag : (setup.after site db).mfaEnabled 7 = true := rfl
  refine ⟨rfl, rfl, ⟨rfl, hnew⟩, ⟨rfl, hnew⟩, ⟨rfl, hnew⟩, hdisabled, fun h => ?_⟩
  rw [AuthDb.Synced, hdisabled, hflag] at h
  exact absurd h (by simp)

end Alice

end OdooSemantic
