import OdooSemantic.Lib.SlidingWindow
import OdooSemantic.Proof.SignupCalls

/-!
# What a verified address is worth

The addresses of users stay what they are, and a token is sent to the address that its user has
had all along. So whoever has registered is verified only by a token that was sent to the address
of the registration (`verified_by_mail`).

`resend_verification` sends three tokens an hour at most, if its calls take turns
(`verification_mails_limited`); nothing in the code sees to that.
-/

namespace OdooSemantic

open KeyedStore SlidingWindow Threads

/-! ## Mails -/

/-- A token and where it was sent. -/
structure SentToken where
  userId : Nat
  email : String
  tokenHash : String
  now : Nat
deriving DecidableEq

def SignupEvent.sent {T : Type} : SignupEvent T → Option SentToken
  | made _ userId email tokenHash now => some ⟨userId, email, tokenHash, now⟩
  | _ => none

def mails {T : Type} (trace : List (SignupEvent T)) : List SentToken :=
  trace.filterMap SignupEvent.sent

namespace AuthDb

variable (db : AuthDb)

def HasAddress (userId : Nat) (email : String) : Prop :=
  ∃ user, db.users.lookup userId = some user ∧ user.email = some email

/-- `email_verified` -/
def Verified (userId : Nat) : Prop :=
  ∃ user, db.users.lookup userId = some user ∧ user.emailVerified = true

/-- Nobody has a token for a user who is still to come. -/
def TokensOwned : Prop :=
  ∀ key row, db.emailVerifications.lookup key = some row → row.purpose = .emailVerify →
    row.userId ∈ db.users

variable {db} {db' : AuthDb} {userId : Nat} {email : String} {newly : Nat → Prop}

theorem HasAddress.mem (h : db.HasAddress userId email) : userId ∈ db.users := by
  obtain ⟨user, huser, -⟩ := h
  exact AList.lookup_isSome.mp (by rw [huser]; rfl)

theorem HasAddress.unique {email' : String} (h : db.HasAddress userId email)
    (h' : db.HasAddress userId email') : email = email' := by
  obtain ⟨user, huser, hemail⟩ := h
  obtain ⟨user', huser', hemail'⟩ := h'
  obtain rfl := Option.some.inj (huser.symm.trans huser')
  exact Option.some.inj (hemail.symm.trans hemail')

theorem HasAddress.of_keepsUsers (h : db.HasAddress userId email)
    (hkeeps : KeepsUsers db db' newly) : db'.HasAddress userId email := by
  obtain ⟨user, huser, hemail⟩ := h
  obtain ⟨user', huser', hsame, -⟩ := hkeeps userId user huser
  exact ⟨user', huser', hsame.trans hemail⟩

/-- Who was there and is verified now has been so before, or has just come to be. -/
theorem Verified.of_keepsUsers (h : db'.Verified userId) (hmem : userId ∈ db.users)
    (hkeeps : KeepsUsers db db' newly) : db.Verified userId ∨ newly userId := by
  obtain ⟨user', huser', hverified⟩ := h
  obtain ⟨user, huser⟩ := Option.isSome_iff_exists.mp (AList.lookup_isSome.mpr hmem)
  obtain ⟨user'', huser'', -, hbefore⟩ := hkeeps userId user huser
  obtain rfl := Option.some.inj (huser'.symm.trans huser'')
  cases hbefore hverified with
  | inl hold => exact Or.inl ⟨user, huser, hold⟩
  | inr hnew => exact Or.inr hnew

theorem mem_of_keepsUsers (h : userId ∈ db.users) (hkeeps : KeepsUsers db db' newly) :
    userId ∈ db'.users := by
  obtain ⟨user, huser⟩ := Option.isSome_iff_exists.mp (AList.lookup_isSome.mpr h)
  obtain ⟨user', huser', -⟩ := hkeeps userId user huser
  exact AList.lookup_isSome.mp (by rw [huser']; rfl)

theorem nextUserId_notMem (db : AuthDb) : db.nextUserId ∉ db.users :=
  AList.lookup_eq_none.mp (lookup_nextUserId db)

end AuthDb

/-! ## Every mail goes to its user -/

section Addressed

variable {T : Type} {d : Deployment} {calls : T → SignupCall} {s s' : SignupTxs T} {t : T}
  {w : CallWorld}

/-- A token of this user has been redeemed. -/
def SignupTxs.Redeems (s : SignupTxs T) (userId : Nat) : Prop :=
  ∃ r ∈ redemptions s.trace, r.2.1 = userId

/-- Tokens go, and have gone, to the address of their user. -/
structure Addressed (s : SignupTxs T) : Prop where
  recipient : ∀ t userId email, (s.phase t).recipient = some (userId, email) →
    s.db.HasAddress userId email
  sent : ∀ m ∈ mails s.trace, s.db.HasAddress m.userId m.email

/-- What has come to be about to be sent, or to be sent, goes to an address. -/
theorem Addressed.of_step (h : Addressed s)
    (husers : KeepsUsers s.db.toAuthDb s'.db.toAuthDb s'.Redeems)
    (hphase : ∀ u userId email, (s'.phase u).recipient = some (userId, email) →
      (s.phase u).recipient = some (userId, email) ∨ s'.db.HasAddress userId email)
    (htrace : ∀ m ∈ mails s'.trace, m ∈ mails s.trace ∨ s'.db.HasAddress m.userId m.email) :
    Addressed s' where
  recipient := by
    intro u userId email hrecipient
    cases hphase u userId email hrecipient with
    | inl hold => exact (h.recipient u userId email hold).of_keepsUsers husers
    | inr hnew => exact hnew
  sent := by
    intro m hm
    cases htrace m hm with
    | inl hold => exact (h.sent m hold).of_keepsUsers husers
    | inr hnew => exact hnew

theorem addressed_start (db : SignupDb) : Addressed ({ db := db } : SignupTxs T) where
  recipient := fun _ _ _ h => absurd h (by simp [SignupPhase.recipient])
  sent := fun _ hm => absurd hm (by simp [mails])

variable [DecidableEq T]

theorem keepsUsers_move (h : SignupMove d calls s t w s') :
    KeepsUsers s.db.toAuthDb s'.db.toAuthDb s'.Redeems := by
  cases h with
  | ended husers htokens => exact keepsUsers_of_eq husers
  | @redeemed token row now phase hcall hrow hidle =>
    intro id user huser
    obtain ⟨user', huser', hemail, hverified⟩ :=
      @keepsUsers_verifyEmail s.db.toAuthDb w.toRequestWorld (d.sha256 (PyText.strip token))
        row.userId id user huser
    refine ⟨user', huser', hemail, fun hnow => ?_⟩
    cases hverified hnow with
    | inl hold => exact Or.inl hold
    | inr hnew => exact Or.inr ⟨_, List.mem_cons_self, hnew.symm⟩
  | created hinsert hemail hverified hphase => exact keepsUsers_insertUser hinsert
  | made hphase hinsert huser hpurpose hidle =>
    obtain ⟨-, rfl⟩ := of_insertVerification hinsert
    exact keepsUsers_of_eq rfl
  | moved | locked | found | unverified | counted => exact keepsUsers_of_eq rfl

theorem keepsUsers_step {a : SignupAct T} (hstep : s.step d calls a = some s') :
    KeepsUsers s.db.toAuthDb s'.db.toAuthDb s'.Redeems := by
  cases a with
  | take t w => exact keepsUsers_move (next_moves hstep)
  | stop t =>
    rw [SignupTxs.step] at hstep
    split at hstep
    · exact absurd hstep (by simp)
    · obtain rfl := Option.some.inj hstep
      exact keepsUsers_of_eq rfl
  | elsewhere st w =>
    rw [SignupTxs.step] at hstep
    split at hstep
    · rename_i hfree
      obtain rfl := Option.some.inj hstep
      apply keepsUsers_effect
      intro token userId heq
      rw [heq] at hfree
      exact absurd hfree (by simp [SignupTxs.isUntouched])
    · exact absurd hstep (by simp)

/-- The recipients behind a step of `t`. -/
theorem recipient_become {moved : SignupTxs T} {phase : SignupPhase}
    (hphases : moved.phase = s.phase)
    (hphase : ∀ userId email, phase.recipient = some (userId, email) →
      (s.phase t).recipient = some (userId, email) ∨ moved.db.HasAddress userId email)
    (u : T) (userId : Nat) (email : String)
    (h : ((moved.become t phase).phase u).recipient = some (userId, email)) :
    (s.phase u).recipient = some (userId, email) ∨
      (moved.become t phase).db.HasAddress userId email := by
  by_cases hu : u = t
  · subst hu
    rw [SignupTxs.phase_become_self] at h
    exact hphase userId email h
  · rw [SignupTxs.phase_become_ne moved phase hu, hphases] at h
    exact Or.inl h

theorem not_recipient {phase : SignupPhase} (hidle : phase.recipient = none) {P : Prop}
    (userId : Nat) (email : String) (h : phase.recipient = some (userId, email)) : P :=
  absurd (hidle.symm.trans h) (by simp)

theorem addressed_move (hmove : SignupMove d calls s t w s') (h : Addressed s) : Addressed s' := by
  refine h.of_step (keepsUsers_move hmove) ?_ ?_
  · cases hmove with
    | ended => exact recipient_become rfl fun _ _ => not_recipient rfl _ _
    | moved hidle => exact recipient_become rfl fun _ _ => not_recipient hidle.recipient _ _
    | locked => exact recipient_become rfl fun _ _ => not_recipient rfl _ _
    | found => exact recipient_become rfl fun _ _ => not_recipient rfl _ _
    | redeemed hcall hrow hidle =>
      exact recipient_become rfl fun _ _ => not_recipient hidle.recipient _ _
    | made hphase hinsert huser hpurpose hidle =>
      exact recipient_become rfl fun _ _ => not_recipient hidle.recipient _ _
    | @unverified userId email user hfound =>
      refine recipient_become rfl fun userId' email' heq => Or.inr ?_
      obtain ⟨rfl, rfl⟩ := Prod.mk.inj (Option.some.inj heq)
      obtain ⟨hlookup, hfits⟩ := of_findWhere hfound
      rw [Bool.and_eq_true] at hfits
      exact ⟨user, hlookup, of_decide_eq_true hfits.1⟩
    | counted hphase hcount =>
      refine recipient_become rfl fun userId' email' heq => Or.inl ?_
      rw [hphase]
      exact heq
    | @created user email db phase hinsert hemail hverified hphase =>
      refine recipient_become rfl fun userId' email' heq => ?_
      cases hphase with
      | inl hidle => exact not_recipient hidle.recipient _ _ heq
      | inr hsending =>
        rw [hsending] at heq
        obtain ⟨rfl, rfl⟩ := Prod.mk.inj (Option.some.inj heq)
        exact Or.inr ⟨user, lookup_of_insertUser hinsert, hemail⟩
  · intro m hm
    cases hmove with
    | @made userId since email tokenHash response row db phase hphase hinsert huser hpurpose hidle =>
      cases List.mem_cons.mp hm with
      | inr hold => exact Or.inl hold
      | inl heq =>
        subst heq
        right
        have hbefore : s.db.HasAddress userId email := h.recipient t userId email (by rw [hphase]; rfl)
        obtain ⟨-, rfl⟩ := of_insertVerification hinsert
        exact hbefore
    | ended | moved | locked | found | redeemed | unverified | counted | created =>
      exact Or.inl hm

theorem addressed_step {a : SignupAct T} (hstep : s.step d calls a = some s') (h : Addressed s) :
    Addressed s' := by
  cases a with
  | take t w => exact addressed_move (next_moves hstep) h
  | stop t =>
    have husers := keepsUsers_step hstep
    rw [SignupTxs.step] at hstep
    split at hstep
    · exact absurd hstep (by simp)
    · obtain rfl := Option.some.inj hstep
      exact h.of_step husers (recipient_become rfl fun _ _ => not_recipient rfl _ _)
        fun _ hm => Or.inl hm
  | elsewhere st w =>
    have husers := keepsUsers_step hstep
    rw [SignupTxs.step] at hstep
    split at hstep
    · obtain rfl := Option.some.inj hstep
      exact h.of_step husers (fun _ _ _ hrecipient => Or.inl hrecipient) fun _ hm => Or.inl hm
    · exact absurd hstep (by simp)

end Addressed

/-! ## Whoever is verified had the mail -/

section Traced

variable {T : Type} {d : Deployment} {calls : T → SignupCall} {s s' : SignupTxs T} {t : T}
  {w : CallWorld} {db₀ : AuthDb}

/-- A token of this user has been sent. -/
def WasSent (trace : List (SignupEvent T)) (userId : Nat) (tokenHash : String) : Prop :=
  ∃ m ∈ mails trace, m.userId = userId ∧ m.tokenHash = tokenHash

/-- Where all this comes from: whoever was not there at the beginning has a token by mail only. -/
structure FromMails (db₀ : AuthDb) (s : SignupTxs T) : Prop where
  users : ∀ userId ∈ db₀.users, userId ∈ s.db.users
  tokens : ∀ key row, s.db.emailVerifications.lookup key = some row → row.purpose = .emailVerify →
    row.userId ∈ db₀.users ∨ WasSent s.trace row.userId key
  created : ∀ t userId email, .created t userId email ∈ s.trace → userId ∉ db₀.users ∧
    s.db.HasAddress userId email ∧ (s.db.Verified userId → s.Redeems userId)
  redeemed : ∀ newer t tokenHash userId checked older,
    s.trace = newer ++ .redeemed t tokenHash userId checked :: older → userId ∉ db₀.users →
      WasSent older userId tokenHash

/-- What an event has to be for that. -/
structure Attested (db₀ : AuthDb) (s s' : SignupTxs T) (e : SignupEvent T) : Prop where
  created : ∀ t userId email, e = .created t userId email → userId ∉ db₀.users ∧
    s'.db.HasAddress userId email ∧ ¬s'.db.Verified userId
  redeemed : ∀ t tokenHash userId checked, e = .redeemed t tokenHash userId checked →
    userId ∉ db₀.users → WasSent s.trace userId tokenHash

theorem FromMails.of_step (h : FromMails db₀ s)
    (husers : KeepsUsers s.db.toAuthDb s'.db.toAuthDb s'.Redeems)
    (hrows : ∀ key row', s'.db.emailVerifications.lookup key = some row' →
      row'.purpose = .emailVerify → (∃ row, s.db.emailVerifications.lookup key = some row ∧
        SameToken row row') ∨ WasSent s'.trace row'.userId key)
    (htrace : s'.trace = s.trace ∨ ∃ e, s'.trace = e :: s.trace ∧ Attested db₀ s s' e) :
    FromMails db₀ s' := by
  have hgrown : ∀ e ∈ s.trace, e ∈ s'.trace := by
    intro e he
    obtain hsame | ⟨e', hcons, -⟩ := htrace
    · exact hsame ▸ he
    · exact hcons ▸ List.mem_cons_of_mem _ he
  have hsent : ∀ userId key, WasSent s.trace userId key → WasSent s'.trace userId key := by
    intro userId key hwas
    obtain ⟨m, hm, hfits⟩ := hwas
    obtain ⟨e, he, hmail⟩ := List.mem_filterMap.mp hm
    exact ⟨m, List.mem_filterMap.mpr ⟨e, hgrown e he, hmail⟩, hfits⟩
  have hredeems : ∀ userId, s.Redeems userId → s'.Redeems userId := by
    intro userId hold
    obtain ⟨r, hr, huser⟩ := hold
    obtain ⟨e, he, hredemption⟩ := List.mem_filterMap.mp hr
    exact ⟨r, List.mem_filterMap.mpr ⟨e, hgrown e he, hredemption⟩, huser⟩
  have hcreated : ∀ t userId email, .created t userId email ∈ s.trace → userId ∉ db₀.users ∧
      s'.db.HasAddress userId email ∧ (s'.db.Verified userId → s'.Redeems userId) := by
    intro t userId email hmem
    obtain ⟨hnew, haddress, hverified⟩ := h.created t userId email hmem
    refine ⟨hnew, haddress.of_keepsUsers husers, fun hnow => ?_⟩
    cases hnow.of_keepsUsers haddress.mem husers with
    | inl hold => exact hredeems userId (hverified hold)
    | inr hjust => exact hjust
  constructor
  · exact fun userId hmem => AuthDb.mem_of_keepsUsers (h.users userId hmem) husers
  · intro key row' hrow' hpurpose
    obtain ⟨row, hrow, hsame⟩ | hwas := hrows key row' hrow' hpurpose
    · rw [hsame.userId]
      exact (h.tokens key row hrow (hsame.purpose.symm.trans hpurpose)).imp_right (hsent _ _)
    · exact Or.inr hwas
  · intro t userId email hmem
    obtain hsame | ⟨e, hcons, hattested⟩ := htrace
    · exact hcreated t userId email (hsame ▸ hmem)
    · rw [hcons] at hmem
      cases List.mem_cons.mp hmem with
      | inr hold => exact hcreated t userId email hold
      | inl heq =>
        obtain ⟨hnew, haddress, hnot⟩ := hattested.created t userId email heq.symm
        exact ⟨hnew, haddress, fun hverified => absurd hverified hnot⟩
  · intro newer t tokenHash userId checked older hsplit hnew
    obtain hsame | ⟨e, hcons, hattested⟩ := htrace
    · exact h.redeemed newer t tokenHash userId checked older (hsame.symm.trans hsplit) hnew
    · cases append_of_cons_eq (hcons.symm.trans hsplit) with
      | inl hhead =>
        obtain ⟨-, rfl, rfl⟩ := hhead
        exact hattested.redeemed t tokenHash userId checked rfl hnew
      | inr hold =>
        obtain ⟨newer', -, hsplit'⟩ := hold
        exact h.redeemed newer' t tokenHash userId checked older hsplit' hnew

theorem fromMails_start {db : SignupDb} (howned : db.TokensOwned) :
    FromMails db.toAuthDb ({ db := db } : SignupTxs T) where
  users := fun _ hmem => hmem
  tokens := fun key row hrow hpurpose => Or.inl (howned key row hrow hpurpose)
  created := fun _ _ _ hmem => absurd hmem (by simp)
  redeemed := fun newer _ _ _ _ _ hsplit => absurd hsplit (by simp)

variable [DecidableEq T]

theorem fromMails_move (hmove : SignupMove d calls s t w s') (hheld : RedeemedOnce d calls s)
    (h : FromMails db₀ s) : FromMails db₀ s' := by
  refine h.of_step (keepsUsers_move hmove) ?_ ?_
  · intro key row' hrow' hpurpose
    cases hmove with
    | ended husers htokens =>
      exact Or.inl ((keepsRows_of_eq htokens).2 key row' hrow' hpurpose)
    | redeemed => exact Or.inl ((keepsRows_markUsed rfl).2 key row' hrow' hpurpose)
    | created hinsert =>
      obtain rfl := of_insertUser hinsert
      exact Or.inl ⟨row', hrow', .refl row'⟩
    | @made userId since email tokenHash response row db phase hphase hinsert huser _ hidle =>
      obtain ⟨-, rfl⟩ := of_insertVerification hinsert
      by_cases hkey : key = tokenHash
      · subst hkey
        obtain rfl := Option.some.inj ((AList.lookup_insert _).symm.trans hrow')
        exact Or.inr ⟨_, List.mem_cons_self, huser.symm, rfl⟩
      · exact Or.inl ⟨row', (AList.lookup_insert_ne hkey).symm.trans hrow', .refl row'⟩
    | moved | locked | found | unverified | counted => exact Or.inl ⟨row', hrow', .refl row'⟩
  · cases hmove with
    | @redeemed token row now phase hcall hrow hidle =>
      refine Or.inr ⟨_, rfl, ⟨fun _ _ _ heq => absurd heq (by simp), ?_⟩⟩
      intro t' tokenHash userId checked heq hnew
      obtain ⟨-, rfl, rfl, rfl⟩ := SignupEvent.redeemed.inj heq
      -- the row is the one that the call has locked
      obtain ⟨tokenHash, hholds⟩ := hheld.held t row now hrow
      obtain ⟨token', hcall', rfl⟩ := hholds.token
      obtain rfl : token = token' := SignupCall.verifyEmail.inj (hcall.symm.trans hcall')
      obtain ⟨row', hrow', hsame⟩ := hholds.row
      rw [← hsame.userId] at hnew ⊢
      exact (h.tokens _ row' hrow' (hsame.purpose.trans hholds.purpose)).resolve_left hnew
    | @created user email db phase hinsert hemail hverified hphase =>
      refine Or.inr ⟨_, rfl, ⟨?_, fun _ _ _ _ heq => absurd heq (by simp)⟩⟩
      intro t' userId email' heq
      obtain ⟨-, rfl, rfl⟩ := SignupEvent.created.inj heq
      have hlookup := lookup_of_insertUser hinsert
      refine ⟨fun hmem => s.db.nextUserId_notMem (h.users _ hmem), ⟨user, hlookup, hemail⟩, ?_⟩
      intro hnow
      obtain ⟨user', huser', htrue⟩ := hnow
      obtain rfl := Option.some.inj (hlookup.symm.trans huser')
      exact absurd htrue (by simp [hverified])
    | made =>
      exact Or.inr ⟨_, rfl, fun _ _ _ heq => absurd heq (by simp),
        fun _ _ _ _ heq => absurd heq (by simp)⟩
    | ended | moved | locked | found | unverified | counted => exact Or.inl rfl

theorem fromMails_step {a : SignupAct T} (hstep : s.step d calls a = some s')
    (hheld : RedeemedOnce d calls s) (h : FromMails db₀ s) : FromMails db₀ s' := by
  cases a with
  | take t w => exact fromMails_move (next_moves hstep) hheld h
  | stop t =>
    have husers := keepsUsers_step hstep
    rw [SignupTxs.step] at hstep
    split at hstep
    · exact absurd hstep (by simp)
    · obtain rfl := Option.some.inj hstep
      exact h.of_step husers (fun _ row' hrow' _ => Or.inl ⟨row', hrow', .refl row'⟩) (Or.inl rfl)
  | elsewhere st w =>
    have husers := keepsUsers_step hstep
    rw [SignupTxs.step] at hstep
    split at hstep
    · obtain rfl := Option.some.inj hstep
      refine h.of_step husers (fun key row' hrow' hpurpose => Or.inl ?_) (Or.inl rfl)
      exact (keepsRows_effect st w s.db.toAuthDb).2 key row' hrow' hpurpose
    · exact absurd hstep (by simp)

/-- **Whoever has registered is verified by mail only**: tokens for them go to the address of their
    registration, and they are not verified unless one of these has been redeemed. -/
theorem verified_by_mail (d : Deployment) (calls : T → SignupCall) {db : SignupDb}
    (howned : db.TokensOwned) {acts : List (SignupAct T)} {s : SignupTxs T}
    (hrun : Machine.Runs (SignupTxs.step d calls) (fun _ _ => True) { db := db } acts s) :
    ∀ t userId email, .created t userId email ∈ s.trace →
      (∀ m ∈ mails s.trace, m.userId = userId → m.email = email) ∧
      (s.db.Verified userId → ∃ newer t' tokenHash checked older,
        s.trace = newer ++ .redeemed t' tokenHash userId checked :: older ∧
          ∃ m ∈ mails older, m.userId = userId ∧ m.tokenHash = tokenHash) := by
  have hall : ∀ (s : SignupTxs T) a s', s.step d calls a = some s' → True →
      RedeemedOnce d calls s ∧ Addressed s ∧ FromMails db.toAuthDb s →
        RedeemedOnce d calls s' ∧ Addressed s' ∧ FromMails db.toAuthDb s' :=
    fun _ _ _ hstep _ h =>
      ⟨redeemedOnce_step hstep h.1, addressed_step hstep h.2.1, fromMails_step hstep h.1 h.2.2⟩
  obtain ⟨-, haddressed, h⟩ := hrun.invariant hall
    ⟨redeemedOnce_start db, addressed_start db, fromMails_start howned⟩
  intro t userId email hmem
  obtain ⟨hnew, haddress, hverified⟩ := h.created t userId email hmem
  refine ⟨fun m hm huser => ?_, fun hnow => ?_⟩
  · have hsent := haddressed.sent m hm
    rw [huser] at hsent
    exact hsent.unique haddress
  · obtain ⟨r, hr, rfl⟩ := hverified hnow
    obtain ⟨e, he, hredemption⟩ := List.mem_filterMap.mp hr
    cases e with
    | redeemed t' tokenHash userId' checked =>
      obtain rfl := Option.some.inj hredemption
      obtain ⟨newer, older, hsplit⟩ := List.append_of_mem he
      exact ⟨newer, t', tokenHash, checked, older, hsplit,
        h.redeemed newer t' tokenHash userId' checked older hsplit hnew⟩
    | created | made => exact absurd hredemption (by simp [SignupEvent.redemption])

end Traced

/-! ## Three an hour -/

section Limits

variable {T : Type} {d : Deployment} {calls : T → SignupCall} {s s' : SignupTxs T} {t : T}
  {w : CallWorld}

/-- For whom the call is about to insert a token, and when it has counted. -/
def SignupPhase.sends : SignupPhase → Option (Nat × Nat)
  | sending userId _ since _ => some (userId, since)
  | _ => none

/-- What has been sent to the user, newest first. -/
def mailsFor (userId : Nat) (trace : List (SignupEvent T)) : List SentToken :=
  (mails trace).filter fun m => m.userId = userId

/-- What has been sent is in the table. -/
structure Filed (s : SignupTxs T) : Prop where
  rows : ∀ m ∈ mails s.trace, ∃ row, s.db.emailVerifications.lookup m.tokenHash = some row ∧
    row.purpose = .emailVerify ∧ row.userId = m.userId ∧ s.db.createdAt m.tokenHash = m.now
  distinct : ((mails s.trace).map (·.tokenHash)).Nodup

theorem filed_start (db : SignupDb) : Filed ({ db := db } : SignupTxs T) where
  rows := fun _ hm => absurd hm (by simp [mails])
  distinct := List.nodup_nil

theorem Filed.of_step (h : Filed s) (hrows : RowsStay s.db.toAuthDb s'.db.toAuthDb)
    (hcreated : s'.db.createdAt = s.db.createdAt) (htrace : mails s'.trace = mails s.trace) :
    Filed s' where
  rows := by
    intro m hm
    rw [htrace] at hm
    obtain ⟨row, hrow, hpurpose, huser, hnow⟩ := h.rows m hm
    obtain ⟨row', hrow', hsame⟩ := hrows _ row hrow
    refine ⟨row', hrow', hsame.purpose.trans hpurpose, hsame.userId.trans huser, ?_⟩
    rw [hcreated]
    exact hnow
  distinct := by
    rw [htrace]
    exact h.distinct

/-- **The count takes in all that has been sent.** -/
theorem Filed.recent_le (h : Filed s) (userId now : Nat) :
    (recent SentToken.now 3600 now (mailsFor userId s.trace)).length ≤
      s.db.tokensOfLastHour userId now := by
  have hsub : (recent SentToken.now 3600 now (mailsFor userId s.trace)).Sublist (mails s.trace) :=
    List.filter_sublist.trans List.filter_sublist
  have hnodup := (hsub.map (·.tokenHash)).nodup h.distinct
  have hcounted : (recent SentToken.now 3600 now (mailsFor userId s.trace)).map (·.tokenHash) ⊆
      s.db.emailVerifications.keys.filter (s.db.counts userId now) := by
    intro key hkey
    obtain ⟨m, hm, rfl⟩ := List.mem_map.mp hkey
    obtain ⟨hfor, hrecent⟩ := List.mem_filter.mp hm
    obtain ⟨hsent, huser⟩ := List.mem_filter.mp hfor
    obtain ⟨row, hrow, hpurpose, hrowUser, hnow⟩ := h.rows m hsent
    have hmem : m.tokenHash ∈ s.db.emailVerifications := AList.lookup_isSome.mp (by rw [hrow]; rfl)
    refine List.mem_filter.mpr ⟨AList.mem_keys.mp hmem, ?_⟩
    have hfits : row.userId = userId := hrowUser.trans (of_decide_eq_true huser)
    have hlate : now < s.db.createdAt m.tokenHash + 3600 := by
      rw [hnow]
      exact of_decide_eq_true hrecent
    simp [SignupDb.counts, SignupDb.verification, hrow, hpurpose, hfits, hlate]
  have hle := (List.subperm_of_subset hnodup hcounted).length_le
  rw [List.length_map] at hle
  exact hle

/-- Calls for one user take turns: none counts while another is about to insert; and the clock does
    not go back in the middle of a call. -/
def SignupTxs.TakesTurns (s : SignupTxs T) : SignupAct T → Prop
  | .take t w =>
      (∀ userId email, s.phase t = .unverified userId email →
        ∀ u since, (s.phase u).sends ≠ some (userId, since)) ∧
      ∀ userId since, (s.phase t).sends = some (userId, since) → since ≤ w.now
  | _ => True

/-- One at most is about to send to a user, and there is room for one more. -/
structure Spaced (s : SignupTxs T) : Prop where
  alone : ∀ t u userId since since', (s.phase t).sends = some (userId, since) →
    (s.phase u).sends = some (userId, since') → t = u
  room : ∀ t userId since, (s.phase t).sends = some (userId, since) →
    (recent SentToken.now 3600 since (mailsFor userId s.trace)).length < 3
  limited : ∀ userId, Limited SentToken.now 3600 3 (mailsFor userId s.trace)

theorem spaced_start (db : SignupDb) : Spaced ({ db := db } : SignupTxs T) where
  alone := fun _ _ _ _ _ h => absurd h (by simp [SignupPhase.sends])
  room := fun _ _ _ h => absurd h (by simp [SignupPhase.sends])
  limited := fun _ => .nil

/-- Nobody comes to be about to send. -/
theorem Spaced.of_quiet (h : Spaced s)
    (hphase : ∀ u, (s'.phase u).sends = none ∨ (s'.phase u).sends = (s.phase u).sends)
    (htrace : mails s'.trace = mails s.trace) : Spaced s' := by
  have hbefore : ∀ u r, (s'.phase u).sends = some r → (s.phase u).sends = some r := by
    intro u r hsends
    cases hphase u with
    | inl hnone => exact absurd (hnone.symm.trans hsends) (by simp)
    | inr hsame => exact hsame.symm.trans hsends
  have hmails : ∀ userId, mailsFor userId s'.trace = mailsFor userId s.trace := by
    intro userId
    rw [mailsFor, htrace, mailsFor]
  constructor
  · intro t u userId since since' ht hu
    exact h.alone t u userId since since' (hbefore t _ ht) (hbefore u _ hu)
  · intro t userId since ht
    rw [hmails]
    exact h.room t userId since (hbefore t _ ht)
  · intro userId
    rw [hmails]
    exact h.limited userId

variable [DecidableEq T]

theorem sends_become {moved : SignupTxs T} {phase : SignupPhase} (hphases : moved.phase = s.phase)
    (hphase : phase.sends = none) (u : T) : ((moved.become t phase).phase u).sends = none ∨
      ((moved.become t phase).phase u).sends = (s.phase u).sends := by
  by_cases hu : u = t
  · subst hu
    rw [SignupTxs.phase_become_self]
    exact Or.inl hphase
  · rw [SignupTxs.phase_become_ne moved phase hu, hphases]
    exact Or.inr rfl

/-- The call has counted, and goes on to send. -/
theorem Spaced.of_sending (h : Spaced s) {moved : SignupTxs T} {userId since : Nat} {email : String}
    {response : Response} (hphases : moved.phase = s.phase)
    (hmails : mails moved.trace = mails s.trace)
    (halone : ∀ u since', (s.phase u).sends ≠ some (userId, since'))
    (hroom : (recent SentToken.now 3600 since (mailsFor userId s.trace)).length < 3) :
    Spaced (moved.become t (.sending userId email since response)) := by
  have hfor : ∀ v, mailsFor v (moved.become t (.sending userId email since response)).trace =
      mailsFor v s.trace := by
    intro v
    show List.filter _ (mails moved.trace) = _
    rw [hmails, mailsFor]
  -- whoever is about to send is `t`, for this user, or was so before, for another
  have hcases : ∀ u r,
      ((moved.become t (.sending userId email since response)).phase u).sends = some r →
        u = t ∧ r = (userId, since) ∨ (s.phase u).sends = some r ∧ r.1 ≠ userId := by
    intro u r hsends
    by_cases hu : u = t
    · subst hu
      rw [SignupTxs.phase_become_self] at hsends
      exact Or.inl ⟨rfl, (Option.some.inj hsends).symm⟩
    · rw [SignupTxs.phase_become_ne _ _ hu, hphases] at hsends
      refine Or.inr ⟨hsends, fun heq => halone u r.2 ?_⟩
      rw [← heq]
      exact hsends
  constructor
  · intro u v userId' since₁ since₂ hu hv
    obtain ⟨rfl, heq⟩ | ⟨hu, hne⟩ := hcases u _ hu
    · obtain ⟨rfl, -⟩ | ⟨-, hne⟩ := hcases v _ hv
      · rfl
      · exact absurd (Prod.mk.inj heq).1 hne
    · obtain ⟨-, heq⟩ | ⟨hv, -⟩ := hcases v _ hv
      · exact absurd (Prod.mk.inj heq).1 hne
      · exact h.alone u v userId' since₁ since₂ hu hv
  · intro u userId' since' hu
    rw [hfor]
    obtain ⟨-, heq⟩ | ⟨hu, -⟩ := hcases u _ hu
    · obtain ⟨rfl, rfl⟩ := Prod.mk.inj heq
      exact hroom
    · exact h.room u userId' since' hu
  · intro v
    rw [hfor]
    exact h.limited v

/-- **The third of an hour is the last.** -/
theorem spaced_made (h : Spaced s) {moved : SignupTxs T} {userId since now : Nat}
    {email tokenHash : String} {phase : SignupPhase} (hphases : moved.phase = s.phase)
    (htrace : mails moved.trace = ⟨userId, email, tokenHash, now⟩ :: mails s.trace)
    (hsends : (s.phase t).sends = some (userId, since)) (hclock : since ≤ now)
    (hidle : phase.sends = none) : Spaced (moved.become t phase) := by
  have hbefore : ∀ u r, ((moved.become t phase).phase u).sends = some r →
      u ≠ t ∧ (s.phase u).sends = some r := by
    intro u r hu
    by_cases heq : u = t
    · subst heq
      rw [SignupTxs.phase_become_self, hidle] at hu
      exact absurd hu (by simp)
    · rw [SignupTxs.phase_become_ne _ _ heq, hphases] at hu
      exact ⟨heq, hu⟩
  have hfor : ∀ v, mailsFor v (moved.become t phase).trace =
      List.filter (fun m => m.userId = v) (⟨userId, email, tokenHash, now⟩ :: mails s.trace) := by
    intro v
    show List.filter _ (mails moved.trace) = _
    rw [htrace]
  constructor
  · intro u v userId' since₁ since₂ hu hv
    exact h.alone u v userId' since₁ since₂ (hbefore u _ hu).2 (hbefore v _ hv).2
  · intro u userId' since' hu
    obtain ⟨hne, hu⟩ := hbefore u _ hu
    have hother : userId ≠ userId' := by
      intro heq
      subst heq
      exact hne (h.alone u t userId since' since hu hsends)
    rw [hfor, List.filter_cons_of_neg (by simp [hother])]
    exact h.room u userId' since' hu
  · intro v
    rw [hfor]
    refine (h.limited v).filter_cons fun heq => ?_
    obtain rfl : userId = v := of_decide_eq_true heq
    refine Nat.lt_of_le_of_lt ?_ (h.room t userId since hsends)
    apply (List.monotone_filter_right _ _).length_le
    intro m hm
    have hlate := of_decide_eq_true hm
    exact decide_eq_true (by dsimp only at hlate; omega)

theorem filed_made (h : Filed s) {userId now : Nat} {email tokenHash : String}
    {row : EmailVerification} {db : AuthDb} {phase : SignupPhase}
    (hinsert : s.db.insertVerification tokenHash row = some db) (huser : row.userId = userId)
    (hpurpose : row.purpose = .emailVerify) :
    Filed (((s.record t db userId email tokenHash now).release t).become t phase) := by
  have hstay := rowsStay_insertVerification hinsert
  obtain ⟨hfree, rfl⟩ := of_insertVerification hinsert
  constructor
  · intro m hm
    cases List.mem_cons.mp hm with
    | inl heq =>
      subst heq
      exact ⟨row, AList.lookup_insert _, hpurpose, huser, Function.update_self ..⟩
    | inr hold =>
      obtain ⟨row', hrow', hpurpose', huser', hnow⟩ := h.rows m hold
      obtain ⟨row'', hrow'', hsame⟩ := hstay _ row' hrow'
      refine ⟨row'', hrow'', hsame.purpose.trans hpurpose', hsame.userId.trans huser', ?_⟩
      have hne : m.tokenHash ≠ tokenHash := by
        intro heq
        exact hfree (heq ▸ AList.lookup_isSome.mp (by rw [hrow']; rfl))
      exact (Function.update_of_ne hne ..).trans hnow
  · refine List.nodup_cons.mpr ⟨fun hmem => ?_, h.distinct⟩
    obtain ⟨m, hm, heq⟩ := List.mem_map.mp hmem
    obtain ⟨row', hrow', -⟩ := h.rows m hm
    have hsame : m.tokenHash = tokenHash := heq
    exact hfree (hsame ▸ AList.lookup_isSome.mp (by rw [hrow']; rfl))

theorem filed_move (hmove : SignupMove d calls s t w s') (h : Filed s) : Filed s' := by
  cases hmove with
  | ended husers htokens => exact h.of_step (keepsRows_of_eq htokens).1 rfl rfl
  | redeemed => exact h.of_step (keepsRows_markUsed rfl).1 rfl rfl
  | created hinsert =>
    obtain rfl := of_insertUser hinsert
    exact h.of_step (rowsStay_refl _) rfl rfl
  | made hphase hinsert huser hpurpose hidle => exact filed_made h hinsert huser hpurpose
  | moved | locked | found | unverified | counted => exact h.of_step (rowsStay_refl _) rfl rfl

theorem sends_of_idle {phase : SignupPhase} (h : phase.Idle) : phase.sends = none := by
  cases phase with
  | sending => exact absurd h.recipient (by simp [SignupPhase.recipient])
  | _ => rfl

theorem recipient_of_sends {phase : SignupPhase} {userId since : Nat}
    (h : phase.sends = some (userId, since)) : ∃ email, phase.recipient = some (userId, email) := by
  cases phase with
  | sending userId' email since' response =>
    obtain ⟨rfl, -⟩ := Prod.mk.inj (Option.some.inj h)
    exact ⟨email, rfl⟩
  | _ => exact absurd h (by simp [SignupPhase.sends])

theorem spaced_move (hmove : SignupMove d calls s t w s') (hturn : s.TakesTurns (.take t w))
    (haddressed : Addressed s) (hfiled : Filed s) (h : Spaced s) : Spaced s' := by
  obtain ⟨hturn, hclock⟩ := hturn
  cases hmove with
  | ended => exact h.of_quiet (sends_become rfl rfl) rfl
  | moved hidle => exact h.of_quiet (sends_become rfl (sends_of_idle hidle)) rfl
  | locked => exact h.of_quiet (sends_become rfl rfl) rfl
  | found => exact h.of_quiet (sends_become rfl rfl) rfl
  | unverified => exact h.of_quiet (sends_become rfl rfl) rfl
  | redeemed hcall hrow hidle => exact h.of_quiet (sends_become rfl (sends_of_idle hidle)) rfl
  | @counted userId email hphase hcount =>
    apply h.of_sending rfl rfl (hturn userId email hphase)
    exact Nat.lt_of_le_of_lt (hfiled.recent_le userId w.now) hcount
  | @created user email db phase hinsert hemail hverified hphase =>
    cases hphase with
    | inl hidle => exact h.of_quiet (sends_become rfl (sends_of_idle hidle)) rfl
    | inr hsending =>
      rw [hsending]
      -- the user is new: nothing has been sent to them, and nobody is about to
      have hnobody : ∀ email, ¬s.db.HasAddress s.db.nextUserId email :=
        fun _ haddress => s.db.nextUserId_notMem haddress.mem
      refine h.of_sending ?_ ?_ ?_ ?_
      · rfl
      · rfl
      · intro u since hsends
        obtain ⟨email', hrecipient⟩ := recipient_of_sends hsends
        exact hnobody email' (haddressed.recipient u _ email' hrecipient)
      · have hnone : mailsFor s.db.nextUserId s.trace = [] := by
          refine List.filter_eq_nil_iff.mpr fun m hm heq => ?_
          have hsent := haddressed.sent m hm
          rw [of_decide_eq_true heq] at hsent
          exact hnobody m.email hsent
        rw [hnone]
        exact Nat.zero_lt_succ 2
  | @made userId since email tokenHash response row db phase hphase hinsert huser hpurpose hidle =>
    have hsends : (s.phase t).sends = some (userId, since) := by
      rw [hphase]
      rfl
    exact spaced_made h rfl rfl hsends (hclock userId since hsends) (sends_of_idle hidle)

theorem limits_step {a : SignupAct T} (hstep : s.step d calls a = some s') (hturn : s.TakesTurns a)
    (haddressed : Addressed s) (hfiled : Filed s) (h : Spaced s) : Filed s' ∧ Spaced s' := by
  cases a with
  | take t w =>
    have hmove := next_moves hstep
    exact ⟨filed_move hmove hfiled, spaced_move hmove hturn haddressed hfiled h⟩
  | stop t =>
    rw [SignupTxs.step] at hstep
    split at hstep
    · exact absurd hstep (by simp)
    · obtain rfl := Option.some.inj hstep
      exact ⟨hfiled.of_step (rowsStay_refl _) rfl rfl, h.of_quiet (sends_become rfl rfl) rfl⟩
  | elsewhere st w =>
    rw [SignupTxs.step] at hstep
    split at hstep
    · obtain rfl := Option.some.inj hstep
      exact ⟨hfiled.of_step (keepsRows_effect st w _).1 rfl rfl,
        h.of_quiet (fun _ => Or.inr rfl) rfl⟩
    · exact absurd hstep (by simp)

/-- **Three tokens an hour**: if the calls for one user take turns, no hour has more than three
    tokens for them, that of the registration among them. -/
theorem verification_mails_limited (d : Deployment) (calls : T → SignupCall) {db : SignupDb}
    {acts : List (SignupAct T)} {s : SignupTxs T}
    (hrun : Machine.Runs (SignupTxs.step d calls) SignupTxs.TakesTurns { db := db } acts s)
    (userId start : Nat) :
    (within SentToken.now 3600 start (mailsFor userId s.trace)).length ≤ 3 := by
  have hall : ∀ (s : SignupTxs T) a s', s.step d calls a = some s' → s.TakesTurns a →
      Addressed s ∧ Filed s ∧ Spaced s → Addressed s' ∧ Filed s' ∧ Spaced s' :=
    fun _ _ _ hstep hturn h =>
      ⟨addressed_step hstep h.1, limits_step hstep hturn h.1 h.2.1 h.2.2⟩
  obtain ⟨-, -, h⟩ := hrun.invariant hall ⟨addressed_start db, filed_start db, spaced_start db⟩
  exact (h.limited userId).length_within_le start

end Limits

/-! ## Bob

He asks for a second mail, and opens its link twice. -/

namespace Bob

inductive Tab where
  | registers
  | resends
  | opens
  | reopens
deriving DecidableEq

def calls : Tab → SignupCall
  | .registers => .register
      { email := "bob@shop.example", username := "bob", password := "correct horse battery"
        confirmPassword := "correct horse battery" }
  | .resends => .resendVerification "bob@shop.example"
  | .opens | .reopens => .verifyEmail "second"

def take (tab : Tab) (now : Nat) (rawToken : String) : SignupAct Tab :=
  .take tab { now, sessionId := "s1", rawToken }

def acts : List (SignupAct Tab) :=
  [take .registers 1000 "", take .registers 1000 "", take .registers 1000 "",
    take .registers 1001 "first", take .resends 2000 "", take .resends 2000 "",
    take .resends 2001 "second", take .opens 3000 "", take .opens 3000 "", take .opens 3000 "",
    take .reopens 3001 "", take .opens 3001 ""]

def start : SignupTxs Tab := { db := {} }

/-- `TakesTurns`, as a test. -/
def isTurn (s : SignupTxs Tab) : SignupAct Tab → Bool
  | .take t w =>
      match s.phase t with
      | .unverified userId _ =>
          [Tab.registers, .resends, .opens, .reopens].all fun u =>
            (s.phase u).sends.all (·.1 ≠ userId)
      | .sending _ _ since _ => since ≤ w.now
      | _ => true
  | _ => true

theorem takesTurns_of_isTurn (s : SignupTxs Tab) (a : SignupAct Tab) (h : isTurn s a = true) :
    s.TakesTurns a := by
  cases a with
  | stop t => trivial
  | elsewhere st w => trivial
  | take t w =>
    constructor
    · intro userId email hphase u since hsends
      simp only [isTurn, hphase, List.all_eq_true] at h
      have hu := h u (by cases u <;> simp)
      rw [hsends] at hu
      exact absurd hu (by simp)
    · intro userId since hsends
      cases hphase : s.phase t with
      | sending userId' email since' response =>
        rw [hphase] at hsends
        obtain ⟨-, rfl⟩ := Prod.mk.inj (Option.some.inj hsends)
        simp only [isTurn, hphase] at h
        exact of_decide_eq_true h
      | _ =>
        rw [hphase] at hsends
        exact absurd hsends (by simp [SignupPhase.sends])

def after : SignupTxs Tab :=
  (Machine.replay (SignupTxs.step Alice.site calls) isTurn acts start).getD start

theorem run_after :
    Machine.Runs (SignupTxs.step Alice.site calls) SignupTxs.TakesTurns start acts after :=
  (@Machine.runs_of_replay _ _ (SignupTxs.step Alice.site calls) isTurn acts start after rfl).imp
    takesTurns_of_isTurn

theorem verification_tokens_single_use_bob :
    ["sha256:second"].Nodup ∧ ∀ r ∈ [("sha256:second", 1, 3000)], after.Redeemed r :=
  verification_tokens_single_use Alice.site calls (run_after.imp fun _ _ _ => trivial)

theorem verified_by_mail_bob :
    (∀ m ∈ mails after.trace, m.userId = 1 → m.email = "bob@shop.example") ∧
      (after.db.Verified 1 → ∃ newer t' tokenHash checked older,
        after.trace = newer ++ .redeemed t' tokenHash 1 checked :: older ∧
          ∃ m ∈ mails older, m.userId = 1 ∧ m.tokenHash = tokenHash) :=
  verified_by_mail Alice.site calls (fun _ _ hrow => absurd hrow (by simp))
    (run_after.imp fun _ _ _ => trivial) .registers 1 "bob@shop.example"
    (List.mem_cons_of_mem _ (List.mem_cons_of_mem _ (List.mem_cons_of_mem _ List.mem_cons_self)))

theorem verification_mails_limited_bob :
    (within SentToken.now 3600 0 [⟨1, "bob@shop.example", "sha256:second", 2001⟩,
      ⟨1, "bob@shop.example", "sha256:first", 1001⟩]).length ≤ 3 :=
  verification_mails_limited Alice.site calls run_after 1 0

end Bob

end OdooSemantic
