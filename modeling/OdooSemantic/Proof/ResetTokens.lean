import OdooSemantic.Proof.SecondFactor
import OdooSemantic.Proof.Statements
import OdooSemantic.Web.UserRoutes

/-!
# How often a reset token is accepted

`consume_password_reset_token` reads the row, checks it, and marks it with a second statement
that no longer asks what the row is. Two requests that have both read the row before either of
them marks it are both accepted, and a request that is slow enough marks a token that has expired
since.

`TokenGood` is what has to be true of the row when it is marked. Then no other statement of any
request can make a used token good again (`spent_effect`), and that is all there is to it.
-/

namespace OdooSemantic

open KeyedStore Threads

/-! ## The table -/

namespace AuthDb

/-- Every token that was created for a reset is under its own hash. -/
def TokensKeyed (db : AuthDb) : Prop :=
  ∀ key row h, db.emailVerifications.lookup key = some row → row.tokenHash = some h → key = h

/-- The token is there, and used. -/
structure Spent (db : AuthDb) (tokenHash : String) : Prop where
  mem : tokenHash ∈ db.emailVerifications
  used : ∀ key row, db.emailVerifications.lookup key = some row →
    row.tokenHash = some tokenHash → row.usedAt.isSome = true

end AuthDb

section Table

variable {w : RequestWorld} {db db' : AuthDb} {st : AuthStatement} {tokenHash : String}

/-- Marking tokens leaves them where they are. -/
structure Marks (db db' : AuthDb) : Prop where
  mem : ∀ key, key ∈ db.emailVerifications → key ∈ db'.emailVerifications
  row : ∀ key row', db'.emailVerifications.lookup key = some row' →
    ∃ row, db.emailVerifications.lookup key = some row ∧ row'.tokenHash = row.tokenHash ∧
      (row.usedAt.isSome = true → row'.usedAt.isSome = true)

theorem Marks.tokensKeyed (h : Marks db db') (hdb : db.TokensKeyed) : db'.TokensKeyed := by
  intro key row' tokenHash hrow' hhash
  obtain ⟨row, hrow, heq, -⟩ := h.row key row' hrow'
  exact hdb key row tokenHash hrow (heq.symm.trans hhash)

theorem Marks.spent (h : Marks db db') (hdb : db.Spent tokenHash) : db'.Spent tokenHash where
  mem := h.mem tokenHash hdb.mem
  used := by
    intro key row' hrow' hhash
    obtain ⟨row, hrow, heq, hused⟩ := h.row key row' hrow'
    exact hused (hdb.used key row hrow (heq.symm.trans hhash))

theorem marks_of_eq (h : db'.emailVerifications = db.emailVerifications) : Marks db db' where
  mem := fun _ hmem => by rw [h]; exact hmem
  row := fun key row hrow => ⟨row, by rw [← h]; exact hrow, rfl, id⟩

theorem marks_markUsed {token : String} {now : Nat}
    (h : db'.emailVerifications = (db.markUsed token now).emailVerifications) : Marks db db' := by
  have hlookup : ∀ key, db'.emailVerifications.lookup key = if key = token then
      (db.emailVerifications.lookup token).map fun v => { v with usedAt := some now }
      else db.emailVerifications.lookup key := by
    intro key
    rw [h]
    exact lookup_modify token key _ _
  constructor
  · intro key hmem
    rw [← AList.lookup_isSome] at hmem ⊢
    rw [hlookup]
    split
    · rename_i heq
      rw [Option.isSome_map]
      exact heq ▸ hmem
    · exact hmem
  · intro key row' hrow'
    rw [hlookup] at hrow'
    split at hrow'
    · rename_i heq
      obtain ⟨row, hrow, rfl⟩ := Option.map_eq_some_iff.mp hrow'
      exact ⟨row, heq ▸ hrow, rfl, fun _ => rfl⟩
    · exact ⟨row', hrow', rfl, id⟩

theorem of_resetToken {key : String} {row : EmailVerification}
    (h : db.resetToken tokenHash = some (key, row)) :
    db.emailVerifications.lookup key = some row ∧ row.tokenHash = some tokenHash := by
  obtain ⟨hlookup, hfits⟩ := of_findWhere h
  rw [Bool.and_eq_true] at hfits
  exact ⟨hlookup, of_decide_eq_true hfits.1⟩

theorem lookup_consumeToken (now : Nat) (key : String) :
    (db.consumeToken tokenHash now).emailVerifications.lookup key =
      (db.emailVerifications.lookup key).map fun v =>
        if v.tokenHash = some tokenHash then { v with usedAt := some now } else v := by
  unfold AuthDb.consumeToken
  rw [lookup_modifyWhere]
  simp

theorem marks_consumeToken {now : Nat}
    (h : db'.emailVerifications = (db.consumeToken tokenHash now).emailVerifications) :
    Marks db db' := by
  constructor
  · intro key hmem
    rw [← AList.lookup_isSome] at hmem ⊢
    rw [h, lookup_consumeToken, Option.isSome_map]
    exact hmem
  · intro key row' hrow'
    rw [h, lookup_consumeToken] at hrow'
    obtain ⟨row, hrow, rfl⟩ := Option.map_eq_some_iff.mp hrow'
    refine ⟨row, hrow, ?_⟩
    split
    · exact ⟨rfl, fun _ => rfl⟩
    · exact ⟨rfl, id⟩

/-- A token that has been consumed is used. -/
theorem spent_consumeToken {now : Nat} (h : tokenHash ∈ db.emailVerifications) :
    (db.consumeToken tokenHash now).Spent tokenHash where
  mem := (marks_consumeToken rfl).mem tokenHash h
  used := by
    intro key row' hrow' hhash
    rw [lookup_consumeToken] at hrow'
    obtain ⟨row, -, rfl⟩ := Option.map_eq_some_iff.mp hrow'
    split
    · rfl
    · rename_i hne
      rw [if_neg hne] at hhash
      exact absurd hhash hne

theorem tokensKeyed_effect (h : TokenEffect w db st db') (hdb : db.TokensKeyed) :
    db'.TokensKeyed := by
  cases h with
  | none h => exact (marks_of_eq h).tokensKeyed hdb
  | verify h => exact (marks_markUsed h).tokensKeyed hdb
  | consume h => exact (marks_consumeToken h).tokensKeyed hdb
  | @create userId expiresAt token _ h =>
    obtain ⟨-, rfl⟩ := of_insertResetToken h
    intro key row hash hrow hhash
    dsimp only at hrow
    by_cases heq : key = token
    · subst heq
      rw [AList.lookup_insert] at hrow
      obtain rfl := Option.some.inj hrow
      exact Option.some.inj hhash
    · rw [AList.lookup_insert_ne heq] at hrow
      exact hdb key row hash hrow hhash

/-- **Nothing makes a used token good again.** -/
theorem spent_effect (h : TokenEffect w db st db') (hspent : db.Spent tokenHash) :
    db'.Spent tokenHash := by
  cases h with
  | none h => exact (marks_of_eq h).spent hspent
  | verify h => exact (marks_markUsed h).spent hspent
  | consume h => exact (marks_consumeToken h).spent hspent
  | @create userId expiresAt token _ h =>
    obtain ⟨hfree, rfl⟩ := of_insertResetToken h
    refine ⟨(AList.mem_insert _).mpr (Or.inr hspent.mem), fun key row hrow hhash => ?_⟩
    dsimp only at hrow
    by_cases heq : key = token
    · subst heq
      rw [AList.lookup_insert] at hrow
      obtain rfl := Option.some.inj hrow
      -- the key is taken by the used token, so it cannot be created once more
      exact absurd (Option.some.inj hhash ▸ hspent.mem) hfree
    · rw [AList.lookup_insert_ne heq] at hrow
      exact hspent.used key row hrow hhash

end Table

/-! ## Every run -/

section Runs

variable {T : Type} {d : Deployment} {calls : T → WebCall}

/-- At this step a call of `consume_password_reset_token` comes to return the user of the token. -/
def Accepts (d : Deployment) (token : String) (e : WebEntry T) : Prop :=
  e.label = .consumeToken (d.sha256 token) ∧ e.input.answers .consumeToken = .applied

/-- **When a token is marked and the call returns, its row is still unused, and not expired.** -/
def TokenGood (p : WebPool T) : Act T RequestWorld → Prop
  | .begin _ => True
  | .take t w => ∀ tokenHash, p.next t = some (.consumeToken tokenHash) →
      w.answers .consumeToken = .applied →
      ∃ key row, p.state.resetToken tokenHash = some (key, row) ∧ row.usedAt = none ∧
        w.now ≤ row.expiresAt

/-- What every such run keeps. -/
structure SingleUse (d : Deployment) (p : WebPool T) : Prop where
  keyed : p.state.TokensKeyed
  spent : ∀ e ∈ p.trace, ∀ token, Accepts d token e → p.state.Spent (d.sha256 token)
  once : ∀ newer e older token, p.trace = newer ++ e :: older → Accepts d token e →
    (∀ e' ∈ older, ¬Accepts d token e') ∧
      ∀ key row, e.before.resetToken (d.sha256 token) = some (key, row) →
        e.input.now ≤ row.expiresAt

variable [DecidableEq T]

theorem singleUse_step {p p' : WebPool T} {a : Act T RequestWorld}
    (hstep : WebPool.step d calls p a = some p') (hgood : TokenGood p a) (h : SingleUse d p) :
    SingleUse d p' := by
  cases a with
  | begin t =>
    obtain ⟨-, rfl⟩ := Pool.step_begin hstep
    exact ⟨h.keyed, h.spent, h.once⟩
  | take t w =>
    obtain ⟨st, next, ht, rfl⟩ := Pool.step_take hstep
    have heffect := tokenEffect st w p.state
    have hnext : p.next t = some st := by rw [WebPool.next, ht]
    -- the row that an accepting step has before it
    have hrow : ∀ token, Accepts d token (⟨t, st, w, p.state⟩ : WebEntry T) → ∃ key row,
        p.state.resetToken (d.sha256 token) = some (key, row) ∧ row.usedAt = none ∧
          w.now ≤ row.expiresAt :=
      fun token haccepts => hgood _ (hnext.trans (congrArg some haccepts.1)) haccepts.2
    refine ⟨tokensKeyed_effect heffect h.keyed, fun e he token haccepts => ?_,
      fun newer e older token heq haccepts => ?_⟩
    · cases List.mem_cons.mp he with
      | inr hold => exact spent_effect heffect (h.spent e hold token haccepts)
      | inl hnew =>
        subst hnew
        obtain ⟨key, row, hreset, -, -⟩ := hrow token haccepts
        obtain ⟨hlookup, hhash⟩ := of_resetToken hreset
        obtain rfl : key = d.sha256 token := h.keyed key row _ hlookup hhash
        have hmem : d.sha256 token ∈ p.state.emailVerifications :=
          AList.lookup_isSome.mp (by rw [hlookup]; rfl)
        obtain ⟨hst, hanswer⟩ := haccepts
        dsimp only at hst hanswer
        subst hst
        have hafter : AuthStatement.effect (.consumeToken (d.sha256 token)) w p.state =
            p.state.consumeToken (d.sha256 token) w.now := by
          simp [AuthStatement.effect, AuthStatement.exec, AuthStatement.query,
            AuthStatement.target, RequestWorld.insert, RequestWorld.write, hanswer, DbAnswer.write]
        show (AuthStatement.effect _ w p.state).Spent _
        rw [hafter]
        exact spent_consumeToken hmem
    · cases append_of_cons_eq heq with
      | inr hold =>
        obtain ⟨newer', -, htrace⟩ := hold
        exact h.once newer' e older token htrace haccepts
      | inl hnew =>
        obtain ⟨-, rfl, rfl⟩ := hnew
        obtain ⟨key, row, hreset, hunused, hlive⟩ := hrow token haccepts
        refine ⟨fun e' he' haccepts' => ?_, fun key' row' hreset' => ?_⟩
        · obtain ⟨hlookup, hhash⟩ := of_resetToken hreset
          have hused := (h.spent e' he' token haccepts').used key row hlookup hhash
          exact absurd hused (by simp [hunused])
        · obtain ⟨-, rfl⟩ := Prod.mk.inj (Option.some.inj (hreset'.symm.trans hreset))
          exact hlive

/-- **Reset tokens are single-use**, in every run in which each token that is accepted is good when
    it is marked: no call has accepted it before, and it has not expired. -/
theorem reset_tokens_single_use (d : Deployment) (calls : T → WebCall) {db : AuthDb}
    (hkeyed : db.TokensKeyed) {acts : List (Act T RequestWorld)} {p : WebPool T}
    (hrun : Machine.Runs (WebPool.step d calls) TokenGood { state := db } acts p) :
    ∀ newer e older token, p.trace = newer ++ e :: older → Accepts d token e →
      (∀ e' ∈ older, ¬Accepts d token e') ∧
        ∀ key row, e.before.resetToken (d.sha256 token) = some (key, row) →
          e.input.now ≤ row.expiresAt := by
  have h : SingleUse d p := by
    refine hrun.invariant (fun _ _ _ hstep hgood h => singleUse_step hstep hgood h) ?_
    exact ⟨hkeyed, fun _ he => absurd he (by simp), fun newer _ _ _ heq => by simp at heq⟩
  exact h.once

end Runs

/-! ## Two browsers with one link -/

namespace ResetLink

def db : AuthDb where
  users := AList.insert 7 Alice.alice ∅
  emailVerifications := AList.insert "sha256:link"
    { userId := 7, purpose := .passwordReset, tokenHash := some "sha256:link", expiresAt := 4600 } ∅

def calls : Bool → WebCall := fun _ => ⟨{}, .auth (.resetPassword "link" "a new password")⟩

def at' (now : Nat) : RequestWorld := { now, sessionId := "" }

/-- The second browser comes when the first has been served. -/
def inTurn : List (Act Bool RequestWorld) :=
  [.begin false, .take false (at' 1000), .take false (at' 1000), .begin true, .take true (at' 1001)]

/-- Both have read the row before either marks it. -/
def together : List (Act Bool RequestWorld) :=
  [.begin false, .begin true, .take false (at' 1000), .take true (at' 1000),
    .take false (at' 1000), .take true (at' 1000)]

/-- The request is held up until the token has expired. -/
def late : List (Act Bool RequestWorld) :=
  [.begin false, .take false (at' 4600), .take false (at' 4601)]

def after (acts : List (Act Bool RequestWorld)) : WebPool Bool :=
  (Machine.replay (WebPool.step Alice.site calls) (fun _ _ => true) acts { state := db }).getD
    { state := db }

theorem run_after {acts : List (Act Bool RequestWorld)} {p : WebPool Bool}
    (h : Machine.replay (WebPool.step Alice.site calls) (fun _ _ => true) acts { state := db } =
      some p) :
    Machine.Runs (WebPool.step Alice.site calls) (fun _ _ => True) { state := db } acts
      (after acts) :=
  Machine.runs_getD h _

theorem tokensKeyed : db.TokensKeyed := by
  intro key row h hrow hhash
  by_cases heq : key = "sha256:link"
  · subst heq
    obtain rfl := Option.some.inj hrow
    exact Option.some.inj hhash
  · unfold db at hrow
    rw [AList.lookup_insert_ne heq] at hrow
    exact absurd hrow (by simp)

/-- `TokenGood`, as a test. -/
def isGood (p : WebPool Bool) : Act Bool RequestWorld → Bool
  | .begin _ => true
  | .take t w =>
      match p.next t with
      | some (.consumeToken tokenHash) =>
          (p.state.resetToken tokenHash).any fun row =>
            row.2.usedAt = none && w.now ≤ row.2.expiresAt
      | _ => true

theorem tokenGood_of_isGood (p : WebPool Bool) (a : Act Bool RequestWorld)
    (h : isGood p a = true) : TokenGood p a := by
  cases a with
  | begin t => trivial
  | take t w =>
    intro tokenHash hnext _
    simp only [isGood, hnext] at h
    obtain ⟨⟨key, row⟩, hrow, hfits⟩ := (Option.any_eq_true _ _).mp h
    rw [Bool.and_eq_true] at hfits
    exact ⟨key, row, hrow, of_decide_eq_true hfits.1, of_decide_eq_true hfits.2⟩

/-- The read of the first browser. -/
def reads : WebEntry Bool := ⟨false, .select .verification, at' 1000, db⟩

theorem reset_tokens_single_use_inTurn :
    (∀ e ∈ [reads], ¬Accepts Alice.site "link" e) ∧
      ∀ key row, db.resetToken "sha256:link" = some (key, row) → 1000 ≤ row.expiresAt :=
  reset_tokens_single_use Alice.site calls tokensKeyed
    ((@Machine.runs_of_replay _ _ (WebPool.step Alice.site calls) isGood inTurn
      { state := db } (after inTurn) rfl).imp tokenGood_of_isGood)
    [⟨true, .select .verification, at' 1001, (after inTurn).state⟩]
    ⟨false, .consumeToken "sha256:link", at' 1000, db⟩ [reads] "link" rfl ⟨rfl, rfl⟩

/-- **One token, two new passwords**; and one that is accepted when it has expired. -/
theorem reset_token_accepted_twice :
    ¬(∀ acts (p : WebPool Bool),
      Machine.Runs (WebPool.step Alice.site calls) (fun _ _ => True) { state := db } acts p →
        ∀ newer e older, p.trace = newer ++ e :: older → Accepts Alice.site "link" e →
          ∀ e' ∈ older, ¬Accepts Alice.site "link" e') ∧
    ¬(∀ acts (p : WebPool Bool),
      Machine.Runs (WebPool.step Alice.site calls) (fun _ _ => True) { state := db } acts p →
        ∀ newer e older, p.trace = newer ++ e :: older → Accepts Alice.site "link" e →
          ∀ key row, e.before.resetToken "sha256:link" = some (key, row) →
            e.input.now ≤ row.expiresAt) := by
  constructor
  · intro h
    exact h together _ (run_after rfl) []
      ⟨true, .consumeToken "sha256:link", at' 1000, db.consumeToken "sha256:link" 1000⟩ _ rfl
      ⟨rfl, rfl⟩ ⟨false, .consumeToken "sha256:link", at' 1000, db⟩ List.mem_cons_self ⟨rfl, rfl⟩
  · intro h
    have hlate := h late _ (run_after rfl) [] ⟨false, .consumeToken "sha256:link", at' 4601, db⟩ _
      rfl ⟨rfl, rfl⟩ "sha256:link" _ rfl
    exact absurd hlate (by decide)

end ResetLink

end OdooSemantic
