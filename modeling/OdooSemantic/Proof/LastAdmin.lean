import OdooSemantic.Db.UserRegistry
import OdooSemantic.Lib.Machine
import OdooSemantic.Lib.Threads

/-!
# Whether an admin is left

A call that takes an admin away counts the others first, and keeps its own row locked until it
commits. The rows it has counted are not locked. So two calls may each count the admin that the
other is about to take away (`CountStale`); and `delete_user` does not count.

`step_moves` says once what a step can do, and the invariants are read off it.
-/

namespace OdooSemantic

open KeyedStore

/-! ## Admins -/

namespace AuthDb

/-- An active admin who is somebody else. -/
def HasOtherAdmin (db : AuthDb) (userId : Nat) : Prop :=
  ∃ v, v ≠ userId ∧ db.isActiveAdmin v = true

/-- Whoever this is, they are no admin. -/
def NoAdmin (db : AuthDb) (userId : Nat) : Prop :=
  ∀ user, db.users.lookup userId = some user → user.isAdmin = false

/-- Only this row has changed, and it has not come into being. -/
structure ChangesRow (userId : Nat) (db db' : AuthDb) : Prop where
  others : ∀ v, v ≠ userId → db'.users.lookup v = db.users.lookup v
  absent : db.users.lookup userId = none → db'.users.lookup userId = none

variable {db db' : AuthDb} {u v : Nat}

theorem isActiveAdmin_mem (h : db.isActiveAdmin v = true) : v ∈ db.users := by
  obtain ⟨user, huser, -⟩ := (Option.any_eq_true _ _).mp h
  exact AList.lookup_isSome.mp (by rw [huser]; rfl)

theorem otherAdmins_ne_zero_iff : db.otherAdmins u ≠ 0 ↔ db.HasOtherAdmin u := by
  unfold otherAdmins HasOtherAdmin
  rw [Nat.ne_zero_iff_zero_lt, List.length_pos_iff_exists_mem]
  refine exists_congr fun v => ?_
  rw [List.mem_filter, Bool.and_eq_true, decide_eq_true_eq]
  exact ⟨And.right, fun h => ⟨AList.mem_keys.mp (isActiveAdmin_mem h.2), h⟩⟩

theorem ChangesRow.isActiveAdmin (h : ChangesRow u db db') (hv : v ≠ u) :
    db'.isActiveAdmin v = db.isActiveAdmin v := by
  unfold AuthDb.isActiveAdmin
  rw [h.others v hv]

theorem ChangesRow.mem (h : ChangesRow u db db') (hv : v ∈ db'.users) : v ∈ db.users := by
  rw [← AList.lookup_isSome] at hv ⊢
  by_cases heq : v = u
  · subst heq
    rw [← Option.ne_none_iff_isSome] at hv ⊢
    exact fun hnone => hv (h.absent hnone)
  · rw [← h.others v heq]
    exact hv

theorem HasOtherAdmin.changesRow (h : db.HasOtherAdmin u) (hrow : ChangesRow u db db') :
    db'.HasOtherAdmin u := by
  obtain ⟨v, hv, hadmin⟩ := h
  exact ⟨v, hv, (hrow.isActiveAdmin hv).trans hadmin⟩

theorem changesRow_updateUser (f : WebuiUser → WebuiUser) :
    ChangesRow u db (db.updateUser u f) where
  others := fun v hv => lookup_modify_ne hv f _
  absent := fun hnone => (lookup_modify_self u f _).trans (by rw [hnone]; rfl)

theorem changesRow_eraseUser : ChangesRow u db (db.eraseUser u) where
  others := fun _ hv => AList.lookup_erase_ne hv
  absent := fun _ => AList.lookup_erase u _

theorem NoAdmin.not_isActiveAdmin (h : db.NoAdmin u) : db.isActiveAdmin u = false := by
  unfold AuthDb.isActiveAdmin
  cases huser : db.users.lookup u with
  | none => rfl
  | some user => simp [h user huser]

/-- Switching a flag on takes nobody away. -/
theorem isActiveAdmin_updateUser {f : WebuiUser → WebuiUser}
    (hf : ∀ user, user.isAdmin = true → user.isActive = true →
      (f user).isAdmin = true ∧ (f user).isActive = true) (h : db.isActiveAdmin u = true) :
    (db.updateUser u f).isActiveAdmin u = true := by
  obtain ⟨user, huser, hflags⟩ := (Option.any_eq_true _ _).mp h
  rw [Bool.and_eq_true] at hflags
  have hlookup : (db.updateUser u f).users.lookup u = some (f user) :=
    (lookup_modify_self u f _).trans (by rw [huser]; rfl)
  unfold AuthDb.isActiveAdmin
  rw [hlookup]
  obtain ⟨hadmin, hactive⟩ := hf user hflags.1 hflags.2
  simp [hadmin, hactive]

end AuthDb

/-! ## Calls -/

namespace UserCall

/-- The user that the call takes a flag from. -/
def takes : UserCall → Option Nat
  | setUserActive userId false | setUserAdmin userId false => some userId
  | _ => none

/-- The row that the call locks. -/
def target : UserCall → Option Nat
  | setUserActive userId _ | setUserAdmin userId _ => some userId
  | deleteUser _ => none

theorem target_of_takes {c : UserCall} {u : Nat} (h : c.takes = some u) : c.target = some u := by
  cases c with
  | setUserActive userId isActive =>
    cases isActive with
    | false => exact h
    | true => exact absurd h (by simp [takes])
  | setUserAdmin userId isAdmin =>
    cases isAdmin with
    | false => exact h
    | true => exact absurd h (by simp [takes])
  | deleteUser username => exact absurd h (by simp [takes])

end UserCall

/-- The transaction has begun, and has not ended. -/
def UserPhase.isOpen : UserPhase → Bool
  | locked _ | counted | updated => true
  | begun | done _ => false

/-- `LastAdminProtectedError`, `UserNotFoundError` -/
def UserPhase.isRefused : UserPhase → Bool
  | done .lastAdminProtected | done .userNotFound => true
  | _ => false

/-! ## What a step can do -/

section Moves

variable {T : Type} [DecidableEq T]

/-- **What a step can do.** -/
inductive UserMove (calls : T → UserCall) (s : UserTxs T) (t : T) (answer : DbAnswer) :
    UserTxs T → Prop
  | ended {outcome : UserOutcome} : UserMove calls s t answer (s.finish t outcome)
  | locked {u : Nat} {guarded : Bool} (htarget : (calls t).target = some u)
      (hphase : s.phase t = .begun) (hfree : s.isFree t u = true)
      (hguarded : guarded = false → s.db.NoAdmin u) :
      UserMove calls s t answer ((s.lock t u).become t (.locked guarded))
  | counted {u : Nat} (htakes : (calls t).takes = some u) (hopen : (s.phase t).isOpen = true)
      (hcount : s.db.otherAdmins u ≠ 0) :
      UserMove calls s t answer { s.become t .counted with trace := .counted t :: s.trace }
  | updated {u : Nat} (htarget : (calls t).target = some u) (hfree : s.isFree t u = true)
      (hphase : s.phase t = .begun ∧ (calls t).takes = none ∨ s.phase t = .locked false ∨
        s.phase t = .counted) :
      UserMove calls s t answer ((s.lock t u).become t .updated)
  | wrote {u : Nat} {db : AuthDb} {outcome : UserOutcome} (htarget : (calls t).target = some u)
      (hphase : s.phase t = .updated) (hanswer : answer ≠ .refused)
      (hoff : outcome = .returned ∨ outcome = .raised) (hrow : s.db.ChangesRow u db)
      (hkeeps : (calls t).takes = none → s.db.isActiveAdmin u = true → db.isActiveAdmin u = true) :
      UserMove calls s t answer ((s.write t u db).finish t outcome)
  | deleted {u : Nat} {user : WebuiUser} {username : String} {outcome : UserOutcome}
      (hcall : calls t = .deleteUser username) (hphase : s.phase t = .begun)
      (huser : s.db.userByName username = some (u, user)) (hfree : s.isFree t u = true)
      (hanswer : answer ≠ .refused) (hoff : outcome = .returned ∨ outcome = .raised) :
      UserMove calls s t answer ((s.write t u (s.db.eraseUser u)).finish t outcome)

variable {calls : T → UserCall} {s s' : UserTxs T} {t : T} {answer : DbAnswer} {u : Nat}

theorem moves_commit {db : AuthDb} (htarget : (calls t).target = some u)
    (hphase : s.phase t = .updated) (hrow : s.db.ChangesRow u db)
    (hkeeps : (calls t).takes = none → s.db.isActiveAdmin u = true →
      db.isActiveAdmin u = true) : UserMove calls s t answer (s.commit t u db answer) := by
  cases answer with
  | applied => exact .wrote htarget hphase (by simp) (Or.inl rfl) hrow hkeeps
  | refused => exact .ended
  | lost => exact .wrote htarget hphase (by simp) (Or.inr rfl) hrow hkeeps

theorem moves_count (htakes : (calls t).takes = some u) (hopen : (s.phase t).isOpen = true) :
    UserMove calls s t answer (s.count t u answer) := by
  unfold UserTxs.count
  split
  · exact .ended
  · exact .ended
  · rename_i n hne hread
    exact .counted htakes hopen fun hzero => hne ((DbAnswer.of_read hread).trans hzero)

theorem moves_forUpdate {guarded : Option WebuiUser → Bool} (htarget : (calls t).target = some u)
    (hphase : s.phase t = .begun)
    (hguarded : guarded (s.db.users.lookup u) = false → s.db.NoAdmin u)
    (h : s.forUpdate t u guarded answer = some s') : UserMove calls s t answer s' := by
  unfold UserTxs.forUpdate at h
  split at h
  · rename_i hfree
    split at h
    · obtain rfl := Option.some.inj h
      exact .ended
    · rename_i row hread
      obtain rfl := Option.some.inj h
      obtain rfl := DbAnswer.of_read hread
      exact .locked htarget hphase hfree hguarded
  · exact absurd h (by simp)

theorem moves_update {mustExist : Bool} (htarget : (calls t).target = some u)
    (hphase : s.phase t = .begun ∧ (calls t).takes = none ∨ s.phase t = .locked false ∨
      s.phase t = .counted)
    (h : s.update t u mustExist answer = some s') : UserMove calls s t answer s' := by
  unfold UserTxs.update at h
  split at h
  · rename_i hfree
    split at h
    · obtain rfl := Option.some.inj h
      exact .ended
    split at h
    · obtain rfl := Option.some.inj h
      exact .ended
    · obtain rfl := Option.some.inj h
      exact .updated htarget hfree hphase
  · exact absurd h (by simp)

/-- A call that takes no flag takes no admin. -/
theorem keeps_updateActive {db : AuthDb} {isActive : Bool}
    (h : (UserCall.setUserActive u isActive).takes = none) (hadmin : db.isActiveAdmin u = true) :
    (db.updateActive u isActive).isActiveAdmin u = true := by
  cases isActive with
  | true => exact AuthDb.isActiveAdmin_updateUser (fun _ hadmin _ => ⟨hadmin, rfl⟩) hadmin
  | false => exact absurd h (by simp [UserCall.takes])

theorem keeps_updateAdmin {db : AuthDb} {isAdmin : Bool}
    (h : (UserCall.setUserAdmin u isAdmin).takes = none) (hadmin : db.isActiveAdmin u = true) :
    (db.updateAdmin u isAdmin).isActiveAdmin u = true := by
  cases isAdmin with
  | true => exact AuthDb.isActiveAdmin_updateUser (fun _ _ hactive => ⟨rfl, hactive⟩) hadmin
  | false => exact absurd h (by simp [UserCall.takes])

theorem moves_setUserActive {isActive : Bool} (hcall : calls t = .setUserActive u isActive)
    (h : s.setUserActive t u isActive answer = some s') : UserMove calls s t answer s' := by
  have htarget : (calls t).target = some u := by rw [hcall]; rfl
  unfold UserTxs.setUserActive at h
  split at h
  · rename_i hphase
    exact moves_update htarget (Or.inl ⟨hphase, by rw [hcall]; rfl⟩) h
  · rename_i hphase
    refine moves_forUpdate htarget hphase (fun hguarded user huser => ?_) h
    simpa [huser] using hguarded
  · rename_i hphase
    obtain rfl := Option.some.inj h
    exact moves_count (by rw [hcall]; rfl) (by rw [hphase]; rfl)
  · rename_i hphase
    exact moves_update htarget (Or.inr (Or.inl hphase)) h
  · rename_i hphase
    exact moves_update htarget (Or.inr (Or.inr hphase)) h
  · rename_i hphase
    obtain rfl := Option.some.inj h
    exact moves_commit htarget hphase (AuthDb.changesRow_updateUser _) fun htakes =>
      keeps_updateActive (hcall ▸ htakes)
  · exact absurd h (by simp)

theorem moves_setUserAdmin {isAdmin : Bool} (hcall : calls t = .setUserAdmin u isAdmin)
    (h : s.setUserAdmin t u isAdmin answer = some s') : UserMove calls s t answer s' := by
  have htarget : (calls t).target = some u := by rw [hcall]; rfl
  unfold UserTxs.setUserAdmin at h
  split at h
  · rename_i hphase
    exact moves_update htarget (Or.inl ⟨hphase, by rw [hcall]; rfl⟩) h
  · rename_i hphase
    exact moves_forUpdate htarget hphase (fun hguarded => absurd hguarded (by simp)) h
  · rename_i hphase
    obtain rfl := Option.some.inj h
    exact moves_count (by rw [hcall]; rfl) (by rw [hphase]; rfl)
  · rename_i hphase
    exact moves_update htarget (Or.inr (Or.inr hphase)) h
  · rename_i hphase
    obtain rfl := Option.some.inj h
    exact moves_commit htarget hphase (AuthDb.changesRow_updateUser _)
      fun htakes => keeps_updateAdmin (hcall ▸ htakes)
  · exact absurd h (by simp)

theorem moves_deleteUser {username : String} (hcall : calls t = .deleteUser username)
    (hphase : s.phase t = .begun) (h : s.deleteUser t username answer = some s') :
    UserMove calls s t answer s' := by
  unfold UserTxs.deleteUser at h
  split at h
  · obtain rfl := Option.some.inj h
    exact .ended
  · rename_i u user huser
    split at h
    · rename_i hfree
      obtain rfl := Option.some.inj h
      cases answer with
      | applied => exact .deleted hcall hphase huser hfree (by simp) (Or.inl rfl)
      | refused => exact .ended
      | lost => exact .deleted hcall hphase huser hfree (by simp) (Or.inr rfl)
    · exact absurd h (by simp)

theorem step_moves {a : UserStep T} (h : s.step calls a = some s') :
    UserMove calls s a.thread a.answer s' := by
  unfold UserTxs.step at h
  split at h
  · exact moves_setUserActive ‹_› h
  · exact moves_setUserAdmin ‹_› h
  · rename_i username hcall
    split at h
    · exact moves_deleteUser hcall ‹_› h
    · exact absurd h (by simp)

/-- A call that has ended takes no step. -/
theorem phase_ne_done {a : UserStep T} (h : s.step calls a = some s') (outcome : UserOutcome) :
    s.phase a.thread ≠ .done outcome := by
  intro hdone
  unfold UserTxs.step at h
  split at h
  · rename_i isActive _
    cases isActive <;> simp [UserTxs.setUserActive, hdone] at h
  · rename_i isAdmin _
    cases isAdmin <;> simp [UserTxs.setUserAdmin, hdone] at h
  · simp [hdone] at h

end Moves

/-! ## Every run -/

section Runs

variable {T : Type}

/-- Since this call has counted, somebody else has taken an active admin away. -/
def CountStale (t : T) (trace : List (UserEvent T)) : Prop :=
  ∃ newer older t', trace = newer ++ .counted t :: older ∧ .wrote t' true ∈ newer

theorem countStale_cons {t : T} {e : UserEvent T} {trace : List (UserEvent T)}
    (h : CountStale t trace) : CountStale t (e :: trace) := by
  obtain ⟨newer, older, t', rfl, hmem⟩ := h
  exact ⟨e :: newer, older, t', rfl, List.mem_cons_of_mem _ hmem⟩

theorem countStale_of_wrote {t t' : T} {trace : List (UserEvent T)} (h : .counted t ∈ trace) :
    CountStale t (.wrote t' true :: trace) := by
  obtain ⟨newer, older, rfl⟩ := List.mem_iff_append.mp h
  exact ⟨.wrote t' true :: newer, older, t', rfl, List.mem_cons_self⟩

namespace UserTxs

/-- The call has counted, and if it has not been overtaken since, there is the other admin. -/
def Cleared (s : UserTxs T) (t : T) (userId : Nat) : Prop :=
  .counted t ∈ s.trace ∧ (¬CountStale t s.trace → s.db.HasOtherAdmin userId)

/-- What a call that takes a flag knows. -/
def Knows (s : UserTxs T) (t : T) (userId : Nat) : UserPhase → Prop
  | .locked false => s.db.NoAdmin userId
  | .counted => s.Cleared t userId
  | .updated => s.db.NoAdmin userId ∨ s.Cleared t userId
  | _ => True

variable [DecidableEq T] (calls : T → UserCall)

/-- **An admin is still there when one is taken away**: a commit that has been overtaken finds
    another one, and so does `delete_user`. -/
def StillCounted (s : UserTxs T) (a : UserStep T) : Prop :=
  a.answer ≠ .refused →
    (∀ u, (calls a.thread).takes = some u → s.phase a.thread = .updated →
      CountStale a.thread s.trace → s.db.otherAdmins u ≠ 0) ∧
    ∀ username u user, calls a.thread = .deleteUser username →
      s.db.userByName username = some (u, user) → s.db.isActiveAdmin u = true →
        s.db.otherAdmins u ≠ 0

/-- What every such run keeps. -/
structure Attended (s : UserTxs T) : Prop where
  admin : ∃ u, s.db.isActiveAdmin u = true
  holds : ∀ t u, (calls t).target = some u → (s.phase t).isOpen = true → u ∈ s.db.users →
    s.locks u = some t
  knows : ∀ t u, (calls t).takes = some u → s.Knows t u (s.phase t)
  written : ∀ t removes, .wrote t removes ∈ s.trace →
    s.phase t = .done .returned ∨ s.phase t = .done .raised

end UserTxs

section Step

variable {calls : T → UserCall} {s : UserTxs T} {t : T} {u : Nat}

@[simp] theorem db_lock : (s.lock t u).db = s.db := by
  unfold UserTxs.lock
  split <;> rfl

@[simp] theorem trace_lock : (s.lock t u).trace = s.trace := by
  unfold UserTxs.lock
  split <;> rfl

@[simp] theorem phase_lock : (s.lock t u).phase = s.phase := by
  unfold UserTxs.lock
  split <;> rfl

theorem knows_of_eq {s' : UserTxs T} {phase : UserPhase} (hdb : s'.db = s.db)
    (htrace : s'.trace = s.trace) (h : s.Knows t u phase) : s'.Knows t u phase := by
  unfold UserTxs.Knows UserTxs.Cleared at *
  rw [hdb, htrace]
  exact h

/-- What another call knows outlives a commit. -/
theorem knows_write {db : AuthDb} {t' : T} {v : Nat} (hrow : s.db.ChangesRow u db) (h : s.Knows t' v
    (s.phase t')) (hother : v = u → u ∉ s.db.users ∨ (s.phase t').isOpen = false) :
    (s.write t u db).Knows t' v (s.phase t') := by
  have hnoAdmin : (s.phase t').isOpen = true → s.db.NoAdmin v → db.NoAdmin v := by
    intro hopen hold user huser
    by_cases heq : v = u
    · subst heq
      cases hother rfl with
      | inl habsent =>
        rw [hrow.absent (AList.lookup_eq_none.mpr habsent)] at huser
        exact absurd huser (by simp)
      | inr hclosed => exact absurd (hopen.symm.trans hclosed) (by simp)
    · rw [hrow.others v heq] at huser
      exact hold user huser
  have hcleared : s.Cleared t' v → (s.write t u db).Cleared t' v := by
    rintro ⟨hcounted, hadmin⟩
    refine ⟨List.mem_cons_of_mem _ hcounted, fun hfresh => ?_⟩
    obtain ⟨x, hx, hactive⟩ := hadmin fun hstale => hfresh (countStale_cons hstale)
    refine ⟨x, hx, ?_⟩
    by_cases heq : x = u
    · subst heq
      -- otherwise this commit would have taken them away, and the count would be stale
      by_contra hgone
      refine hfresh ?_
      have hgone' : db.isActiveAdmin x = false := Bool.not_eq_true _ ▸ hgone
      have hremoves : (s.db.isActiveAdmin x && !db.isActiveAdmin x) = true := by
        rw [hactive, hgone']
        rfl
      show CountStale t' (.wrote t (s.db.isActiveAdmin x && !db.isActiveAdmin x) :: s.trace)
      rw [hremoves]
      exact countStale_of_wrote hcounted
    · exact (hrow.isActiveAdmin heq).trans hactive
  generalize hphase : s.phase t' = phase at h hnoAdmin ⊢
  unfold UserTxs.Knows at h ⊢
  split at h
  · exact hnoAdmin rfl h
  · exact hcleared h
  · exact h.imp (hnoAdmin rfl) hcleared
  · trivial

variable [DecidableEq T]

theorem phase_become (phase : UserPhase) (t' : T) :
    (s.become t phase).phase t' = if t' = t then phase else s.phase t' :=
  Function.update_apply _ _ _ _

/-- Nobody loses a lock to a call that has waited for it. -/
theorem locks_lock (h : s.Attended calls) (htarget : (calls t).target = some u)
    (hfree : s.isFree t u = true) {t' : T} {v : Nat} (htarget' : (calls t').target = some v)
    (hmem : v ∈ s.db.users) (hopen : t' = t ∨ (s.phase t').isOpen = true) :
    (s.lock t u).locks v = some t' := by
  unfold UserTxs.lock
  by_cases heq : v = u
  · subst heq
    rw [if_pos hmem]
    show Function.update s.locks v (some t) v = some t'
    rw [Function.update_self]
    rcases hopen with rfl | hopen
    · rfl
    · have hheld := h.holds t' v htarget' hopen hmem
      rw [UserTxs.isFree, hheld] at hfree
      exact congrArg some (of_decide_eq_true hfree).symm
  · have hother : (t' = t) = False := by
      refine eq_false ?_
      rintro rfl
      exact heq (Option.some.inj (htarget'.symm.trans htarget))
    rw [hother, false_or] at hopen
    split
    · show Function.update s.locks u (some t) v = some t'
      rw [Function.update_of_ne heq]
      exact h.holds t' v htarget' hopen hmem
    · exact h.holds t' v htarget' hopen hmem

/-- A call goes on, and nothing is committed. -/
theorem attended_become {s' : UserTxs T} (phase : UserPhase) (h : s.Attended calls)
    (hdb : s'.db = s.db) (hphase : s'.phase = (s.become t phase).phase)
    (hwrote : ∀ t' removes, .wrote t' removes ∈ s'.trace → .wrote t' removes ∈ s.trace)
    (hbegan : ∀ outcome, s.phase t ≠ .done outcome)
    (hlocks : ∀ t' v, (calls t').target = some v → t' ≠ t → (s.phase t').isOpen = true →
      v ∈ s.db.users → s'.locks v = some t')
    (hholds : ∀ v, (calls t).target = some v → phase.isOpen = true → v ∈ s.db.users →
      s'.locks v = some t)
    (hcleared : ∀ t' v, t' ≠ t → s.Cleared t' v → s'.Cleared t' v)
    (hknows : ∀ v, (calls t).takes = some v → s'.Knows t v phase) : s'.Attended calls := by
  have hphase' : ∀ t', s'.phase t' = if t' = t then phase else s.phase t' := by
    intro t'
    rw [hphase, phase_become]
  constructor
  · rw [hdb]
    exact h.admin
  · intro t' v htarget hopen hmem
    rw [hdb] at hmem
    rw [hphase'] at hopen
    split at hopen
    · rename_i heq
      subst heq
      exact hholds v htarget hopen hmem
    · exact hlocks t' v htarget ‹_› hopen hmem
  · intro t' v htakes
    rw [hphase']
    split
    · rename_i heq
      subst heq
      exact hknows v htakes
    · rename_i hne
      have hold := h.knows t' v htakes
      unfold UserTxs.Knows at hold ⊢
      split at hold
      · rw [hdb]
        exact hold
      · exact hcleared t' v hne hold
      · rw [hdb]
        exact hold.imp id (hcleared t' v hne)
      · trivial
  · intro t' removes hmem
    have hold := h.written t' removes (hwrote t' removes hmem)
    rw [hphase']
    split
    · rename_i heq
      subst heq
      exact absurd hold (not_or.mpr ⟨hbegan _, hbegan _⟩)
    · exact hold

theorem phase_finish {outcome : UserOutcome} (t' : T) :
    (s.finish t outcome).phase t' = if t' = t then .done outcome else s.phase t' :=
  Function.update_apply _ _ _ _

/-- The other calls keep their locks. -/
theorem locks_finish {outcome : UserOutcome} {t' : T} {v : Nat} (hne : t' ≠ t)
    (h : s.locks v = some t') : (s.finish t outcome).locks v = some t' := by
  show (s.locks v).filter (· ≠ t) = some t'
  rw [h, Option.filter_some, if_pos (decide_eq_true hne)]

theorem attended_finish {outcome : UserOutcome} (h : s.Attended calls)
    (hbegan : ∀ outcome, s.phase t ≠ .done outcome) : (s.finish t outcome).Attended calls :=
  attended_become (.done outcome) h rfl rfl (fun _ _ hmem => hmem) hbegan
    (fun t' v htarget hne hopen hmem => locks_finish hne (h.holds t' v htarget hopen hmem))
    (fun _ _ hopen => absurd hopen (by simp [UserPhase.isOpen])) (fun _ _ _ hcleared => hcleared)
    fun _ _ => trivial

/-- **A commit.** -/
theorem attended_write {db : AuthDb} {outcome : UserOutcome} (h : s.Attended calls)
    (hoff : outcome = .returned ∨ outcome = .raised) (hrow : s.db.ChangesRow u db)
    (hfree : u ∈ s.db.users → s.isFree t u = true)
    (hadmin : s.db.isActiveAdmin u = true → db.isActiveAdmin u = true ∨ s.db.HasOtherAdmin u) :
    ((s.write t u db).finish t outcome).Attended calls := by
  constructor
  · obtain ⟨v, hv⟩ := h.admin
    show ∃ v, db.isActiveAdmin v = true
    by_cases heq : v = u
    · subst heq
      cases hadmin hv with
      | inl hstays => exact ⟨v, hstays⟩
      | inr hothers =>
        obtain ⟨x, -, hx⟩ := hothers.changesRow hrow
        exact ⟨x, hx⟩
    · exact ⟨v, (hrow.isActiveAdmin heq).trans hv⟩
  · intro t' v htarget hopen hmem
    rw [phase_finish] at hopen
    split at hopen
    · exact absurd hopen (by simp [UserPhase.isOpen])
    · exact locks_finish ‹_› (h.holds t' v htarget hopen (hrow.mem hmem))
  · intro t' v htakes
    rw [phase_finish]
    split
    · trivial
    · rename_i hne
      refine knows_write hrow (h.knows t' v htakes) ?_
      rintro rfl
      by_cases hmem : v ∈ s.db.users
      · refine Or.inr ?_
        by_contra hopen
        rw [Bool.not_eq_false] at hopen
        have hheld := h.holds t' v (UserCall.target_of_takes htakes) hopen hmem
        have hfree := hfree hmem
        rw [UserTxs.isFree, hheld] at hfree
        exact hne (of_decide_eq_true hfree)
      · exact Or.inl hmem
  · intro t' removes hmem
    rw [phase_finish]
    cases List.mem_cons.mp hmem with
    | inl hnew =>
      obtain ⟨rfl, -⟩ := UserEvent.wrote.inj hnew
      rw [if_pos rfl]
      exact hoff.imp (congrArg _) (congrArg _)
    | inr hold =>
      split
      · exact hoff.imp (congrArg _) (congrArg _)
      · exact h.written t' removes hold

/-- A call that has the lock it has waited for. -/
theorem attended_lock {phase : UserPhase} (h : s.Attended calls)
    (htarget : (calls t).target = some u) (hfree : s.isFree t u = true)
    (hbegan : ∀ outcome, s.phase t ≠ .done outcome)
    (hknows : ∀ v, (calls t).takes = some v → s.Knows t v phase) :
    ((s.lock t u).become t phase).Attended calls := by
  refine attended_become phase h db_lock (by simp [UserTxs.become]) (fun _ _ hmem => ?_) hbegan
    (fun t' v htarget' _ hopen hmem => locks_lock h htarget hfree htarget' hmem (Or.inr hopen))
    (fun v htarget' _ hmem => locks_lock h htarget hfree htarget' hmem (Or.inl rfl))
    (fun t' v _ hcleared => ?_) fun v htakes => ?_
  · exact @trace_lock T s t u ▸ hmem
  · exact @knows_of_eq T s t' v _ .counted db_lock trace_lock hcleared
  · exact knows_of_eq db_lock trace_lock (hknows v htakes)

/-- The guard has found somebody. -/
theorem attended_count (h : s.Attended calls) (htakes : (calls t).takes = some u)
    (hopen : (s.phase t).isOpen = true) (hbegan : ∀ outcome, s.phase t ≠ .done outcome)
    (hcount : s.db.otherAdmins u ≠ 0) :
    UserTxs.Attended calls { s.become t .counted with trace := .counted t :: s.trace } := by
  refine attended_become .counted h rfl rfl (fun t' removes hmem => ?_) hbegan
    (fun t' v htarget _ hopen hmem => h.holds t' v htarget hopen hmem)
    (fun v htarget _ hmem => h.holds t v htarget hopen hmem) (fun t' v _ hcleared => ?_)
    fun v htakes' => ?_
  · exact (List.mem_cons.mp hmem).resolve_left (by simp)
  · exact ⟨List.mem_cons_of_mem _ hcleared.1,
      fun hfresh => hcleared.2 fun hstale => hfresh (countStale_cons hstale)⟩
  · obtain rfl := Option.some.inj (htakes.symm.trans htakes')
    exact ⟨List.mem_cons_self, fun _ => AuthDb.otherAdmins_ne_zero_iff.mp hcount⟩

theorem attended_step {s' : UserTxs T} {a : UserStep T} (hstep : s.step calls a = some s')
    (hcounted : s.StillCounted calls a) (h : s.Attended calls) : s'.Attended calls := by
  have hbegan := phase_ne_done hstep
  have hmoves := step_moves hstep
  obtain ⟨t, answer⟩ := a
  dsimp only at hbegan hmoves
  cases hmoves with
  | ended => exact attended_finish h hbegan
  | @locked u guarded htarget hphase hfree hguarded =>
    refine attended_lock h htarget hfree hbegan fun v htakes => ?_
    obtain rfl := Option.some.inj (htarget.symm.trans (UserCall.target_of_takes htakes))
    cases guarded with
    | false => exact hguarded rfl
    | true => trivial
  | counted htakes hopen hcount => exact attended_count h htakes hopen hbegan hcount
  | @updated u htarget hfree hphase =>
    refine attended_lock h htarget hfree hbegan fun v htakes => ?_
    have hold := h.knows t v htakes
    rcases hphase with ⟨-, hnone⟩ | hlocked | hphase
    · exact absurd (hnone.symm.trans htakes) (by simp)
    · rw [hlocked] at hold
      exact Or.inl hold
    · rw [hphase] at hold
      exact Or.inr hold
  | @wrote u db outcome htarget hphase hanswer hoff hrow hkeeps =>
    refine attended_write h hoff hrow (fun hmem => ?_) fun hadmin => ?_
    · have hheld := h.holds t u htarget (by rw [hphase]; rfl) hmem
      rw [UserTxs.isFree, hheld]
      exact decide_eq_true rfl
    cases htakes : (calls t).takes with
    | none => exact Or.inl (hkeeps htakes hadmin)
    | some v =>
      obtain rfl := Option.some.inj (htarget.symm.trans (UserCall.target_of_takes htakes))
      refine Or.inr ?_
      have hold := h.knows t u htakes
      rw [hphase] at hold
      cases hold with
      | inl hno => exact absurd (hadmin.symm.trans hno.not_isActiveAdmin) (by simp)
      | inr hcleared =>
        by_cases hstale : CountStale t s.trace
        · exact AuthDb.otherAdmins_ne_zero_iff.mp
            ((hcounted hanswer).1 u htakes hphase hstale)
        · exact hcleared.2 hstale
  | @deleted u user username outcome hcall hphase huser hfree hanswer hoff =>
    refine attended_write h hoff AuthDb.changesRow_eraseUser (fun _ => hfree) fun hadmin => ?_
    exact Or.inr (AuthDb.otherAdmins_ne_zero_iff.mp
      ((hcounted hanswer).2 username u user hcall huser hadmin))

/-- A step leaves the table alone, or is a commit. -/
theorem db_step {s' : UserTxs T} {a : UserStep T} (hstep : s.step calls a = some s') :
    s'.db = s.db ∨ ∃ removes, s'.trace = .wrote a.thread removes :: s.trace := by
  cases step_moves hstep with
  | ended => exact Or.inl rfl
  | locked => exact Or.inl db_lock
  | counted => exact Or.inl rfl
  | updated => exact Or.inl db_lock
  | wrote => exact Or.inr ⟨_, rfl⟩
  | deleted => exact Or.inr ⟨_, rfl⟩

/-- **An admin is left**, in every run in which no commit relies on a count that others have made
    untrue, and `delete_user` finds another admin; and a call that is refused has left the table
    alone. -/
theorem last_admin_left (calls : T → UserCall) {db : AuthDb}
    (hadmin : ∃ u, db.isActiveAdmin u = true) {steps : List (UserStep T)}
    (hrun : Machine.Runs (UserTxs.step calls) (UserTxs.StillCounted calls) { db } steps s) :
    (∃ u, s.db.isActiveAdmin u = true) ∧
    (∀ a s', s.step calls a = some s' →
      s'.db = s.db ∨ ∃ removes, s'.trace = .wrote a.thread removes :: s.trace) ∧
    ∀ t, (s.phase t).isRefused = true → ∀ removes, .wrote t removes ∉ s.trace := by
  have hstart : UserTxs.Attended calls ({ db } : UserTxs T) :=
    ⟨hadmin, fun _ _ _ hopen => absurd hopen (by simp [UserPhase.isOpen]), fun _ _ _ => trivial,
      fun _ _ hmem => absurd hmem (by simp)⟩
  have hend := hrun.invariant (fun _ _ _ hstep hcounted h => attended_step hstep hcounted h) hstart
  refine ⟨hend.admin, fun a s' hstep => db_step hstep, fun t hrefused removes hmem => ?_⟩
  cases hend.written t removes hmem with
  | inl hdone =>
    rw [hdone] at hrefused
    exact absurd hrefused (by simp [UserPhase.isRefused])
  | inr hdone =>
    rw [hdone] at hrefused
    exact absurd hrefused (by simp [UserPhase.isRefused])

end Step

end Runs

/-! ## A call on its own

Where nobody comes in the way, the transaction is the function of `UserRegistry`. -/

section Alone

variable {T : Type} [DecidableEq T] {calls : T → UserCall} {t : T} {u : Nat}

theorem isFree_lock {s : UserTxs T} (h : s.isFree t u = true) : (s.lock t u).isFree t u = true := by
  unfold UserTxs.isFree UserTxs.lock at *
  split
  · simp
  · exact h

/-- A statement of a call that nobody comes in the way of. -/
abbrev OwnStep (t : T) (_ : UserTxs T) (a : UserStep T) : Prop := a = { thread := t }

theorem step_update {s : UserTxs T} {isActive : Bool} (hcall : calls t = .setUserActive u isActive)
    (hfree : s.isFree t u = true)
    (hphase : isActive = true ∧ s.phase t = .begun ∨
      isActive = false ∧ (s.phase t = .locked false ∨ s.phase t = .counted)) :
    s.step calls { thread := t } = some ((s.lock t u).become t .updated) := by
  unfold UserTxs.step UserTxs.setUserActive
  dsimp only
  rw [hcall]
  dsimp only
  rcases hphase with ⟨rfl, h⟩ | ⟨rfl, h | h⟩ <;> simp [h, UserTxs.update, hfree]

theorem step_commit {s : UserTxs T} {isActive : Bool} (hcall : calls t = .setUserActive u isActive)
    (hphase : s.phase t = .updated) :
    s.step calls { thread := t } =
      some ((s.write t u (s.db.updateActive u isActive)).finish t .returned) := by
  unfold UserTxs.step UserTxs.setUserActive
  dsimp only
  rw [hcall]
  dsimp only
  rw [hphase]
  cases isActive <;> rfl

/-- From the `UPDATE` on. -/
theorem runs_update {s : UserTxs T} {isActive : Bool} (hcall : calls t = .setUserActive u isActive)
    (hfree : s.isFree t u = true)
    (hphase : isActive = true ∧ s.phase t = .begun ∨
      isActive = false ∧ (s.phase t = .locked false ∨ s.phase t = .counted)) :
    ∃ acts s', Machine.Runs (UserTxs.step calls) (OwnStep t) s acts s' ∧
      s'.db = s.db.updateActive u isActive ∧ s'.phase t = .done .returned := by
  have hdb : ((s.lock t u).become t .updated).db = s.db := db_lock
  refine ⟨_, _, .cons (step_update hcall hfree hphase) rfl
    (.cons (step_commit hcall (by rw [phase_become, if_pos rfl])) rfl (.nil _)), ?_, ?_⟩
  · show AuthDb.updateActive ((s.lock t u).become t .updated).db u isActive = _
    rw [hdb]
  · rw [phase_finish, if_pos rfl]

theorem step_forUpdate {s : UserTxs T} (hcall : calls t = .setUserActive u false)
    (hfree : s.isFree t u = true) (hphase : s.phase t = .begun) :
    s.step calls { thread := t } =
      some ((s.lock t u).become t (.locked ((s.db.users.lookup u).any (·.isAdmin)))) := by
  unfold UserTxs.step UserTxs.setUserActive
  dsimp only
  rw [hcall]
  dsimp only
  rw [hphase]
  simp [UserTxs.forUpdate, hfree, DbAnswer.read]

theorem step_count {s : UserTxs T} (hcall : calls t = .setUserActive u false)
    (hphase : s.phase t = .locked true) :
    s.step calls { thread := t } = some (s.count t u .applied) := by
  unfold UserTxs.step UserTxs.setUserActive
  dsimp only
  rw [hcall]
  dsimp only
  rw [hphase]

/-- **A call that nobody comes in the way of is `setUserActive`.** -/
theorem alone_setUserActive {s : UserTxs T} {isActive : Bool}
    (hcall : calls t = .setUserActive u isActive) (hphase : s.phase t = .begun)
    (hfree : s.isFree t u = true) :
    ∃ acts s', Machine.Runs (UserTxs.step calls) (OwnStep t) s acts s' ∧
      s'.db = (s.db.setUserActive u isActive).getD s.db ∧
      s'.phase t = .done (if (s.db.setUserActive u isActive).isSome then .returned
        else .lastAdminProtected) := by
  cases isActive with
  | true =>
    obtain ⟨acts, s', hrun, hdb, hdone⟩ := runs_update hcall hfree (Or.inl ⟨rfl, hphase⟩)
    exact ⟨acts, s', hrun, hdb, hdone⟩
  | false =>
    have hlock := step_forUpdate hcall hfree hphase
    have hdb : ((s.lock t u).become t
        (.locked ((s.db.users.lookup u).any (·.isAdmin)))).db = s.db := db_lock
    have hfree' : ((s.lock t u).become t
        (.locked ((s.db.users.lookup u).any (·.isAdmin)))).isFree t u = true := isFree_lock hfree
    have hlocked : ((s.lock t u).become t (.locked ((s.db.users.lookup u).any (·.isAdmin)))).phase
        t = .locked ((s.db.users.lookup u).any (·.isAdmin)) := by rw [phase_become, if_pos rfl]
    generalize ((s.lock t u).become t (.locked ((s.db.users.lookup u).any (·.isAdmin)))) = s₁ at *
    cases hadmin : (s.db.users.lookup u).any (·.isAdmin) with
    | false =>
      rw [hadmin] at hlocked
      obtain ⟨acts, s', hrun, hdb', hdone⟩ :=
        runs_update hcall hfree' (Or.inr ⟨rfl, Or.inl hlocked⟩)
      have hset : s.db.setUserActive u false = some (s.db.updateActive u false) := by
        simp [AuthDb.setUserActive, hadmin]
      rw [hset]
      exact ⟨_, s', .cons hlock rfl hrun, hdb'.trans (by rw [hdb]; rfl), hdone⟩
    | true =>
      rw [hadmin] at hlocked
      have hcount := step_count hcall hlocked
      cases hothers : s.db.otherAdmins u with
      | zero =>
        have hset : s.db.setUserActive u false = none := by
          simp [AuthDb.setUserActive, hadmin, hothers]
        have hrefused : s₁.count t u .applied = s₁.finish t .lastAdminProtected := by
          simp [UserTxs.count, DbAnswer.read, hdb, hothers]
        rw [hset]
        refine ⟨_, _, .cons hlock rfl (.cons hcount rfl (.nil _)), ?_, ?_⟩
        · rw [hrefused]
          exact hdb
        · rw [hrefused, phase_finish, if_pos rfl]
          rfl
      | succ n =>
        have hset : s.db.setUserActive u false = some (s.db.updateActive u false) := by
          simp [AuthDb.setUserActive, hothers]
        have hcounted : s₁.count t u .applied =
            { s₁.become t .counted with trace := .counted t :: s₁.trace } := by
          simp [UserTxs.count, DbAnswer.read, hdb, hothers]
        rw [hcounted] at hcount
        obtain ⟨acts, s', hrun, hdb', hdone⟩ := @runs_update _ _ calls t u
          { s₁.become t .counted with trace := .counted t :: s₁.trace } false hcall hfree'
          (Or.inr ⟨rfl, Or.inr (by simp [UserTxs.become])⟩)
        rw [hset]
        exact ⟨_, s', .cons hlock rfl (.cons hcount rfl hrun),
          hdb'.trans (congrArg (AuthDb.updateActive · u false) hdb), hdone⟩

end Alone

/-! ## Two admins -/

namespace TwoAdmins

def root : WebuiUser where
  username := "root"
  isAdmin := true

def deputy : WebuiUser where
  username := "deputy"
  isAdmin := true

def db : AuthDb where
  users := AList.insert 1 root (AList.insert 2 deputy ∅)

/-- Each of them deactivates the other. -/
def calls : Bool → UserCall
  | false => .setUserActive 1 false
  | true => .setUserActive 2 false

/-- `delete-webui-user`, for one and then the other. -/
def deletions : Bool → UserCall
  | false => .deleteUser "root"
  | true => .deleteUser "deputy"

def steps (threads : List Bool) : List (UserStep Bool) := threads.map fun t => { thread := t }

/-- The second call begins when the first has committed, and is refused. -/
def inTurn : List (UserStep Bool) := steps [false, false, false, false, true, true]

/-- Both count before either commits. -/
def together : List (UserStep Bool) :=
  steps [false, true, false, true, false, true, false, true]

def after (calls : Bool → UserCall) (acts : List (UserStep Bool)) : UserTxs Bool :=
  (Machine.replay (UserTxs.step calls) (fun _ _ => true) acts { db }).getD { db }

theorem run_after {calls : Bool → UserCall} {acts : List (UserStep Bool)} {s : UserTxs Bool}
    (h : Machine.replay (UserTxs.step calls) (fun _ _ => true) acts { db } = some s) :
    Machine.Runs (UserTxs.step calls) (fun _ _ => True) { db } acts s :=
  (Machine.runs_of_replay h).imp fun _ _ _ => trivial

/-- Nobody has committed, or there is somebody else. -/
def isCounted (s : UserTxs Bool) (a : UserStep Bool) : Bool :=
  s.trace.all fun e =>
    match e with
    | .wrote _ _ => s.phase a.thread ≠ .updated
    | .counted _ => true

theorem stillCounted_of_isCounted (s : UserTxs Bool) (a : UserStep Bool)
    (h : isCounted s a = true) : s.StillCounted calls a := by
  refine fun _ => ⟨fun u _ hphase hstale => ?_, fun username u user hcall => ?_⟩
  · obtain ⟨newer, older, t', htrace, hmem⟩ := hstale
    have hno := List.all_eq_true.mp h (.wrote t' true) (by rw [htrace]; simp [hmem])
    exact absurd hphase (of_decide_eq_true hno)
  · cases ht : a.thread <;> simp [calls, ht] at hcall

theorem admin_db : db.isActiveAdmin 1 = true := by decide

theorem last_admin_left_inTurn : (∃ u, (after calls inTurn).db.isActiveAdmin u = true) ∧
    ∀ removes, .wrote true removes ∉ (after calls inTurn).trace := by
  have h := last_admin_left calls ⟨1, admin_db⟩
    ((@Machine.runs_of_replay _ _ (UserTxs.step calls) isCounted inTurn { db } (after calls inTurn)
      rfl).imp stillCounted_of_isCounted)
  exact ⟨h.1, h.2.2 true rfl⟩

/-- **No admin is left**: each of two has counted the other, or both are deleted. -/
theorem no_admin_left :
    ¬(∀ acts s, Machine.Runs (UserTxs.step calls) (fun _ _ => True) { db } acts s →
      ∃ u, s.db.isActiveAdmin u = true) ∧
    ¬∀ acts s, Machine.Runs (UserTxs.step deletions) (fun _ _ => True) { db } acts s →
      ∃ u, s.db.isActiveAdmin u = true := by
  refine ⟨fun h => ?_, fun h => ?_⟩
  · obtain ⟨u, hu⟩ := h together (after calls together) (run_after rfl)
    have hkeys : ∀ v ∈ (after calls together).db.users.keys, v = 1 ∨ v = 2 := by decide
    rcases hkeys u (AList.mem_keys.mp (AuthDb.isActiveAdmin_mem hu)) with rfl | rfl <;>
      exact absurd hu (by decide)
  · obtain ⟨u, hu⟩ :=
      h (steps [false, true]) (after deletions (steps [false, true])) (run_after rfl)
    have hkeys : (after deletions (steps [false, true])).db.users.keys = [] := rfl
    have hmem := AList.mem_keys.mp (AuthDb.isActiveAdmin_mem hu)
    rw [hkeys] at hmem
    exact absurd hmem (by simp)

end TwoAdmins

end OdooSemantic
