import OdooSemantic.Lib.Exclusion
import OdooSemantic.Lib.Machine
import OdooSemantic.Web.Operations

/-!
# One restore at a time

A restore that finds the flag down when it sets it, and that nothing happens to before its thread
is started, has the flag up for as long as it runs, and nobody else runs meanwhile
(`restore_exclusive`). Where no database is configured for it there is no safety backup.

Neither of the two is checked. The flag is looked at before the upload and set after it, so two
uploads that overlap both come through, and the one that ends first clears the flag for the other
(`TwoUploads`). And any exception of the safety backup counts as a database that is not
configured.
-/

namespace OdooSemantic

namespace RestorePhase

/-- Between setting the flag and starting the thread. -/
def isPreparing : RestorePhase → Bool
  | entered | audited | dumpFailed | abandoned | backedUp _ => true
  | _ => false

/-- What the restore goes on with. -/
def backup : RestorePhase → Option SafetyBackup
  | backedUp b | started b | restoring b => some b
  | _ => none

end RestorePhase

namespace Restores

variable {T : Type} [DecidableEq T]

/-- Who sets the flag finds it down, and nothing is raised until the thread is started. -/
def Orderly (s : Restores T) (a : RestoreStep T) : Prop :=
  (s.phase a.thread = .uploaded → a.answer = .done → s.flag = false) ∧
    (a.answer = .raised → (s.phase a.thread).isPreparing = false)

/-- A restore of this thread is under way. -/
def Running (s : Restores T) (t : T) : Prop := (s.phase t).isRunning = true

/-! ## What a step can do -/

/-- **What a step can do to the flag.** -/
inductive Moves (s : Restores T) (a : RestoreStep T) (s' : Restores T) : Prop
  | stays {p : RestorePhase} (hphase : s'.phase = Function.update s.phase a.thread p)
      (hflag : s'.flag = s.flag) (hrunning : p.isRunning = (s.phase a.thread).isRunning)
      (hbackup : ∀ b, p.backup = some b → (s.phase a.thread).backup = some b ∨ b ≠ .skipped)
  | enters (hbefore : s.phase a.thread = .uploaded) (hanswer : a.answer = .done)
      (hphase : s'.phase = Function.update s.phase a.thread .entered) (hflag : s'.flag = true)
  | leaves {p : RestorePhase} (hbefore : s.Running a.thread)
      (hphase : s'.phase = Function.update s.phase a.thread p) (hflag : s'.flag = false)
      (hrunning : p.isRunning = false) (hbackup : p.backup = none)
  | strays (hanswer : a.answer = .raised) (hbefore : (s.phase a.thread).isPreparing = true)

variable {s s' : Restores T} {a : RestoreStep T}

/-- A step of a request that leaves the flag alone. -/
theorem moves_request {phase : RestorePhase}
    (hrunning : phase.isRunning = (s.phase a.thread).isRunning)
    (hbackup : ∀ b, phase.backup = some b → (s.phase a.thread).backup = some b ∨ b ≠ .skipped) :
    s.Moves a (s.request a.thread s.flag phase) :=
  .stays rfl rfl hrunning hbackup

theorem moves_triggerRestore (h : s.triggerRestore a.thread a.answer = some s') :
    s.Moves a s' := by
  unfold triggerRestore at h
  split at h
  case h_10 hphase hanswer =>
    obtain rfl := Option.some.inj h
    exact .enters hphase hanswer rfl rfl
  case h_18 hphase _ =>
    obtain rfl := Option.some.inj h
    exact .leaves (by rw [Running, hphase]; rfl) rfl rfl rfl rfl
  case h_11 hphase hanswer | h_16 hphase hanswer | h_17 hphase hanswer | h_19 hphase hanswer |
      h_21 _ hphase hanswer =>
    exact .strays hanswer (by rw [hphase]; rfl)
  case h_3 hphase _ =>
    -- turned away by the flag or let through; it stays as it is
    obtain rfl := Option.some.inj h
    refine moves_request ?_ ?_
    · cases s.flag <;> simp [hphase, RestorePhase.isRunning]
    · cases s.flag <;> simp [RestorePhase.backup]
  case h_23 => exact absurd h (by simp)
  all_goals
    rename_i hphase hanswer
    obtain rfl := Option.some.inj h
    refine moves_request ?_ ?_
    · simp [hphase, RestorePhase.isRunning]
    · simp [hphase, RestorePhase.backup]

theorem moves_runRestore (h : s.runRestore a.thread a.answer = some s') : s.Moves a s' := by
  unfold runRestore at h
  split at h
  case h_5 hphase _ | h_6 hphase _ =>
    obtain rfl := Option.some.inj h
    exact .leaves (by rw [Running, hphase]; rfl) rfl rfl rfl rfl
  case h_7 => exact absurd h (by simp)
  all_goals
    rename_i hphase _
    obtain rfl := Option.some.inj h
    exact .stays rfl rfl (by rw [hphase]; rfl) (by rw [hphase]; simp [RestorePhase.backup])

theorem step_moves (h : s.step a = some s') : s.Moves a s' := by
  unfold step at h
  split at h
  · exact moves_runRestore h
  · split at h
    · exact moves_triggerRestore h
    · exact absurd h (by simp)

/-! ## What every orderly step keeps -/

/-- The flag is up for one that runs, and nobody goes on with a backup that has failed. -/
structure Safe (s : Restores T) : Prop where
  guarded : Guarded s.Running s.flag
  backup : ∀ t b, (s.phase t).backup = some b → b ≠ .skipped

theorem running_update {p : RestorePhase} {t u : T}
    (hphase : s'.phase = Function.update s.phase t p) :
    s'.Running u ↔ u = t ∧ p.isRunning = true ∨ u ≠ t ∧ s.Running u := by
  unfold Running
  rw [hphase]
  by_cases hu : u = t
  · subst hu
    simp
  · simp [hu]

theorem backup_update {p : RestorePhase} {t : T}
    (hphase : s'.phase = Function.update s.phase t p) (h : s.Safe)
    (hp : ∀ b, p.backup = some b → b ≠ .skipped) (u : T) (b : SafetyBackup)
    (hb : (s'.phase u).backup = some b) : b ≠ .skipped := by
  rw [hphase] at hb
  by_cases hu : u = t
  · subst hu
    rw [Function.update_self] at hb
    exact hp b hb
  · rw [Function.update_of_ne hu] at hb
    exact h.backup u b hb

theorem safe_step (hstep : s.step a = some s') (hok : s.Orderly a) (h : s.Safe) : s'.Safe := by
  cases step_moves hstep with
  | @stays p hphase hflag hrunning hbackup =>
    refine ⟨?_, backup_update hphase h fun b hb => ?_⟩
    · rw [hflag]
      refine h.guarded.congr fun u => ?_
      rw [running_update hphase, hrunning]
      by_cases hu : u = a.thread
      · subst hu
        simp [Running]
      · simp [hu]
    · exact (hbackup b hb).elim (h.backup a.thread b) id
  | enters hbefore hanswer hphase hflag =>
    -- the flag is still down, so nobody has come in since it was looked at
    have hdown := hok.1 hbefore hanswer
    have hnobody : Guarded s.Running false := hdown ▸ h.guarded
    refine ⟨?_, backup_update hphase h fun b hb => absurd hb (by simp [RestorePhase.backup])⟩
    rw [hflag]
    refine hnobody.enter (t := a.thread) fun u => ?_
    rw [running_update hphase]
    by_cases hu : u = a.thread
    · simp [hu, RestorePhase.isRunning]
    · simp [hu]
  | @leaves p hbefore hphase hflag hrunning hbackup =>
    refine ⟨?_, backup_update hphase h fun b hb => absurd hb (by simp [hbackup])⟩
    -- one alone was inside, and takes the flag down for nobody else
    rw [hflag]
    refine h.guarded.leave hbefore fun u hu => ?_
    have hcases := (running_update hphase).mp hu
    rw [hrunning] at hcases
    simpa using hcases
  | strays hanswer hbefore =>
    exact absurd ((hok.2 hanswer).symm.trans hbefore) (by simp)

omit [DecidableEq T] in
theorem safe_start : ({} : Restores T).Safe where
  guarded := Guarded.nobody fun _ => by simp [Running, RestorePhase.isRunning]
  backup := fun _ _ hb => absurd hb (by simp [RestorePhase.backup])

end Restores

/-- **One restore at a time, the flag up while it runs, and nothing without its safety backup**,
    unless no database is configured; and all but three paths are closed meanwhile. -/
theorem restore_exclusive {T : Type} [DecidableEq T] {acts : List (RestoreStep T)} {s : Restores T}
    (hrun : Machine.Runs Restores.step Restores.Orderly {} acts s) :
    (∀ t u, s.Running t → s.Running u → t = u) ∧
    (s.flag = true ↔ ∃ t, s.Running t) ∧
    (∀ t b, s.phase t = .restoring b → b = .saved ∨ b = .noDsn) ∧
    ∀ path, s.maintenanceDispatch path = true ↔ (¬∃ t, s.Running t) ∨
      path = "/api/operations/restore" ∨ path = "/health" ∨ path = "/openapi.json" := by
  have h := hrun.invariant (fun _ _ _ hstep hok h => Restores.safe_step hstep hok h)
    Restores.safe_start
  refine ⟨h.guarded.unique, h.guarded.flag_iff, fun t b hphase => ?_, fun path => ?_⟩
  · have hb := h.backup t b (by rw [hphase]; rfl)
    cases b with
    | saved => exact Or.inl rfl
    | noDsn => exact Or.inr rfl
    | skipped => exact absurd rfl hb
  · rw [← h.guarded.flag_iff]
    simp [Restores.maintenanceDispatch, or_assoc]

/-! ## Uploads that overlap

Two requests, and a switch from one to the other only where a chunk is waited for. -/

namespace TwoUploads

instance (s : Restores Bool) (a : RestoreStep Bool) : Decidable (s.Orderly a) :=
  inferInstanceAs (Decidable (_ ∧ _))

def steps (t : Bool) (answers : List RestoreAnswer) : List (RestoreStep Bool) :=
  answers.map fun answer => { thread := t, answer }

/-- From the end of the upload to the subprocess. -/
def prepared : List RestoreAnswer := [.done, .done, .done, .done, .done, .done]

/-- The second comes when the first is through. -/
def inTurn : List (RestoreStep Bool) :=
  steps false (.done :: prepared ++ [.done, .done]) ++ steps true (.done :: prepared)

/-- Both look at the flag, and then both upload. -/
def overlapping : List (RestoreStep Bool) :=
  steps false [.done] ++ steps true [.done] ++ steps false prepared ++ steps true prepared

/-- The first of them ends. -/
def oneEnds : List (RestoreStep Bool) := overlapping ++ steps false [.done, .done]

/-- No database is configured. -/
def withoutDsn : List (RestoreStep Bool) :=
  steps false [.done, .done, .done, .done, .noDsn, .done, .done]

def after (acts : List (RestoreStep Bool)) : Restores Bool :=
  (Machine.replay Restores.step (fun _ _ => true) acts {}).getD {}

theorem run_after {acts : List (RestoreStep Bool)} {s : Restores Bool}
    (h : Machine.replay Restores.step (fun _ _ => true) acts {} = some s) :
    Machine.Runs Restores.step (fun _ _ => True) {} acts (after acts) :=
  Machine.runs_getD h _

/-- The second restore runs, and it is the only one. -/
theorem restore_exclusive_inTurn :
    (∀ t, (after inTurn).Running t → t = true) ∧ (after inTurn).flag = true ∧
      (after inTurn).maintenanceDispatch "/api/users" = false := by
  have h := restore_exclusive ((@Machine.runs_of_replay _ _ Restores.step
    (fun s a => decide (s.Orderly a)) inTurn {} (after inTurn) rfl).imp
    fun _ _ => of_decide_eq_true)
  have hruns : (after inTurn).Running true := rfl
  refine ⟨fun t ht => h.1 t true ht hruns, h.2.1.mpr ⟨true, hruns⟩, ?_⟩
  rw [← Bool.not_eq_true]
  refine mt (h.2.2.2 "/api/users").mp ?_
  rintro (hnobody | hpath)
  · exact hnobody ⟨true, hruns⟩
  · exact absurd hpath (by decide)

/-- **Two restores at once, one without the flag, and one without a safety backup.** -/
theorem restores_overlap :
    (¬∀ acts s, Machine.Runs Restores.step (fun _ _ => True) ({} : Restores Bool) acts s →
      ∀ t u, s.Running t → s.Running u → t = u) ∧
    (¬∀ acts s, Machine.Runs Restores.step (fun _ _ => True) ({} : Restores Bool) acts s →
      (s.flag = true ↔ ∃ t, s.Running t)) ∧
    ¬∀ acts s, Machine.Runs Restores.step (fun _ _ => True) ({} : Restores Bool) acts s →
      ∀ t b, s.phase t = .restoring b → b = .saved := by
  refine ⟨fun h => ?_, fun h => ?_, fun h => ?_⟩
  · exact absurd (h overlapping (after overlapping) (run_after rfl) false true rfl rfl) (by decide)
  · have hflag : (after oneEnds).flag = false := rfl
    have hup := (h oneEnds (after oneEnds) (run_after rfl)).mpr ⟨true, rfl⟩
    exact absurd (hflag.symm.trans hup) (by decide)
  · exact absurd (h withoutDsn (after withoutDsn) (run_after rfl) false .noDsn rfl) (by decide)

end TwoUploads

end OdooSemantic
