import OdooSemantic.Proof.CommandLines
import OdooSemantic.Web.JobSystem

/-!
# What a job row says in the end

A row tells the truth if it says `done` exactly where the process has exited with 0. Whether it
does hangs on the process: only `seed-patterns` reports at all (`reports_mainScript_iff`). The
reports of `index-repo` go to a function that does not exist, and the other three commands do
not get past their arguments, so their rows are `queued` without a pid for ever, and
`mark_dead_jobs` passes over them.

For a process that does report, what can go wrong is a matter of order: it dies before its pid
is in the row, or behind its last report; a `done` is lost; `mark_dead_jobs` or an administrator
writes a row that has been finished since it was read. `job_rows` says that nothing else can.
-/

namespace OdooSemantic

open ArgParse CommandLine KeyedStore

/-! ## Scripts that report -/

/-- The last report of a process with this exit status; a failure may go unsaid. -/
inductive Finish (exitCode : Int) : List JobReport → Prop
  | done (note : Option String) (h : exitCode = 0) : Finish exitCode [.done note]
  | error (msg : String) (h : exitCode ≠ 0) : Finish exitCode [.error msg]
  | silent (h : exitCode ≠ 0) : Finish exitCode []

/-- The process says `running`, and then what its exit status says. -/
structure Script.Reports (script : Script) : Prop where
  store : script.reporter = .jobStore
  unhandled : script.onSigterm = none
  reports : ∃ fin, Finish script.exitCode fin ∧ script.reports = .running :: fin

/-- The outcomes of `seed-patterns` that are reported. -/
def SeedOutcome.Reported : SeedOutcome → Prop
  | .fileMissing _ => True
  | .succeeds _ => True
  | .raises _ => True
  | .interrupted exitCode => exitCode ≠ 0
  | _ => False

/-- A script without reports, or with something behind its last report, does not report. -/
theorem not_reports {script : Script}
    (h : script.reports = [] ∨ ∃ a b c, script.reports = [a, b, c]) : ¬ script.Reports := by
  intro hr
  obtain ⟨fin, hfin, hreports⟩ := hr.reports
  cases hfin <;> simp [hreports] at h

theorem reports_seedScript_iff {o : SeedOutcome} : (seedScript o).Reports ↔ o.Reported := by
  cases o with
  | failsEarly exitCode => exact iff_of_false (not_reports (Or.inl rfl)) id
  | noStore exitCode => exact iff_of_false (not_reports (Or.inl rfl)) id
  | closeRaises note msg => exact iff_of_false (not_reports (Or.inr ⟨_, _, _, rfl⟩)) id
  | fileMissing file =>
    exact iff_of_true ⟨rfl, rfl, _, .error _ (by simp [seedScript]), rfl⟩ trivial
  | succeeds note => exact iff_of_true ⟨rfl, rfl, _, .done note rfl, rfl⟩ trivial
  | raises msg => exact iff_of_true ⟨rfl, rfl, _, .error msg (by simp [seedScript]), rfl⟩ trivial
  | interrupted exitCode =>
    refine ⟨fun h => ?_, fun h => ⟨rfl, rfl, _, .silent h, rfl⟩⟩
    obtain ⟨fin, hfin, hreports⟩ := h.reports
    obtain rfl : [] = fin := (List.cons.inj hreports).2
    cases hfin with
    | silent h => exact h

theorem reporter_forJob (jobId : Nat) (vars : List (String × ArgValue)) (script : Script) :
    (script.forJob jobId vars).reporter = script.reporter := by
  unfold Script.forJob
  split <;> rfl

theorem reporter_repoScript (o : RepoOutcome) : (repoScript o).reporter = .jobRegistry := by
  cases o <;> rfl

/-- **Only `seed-patterns` reports**, on the row of the job id it was given. -/
theorem reports_mainScript_iff {jobId : Nat} {argv : List String} {outcome : Outcome} :
    (mainScript jobId argv outcome).Reports ↔
      (∃ vars, buildParser.parseArgs argv = .ok ("seed-patterns", vars) ∧
        vars.lookup "job_id" = some (.int jobId)) ∧ outcome.seed.Reported := by
  have hsilent : ∀ script : Script, script.reports = [] → ¬ script.Reports :=
    fun script hnil => not_reports (Or.inl hnil)
  unfold mainScript
  cases hparse : buildParser.parseArgs argv with
  | error stop =>
    refine iff_of_false ?_ (fun h => by simpa using h.1)
    cases stop with
    | usage => exact hsilent _ rfl
    | help => exact hsilent _ rfl
  | ok result =>
    obtain ⟨command, vars⟩ := result
    dsimp only
    by_cases hrepo : command = "index-repo"
    · rw [if_pos hrepo]
      refine iff_of_false (fun h => ?_) (fun h => by simp [hrepo] at h)
      have hstore := h.store
      rw [reporter_forJob, reporter_repoScript] at hstore
      exact absurd hstore (by simp)
    · rw [if_neg hrepo]
      by_cases hseed : command = "seed-patterns"
      · rw [if_pos hseed, Script.forJob]
        by_cases hjob : vars.lookup "job_id" = some (.int jobId)
        · rw [if_pos hjob, reports_seedScript_iff]
          exact ⟨fun h => ⟨⟨vars, by rw [hseed], hjob⟩, h⟩, fun h => h.2⟩
        · rw [if_neg hjob]
          refine iff_of_false (hsilent _ rfl) (fun h => ?_)
          obtain ⟨⟨vars', hok, hjob'⟩, -⟩ := h
          obtain rfl := (Prod.mk.inj (Except.ok.inj hok)).2
          exact hjob hjob'
      · rw [if_neg hseed]
        refine iff_of_false (hsilent _ rfl) (fun h => ?_)
        obtain ⟨⟨vars', hok, -⟩, -⟩ := h
        exact hseed (Prod.mk.inj (Except.ok.inj hok)).1

/-! ## What a row looks like beside its process -/

/-- The row of a process that runs. -/
structure RunningFits (found : Nat → Bool) (r : JobRow) (pid : Nat) (script : Script) : Prop where
  found : found pid = true
  store : script.reporter = .jobStore
  unhandled : script.onSigterm = none
  rest : ∃ fin, Finish script.exitCode fin ∧
    (script.reports = .running :: fin ∨ script.reports = fin ∨ script.reports = [])
  unfinished : script.reports ≠ [] → r.status.terminal = false
  done : r.status = .done → script.exitCode = 0
  error : r.status = .error → script.exitCode ≠ 0
  said : script.reports = [] → script.exitCode = 0 → r.status = .done
  running : r.status = .running → r.pid = some pid
  own : ∀ q, r.pid = some q → q = pid

/-- A row that `mark_dead_jobs` can finish, or that is finished: with an error, or `running` with
    a pid. -/
def JobRow.Coverable (r : JobRow) : Prop := r.status = .error ∨ r.status = .running ∧ r.pid.isSome

/-- The row beside the process. -/
def Fits (found : Nat → Bool) (r : JobRow) : Process → Prop
  | .created _ => r.status = .queued ∧ r.pid = none
  | .running pid script => RunningFits found r pid script
  | .ended exitCode => exitCode = 0 ∧ r.status = .done ∨ exitCode ≠ 0 ∧ r.Coverable

theorem Fits.of_found {found found' : Nat → Bool} {r : JobRow} {p : Process} (h : Fits found r p)
    (hfound : ∀ pid script, p = .running pid script → found' pid = true) : Fits found' r p := by
  cases p with
  | created call => exact h
  | running pid script => exact { h with found := hfound pid script rfl }
  | ended exitCode => exact h

/-- **A report of a running process.** A `done` has to be heard. -/
theorem RunningFits.report {found : Nat → Bool} {r : JobRow} {pid now : Nat} {script : Script}
    {a : JobReport} {rest : List JobReport} (h : RunningFits found r pid script)
    (hreports : script.reports = a :: rest) {heard : Bool}
    (hdone : ∀ note, a = .done note → heard = true) :
    RunningFits found (if heard then (a.update pid now).apply r else r) pid
      { script with reports := rest } := by
  obtain ⟨fin, hfin, hrest⟩ := h.rest
  have hopen := h.unfinished (by rw [hreports]; simp)
  have hnotDone : r.status ≠ .done := fun hs => by simp [hs, JobStatus.terminal] at hopen
  have hnotError : r.status ≠ .error := fun hs => by simp [hs, JobStatus.terminal] at hopen
  rw [hreports] at hrest
  have hshape : a = .running ∧ rest = fin ∨ rest = [] ∧ fin = [a] := by
    rcases hrest with heq | heq | heq
    · exact Or.inl (List.cons.inj heq)
    · subst heq
      cases hfin <;> exact Or.inr ⟨rfl, rfl⟩
    · exact absurd heq (by simp)
  rcases hshape with ⟨rfl, rfl⟩ | ⟨rfl, rfl⟩
  · -- `running`: whether it is heard or not, the row stays open
    refine { found := h.found, store := h.store, unhandled := h.unhandled,
             rest := ⟨rest, hfin, Or.inr (Or.inl rfl)⟩, unfinished := fun _ => ?_,
             done := fun hs => ?_, error := fun hs => ?_, said := fun hnil hzero => ?_,
             running := fun hs => ?_, own := fun q hq => ?_ }
    · cases heard with
      | true => rfl
      | false => exact hopen
    · cases heard with
      | true => exact absurd hs (by simp [JobUpdate.apply, JobReport.update])
      | false => exact absurd hs hnotDone
    · cases heard with
      | true => exact absurd hs (by simp [JobUpdate.apply, JobReport.update])
      | false => exact absurd hs hnotError
    · dsimp only at hnil hzero
      subst hnil
      cases hfin with
      | silent hne => exact absurd hzero hne
    · cases heard with
      | true => rfl
      | false => exact h.running hs
    · cases heard with
      | true => exact (Option.some.inj hq).symm
      | false => exact h.own q hq
  · -- the last report: the row is finished, or an error has gone unheard
    cases hfin with
    | done note hzero =>
      obtain rfl := hdone note rfl
      exact { found := h.found, store := h.store, unhandled := h.unhandled,
              rest := ⟨_, .done note hzero, Or.inr (Or.inr rfl)⟩,
              unfinished := fun hne => absurd rfl hne, done := fun _ => hzero,
              error := fun hs => absurd hs (by simp [JobUpdate.apply, JobReport.update]),
              said := fun _ _ => rfl,
              running := fun hs => absurd hs (by simp [JobUpdate.apply, JobReport.update]),
              own := h.own }
    | error msg hne =>
      refine { found := h.found, store := h.store, unhandled := h.unhandled,
               rest := ⟨_, .error msg hne, Or.inr (Or.inr rfl)⟩,
               unfinished := fun hnil => absurd rfl hnil, done := fun hs => ?_,
               error := fun _ => hne, said := fun _ hzero => absurd hzero hne,
               running := fun hs => ?_, own := fun q hq => ?_ }
      · cases heard with
        | true => exact absurd hs (by simp [JobUpdate.apply, JobReport.update])
        | false => exact absurd hs hnotDone
      · cases heard with
        | true => exact absurd hs (by simp [JobUpdate.apply, JobReport.update])
        | false => exact h.running hs
      · cases heard with
        | true => exact h.own q hq
        | false => exact h.own q hq

/-- A process that has said everything leaves a row that fits its exit status. -/
theorem RunningFits.exit {found : Nat → Bool} {r : JobRow} {pid : Nat} {script : Script}
    (h : RunningFits found r pid script) (hreports : script.reports = [])
    (hcovered : script.exitCode ≠ 0 → r.Coverable) : Fits found r (.ended script.exitCode) := by
  by_cases hzero : script.exitCode = 0
  · exact Or.inl ⟨hzero, h.said hreports hzero⟩
  · exact Or.inr ⟨hzero, hcovered hzero⟩

/-- A script that reports fits a row that nobody has written. -/
theorem runningFits_of_reports {found : Nat → Bool} {r : JobRow} {pid : Nat} {script : Script}
    (h : script.Reports) (hstatus : r.status = .queued) (hpid : r.pid = none)
    (hfound : found pid = true) : RunningFits found r pid script := by
  obtain ⟨fin, hfin, hreports⟩ := h.reports
  exact { found := hfound, store := h.store, unhandled := h.unhandled,
          rest := ⟨fin, hfin, Or.inl hreports⟩,
          unfinished := fun _ => by rw [hstatus]; rfl,
          done := fun hs => absurd (hstatus.symm.trans hs) (by simp),
          error := fun hs => absurd (hstatus.symm.trans hs) (by simp),
          said := fun hnil => absurd (hreports.symm.trans hnil) (by simp),
          running := fun hs => absurd (hstatus.symm.trans hs) (by simp),
          own := fun q hq => absurd (hpid.symm.trans hq) (by simp) }

/-! ## The invariant -/

def Reaper.rows : Reaper → List (Nat × Option Nat)
  | idle => []
  | going rows _ => rows
  | marking _ _ rows _ => rows

def Reaper.cover : Reaper → List Nat
  | idle => []
  | going _ cover => cover
  | marking _ _ _ cover => cover

/-- The row the pass is about to write. -/
def Reaper.target : Reaper → Option Nat
  | marking jobId _ _ _ => some jobId
  | _ => none

namespace JobSystem

variable {s s' : JobSystem}

def Ended (s : JobSystem) (jobId : Nat) : Prop :=
  ∃ exitCode, s.process jobId = some (.ended exitCode)

/-- The job's process runs under this pid, or did. -/
def Behind (s : JobSystem) (jobId pid : Nat) : Prop :=
  (∃ script, s.process jobId = some (.running pid script)) ∨ s.Ended jobId

def Terminal (s : JobSystem) (jobId : Nat) : Prop :=
  ∃ r, s.jobs.lookup jobId = some r ∧ r.status.terminal = true

structure Inv (s : JobSystem) : Prop where
  rowed : ∀ j p, s.process j = some p → j ∈ s.jobs
  fits : ∀ j r, s.jobs.lookup j = some r → ∃ p, s.process j = some p ∧ Fits s.found r p
  rows : ∀ i j pid, (j, some pid) ∈ (s.reaper i).rows → s.Behind j pid
  target : ∀ i j, (s.reaper i).target = some j → s.Ended j
  /-- A covered row is finished, or the pass still has it before it. -/
  cover : ∀ i j, j ∈ (s.reaper i).cover → s.Ended j ∧
    (s.Terminal j ∨ (s.reaper i).target = some j ∨ ∃ pid, (j, some pid) ∈ (s.reaper i).rows)
  got : ∀ i j r, s.reset i = .got j r → r.status = .running →
    ∃ pid, r.pid = some pid ∧ s.Behind j pid
  resetTarget : ∀ i j, s.reset i = .marking j → s.Ended j
  swept : ∀ j ∈ s.swept, s.Ended j ∧ s.Terminal j

/-- The row of a process that runs. -/
theorem Inv.of_running (h : Inv s) {j pid : Nat} {script : Script}
    (hrun : s.process j = some (.running pid script)) :
    ∃ r, s.jobs.lookup j = some r ∧ RunningFits s.found r pid script := by
  obtain ⟨r, hr⟩ : ∃ r, s.jobs.lookup j = some r :=
    Option.isSome_iff_exists.mp (AList.lookup_isSome.mpr (h.rowed j _ hrun))
  obtain ⟨p, hp, hfits⟩ := h.fits j r hr
  obtain rfl := Option.some.inj (hrun.symm.trans hp)
  exact ⟨r, hr, hfits⟩

/-- What every step keeps of a job: that its process has ended, the pid it has, its final
    status. -/
structure Grows (s s' : JobSystem) : Prop where
  ended : ∀ j, s.Ended j → s'.Ended j
  behind : ∀ j pid, s.Behind j pid → s'.Behind j pid
  status : ∀ j r, s.jobs.lookup j = some r → r.status.terminal = true →
    ∃ r', s'.jobs.lookup j = some r' ∧ r'.status = r.status

theorem Grows.terminal (h : Grows s s') {j : Nat} (ht : s.Terminal j) : s'.Terminal j := by
  obtain ⟨r, hr, hterminal⟩ := ht
  obtain ⟨r', hr', hstatus⟩ := h.status j r hr hterminal
  exact ⟨r', hr', hstatus ▸ hterminal⟩

theorem Grows.of_same (hjobs : s'.jobs = s.jobs) (hprocess : s'.process = s.process) :
    Grows s s' where
  ended := fun j h => by unfold Ended; rw [hprocess]; exact h
  behind := fun j pid h => by unfold Behind Ended; rw [hprocess]; exact h
  status := fun j r hr _ => ⟨r, by rw [hjobs]; exact hr, rfl⟩

/-- A step that leaves the passes and the resets alone. -/
theorem Inv.of_grows (h : Inv s) (hg : Grows s s')
    (hrowed : ∀ j p, s'.process j = some p → j ∈ s'.jobs)
    (hfits : ∀ j r, s'.jobs.lookup j = some r → ∃ p, s'.process j = some p ∧ Fits s'.found r p)
    (hreaper : s'.reaper = s.reaper) (hreset : s'.reset = s.reset) (hswept : s'.swept = s.swept) :
    Inv s' where
  rowed := hrowed
  fits := hfits
  rows := by
    rw [hreaper]
    exact fun i j pid hmem => hg.behind j pid (h.rows i j pid hmem)
  target := by
    rw [hreaper]
    exact fun i j ht => hg.ended j (h.target i j ht)
  cover := by
    rw [hreaper]
    intro i j hmem
    obtain ⟨hended, hor⟩ := h.cover i j hmem
    exact ⟨hg.ended j hended, hor.imp_left hg.terminal⟩
  got := by
    rw [hreset]
    intro i j r hgot hrunning
    obtain ⟨pid, hpid, hbehind⟩ := h.got i j r hgot hrunning
    exact ⟨pid, hpid, hg.behind j pid hbehind⟩
  resetTarget := by
    rw [hreset]
    exact fun i j ht => hg.ended j (h.resetTarget i j ht)
  swept := by
    rw [hswept]
    exact fun j hj => ⟨hg.ended j (h.swept j hj).1, hg.terminal (h.swept j hj).2⟩

/-- A step of one pass that writes nothing. -/
theorem Inv.set_reaper (h : Inv s) (i : Nat) {r : Reaper}
    (hrows : ∀ j pid, (j, some pid) ∈ r.rows → s.Behind j pid)
    (htarget : ∀ j, r.target = some j → s.Ended j)
    (hcover : ∀ j ∈ r.cover, s.Ended j ∧
      (s.Terminal j ∨ r.target = some j ∨ ∃ pid, (j, some pid) ∈ r.rows)) :
    Inv { s with reaper := s.setReaper i r } where
  rowed := h.rowed
  fits := h.fits
  rows := by
    intro k j pid
    show (j, some pid) ∈ (s.setReaper i r k).rows → _
    unfold setReaper
    rw [Function.update_apply]
    split
    · exact hrows j pid
    · exact h.rows k j pid
  target := by
    intro k j
    show (s.setReaper i r k).target = some j → _
    unfold setReaper
    rw [Function.update_apply]
    split
    · exact htarget j
    · exact h.target k j
  cover := by
    intro k j
    show j ∈ (s.setReaper i r k).cover → _ ∧ (_ ∨ (s.setReaper i r k).target = some j ∨
      ∃ pid, (j, some pid) ∈ (s.setReaper i r k).rows)
    unfold setReaper
    rw [Function.update_apply]
    split
    · exact hcover j
    · exact h.cover k j
  got := h.got
  resetTarget := h.resetTarget
  swept := h.swept

/-- A step of one reset that writes nothing. -/
theorem Inv.set_reset (h : Inv s) (i : Nat) {q : Reset}
    (hgot : ∀ j r, q = .got j r → r.status = .running → ∃ pid, r.pid = some pid ∧ s.Behind j pid)
    (htarget : ∀ j, q = .marking j → s.Ended j) : Inv { s with reset := s.setReset i q } where
  rowed := h.rowed
  fits := h.fits
  rows := h.rows
  target := h.target
  cover := h.cover
  got := by
    intro k j r
    show s.setReset i q k = .got j r → _
    unfold setReset
    rw [Function.update_apply]
    split
    · exact hgot j r
    · exact h.got k j r
  resetTarget := by
    intro k j
    show s.setReset i q k = .marking j → _
    unfold setReset
    rw [Function.update_apply]
    split
    · exact htarget j
    · exact h.resetTarget k j
  swept := h.swept

theorem setProcess_apply (j k : Nat) (p : Process) :
    s.setProcess j p k = if k = j then some p else s.process k := by
  unfold setProcess
  rw [Function.update_apply]

theorem not_ended {j : Nat} {p : Process} (h : s.process j = some p) (hp : p.hasEnded = false) :
    ¬ s.Ended j := by
  intro hended
  obtain ⟨exitCode, hcode⟩ := hended
  rw [hcode] at h
  obtain rfl := Option.some.inj h
  exact absurd hp (by simp [Process.hasEnded])

/-- A step of one process that has not ended. -/
theorem Grows.of_process {j : Nat} {p : Process} (hprocess : s'.process = s.setProcess j p)
    (hended : ¬ s.Ended j)
    (hnext : ∀ pid script, s.process j = some (.running pid script) →
      (∃ script', p = .running pid script') ∨ ∃ exitCode, p = .ended exitCode)
    (hstatus : ∀ k r, s.jobs.lookup k = some r → r.status.terminal = true →
      ∃ r', s'.jobs.lookup k = some r' ∧ r'.status = r.status) : Grows s s' := by
  have happly : ∀ k, s'.process k = if k = j then some p else s.process k := by
    intro k
    rw [hprocess, setProcess_apply]
  have hother : ∀ k, s.Ended k → s'.Ended k := by
    intro k hk
    have hne : k ≠ j := fun heq => hended (heq ▸ hk)
    obtain ⟨exitCode, hcode⟩ := hk
    exact ⟨exitCode, by rw [happly, if_neg hne, hcode]⟩
  refine ⟨hother, fun k pid hk => ?_, hstatus⟩
  cases hk with
  | inr hk => exact Or.inr (hother k hk)
  | inl hk =>
    obtain ⟨script, hrun⟩ := hk
    by_cases heq : k = j
    · subst heq
      rcases hnext pid script hrun with ⟨script', rfl⟩ | ⟨exitCode, rfl⟩
      · exact Or.inl ⟨script', by rw [happly, if_pos rfl]⟩
      · exact Or.inr ⟨exitCode, by rw [happly, if_pos rfl]⟩
    · exact Or.inl ⟨script, by rw [happly, if_neg heq, hrun]⟩

/-- A step of one process that leaves the table alone. -/
theorem Inv.of_process (h : Inv s) {j : Nat} {old p : Process} (hold : s.process j = some old)
    (hprocess : s'.process = s.setProcess j p) (hjobs : s'.jobs = s.jobs)
    (hfound : ∀ pid, s.found pid = true → s'.found pid = true)
    (hfit : ∀ r, s.jobs.lookup j = some r → Fits s.found r old → Fits s'.found r p)
    (hg : Grows s s') (hreaper : s'.reaper = s.reaper) (hreset : s'.reset = s.reset)
    (hswept : s'.swept = s.swept) : Inv s' := by
  refine h.of_grows hg ?_ ?_ hreaper hreset hswept
  · intro k q hq
    rw [hjobs]
    rw [hprocess, setProcess_apply] at hq
    split at hq
    · rename_i heq
      exact heq ▸ h.rowed j old hold
    · exact h.rowed k q hq
  · intro k r hr
    rw [hjobs] at hr
    obtain ⟨q, hq, hfits⟩ := h.fits k r hr
    rw [hprocess, setProcess_apply]
    by_cases heq : k = j
    · subst heq
      rw [hold] at hq
      obtain rfl := Option.some.inj hq
      exact ⟨p, by rw [if_pos rfl], hfit r hr hfits⟩
    · refine ⟨q, by rw [if_neg heq, hq], hfits.of_found fun pid script hrun => ?_⟩
      subst hrun
      exact hfound pid hfits.found

/-- A write to the row of a process that has ended, which does not say `done`. -/
theorem keeps_write (h : Inv s) {j : Nat} {jobs : JobTable} {u : JobUpdate}
    (hended : s.Ended j) (hu : u.status = some .error)
    (hnotDone : ∀ r, s.jobs.lookup j = some r → r.status ≠ .done)
    (hjobs : s.jobs.updateJob j u = some jobs) :
    Inv { s with jobs } ∧ Grows s { s with jobs } ∧ Terminal { s with jobs } j := by
  have hlookup : ∀ k, jobs.lookup k = if k = j then (s.jobs.lookup j).map u.apply
      else s.jobs.lookup k := fun k => JobTable.lookup_updateJob hjobs
  have hstatus : ∀ r : JobRow, (u.apply r).status = .error := by
    intro r
    simp [JobUpdate.apply, hu]
  obtain ⟨exitCode, hcode⟩ := hended
  obtain ⟨r, hr⟩ : ∃ r, s.jobs.lookup j = some r :=
    Option.isSome_iff_exists.mp (AList.lookup_isSome.mpr (h.rowed j _ hcode))
  have hg : Grows s { s with jobs } := by
    refine ⟨fun k hk => hk, fun k pid hk => hk, fun k r' hr' hterminal => ?_⟩
    by_cases heq : k = j
    · subst heq
      refine ⟨u.apply r', by simp [hlookup, hr'], ?_⟩
      rw [hstatus]
      have hne := hnotDone r' hr'
      cases hs : r'.status with
      | queued => simp [hs, JobStatus.terminal] at hterminal
      | running => simp [hs, JobStatus.terminal] at hterminal
      | done => exact absurd hs hne
      | error => rfl
    · exact ⟨r', by simp [hlookup, heq, hr'], rfl⟩
  have hterminal : Terminal { s with jobs } j :=
    ⟨u.apply r, by simp [hlookup, hr], by rw [hstatus]; rfl⟩
  refine ⟨h.of_grows hg ?_ ?_ rfl rfl rfl, hg, hterminal⟩
  · intro k p hp
    have hmem := AList.lookup_isSome.mpr (h.rowed k p hp)
    refine AList.lookup_isSome.mp ?_
    show (jobs.lookup k).isSome = true
    rw [hlookup]
    by_cases heq : k = j
    · simp [heq, hr]
    · simpa [heq] using hmem
  · intro k r' hr'
    change jobs.lookup k = some r' at hr'
    rw [hlookup] at hr'
    by_cases heq : k = j
    · subst heq
      rw [if_pos rfl, hr] at hr'
      obtain rfl := Option.some.inj hr'
      obtain ⟨p, hp, hfits⟩ := h.fits k r hr
      rw [hcode] at hp
      obtain rfl := Option.some.inj hp
      refine ⟨_, hcode, ?_⟩
      rcases hfits with ⟨-, hdone⟩ | ⟨hne, -⟩
      · exact absurd hdone (hnotDone r hr)
      · exact Or.inr ⟨hne, Or.inl (hstatus r)⟩
    · rw [if_neg heq] at hr'
      exact h.fits k r' hr'

/-! ## The condition on a run -/

/-- What is asked of an action. -/
def Meets (s : JobSystem) : JobAction → Prop
  /- The process reports. -/
  | .popen jobId _ outcome => ∀ call, s.process jobId = some (.created call) →
      (mainScript jobId (call.argv jobId) outcome).Reports
  /- A `done` is heard. -/
  | .report jobId _ answered => ∀ pid script note rest,
      s.process jobId = some (.running pid script) → script.reports = .done note :: rest →
        answered = true
  /- A process that fails has had its pid, or its error, in the row; and no `done`. -/
  | .exit jobId => ∀ pid script, s.process jobId = some (.running pid script) →
      script.exitCode ≠ 0 → ∀ r, s.jobs.lookup jobId = some r → r.Coverable
  | .kill jobId _ => ∀ r, s.jobs.lookup jobId = some r → r.Coverable
  /- The pid of a process that has ended is not found. -/
  | .look i => ∀ jobId pid rows cover, s.reaper i = .going ((jobId, some pid) :: rows) cover →
      s.found pid = true → ¬ s.Ended jobId
  /- The row has not become `done` since it was read. -/
  | .mark i _ _ => ∀ jobId, (s.reaper i).target = some jobId →
      ∀ r, s.jobs.lookup jobId = some r → r.status ≠ .done
  | .write i _ _ => ∀ jobId, s.reset i = .marking jobId →
      ∀ r, s.jobs.lookup jobId = some r → r.status ≠ .done
  | _ => True

/-! ## Every action -/

theorem keeps_create (h : Inv s) (call : SpawnCall) (hstep : s.step (.create call) = some s') :
    Inv s' ∧ Grows s s' := by
  obtain rfl := Option.some.inj hstep
  have hfresh := JobTable.nextId_notMem s.jobs
  have hnone : s.process s.jobs.nextId = none := by
    cases hp : s.process s.jobs.nextId with
    | none => rfl
    | some p => exact absurd (h.rowed _ p hp) hfresh
  have hnotEnded : ¬ s.Ended s.jobs.nextId := by
    intro hended
    obtain ⟨exitCode, hcode⟩ := hended
    rw [hnone] at hcode
    exact absurd hcode (by simp)
  have hlookup : ∀ k, (s.jobs.createJob call.jobLabel).2.lookup k =
      if k = s.jobs.nextId then some { profileName := call.jobLabel } else s.jobs.lookup k :=
    fun k => JobTable.lookup_createJob call.jobLabel
  have hg : Grows s { s with
      jobs := (s.jobs.createJob call.jobLabel).2
      process := s.setProcess s.jobs.nextId (.created call) } := by
    refine .of_process rfl hnotEnded
      (fun pid script hrun => absurd (hnone.symm.trans hrun) (by simp)) fun k r hr _ => ?_
    have hne : k ≠ s.jobs.nextId := by
      intro heq
      rw [heq] at hr
      exact hfresh (AList.lookup_isSome.mp (by rw [hr]; rfl))
    refine ⟨r, ?_, rfl⟩
    show (s.jobs.createJob call.jobLabel).2.lookup k = _
    rw [hlookup, if_neg hne, hr]
  refine ⟨h.of_grows hg ?_ ?_ rfl rfl rfl, hg⟩
  · intro k p hp
    change s.setProcess s.jobs.nextId (.created call) k = some p at hp
    refine AList.lookup_isSome.mp ?_
    show ((s.jobs.createJob call.jobLabel).2.lookup k).isSome = true
    rw [hlookup]
    rw [setProcess_apply] at hp
    split
    · rfl
    · rename_i hne
      rw [if_neg hne] at hp
      exact AList.lookup_isSome.mpr (h.rowed k p hp)
  · intro k r hr
    change (s.jobs.createJob call.jobLabel).2.lookup k = some r at hr
    show ∃ p, s.setProcess s.jobs.nextId (.created call) k = some p ∧ Fits s.found r p
    rw [setProcess_apply]
    rw [hlookup] at hr
    split at hr
    · rename_i heq
      obtain rfl := Option.some.inj hr
      exact ⟨.created call, by rw [if_pos heq], rfl, rfl⟩
    · rename_i hne
      rw [if_neg hne]
      exact h.fits k r hr

theorem keeps_popen (h : Inv s) {j pid : Nat} {outcome : Outcome}
    (hok : s.Meets (.popen j pid outcome)) (hstep : s.step (.popen j pid outcome) = some s') :
    Inv s' ∧ Grows s s' := by
  simp only [step] at hstep
  split at hstep
  · rename_i call hcreated
    split at hstep
    · exact absurd hstep (by simp)
    · obtain rfl := Option.some.inj hstep
      have hg : Grows s { s with
          process := s.setProcess j (.running pid (mainScript j (call.argv j) outcome))
          found := Function.update s.found pid true } :=
        .of_process rfl (not_ended hcreated rfl)
          (fun q script hrun => absurd (hcreated.symm.trans hrun) (by simp))
          (fun k r hr _ => ⟨r, hr, rfl⟩)
      refine ⟨h.of_process hcreated rfl rfl (fun q hq => ?_) (fun r hr hfits => ?_) hg rfl rfl rfl,
        hg⟩
      · show Function.update s.found pid true q = true
        rw [Function.update_apply]
        split
        · rfl
        · exact hq
      · exact runningFits_of_reports (hok call hcreated) hfits.1 hfits.2
          (Function.update_self pid true s.found)
  · exact absurd hstep (by simp)

theorem keeps_report (h : Inv s) {j now : Nat} {answered : Bool}
    (hok : s.Meets (.report j now answered)) (hstep : s.step (.report j now answered) = some s') :
    Inv s' ∧ Grows s s' := by
  simp only [step] at hstep
  split at hstep
  · rename_i pid script hrun
    split at hstep
    · exact absurd hstep (by simp)
    · rename_i a rest hreports
      obtain rfl := Option.some.inj hstep
      obtain ⟨r, hr, hfits⟩ := h.of_running hrun
      -- only the process's own row is written, and only if the report is heard
      have hlookup : ∀ k, (s.reported j (a.update pid now)
          (answered && script.reporter.resolves)).lookup k =
            if k = j then some (if answered then (a.update pid now).apply r else r)
            else s.jobs.lookup k := by
        intro k
        have hheard : (answered && script.reporter.resolves) = answered := by
          rw [hfits.store]
          cases answered <;> rfl
        rw [reported, hheard]
        cases answered with
        | false =>
          by_cases heq : k = j
          · subst heq
            simp [hr]
          · simp [heq]
        | true =>
          obtain ⟨jobs, hjobs⟩ : ∃ jobs, s.jobs.updateJob j (a.update pid now) = some jobs := by
            unfold JobTable.updateJob
            rw [hr]
            split <;> exact ⟨_, rfl⟩
          rw [if_pos rfl, hjobs, Option.getD_some, JobTable.lookup_updateJob hjobs, hr]
          rfl
      have hopen := hfits.unfinished (by rw [hreports]; simp)
      have hg : Grows s { s with
          jobs := s.reported j (a.update pid now) (answered && script.reporter.resolves)
          process := s.setProcess j (.running pid { script with reports := rest }) } := by
        refine .of_process rfl (not_ended hrun rfl) (fun q script' hrun' => Or.inl ?_)
          fun k r' hr' hterminal => ?_
        · obtain ⟨rfl, -⟩ := Process.running.inj (Option.some.inj (hrun.symm.trans hrun'))
          exact ⟨_, rfl⟩
        · have hne : k ≠ j := by
            intro heq
            rw [heq, hr] at hr'
            obtain rfl := Option.some.inj hr'
            rw [hopen] at hterminal
            exact absurd hterminal (by simp)
          exact ⟨r', by rw [hlookup, if_neg hne, hr'], rfl⟩
      refine ⟨h.of_grows hg ?_ ?_ rfl rfl rfl, hg⟩
      · intro k q hq
        change s.setProcess j _ k = some q at hq
        refine AList.lookup_isSome.mp ?_
        show ((s.reported _ _ _).lookup k).isSome = true
        rw [hlookup]
        rw [setProcess_apply] at hq
        split
        · rfl
        · rename_i hne
          rw [if_neg hne] at hq
          exact AList.lookup_isSome.mpr (h.rowed k q hq)
      · intro k r' hr'
        change (s.reported _ _ _).lookup k = some r' at hr'
        show ∃ q, s.setProcess j _ k = some q ∧ _
        rw [setProcess_apply]
        rw [hlookup] at hr'
        by_cases heq : k = j
        · rw [if_pos heq] at hr' ⊢
          obtain rfl := Option.some.inj hr'
          refine ⟨_, rfl, hfits.report hreports fun note hnote => ?_⟩
          exact hok pid script note rest hrun (hnote ▸ hreports)
        · rw [if_neg heq] at hr' ⊢
          exact h.fits k r' hr'
  · exact absurd hstep (by simp)

/-- A process that ends, by itself or by a signal. -/
theorem keeps_end (h : Inv s) {j pid : Nat} {script : Script} {exitCode : Int}
    (hrun : s.process j = some (.running pid script))
    (hfit : ∀ r, s.jobs.lookup j = some r → RunningFits s.found r pid script →
      Fits s.found r (.ended exitCode)) :
    Inv { s with process := s.setProcess j (.ended exitCode) } ∧
      Grows s { s with process := s.setProcess j (.ended exitCode) } := by
  have hg : Grows s { s with process := s.setProcess j (.ended exitCode) } :=
    .of_process rfl (not_ended hrun rfl) (fun q script' _ => Or.inr ⟨exitCode, rfl⟩)
      (fun k r hr _ => ⟨r, hr, rfl⟩)
  exact ⟨h.of_process hrun rfl rfl (fun q hq => hq) hfit hg rfl rfl rfl, hg⟩

theorem keeps_exit (h : Inv s) {j : Nat} (hok : s.Meets (.exit j))
    (hstep : s.step (.exit j) = some s') : Inv s' ∧ Grows s s' := by
  simp only [step] at hstep
  split at hstep
  · rename_i pid script hrun
    split at hstep
    · rename_i hreports
      obtain rfl := Option.some.inj hstep
      exact keeps_end h hrun fun r hr hfits =>
        hfits.exit hreports fun hne => hok pid script hrun hne r hr
    · exact absurd hstep (by simp)
  · exact absurd hstep (by simp)

theorem keeps_kill (h : Inv s) {j signal : Nat} (hok : s.Meets (.kill j signal))
    (hstep : s.step (.kill j signal) = some s') : Inv s' ∧ Grows s s' := by
  simp only [step] at hstep
  split at hstep
  · rename_i pid script hrun
    split at hstep
    · exact absurd hstep (by simp)
    · rename_i hsignal
      obtain rfl := Option.some.inj hstep
      exact keeps_end h hrun fun r hr _ => Or.inr ⟨by omega, hok r hr⟩
  · exact absurd hstep (by simp)

/-- A process whose script reports has no handler. -/
theorem keeps_sigterm (h : Inv s) {j : Nat} (hstep : s.step (.sigterm j) = some s') :
    Inv s' ∧ Grows s s' := by
  simp only [step] at hstep
  split at hstep
  · rename_i pid script hrun
    obtain ⟨r, hr, hfits⟩ := h.of_running hrun
    rw [hfits.unhandled] at hstep
    exact absurd hstep (by simp)
  · exact absurd hstep (by simp)

theorem keeps_pid (h : Inv s) {pid : Nat} {isFound : Bool}
    (hstep : s.step (.pid pid isFound) = some s') : Inv s' ∧ Grows s s' := by
  simp only [step] at hstep
  split at hstep
  · exact absurd hstep (by simp)
  · rename_i hfree
    obtain rfl := Option.some.inj hstep
    have hg : Grows s { s with found := Function.update s.found pid isFound } :=
      .of_same rfl rfl
    refine ⟨h.of_grows hg h.rowed (fun j r hr => ?_) rfl rfl rfl, hg⟩
    obtain ⟨p, hp, hfits⟩ := h.fits j r hr
    refine ⟨p, hp, hfits.of_found fun q script hrun => ?_⟩
    subst hrun
    show Function.update s.found pid isFound q = true
    rw [Function.update_apply]
    split
    · rename_i heq
      -- the pid of a running process is not freed
      cases isFound with
      | true => rfl
      | false =>
        refine absurd ?_ hfree
        simp only [Bool.not_false, Bool.true_and, runsUnder, List.any_eq_true]
        exact ⟨j, AList.mem_keys.mp (h.rowed j _ hp), by simp [hp, heq]⟩
    · exact hfits.found

/-- A step that moves one pass and writes nothing. -/
theorem grows_set_reaper (s : JobSystem) (i : Nat) (r : Reaper) :
    Grows s { s with reaper := s.setReaper i r } := .of_same rfl rfl

theorem grows_set_reset (s : JobSystem) (i : Nat) (q : Reset) :
    Grows s { s with reset := s.setReset i q } := .of_same rfl rfl

theorem keeps_scan (h : Inv s) {i : Nat} (hstep : s.step (.scan i) = some s') :
    Inv s' ∧ Grows s s' := by
  simp only [step] at hstep
  split at hstep
  · obtain rfl := Option.some.inj hstep
    refine ⟨h.set_reaper i ?_ (fun j hj => absurd hj (by simp [Reaper.target])) ?_,
      grows_set_reaper s i _⟩
    · intro j pid hmem
      obtain ⟨r, hr, hopen, hpid⟩ := JobTable.mem_openJobs.mp hmem
      obtain ⟨p, hp, hfits⟩ := h.fits j r hr
      cases p with
      | created call => exact absurd (hfits.2.symm.trans hpid) (by simp)
      | running q script =>
        obtain rfl := RunningFits.own hfits pid hpid
        exact Or.inl ⟨script, hp⟩
      | ended exitCode => exact Or.inr ⟨exitCode, hp⟩
    · intro j hj
      obtain ⟨hmem, hended⟩ := List.mem_filter.mp hj
      obtain ⟨r, hr⟩ : ∃ r, s.jobs.lookup j = some r :=
        Option.isSome_iff_exists.mp (AList.lookup_isSome.mpr (AList.mem_keys.mpr hmem))
      obtain ⟨p, hp, hfits⟩ := h.fits j r hr
      simp only [hasEnded, hp, Option.any_some] at hended
      cases p with
      | created call => exact absurd hended (by simp [Process.hasEnded])
      | running q script => exact absurd hended (by simp [Process.hasEnded])
      | ended exitCode =>
        refine ⟨⟨exitCode, hp⟩, ?_⟩
        rcases hfits with ⟨-, hdone⟩ | ⟨-, herror | ⟨hrunning, hpid⟩⟩
        · exact Or.inl ⟨r, hr, by rw [hdone]; rfl⟩
        · exact Or.inl ⟨r, hr, by rw [herror]; rfl⟩
        · obtain ⟨pid, hpid⟩ := Option.isSome_iff_exists.mp hpid
          exact Or.inr (Or.inr ⟨pid, JobTable.mem_openJobs.mpr
            ⟨r, hr, by rw [hrunning]; rfl, hpid⟩⟩)
  · exact absurd hstep (by simp)

theorem keeps_look (h : Inv s) {i : Nat} (hok : s.Meets (.look i))
    (hstep : s.step (.look i) = some s') : Inv s' ∧ Grows s s' := by
  have hrows := h.rows i
  have hcover := h.cover i
  simp only [step] at hstep
  split at hstep
  · -- the pass is through
    rename_i cover hgoing
    obtain rfl := Option.some.inj hstep
    rw [hgoing] at hcover
    have hnil : Inv { s with reaper := s.setReaper i .idle } :=
      h.set_reaper i (fun j pid hmem => absurd hmem (by simp [Reaper.rows]))
        (fun j hj => absurd hj (by simp [Reaper.target]))
        (fun j hj => absurd hj (by simp [Reaper.cover]))
    refine ⟨{ hnil with swept := fun j hj => ?_ }, .of_same rfl rfl⟩
    cases List.mem_append.mp hj with
    | inr hold => exact h.swept j hold
    | inl hnew =>
      obtain ⟨hended, hterminal | htarget | ⟨pid, hmem⟩⟩ := hcover j hnew
      · exact ⟨hended, hterminal⟩
      · exact absurd htarget (by simp [Reaper.target])
      · exact absurd hmem (by simp [Reaper.rows])
  · -- a row without a pid
    rename_i j rows cover hgoing
    obtain rfl := Option.some.inj hstep
    rw [hgoing] at hrows hcover
    refine ⟨h.set_reaper i (fun k pid hmem => hrows k pid (List.mem_cons_of_mem _ hmem))
      (fun k hk => absurd hk (by simp [Reaper.target])) (fun k hk => ?_), grows_set_reaper s i _⟩
    obtain ⟨hended, hterminal | htarget | ⟨pid, hmem⟩⟩ := hcover k hk
    · exact ⟨hended, Or.inl hterminal⟩
    · exact absurd htarget (by simp [Reaper.target])
    · cases List.mem_cons.mp hmem with
      | inl heq => exact absurd (Prod.mk.inj heq).2 (by simp)
      | inr hmem => exact ⟨hended, Or.inr (Or.inr ⟨pid, hmem⟩)⟩
  · rename_i j pid rows cover hgoing
    rw [hgoing] at hrows hcover
    split at hstep
    · -- the pid is found, so the process runs
      rename_i hfound
      obtain rfl := Option.some.inj hstep
      have hruns := hok j pid rows cover hgoing hfound
      refine ⟨h.set_reaper i (fun k q hmem => hrows k q (List.mem_cons_of_mem _ hmem))
        (fun k hk => absurd hk (by simp [Reaper.target])) (fun k hk => ?_),
        grows_set_reaper s i _⟩
      obtain ⟨hended, hterminal | htarget | ⟨q, hmem⟩⟩ := hcover k hk
      · exact ⟨hended, Or.inl hterminal⟩
      · exact absurd htarget (by simp [Reaper.target])
      · cases List.mem_cons.mp hmem with
        | inl heq =>
          rw [(Prod.mk.inj heq).1] at hended
          exact absurd hended hruns
        | inr hmem => exact ⟨hended, Or.inr (Or.inr ⟨q, hmem⟩)⟩
    · -- it is not, so the process has ended
      rename_i hfound
      obtain rfl := Option.some.inj hstep
      have hended : s.Ended j := by
        cases hrows j pid List.mem_cons_self with
        | inr hended => exact hended
        | inl hrun =>
          obtain ⟨script, hrun⟩ := hrun
          obtain ⟨r, hr, hfits⟩ := h.of_running hrun
          exact absurd hfits.found hfound
      refine ⟨h.set_reaper i (fun k q hmem => hrows k q (List.mem_cons_of_mem _ hmem))
        (fun k hk => Option.some.inj hk ▸ hended) (fun k hk => ?_), grows_set_reaper s i _⟩
      obtain ⟨hended', hterminal | htarget | ⟨q, hmem⟩⟩ := hcover k hk
      · exact ⟨hended', Or.inl hterminal⟩
      · exact absurd htarget (by simp [Reaper.target])
      · cases List.mem_cons.mp hmem with
        | inl heq => exact ⟨hended', Or.inr (Or.inl (by rw [(Prod.mk.inj heq).1]; rfl))⟩
        | inr hmem => exact ⟨hended', Or.inr (Or.inr ⟨q, hmem⟩)⟩
  · exact absurd hstep (by simp)

theorem keeps_mark (h : Inv s) {i now : Nat} {answered : Bool}
    (hok : s.Meets (.mark i now answered)) (hstep : s.step (.mark i now answered) = some s') :
    Inv s' ∧ Grows s s' := by
  have hrows := h.rows i
  have htarget := h.target i
  have hcover := h.cover i
  simp only [step] at hstep
  split at hstep
  · rename_i j pid rows cover hmarking
    rw [hmarking] at hrows htarget hcover
    have hnotDone := hok j (by rw [hmarking]; rfl)
    split at hstep
    · rename_i jobs hjobs
      obtain rfl := Option.some.inj hstep
      cases answered with
      | false => exact absurd hjobs (by simp)
      | true =>
        rw [if_pos rfl] at hjobs
        obtain ⟨hinv, hg, hterminal⟩ := keeps_write h (htarget j rfl) rfl hnotDone hjobs
        refine ⟨hinv.set_reaper i (fun k q hmem => hg.behind k q (hrows k q hmem))
          (fun k hk => absurd hk (by simp [Reaper.target])) (fun k hk => ?_),
          ⟨hg.ended, hg.behind, hg.status⟩⟩
        obtain ⟨hended, hterm | htar | ⟨q, hmem⟩⟩ := hcover k hk
        · exact ⟨hended, Or.inl (hg.terminal hterm)⟩
        · exact ⟨hended, Or.inl (Option.some.inj htar ▸ hterminal)⟩
        · exact ⟨hended, Or.inr (Or.inr ⟨q, hmem⟩)⟩
    · obtain rfl := Option.some.inj hstep
      exact ⟨h.set_reaper i (fun k q hmem => absurd hmem (by simp [Reaper.rows]))
        (fun k hk => absurd hk (by simp [Reaper.target]))
        (fun k hk => absurd hk (by simp [Reaper.cover])), grows_set_reaper s i _⟩
  · exact absurd hstep (by simp)

theorem keeps_read (h : Inv s) {i j : Nat} (hstep : s.step (.read i j) = some s') :
    Inv s' ∧ Grows s s' := by
  simp only [step] at hstep
  split at hstep
  · split at hstep
    · rename_i row hrow
      obtain rfl := Option.some.inj hstep
      refine ⟨h.set_reset i (fun k r hgot hrunning => ?_) (fun k hk => absurd hk (by simp)),
        grows_set_reset s i _⟩
      obtain ⟨rfl, rfl⟩ := Reset.got.inj hgot
      obtain ⟨p, hp, hfits⟩ := h.fits j row hrow
      cases p with
      | created call => exact absurd (hfits.1.symm.trans hrunning) (by simp)
      | running pid script =>
        exact ⟨pid, RunningFits.running hfits hrunning, Or.inl ⟨script, hp⟩⟩
      | ended exitCode =>
        rcases hfits with ⟨-, hdone⟩ | ⟨-, herror | ⟨-, hpid⟩⟩
        · exact absurd (hdone.symm.trans hrunning) (by simp)
        · exact absurd (herror.symm.trans hrunning) (by simp)
        · obtain ⟨pid, hpid⟩ := Option.isSome_iff_exists.mp hpid
          exact ⟨pid, hpid, Or.inr ⟨exitCode, hp⟩⟩
    · obtain rfl := Option.some.inj hstep
      exact ⟨h, .of_same rfl rfl⟩
  · exact absurd hstep (by simp)

theorem keeps_check (h : Inv s) {i : Nat} (hstep : s.step (.check i) = some s') :
    Inv s' ∧ Grows s s' := by
  simp only [step] at hstep
  split at hstep
  · rename_i j row hgot
    split at hstep
    · obtain rfl := Option.some.inj hstep
      exact ⟨h.set_reset i (fun k r hk => absurd hk (by simp)) (fun k hk => absurd hk (by simp)),
        grows_set_reset s i _⟩
    · rename_i hdead
      obtain rfl := Option.some.inj hstep
      refine ⟨h.set_reset i (fun k r hk => absurd hk (by simp)) (fun k hk => ?_),
        grows_set_reset s i _⟩
      obtain rfl := Reset.marking.inj hk
      simp only [Bool.or_eq_true, decide_eq_true_eq, not_or, not_not] at hdead
      obtain ⟨pid, hpid, hbehind⟩ := h.got i j row hgot hdead.1
      rw [hpid, Option.any_some] at hdead
      cases hbehind with
      | inr hended => exact hended
      | inl hrun =>
        obtain ⟨script, hrun⟩ := hrun
        obtain ⟨r, hr, hfits⟩ := h.of_running hrun
        exact absurd hfits.found hdead.2
  · exact absurd hstep (by simp)

theorem keeps_resetWrite (h : Inv s) {i now : Nat} {answered : Bool}
    (hok : s.Meets (.write i now answered)) (hstep : s.step (.write i now answered) = some s') :
    Inv s' ∧ Grows s s' := by
  simp only [step] at hstep
  split at hstep
  · rename_i j hmarking
    obtain rfl := Option.some.inj hstep
    have hidle : ∀ t : JobSystem, Inv t → Inv { t with reset := t.setReset i .idle } :=
      fun t ht => ht.set_reset i (fun k r hk => absurd hk (by simp))
        (fun k hk => absurd hk (by simp))
    have hquiet : s.reported j (resetUpdate now) answered = s.jobs ∨
        s.jobs.updateJob j (resetUpdate now) = some (s.reported j (resetUpdate now) answered) := by
      unfold reported
      cases answered with
      | false => exact Or.inl rfl
      | true =>
        cases hjobs : s.jobs.updateJob j (resetUpdate now) with
        | none => exact Or.inl rfl
        | some jobs => exact Or.inr rfl
    cases hquiet with
    | inl hsame =>
      rw [hsame]
      exact ⟨hidle s h, grows_set_reset s i _⟩
    | inr hjobs =>
      obtain ⟨hinv, hg, -⟩ := keeps_write h (h.resetTarget i j hmarking) rfl (hok j hmarking) hjobs
      exact ⟨hidle _ hinv, ⟨hg.ended, hg.behind, hg.status⟩⟩
  · exact absurd hstep (by simp)

/-- **Every action that meets the condition keeps the invariant, and whatever is final.** -/
theorem keeps_step (h : Inv s) {a : JobAction} (hok : s.Meets a) (hstep : s.step a = some s') :
    Inv s' ∧ Grows s s' := by
  cases a with
  | create call => exact keeps_create h call hstep
  | popen jobId pid outcome => exact keeps_popen h hok hstep
  | report jobId now answered => exact keeps_report h hok hstep
  | exit jobId => exact keeps_exit h hok hstep
  | kill jobId signal => exact keeps_kill h hok hstep
  | sigterm jobId => exact keeps_sigterm h hstep
  | pid pid isFound => exact keeps_pid h hstep
  | scan i => exact keeps_scan h hstep
  | look i => exact keeps_look h hok hstep
  | mark i now answered => exact keeps_mark h hok hstep
  | read i jobId => exact keeps_read h hstep
  | check i => exact keeps_check h hstep
  | write i now answered => exact keeps_resetWrite h hok hstep

theorem inv_initial : Inv initial where
  rowed := fun _ _ h => absurd h (by simp [initial])
  fits := fun _ _ h => absurd h (by simp [initial])
  rows := fun _ _ _ h => absurd h (by simp [initial, Reaper.rows])
  target := fun _ _ h => absurd h (by simp [initial, Reaper.target])
  cover := fun _ _ h => absurd h (by simp [initial, Reaper.cover])
  got := fun _ _ _ h => absurd h (by simp [initial])
  resetTarget := fun _ _ h => absurd h (by simp [initial])
  swept := fun _ h => absurd h (by simp [initial])

/-! ## The law -/

/-- **What is promised of a state**: the process of a swept job has left the status it deserves. -/
def Truthful (s : JobSystem) : Prop :=
  ∀ j exitCode, s.process j = some (.ended exitCode) → j ∈ s.swept →
    ∃ r, s.jobs.lookup j = some r ∧ r.status = if exitCode = 0 then .done else .error

/-- **What is promised of a step**: a final status stays. -/
def KeepsFinal (s s' : JobSystem) : Prop :=
  ∀ j r, s.jobs.lookup j = some r → r.status.terminal = true →
    ∃ r', s'.jobs.lookup j = some r' ∧ r'.status = r.status

theorem Inv.truthful (h : Inv s) : s.Truthful := by
  intro j exitCode hended hswept
  obtain ⟨-, r, hr, hterminal⟩ := h.swept j hswept
  obtain ⟨p, hp, hfits⟩ := h.fits j r hr
  obtain rfl := Option.some.inj (hended.symm.trans hp)
  refine ⟨r, hr, ?_⟩
  rcases hfits with ⟨hzero, hdone⟩ | ⟨hne, herror | ⟨hrunning, -⟩⟩
  · rw [if_pos hzero, hdone]
  · rw [if_neg hne, herror]
  · rw [hrunning] at hterminal
    exact absurd hterminal (by simp [JobStatus.terminal])

/-- **Job rows tell the truth** in every run whose actions meet the condition: in every state it
    reaches, and across every further action. -/
theorem job_rows {as : List JobAction} (hrun : Machine.Runs step Meets initial as s) :
    s.Truthful ∧ ∀ a s', s.Meets a → s.step a = some s' → s.KeepsFinal s' := by
  have hinv : Inv s :=
    hrun.invariant (fun _ _ _ hstep hok h => (keeps_step h hok hstep).1) inv_initial
  exact ⟨hinv.truthful, fun a s' hok hstep => (keeps_step hinv hok hstep).2.status⟩

end JobSystem

/-! ## Three jobs -/

namespace ThreeJobs

def shop : SpawnCall := ⟨["index-repo", "--profile", "shop"], "shop"⟩

def core : SpawnCall := ⟨["index-core", "--source", "/srv/odoo", "--version", "17.0"], "core:17.0"⟩

def patterns : SpawnCall := ⟨["seed-patterns", "--no-embed"], "patterns"⟩

def success : Outcome := ⟨.succeeds none, .succeeds, 0⟩

/-- Both reports of `index-repo` are sent, the process exits with 0 and a pass looks at the row. -/
def shopJob : List JobAction :=
  [.create shop, .popen 1 4711 success, .report 1 10 true, .report 1 20 true, .exit 1,
   .pid 4711 false, .scan 0, .look 0, .look 0]

/-- `index-core` exits with 2. -/
def coreJob : List JobAction :=
  [.create core, .popen 1 4711 success, .exit 1, .pid 4711 false, .scan 0, .look 0, .look 0]

/-- A pass reads the row while `seed-patterns` runs, and looks at it when the process is gone. -/
def patternsRace : List JobAction :=
  [.create patterns, .popen 1 4711 success, .report 1 10 true, .scan 0, .report 1 20 true, .exit 1,
   .pid 4711 false, .look 0]

/-- The pass begins when the process is gone. -/
def patternsJob : List JobAction :=
  [.create patterns, .popen 1 4711 success, .report 1 10 true, .report 1 20 true, .exit 1,
   .pid 4711 false, .scan 0, .look 0]

/-- Runs without a condition. -/
abbrev Reaches (as : List JobAction) (s : JobSystem) : Prop :=
  Machine.Runs JobSystem.step (fun _ _ => True) .initial as s

theorem reaches_of_replay {as : List JobAction} {s : JobSystem}
    (h : Machine.replay JobSystem.step (fun _ _ => true) as .initial = some s) : Reaches as s :=
  (Machine.runs_of_replay h).imp fun _ _ _ => trivial

theorem not_truthful {s : JobSystem} {j : Nat} {exitCode : Int} {r : JobRow}
    (hended : s.process j = some (.ended exitCode)) (hswept : j ∈ s.swept)
    (hrow : s.jobs.lookup j = some r) (hqueued : r.status = .queued) : ¬ s.Truthful := by
  intro h
  obtain ⟨r', hr', hstatus⟩ := h j exitCode hended hswept
  obtain rfl := Option.some.inj (hrow.symm.trans hr')
  rw [hqueued] at hstatus
  split at hstatus <;> exact absurd hstatus (by simp)

/-- **Rows that lie**: an `index-repo` that has succeeded and an `index-core` that was never
    started stay `queued`, and a `done` is overwritten with `error`. -/
theorem job_rows_lie :
    (∃ s, Reaches shopJob s ∧ s.process 1 = some (.ended 0) ∧ ¬ s.Truthful) ∧
    (∃ s, Reaches coreJob s ∧ s.process 1 = some (.ended 2) ∧ ¬ s.Truthful) ∧
    ∃ s s', Reaches patternsRace s ∧ s.step (.mark 0 30 true) = some s' ∧ ¬ s.KeepsFinal s' := by
  refine ⟨⟨_, reaches_of_replay rfl, rfl, ?_⟩, ⟨_, reaches_of_replay rfl, rfl, ?_⟩,
    ⟨_, _, reaches_of_replay rfl, rfl, ?_⟩⟩
  · exact not_truthful rfl List.mem_cons_self rfl rfl
  · exact not_truthful rfl List.mem_cons_self rfl rfl
  · intro h
    obtain ⟨r, hr, hstatus⟩ := h 1 _ rfl rfl
    obtain rfl := Option.some.inj hr
    exact absurd hstatus (by decide)

/-- A `seed-patterns` that keeps to the condition, until a pass is through with its row. -/
theorem runs_patternsJob :
    ∃ s, Machine.Runs JobSystem.step JobSystem.Meets .initial patternsJob s ∧
      s.process 1 = some (.ended 0) ∧
      s.swept = [1] := by
  refine ⟨_, .cons rfl trivial <| .cons rfl ?_ <| .cons rfl ?_ <| .cons rfl ?_ <| .cons rfl ?_ <|
    .cons rfl trivial <| .cons rfl trivial <| .cons rfl ?_ <| .nil _, rfl, rfl⟩
  · intro call hcall
    cases hcall
    exact reports_mainScript_iff.mpr ⟨⟨_, rfl, rfl⟩, trivial⟩
  · exact fun _ _ _ _ _ _ => rfl
  · exact fun _ _ _ _ _ _ => rfl
  · intro pid script hrun hne
    cases hrun
    exact absurd rfl hne
  · intro jobId pid rows cover hgoing
    cases hgoing

/-- What is promised of that run. -/
theorem job_rows_patternsJob :
    ∃ s : JobSystem, s.process 1 = some (.ended 0) ∧ s.swept = [1] ∧ s.Truthful ∧
      ∀ a s', s.Meets a → s.step a = some s' → s.KeepsFinal s' := by
  obtain ⟨s, hrun, hended, hswept⟩ := runs_patternsJob
  exact ⟨s, hended, hswept, JobSystem.job_rows hrun⟩

end ThreeJobs

end OdooSemantic
