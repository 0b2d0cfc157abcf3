import Mathlib.Data.List.Sort
import OdooSemantic.Lib.KeyedStore

/-!
# `src/db/job_registry.py` — the `indexer_jobs` table

`JobStore`, as far as the life of a row goes. `update_job` writes the fields it is given and
knows nothing of what was in the row before: any status may follow any other. `mark_dead_jobs`
reads the open rows once and then goes through them, so what it writes is decided by a row that
may have changed since; its loop is taken apart in `Web/JobSystem.lean`.
-/

namespace OdooSemantic

open KeyedStore

inductive JobStatus where
  | queued
  | running
  | done
  | error
deriving DecidableEq

/-- `'done'` and `'error'`. -/
def JobStatus.terminal : JobStatus → Bool
  | done => true
  | error => true
  | _ => false

/-- A row of `indexer_jobs`; times are seconds. -/
structure JobRow where
  profileName : String
  status : JobStatus := .queued
  pid : Option Nat := none
  startedAt : Option Nat := none
  finishedAt : Option Nat := none
  errorMsg : Option String := none
deriving DecidableEq

abbrev JobTable := Store Nat JobRow

/-- The keyword arguments of `update_job`. -/
structure JobUpdate where
  status : Option JobStatus := none
  pid : Option Nat := none
  startedAt : Option Nat := none
  finishedAt : Option Nat := none
  errorMsg : Option String := none
deriving DecidableEq

/-- Only the fields that are not `None` are written. -/
def JobUpdate.apply (u : JobUpdate) (r : JobRow) : JobRow where
  profileName := r.profileName
  status := u.status.getD r.status
  pid := u.pid.or r.pid
  startedAt := u.startedAt.or r.startedAt
  finishedAt := u.finishedAt.or r.finishedAt
  errorMsg := u.errorMsg.or r.errorMsg

namespace JobTable

/-- The next value of the `SERIAL` column; rows are never deleted. -/
def nextId (jobs : JobTable) : Nat := nextKey jobs

/-- `create_job(profile_name)` -/
def createJob (jobs : JobTable) (profileName : String) : Nat × JobTable :=
  (jobs.nextId, jobs.insert jobs.nextId { profileName })

/-- `get_job(job_id)` -/
def getJob (jobs : JobTable) (jobId : Nat) : Option JobRow := jobs.lookup jobId

/-- `update_job(job_id, …)`; `none` is the `ValueError` of a job that is not there. -/
def updateJob (jobs : JobTable) (jobId : Nat) (u : JobUpdate) : Option JobTable :=
  if u = {} then some jobs
  else (jobs.lookup jobId).map fun r => jobs.insert jobId (u.apply r)

/-- The ids and pids of `SELECT * … WHERE status IN ('running', 'queued')`, oldest first. -/
def openJobs (jobs : JobTable) : List (Nat × Option Nat) :=
  (jobs.keys.insertionSort (· ≤ ·)).filterMap fun id =>
    (jobs.lookup id).bind fun r => if r.status.terminal then none else some (id, r.pid)

variable {jobs jobs' : JobTable} {id id' : Nat}

theorem nextId_notMem (jobs : JobTable) : jobs.nextId ∉ jobs := nextKey_notMem jobs

theorem lookup_createJob (profileName : String) :
    (jobs.createJob profileName).2.lookup id =
      if id = jobs.nextId then some { profileName } else jobs.lookup id := by
  unfold createJob
  by_cases h : id = jobs.nextId
  · subst h
    simp
  · simp [h]

theorem lookup_updateJob {u : JobUpdate} (h : jobs.updateJob id u = some jobs') :
    jobs'.lookup id' = if id' = id then (jobs.lookup id).map u.apply else jobs.lookup id' := by
  unfold updateJob at h
  split at h
  · rename_i hu
    obtain rfl := Option.some.inj h
    by_cases hid : id' = id
    · subst hid
      rw [if_pos rfl, hu]
      cases jobs.lookup id' <;> rfl
    · rw [if_neg hid]
  · obtain ⟨r, hr, rfl⟩ := Option.map_eq_some_iff.mp h
    by_cases hid : id' = id
    · subst hid
      simp [hr]
    · simp [hid]

/-- The open jobs are those whose status is not terminal. -/
theorem mem_openJobs {p : Option Nat} :
    (id, p) ∈ jobs.openJobs ↔
      ∃ r, jobs.lookup id = some r ∧ r.status.terminal = false ∧ r.pid = p := by
  unfold openJobs
  simp only [List.mem_filterMap, List.mem_insertionSort, Option.bind_eq_some_iff]
  constructor
  · intro h
    obtain ⟨id', -, r, hr, hif⟩ := h
    split at hif
    · exact absurd hif (by simp)
    · rename_i hopen
      obtain ⟨rfl, rfl⟩ := Prod.mk.inj (Option.some.inj hif)
      exact ⟨r, hr, by simpa using hopen, rfl⟩
  · intro h
    obtain ⟨r, hr, hopen, rfl⟩ := h
    exact ⟨id, AList.mem_keys.mp (AList.lookup_isSome.mp (by rw [hr]; rfl)), r, hr,
      by simp [hopen]⟩

end JobTable

end OdooSemantic
