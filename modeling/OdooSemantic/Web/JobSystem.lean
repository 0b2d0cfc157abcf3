import Mathlib.Logic.Function.Basic
import OdooSemantic.Indexer.JobReports
import OdooSemantic.Lib.Machine
import OdooSemantic.Web.IndexRoutes

/-!
# One row, four parties

The route makes a job row and starts a process (`spawn_indexer_subcommand`), the process reports
on the row, `mark_dead_jobs` marks the rows whose process is gone, and an administrator resets
one (`reset_stuck_job`). The last two read a row, ask the operating system about its pid and
write the row, in three steps with anything in between.

A pid may be found by `os.kill(pid, 0)` although the process behind it has ended: it has not been
waited for, or the number has been given to another process. So which pids are found is a part
of the state of its own, tied to the processes only in that a running process is found.

Two things are not part of the program. `cover` is carried by a pass of `mark_dead_jobs`: the
jobs whose process had ended when the pass read the table. `swept` collects them when the pass
is through.
-/

namespace OdooSemantic

open KeyedStore

inductive Process where
  /-- The row is there, `Popen` has not returned. -/
  | created (call : SpawnCall)
  | running (pid : Nat) (script : Script)
  | ended (exitCode : Int)

def Process.hasEnded : Process → Bool
  | ended _ => true
  | _ => false

/-- Where a pass of `mark_dead_jobs` is. -/
inductive Reaper where
  | idle
  | going (rows : List (Nat × Option Nat)) (cover : List Nat)
  /-- `os.kill` has raised `ProcessLookupError`. -/
  | marking (jobId pid : Nat) (rows : List (Nat × Option Nat)) (cover : List Nat)

/-- Where a request of `reset_stuck_job` is. -/
inductive Reset where
  | idle
  | got (jobId : Nat) (row : JobRow)
  | marking (jobId : Nat)

structure JobSystem where
  jobs : JobTable
  process : Nat → Option Process
  /-- `os.kill(pid, 0)` finds the pid. -/
  found : Nat → Bool
  reaper : Nat → Reaper
  reset : Nat → Reset
  swept : List Nat

inductive JobAction where
  | create (call : SpawnCall)
  | popen (jobId pid : Nat) (outcome : Outcome)
  /-- The next report of the process; `answered` if the database takes it. -/
  | report (jobId now : Nat) (answered : Bool)
  | exit (jobId : Nat)
  /-- A signal without a handler. -/
  | kill (jobId signal : Nat)
  | sigterm (jobId : Nat)
  /-- A pid is given to another process, or it is free. -/
  | pid (pid : Nat) (isFound : Bool)
  | scan (reaper : Nat)
  | look (reaper : Nat)
  | mark (reaper now : Nat) (answered : Bool)
  | read (reset jobId : Nat)
  | check (reset : Nat)
  | write (reset now : Nat) (answered : Bool)

namespace JobSystem

/-- No job, and no process. -/
def initial : JobSystem where
  jobs := ∅
  process := fun _ => none
  found := fun _ => false
  reaper := fun _ => .idle
  reset := fun _ => .idle
  swept := []

variable (s : JobSystem)

def setProcess (jobId : Nat) (p : Process) : Nat → Option Process :=
  Function.update s.process jobId (some p)

def setReaper (i : Nat) (r : Reaper) : Nat → Reaper := Function.update s.reaper i r

def setReset (i : Nat) (r : Reset) : Nat → Reset := Function.update s.reset i r

/-- The process of the job has ended. -/
def hasEnded (jobId : Nat) : Bool := (s.process jobId).any Process.hasEnded

/-- A report inside `try … except Exception: pass`. -/
def reported (jobId : Nat) (u : JobUpdate) (heard : Bool) : JobTable :=
  if heard then (s.jobs.updateJob jobId u).getD s.jobs else s.jobs

/-- Some job's process runs under this pid. -/
def runsUnder (pid : Nat) : Bool :=
  s.jobs.keys.any fun jobId =>
    match s.process jobId with
    | some (.running q _) => q = pid
    | _ => false

/-- What `mark_dead_jobs` writes. -/
def deadUpdate (pid now : Nat) : JobUpdate where
  status := some .error
  finishedAt := some now
  errorMsg := some ("Process died unexpectedly (PID " ++ PyText.str pid ++
    " not found at server startup)")

/-- What `reset_stuck_job` writes. -/
def resetUpdate (now : Nat) : JobUpdate where
  status := some .error
  finishedAt := some now
  errorMsg := some "Reset by admin (process not found)"

def step : JobAction → Option JobSystem
  | .create call =>
      let (jobId, jobs) := s.jobs.createJob call.jobLabel
      some { s with jobs, process := s.setProcess jobId (.created call) }
  | .popen jobId pid outcome =>
      match s.process jobId with
      | some (.created call) =>
          if s.found pid then none
          else
            let script := mainScript jobId (call.argv jobId) outcome
            some { s with
              process := s.setProcess jobId (.running pid script)
              found := Function.update s.found pid true }
      | _ => none
  | .report jobId now answered =>
      match s.process jobId with
      | some (.running pid script) =>
          match script.reports with
          | [] => none
          | r :: rest =>
              some { s with
                jobs := s.reported jobId (r.update pid now) (answered && script.reporter.resolves)
                process := s.setProcess jobId (.running pid { script with reports := rest }) }
      | _ => none
  | .exit jobId =>
      match s.process jobId with
      | some (.running _ script) =>
          if script.reports = [] then
            some { s with process := s.setProcess jobId (.ended script.exitCode) }
          else none
      | _ => none
  | .kill jobId signal =>
      match s.process jobId with
      | some (.running _ _) =>
          if signal = 0 then none
          else some { s with process := s.setProcess jobId (.ended (-(signal : Int))) }
      | _ => none
  | .sigterm jobId =>
      match s.process jobId with
      | some (.running pid script) =>
          script.onSigterm.map fun reports =>
            let handled : Script := { script with reports, exitCode := 1, onSigterm := none }
            { s with process := s.setProcess jobId (.running pid handled) }
      | _ => none
  | .pid pid isFound =>
      if !isFound && s.runsUnder pid then none
      else some { s with found := Function.update s.found pid isFound }
  | .scan i =>
      match s.reaper i with
      | .idle =>
          let cover := s.jobs.keys.filter s.hasEnded
          some { s with reaper := s.setReaper i (.going s.jobs.openJobs cover) }
      | _ => none
  | .look i =>
      match s.reaper i with
      | .going [] cover =>
          some { s with reaper := s.setReaper i .idle, swept := cover ++ s.swept }
      | .going ((_, none) :: rows) cover =>
          some { s with reaper := s.setReaper i (.going rows cover) }
      | .going ((jobId, some pid) :: rows) cover =>
          if s.found pid then some { s with reaper := s.setReaper i (.going rows cover) }
          else some { s with reaper := s.setReaper i (.marking jobId pid rows cover) }
      | _ => none
  | .mark i now answered =>
      match s.reaper i with
      | .marking jobId pid rows cover =>
          match if answered then s.jobs.updateJob jobId (deadUpdate pid now) else none with
          | some jobs => some { s with jobs, reaper := s.setReaper i (.going rows cover) }
          -- the exception leaves `mark_dead_jobs`, with the rows behind this one unseen
          | none => some { s with reaper := s.setReaper i .idle }
      | _ => none
  | .read i jobId =>
      match s.reset i with
      | .idle =>
          match s.jobs.getJob jobId with
          | some row => some { s with reset := s.setReset i (.got jobId row) }
          | none => some s
      | _ => none
  | .check i =>
      match s.reset i with
      | .got jobId row =>
          if row.status ≠ .running || row.pid.any s.found then
            some { s with reset := s.setReset i .idle }
          else some { s with reset := s.setReset i (.marking jobId) }
      | _ => none
  | .write i now answered =>
      match s.reset i with
      | .marking jobId =>
          some { s with
            jobs := s.reported jobId (resetUpdate now) answered
            reset := s.setReset i .idle }
      | _ => none

end JobSystem

end OdooSemantic
