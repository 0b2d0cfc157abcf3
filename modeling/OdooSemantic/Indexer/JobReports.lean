import OdooSemantic.Db.JobRegistry
import OdooSemantic.Indexer.CommandLine

/-!
# What an indexer process tells its job row

`main` of `src/indexer/__main__.py` and of `src/indexer/seed_patterns.py`, reduced to the
reports on the job row and the exit status. Which reports are sent depends on the command line
and on what happens to the work in between, and both are fixed when the process starts, a
signal excepted: so a process is a `Script`.

The two files reach `update_job` in different ways. `seed_patterns.py` calls the method of the
`JobStore` singleton. `__main__.py` calls `job_registry.update_job(pg, …)`, a function the module
does not have, inside a `try` that passes over every `Exception`, the `AttributeError`
included.
-/

namespace OdooSemantic

open ArgParse CommandLine

/-! ## Reports -/

inductive JobReport where
  | running
  | done (note : Option String)
  | error (msg : String)
deriving DecidableEq

/-- `msg[:1000]` -/
def truncate (msg : String) : String := String.ofList (msg.toList.take 1000)

/-- The fields of the report. -/
def JobReport.update (pid now : Nat) : JobReport → JobUpdate
  | running => { status := some .running, pid := some pid, startedAt := some now }
  | done note => { status := some .done, finishedAt := some now, errorMsg := note }
  | error msg => { status := some .error, finishedAt := some now, errorMsg := some (truncate msg) }

/-- Where `update_job` is looked up. -/
inductive Reporter where
  /-- `job_store().update_job` -/
  | jobStore
  /-- `job_registry.update_job` -/
  | jobRegistry
deriving DecidableEq

/-- Whether the name can be resolved. -/
def Reporter.resolves : Reporter → Bool
  | jobStore => true
  | jobRegistry => false

structure Script where
  reporter : Reporter := .jobStore
  reports : List JobReport := []
  exitCode : Int
  /-- The reports of the handler of `SIGTERM`, where one is installed; it exits with 1. -/
  onSigterm : Option (List JobReport) := none
deriving DecidableEq

/-! ## `seed_patterns.py` -/

/-- What becomes of the work of `seed-patterns`. -/
inductive SeedOutcome where
  /-- Something raises before `_mark_running`. -/
  | failsEarly (exitCode : Int)
  /-- `_get_job_store()` returns `None`. -/
  | noStore (exitCode : Int)
  | fileMissing (patternsFile : String)
  /-- With the note of a run that had nothing to do. -/
  | succeeds (note : Option String)
  /-- `writer.close()` raises behind `_mark_done(…)`. -/
  | closeRaises (note : Option String) (msg : String)
  | raises (msg : String)
  /-- An exception that is no `Exception`. -/
  | interrupted (exitCode : Int)
deriving DecidableEq

def seedScript : SeedOutcome → Script
  | .failsEarly exitCode => { exitCode }
  | .noStore exitCode => { exitCode }
  | .fileMissing patternsFile =>
      { reports := [.running, .error ("patterns file not found: " ++ patternsFile)], exitCode := 2 }
  | .succeeds note => { reports := [.running, .done note], exitCode := 0 }
  | .closeRaises note msg => { reports := [.running, .done note, .error msg], exitCode := 1 }
  | .raises msg => { reports := [.running, .error msg], exitCode := 1 }
  | .interrupted exitCode => { reports := [.running], exitCode }

/-! ## `__main__.py` -/

/-- What becomes of the work of `index-repo`. -/
inductive RepoOutcome where
  /-- `_build_embedder()` or `open_production_pg()` raises. -/
  | failsEarly (exitCode : Int)
  | succeeds
  | raises (msg : String)
deriving DecidableEq

def repoScript : RepoOutcome → Script
  | .failsEarly exitCode => { reporter := .jobRegistry, exitCode }
  | .succeeds => { reporter := .jobRegistry, reports := [.running, .done none], exitCode := 0,
                   onSigterm := some [.error "Process received SIGTERM"] }
  | .raises msg => { reporter := .jobRegistry, reports := [.running, .error msg], exitCode := 1,
                     onSigterm := some [.error "Process received SIGTERM"] }

/-- What becomes of a process, for every command it might turn out to run. -/
structure Outcome where
  seed : SeedOutcome
  repo : RepoOutcome
  /-- The status of the commands that have no job id. -/
  exitCode : Int
deriving DecidableEq

/-- Without a job id nothing is reported. -/
def Script.forJob (jobId : Nat) (vars : List (String × ArgValue)) (script : Script) : Script :=
  if vars.lookup "job_id" = some (.int jobId) then script
  else { script with reports := [], onSigterm := none }

/-- `main(argv)`, as far as the row of this job goes. -/
def mainScript (jobId : Nat) (argv : List String) (outcome : Outcome) : Script :=
  match buildParser.parseArgs argv with
  | .error .usage => { exitCode := 2 }
  | .error .help => { exitCode := 0 }
  | .ok (command, vars) =>
      if command = "index-repo" then (repoScript outcome.repo).forJob jobId vars
      else if command = "seed-patterns" then (seedScript outcome.seed).forJob jobId vars
      else { exitCode := outcome.exitCode }

end OdooSemantic
