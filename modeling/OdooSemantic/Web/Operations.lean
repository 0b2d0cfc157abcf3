import Mathlib.Logic.Function.Basic

/-!
# `src/web_ui/routes/operations.py` — `trigger_restore`, and the maintenance mode

A restore is a request and, later, a thread of its own. The request looks at
`_RESTORE_IN_PROGRESS`, reads the upload chunk by chunk, sets the flag, dumps the database, and
starts the thread; the thread runs the restore and clears the flag.

Requests are coroutines of one event loop. One that waits for a chunk lets the others go on, and
between two waits it has the loop to itself (`loop`); the threads need no loop. An exception may
come anywhere (`RestoreAnswer.raised`).
-/

namespace OdooSemantic

/-- What the safety backup has come to, where the restore goes on. -/
inductive SafetyBackup where
  /-- `pg_dump` has returned 0. -/
  | saved
  /-- `_get_pg_dsn()` is empty. -/
  | noDsn
  /-- An exception that was logged. -/
  | skipped
deriving DecidableEq

inductive RestorePhase where
  | arrived
  /-- Behind the test of the flag, and waiting for a chunk. -/
  | uploading
  /-- Behind the last chunk. -/
  | uploaded
  /-- The flag is set. -/
  | entered
  /-- The start is in the audit log. -/
  | audited
  /-- `pg_dump` has returned something else. -/
  | dumpFailed
  /-- The flag is cleared on account of that. -/
  | abandoned
  | backedUp (backup : SafetyBackup)
  /-- The request is answered, and the thread is started. -/
  | started (backup : SafetyBackup)
  /-- The subprocess of the restore. -/
  | restoring (backup : SafetyBackup)
  /-- Behind the subprocess, before `finally`. -/
  | restored
  | finished
  /-- The answer to a request that comes to nothing. -/
  | failed (status : Nat)
deriving DecidableEq

/-- What a step comes to. -/
inductive RestoreAnswer where
  | done
  | raised
  /-- The request is turned away for what it is: its type, its size. -/
  | invalid (status : Nat)
  /-- A chunk, and not the last. -/
  | chunk
  | noDsn
  | dumpFailed
deriving DecidableEq

structure RestoreStep (T : Type) where
  thread : T
  answer : RestoreAnswer := .done

structure Restores (T : Type) where
  /-- `_RESTORE_IN_PROGRESS` -/
  flag : Bool := false
  /-- The request that the event loop is busy with. -/
  loop : Option T := none
  phase : T → RestorePhase := fun _ => .arrived

namespace RestorePhase

/-- The restore is under way, from the maintenance mode on. -/
def isRunning : RestorePhase → Bool
  | entered | audited | dumpFailed | backedUp _ | started _ | restoring _ | restored => true
  | _ => false

/-- The request keeps the event loop. -/
def keepsLoop : RestorePhase → Bool
  | uploaded | entered | audited | dumpFailed | abandoned | backedUp _ => true
  | _ => false

/-- What comes next is up to the thread. -/
def isWorker : RestorePhase → Bool
  | started _ | restoring _ | restored => true
  | _ => false

end RestorePhase

namespace Restores

variable {T : Type} [DecidableEq T] (s : Restores T) (t : T)

def become (phase : RestorePhase) : Restores T :=
  { s with phase := Function.update s.phase t phase }

/-- A step of a request; it gives the loop back where it waits, and where it ends. -/
def request (flag : Bool) (phase : RestorePhase) : Restores T :=
  { s.become t phase with flag, loop := if phase.keepsLoop then some t else none }

/-- `trigger_restore(request, file)`, up to `t.start()`. -/
def triggerRestore (answer : RestoreAnswer) : Option (Restores T) :=
  match s.phase t, answer with
  | .arrived, .invalid status => some (s.request t s.flag (.failed status))
  | .arrived, .raised => some (s.request t s.flag (.failed (if s.flag then 409 else 500)))
  | .arrived, .done => some (s.request t s.flag (if s.flag then .failed 409 else .uploading))
  | .uploading, .chunk => some (s.request t s.flag .uploading)
  | .uploading, .invalid _ => some (s.request t s.flag (.failed 413))
  | .uploading, .raised => some (s.request t s.flag (.failed 500))
  | .uploading, .done => some (s.request t s.flag .uploaded)
  | .uploaded, .invalid _ => some (s.request t s.flag (.failed 507))
  | .uploaded, .raised => some (s.request t s.flag (.failed 500))
  | .uploaded, .done => some (s.request t true .entered)
  | .entered, .raised => some (s.request t s.flag (.failed 500))
  | .entered, .done => some (s.request t s.flag .audited)
  | .audited, .done => some (s.request t s.flag (.backedUp .saved))
  | .audited, .noDsn => some (s.request t s.flag (.backedUp .noDsn))
  | .audited, .dumpFailed => some (s.request t s.flag .dumpFailed)
  -- whatever is raised from here on, except the 500 itself, is a warning
  | .audited, .raised => some (s.request t s.flag (.backedUp .skipped))
  | .dumpFailed, .raised => some (s.request t s.flag (.backedUp .skipped))
  | .dumpFailed, .done => some (s.request t false .abandoned)
  | .abandoned, .raised => some (s.request t s.flag (.backedUp .skipped))
  | .abandoned, .done => some (s.request t s.flag (.failed 500))
  | .backedUp _, .raised => some (s.request t s.flag (.failed 500))
  | .backedUp backup, .done => some (s.request t s.flag (.started backup))
  | _, _ => none

/-- `_run_restore()` -/
def runRestore (answer : RestoreAnswer) : Option (Restores T) :=
  match s.phase t, answer with
  | .started backup, .done => some (s.become t (.restoring backup))
  | .started _, .raised => some (s.become t .restored)
  | .restoring _, .done | .restoring _, .raised => some (s.become t .restored)
  | .restored, .done | .restored, .raised => some { s.become t .finished with flag := false }
  | _, _ => none

def step (s : Restores T) (a : RestoreStep T) : Option (Restores T) :=
  if (s.phase a.thread).isWorker then s.runRestore a.thread a.answer
  else if s.loop.all (· = a.thread) then s.triggerRestore a.thread a.answer
  else none

/-- `_MaintenanceModeMiddleware.dispatch`: whether it calls the route. -/
def maintenanceDispatch (path : String) : Bool :=
  !s.flag || path = "/api/operations/restore" || path = "/health" || path = "/openapi.json"

end Restores

end OdooSemantic
