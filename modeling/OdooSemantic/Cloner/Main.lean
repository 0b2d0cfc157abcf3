import Mathlib.Logic.Function.Basic
import OdooSemantic.Cloner.GitUtils

/-!
# `src/cloner/__main__.py` — one process a clone

A process reads the row of the repo, sets the status to `pending`, clones, and sets the status to
`cloned` or `error`. Any number of them may be under way for one repo, each of them a statement or
a look at the directory at a time; what they share is the row and the directory.

`git clone` looks at the directory, and then makes it or, where it is there and empty, takes it as
it is. When it fails it removes what it has made: the directory, or all that is in it. When it is
killed it removes nothing.
-/

namespace OdooSemantic

inductive CloneStatus where
  | manual
  | pending
  | cloned
  | error
deriving DecidableEq

/-- What is at the target. -/
inductive CloneDir where
  | absent
  | empty
  /-- Files, and no checkout. -/
  | files
  | checkout
deriving DecidableEq

/-- `target_dir.exists() and any(target_dir.iterdir())` -/
def CloneDir.isNonempty : CloneDir → Bool
  | absent | empty => false
  | files | checkout => true

/-- The row that the processes read. -/
structure CloneJob where
  url : String
  branch : String
  profileName : String
  sshKeyId : Option Nat := none
  netlocOk : List Char → Bool := fun _ => true
  base : PosixPath.PurePath

/-- `is_ssh_url(url) and ssh_key_id is None` -/
def CloneJob.misconfigured (job : CloneJob) : Bool := isSshUrl job.url && job.sshKeyId.isNone

/-- `str(target_dir)` -/
def CloneJob.target (job : CloneJob) : Option String :=
  (defaultCloneDir job.netlocOk job.base job.profileName job.url).map fun dir =>
    PosixPath.render dir.root dir.comps

inductive ClonerPhase where
  | idle
  /-- The row is read. -/
  | ready
  | misconfigured
  /-- The status is `pending`. -/
  | pending
  | located (target : String)
  /-- The private key is there, if there has to be one. -/
  | keyed (target : String)
  /-- Behind the look of `clone_repo` at the directory. -/
  | clear (target : String)
  /-- Behind the look of `git` at it. -/
  | looked (target : String) (existed : Bool)
  | cloning (target : String) (existed : Bool)
  /-- In the handler of the exception. -/
  | failed (error : String)
  | complete (target : String)
  /-- `local_path` is written. -/
  | registered (target : String)
  /-- The exit code. -/
  | exited (code : Nat)
  /-- An exception outside of the `try`. -/
  | died
deriving DecidableEq

inductive CloneAnswer where
  | done
  /-- No such repo. -/
  | missing
  | raised (text : String)
  /-- `CalledProcessError` -/
  | gitFailed (text : String)
  /-- `TimeoutExpired` -/
  | killed (text : String)
deriving DecidableEq

structure CloneStep (T : Type) where
  thread : T
  answer : CloneAnswer := .done

structure Clones (T : Type) where
  status : CloneStatus := .manual
  errorMsg : Option String := none
  localPath : String := ""
  dir : CloneDir := .absent
  phase : T → ClonerPhase := fun _ => .idle

namespace ClonerPhase

/-- Inside the `try`. -/
def isGuarded : ClonerPhase → Bool
  | located _ | keyed _ | clear _ | looked _ _ | cloning _ _ => true
  | _ => false

/-- The process does not go on. -/
def isAtRest : ClonerPhase → Bool
  | idle | exited _ | died => true
  | _ => false

end ClonerPhase

namespace Clones

variable {T : Type} [DecidableEq T] (job : CloneJob) (s : Clones T) (t : T)

def become (phase : ClonerPhase) : Clones T :=
  { s with phase := Function.update s.phase t phase }

/-- `set_clone_status(repo_id, status, error_msg)` -/
def setCloneStatus (status : CloneStatus) (errorMsg : Option String) : Clones T :=
  { s with status, errorMsg }

/-- `clone_repo`, as far as the directory is concerned. -/
def cloneRepo : ClonerPhase → Option (Clones T)
  | .keyed target =>
      if s.dir.isNonempty then
        some (s.become t (.failed ("target dir non-empty: " ++ target)))
      else some (s.become t (.clear target))
  | .clear target =>
      if s.dir.isNonempty then some (s.become t (.failed "git clone: exit status 128"))
      else some (s.become t (.looked target (s.dir = .empty)))
  | .looked target existed =>
      if existed || s.dir = .absent then
        some { s.become t (.cloning target existed) with dir := .files }
      else some (s.become t (.failed "git clone: exit status 128"))
  | .cloning target _ =>
      if s.dir.isNonempty then some { s.become t (.complete target) with dir := .checkout }
      else none
  | _ => none

/-- `main()`, and `clone_repo` in it. -/
def step (a : CloneStep T) : Option (Clones T) :=
  match s.phase a.thread, a.answer with
  | .idle, .missing => some (s.become a.thread (.exited 2))
  | .idle, .done =>
      some (s.become a.thread (if job.misconfigured then .misconfigured else .ready))
  | .misconfigured, .done =>
      some ((s.setCloneStatus .error (some "SSH URL but no ssh_key_id")).become a.thread (.exited 2))
  | .ready, .done => some ((s.setCloneStatus .pending none).become a.thread .pending)
  | .pending, .done =>
      match job.target with
      | some target => some (s.become a.thread (.located target))
      | none => some (s.become a.thread .died)
  | .located target, .done => some (s.become a.thread (.keyed target))
  | .failed error, .done =>
      some ((s.setCloneStatus .error (some (String.ofList (error.toList.take 500)))).become a.thread
        (.exited 1))
  | .complete target, .done =>
      some { s.become a.thread (.registered target) with localPath := target }
  | .registered _, .done => some ((s.setCloneStatus .cloned none).become a.thread (.exited 0))
  | phase, .done => s.cloneRepo a.thread phase
  | .looked _ _, .gitFailed text | .clear _, .gitFailed text =>
      some (s.become a.thread (.failed text))
  | .cloning _ existed, .gitFailed text =>
      some { s.become a.thread (.failed text) with
        dir := if existed then .empty else .absent }
  | .cloning _ _, .killed text => some (s.become a.thread (.failed text))
  | phase, .raised text =>
      if phase.isAtRest then none
      else some (s.become a.thread (if phase.isGuarded then .failed text else .died))
  | _, _ => none

end Clones

end OdooSemantic
