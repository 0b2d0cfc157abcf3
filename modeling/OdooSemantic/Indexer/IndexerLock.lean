import Mathlib.Algebra.Group.Nat.Defs
import OdooSemantic.Lib.AdvisoryLock

/-!
# The indexer lock of `src/indexer/pipeline.py`

One advisory lock a profile. `index_profile` runs inside `_indexer_lock`, and fails at once where
the lock is not to be had. `indexer_is_running` asks by taking the lock and giving it back.

Each call has a session of its own for as long as it lasts: the indexer's connection is opened for
it, a peek has one checked out of the pool. A session serves one call after the other. A process
may die at any moment, and its session with it.
-/

namespace OdooSemantic

/-- Where a session is. -/
inductive LockPhase where
  | idle
  /-- `index_profile`, before its lock. -/
  | starting (profile : String)
  /-- Inside `_indexer_lock`. -/
  | indexing (profile : String)
  /-- "Indexer already running for profile …" -/
  | refused (profile : String)
  /-- `indexer_is_running`, before its lock. -/
  | peeking (profile : String)
  /-- Behind `pg_try_advisory_lock`. -/
  | peeked (profile : String) (acquired : Bool)
  | answered (profile : String) (running : Bool)
deriving DecidableEq

/-- The session can serve another call. -/
def LockPhase.isFree : LockPhase → Bool
  | idle | refused _ | answered _ _ => true
  | _ => false

inductive LockAct (T : Type) where
  | index (t : T) (profile : String)
  | peek (t : T) (profile : String)
  /-- `pg_try_advisory_lock` -/
  | lock (t : T)
  /-- The way out of `advisory_lock`, by an exception or not. -/
  | leave (t : T)
  | crash (t : T)

structure IndexLocks (T : Type) where
  locks : AdvisoryLocks T := {}
  phase : T → LockPhase := fun _ => .idle

/-- `_profile_lock_id(profile_name)` -/
def profileLockId (md5 : String → Nat) (profile : String) : Nat :=
  md5 ("odoo-semantic-" ++ profile) % 2 ^ 31

namespace IndexLocks

variable {T : Type} [DecidableEq T] (md5 : String → Nat)

def become (s : IndexLocks T) (t : T) (locks : AdvisoryLocks T) (phase : LockPhase) :
    IndexLocks T where
  locks := locks
  phase := Function.update s.phase t phase

section Become

variable (s : IndexLocks T) (t : T) (locks : AdvisoryLocks T) (phase : LockPhase)

@[simp] theorem locks_become : (s.become t locks phase).locks = locks := rfl

@[simp] theorem phase_become_self : (s.become t locks phase).phase t = phase := by simp [become]

theorem phase_become_ne {u : T} (hu : u ≠ t) : (s.become t locks phase).phase u = s.phase u := by
  simp [become, hu]

end Become

def step (s : IndexLocks T) : LockAct T → Option (IndexLocks T)
  | .index t profile =>
      if (s.phase t).isFree then some (s.become t s.locks (.starting profile)) else none
  | .peek t profile =>
      if (s.phase t).isFree then some (s.become t s.locks (.peeking profile)) else none
  | .lock t =>
      match s.phase t with
      | .starting profile =>
          let id := profileLockId md5 profile
          some (s.become t (s.locks.tryLock t id)
            (if s.locks.available t id then .indexing profile else .refused profile))
      | .peeking profile =>
          let id := profileLockId md5 profile
          some (s.become t (s.locks.tryLock t id) (.peeked profile (s.locks.available t id)))
      | _ => none
  | .leave t =>
      match s.phase t with
      | .indexing profile =>
          some (s.become t (s.locks.unlock t (profileLockId md5 profile)) .idle)
      | .peeked profile acquired =>
          some (s.become t
            (if acquired then s.locks.unlock t (profileLockId md5 profile) else s.locks)
            (.answered profile !acquired))
      | _ => none
  | .crash t => some (s.become t (s.locks.endSession t) .idle)

end IndexLocks

end OdooSemantic
