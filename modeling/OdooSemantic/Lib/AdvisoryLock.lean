import Mathlib.Logic.Function.Basic

/-!
# Session-level advisory locks

A lock is a number. It belongs to one session at a time, which may take it again and has to give
it back as often; a session that ends gives back all of its locks. Taking a lock never waits: it
says whether the lock was to be had.
-/

namespace OdooSemantic

/-- The session that has a lock, and how often it has taken it beyond the first time. -/
structure AdvisoryLocks (T : Type) where
  holder : Nat → Option (T × Nat) := fun _ => none

namespace AdvisoryLocks

variable {T : Type} [DecidableEq T] (s : AdvisoryLocks T) (t u : T) (id id' : Nat)

/-- `pg_try_advisory_lock(id)`: whether the lock was to be had. -/
def available : Bool :=
  match s.holder id with
  | none => true
  | some (u, _) => u = t

/-- `pg_try_advisory_lock(id)`: the locks afterwards. -/
def tryLock : AdvisoryLocks T :=
  match s.holder id with
  | none => { holder := Function.update s.holder id (some (t, 0)) }
  | some (u, n) => if u = t then { holder := Function.update s.holder id (some (t, n + 1)) } else s

/-- `pg_advisory_unlock(id)` -/
def unlock : AdvisoryLocks T :=
  match s.holder id with
  | some (u, 0) => if u = t then { holder := Function.update s.holder id none } else s
  | some (u, n + 1) => if u = t then { holder := Function.update s.holder id (some (u, n)) } else s
  | none => s

/-- The session is over. -/
def endSession : AdvisoryLocks T where
  holder id := (s.holder id).filter fun h => h.1 ≠ t

variable {s t u id id'}

theorem available_iff : s.available t id = true ↔ ∀ u n, s.holder id = some (u, n) → u = t := by
  unfold available
  cases hh : s.holder id with
  | none => simp
  | some h =>
    obtain ⟨v, m⟩ := h
    constructor
    · intro hv u n heq
      obtain rfl := (Prod.mk.inj (Option.some.inj heq)).1
      simpa using hv
    · intro hall
      simpa using hall v m rfl

theorem tryLock_of_not_available (h : s.available t id = false) : s.tryLock t id = s := by
  unfold available at h
  unfold tryLock
  cases hh : s.holder id with
  | none =>
    rw [hh] at h
    exact absurd h (by simp)
  | some held =>
    rw [hh] at h
    exact if_neg (by simpa using h)

theorem holder_tryLock_of_free (h : s.holder id = none) :
    (s.tryLock t id).holder = Function.update s.holder id (some (t, 0)) := by
  simp only [tryLock, h]

theorem holder_unlock (h : s.holder id = some (t, 0)) :
    (s.unlock t id).holder = Function.update s.holder id none := by
  simp only [unlock, h, if_true]

/-- Who has the lock keeps it, whatever the others do. -/
theorem holder_tryLock_of_ne {n : Nat} (h : s.holder id = some (u, n)) (hu : u ≠ t) :
    (s.tryLock t id').holder id = some (u, n) := by
  by_cases hid : id = id'
  · subst hid
    simp only [tryLock, h, if_neg hu]
  · unfold tryLock
    split
    · exact (Function.update_of_ne hid _ _).trans h
    · split
      · exact (Function.update_of_ne hid _ _).trans h
      · exact h

theorem holder_unlock_of_ne {n : Nat} (h : s.holder id = some (u, n)) (hu : u ≠ t) :
    (s.unlock t id').holder id = some (u, n) := by
  by_cases hid : id = id'
  · subst hid
    cases n <;> simp only [unlock, h, if_neg hu]
  · unfold unlock
    split
    · split
      · exact (Function.update_of_ne hid _ _).trans h
      · exact h
    · split
      · exact (Function.update_of_ne hid _ _).trans h
      · exact h
    · exact h

/-- The lock was to be had, and now it is this session's. -/
theorem holder_tryLock_of_available (h : s.available t id = true) :
    ∃ n, (s.tryLock t id).holder id = some (t, n) := by
  unfold available at h
  unfold tryLock
  cases hh : s.holder id with
  | none => exact ⟨0, Function.update_self _ _ _⟩
  | some held =>
    obtain ⟨v, m⟩ := held
    rw [hh] at h
    have hv : v = t := by simpa using h
    refine ⟨m + 1, ?_⟩
    simp only [if_pos hv, Function.update_self]

theorem holder_endSession_eq_some {h : T × Nat} :
    (s.endSession t).holder id = some h ↔ s.holder id = some h ∧ h.1 ≠ t := by
  simp [endSession, Option.filter_eq_some_iff]

end AdvisoryLocks

end OdooSemantic
