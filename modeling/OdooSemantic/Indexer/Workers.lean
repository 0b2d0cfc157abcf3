import Mathlib.Logic.Function.Basic
import OdooSemantic.Indexer.Pipeline
import OdooSemantic.Lib.Machine

/-!
# Workers in parallel

`index_profile` with `max_workers > 1` submits one `_worker` a repo, and several profiles may
be indexed at once, each under its own lock. All workers share the index and the database, and
nothing but a single transaction is atomic. So a worker is where its run is: before it, in the
middle of its plan, or at the end, and the system takes any step of any worker.

A worker reads `head_sha` when it starts and decides there; what it does afterwards it does
whatever has become of the row. The log is not part of the program. It records the four things
a statement about the order of steps has to mention, newest first.
-/

namespace OdooSemantic

open Machine

variable {Vec : Type}

/-- One call of `_worker`: what is indexed, in which checkout, how. -/
structure Worker (Vec : Type) where
  repo : Repo
  checkout : Checkout
  opts : RunOptions Vec

inductive Progress (Vec : Type) where
  | waiting
  | running (steps : List (IndexStep Vec)) (l : Locals)
  | done

/-- The transactions a worker has not executed. -/
def Progress.remaining : Progress Vec → List (IndexStep Vec)
  | running steps _ => steps
  | _ => []

inductive Event where
  | started (worker : Nat)
  | wrote (worker : Nat)
  | updated (worker : Nat) (repoId : Nat)
  | reset (worker : Nat) (repoIds : List Nat)
deriving DecidableEq

def Event.worker : Event → Nat
  | started i => i
  | wrote i => i
  | updated i _ => i
  | reset i _ => i

/-- What a transaction of worker `i` puts in the log. -/
def IndexStep.events (i : Nat) (l : Locals) : IndexStep Vec → List Event
  | write _ => [.wrote i]
  | db (.updateHeadSha repoId _) => [.updated i repoId]
  | db .resetHeadSha => [.reset i l.depRepoIds]
  | db _ => []

structure System (Vec : Type) where
  world : World Vec
  progress : Nat → Progress Vec
  log : List Event

/-- Nothing has started. -/
def System.initial (w : World Vec) : System Vec := ⟨w, fun _ => .waiting, []⟩

inductive Action where
  /-- The worker reads `head_sha` and makes its plan. -/
  | start (worker : Nat)
  /-- It executes its next transaction. -/
  | exec (worker : Nat)
  /-- It raises. -/
  | crash (worker : Nat)
deriving DecidableEq

namespace System

variable (workers : Nat → Worker Vec)

def setProgress (s : System Vec) (i : Nat) (p : Progress Vec) : Nat → Progress Vec :=
  Function.update s.progress i p

def step (s : System Vec) : Action → Option (System Vec)
  | .start i =>
      match s.progress i with
      | .waiting =>
          let me := workers i
          match planIndexRepo me.repo me.checkout me.opts
              (s.world.db.getRepoHeadSha me.repo.id) with
          | .error _ =>
              some { s with progress := s.setProgress i .done, log := .started i :: s.log }
          | .ok plan =>
              some { s with
                progress := s.setProgress i (.running plan.steps {}), log := .started i :: s.log }
      | _ => none
  | .exec i =>
      match s.progress i with
      | .running [] _ => some { s with progress := s.setProgress i .done }
      | .running (t :: rest) l =>
          match t.exec (l, s.world) with
          | .error _ => some { s with progress := s.setProgress i .done }
          | .ok (l', w) => some ⟨w, s.setProgress i (.running rest l'), t.events i l ++ s.log⟩
      | _ => none
  | .crash i =>
      match s.progress i with
      | .running _ _ => some { s with progress := s.setProgress i .done }
      | _ => none

/-- What a step can do: a worker starts, stops, or executes its next transaction. -/
theorem step_cases {s s' : System Vec} {a : Action} (h : s.step workers a = some s') :
    (∃ i p, a = .start i ∧ s.progress i = .waiting ∧ (p = .done ∨
        ∃ plan, planIndexRepo (workers i).repo (workers i).checkout (workers i).opts
          (s.world.db.getRepoHeadSha (workers i).repo.id) = .ok plan ∧ p = .running plan.steps {}) ∧
        s' = { s with progress := s.setProgress i p, log := .started i :: s.log }) ∨
    (∃ i steps l, s.progress i = .running steps l ∧
        s' = { s with progress := s.setProgress i .done }) ∨
    (∃ i t rest l l' w, a = .exec i ∧ s.progress i = .running (t :: rest) l ∧
        t.exec (l, s.world) = .ok (l', w) ∧
        s' = ⟨w, s.setProgress i (.running rest l'), t.events i l ++ s.log⟩) := by
  cases a with
  | start i =>
    simp only [step] at h
    cases hp : s.progress i with
    | waiting =>
      rw [hp] at h
      dsimp only at h
      cases hplan : planIndexRepo (workers i).repo (workers i).checkout (workers i).opts
          (s.world.db.getRepoHeadSha (workers i).repo.id) with
      | error e =>
        rw [hplan] at h
        exact Or.inl ⟨i, _, rfl, hp, Or.inl rfl, (Option.some.inj h).symm⟩
      | ok plan =>
        rw [hplan] at h
        exact Or.inl ⟨i, _, rfl, hp, Or.inr ⟨plan, hplan, rfl⟩, (Option.some.inj h).symm⟩
    | running steps l => rw [hp] at h; exact absurd h (by simp)
    | done => rw [hp] at h; exact absurd h (by simp)
  | exec i =>
    simp only [step] at h
    cases hp : s.progress i with
    | waiting => rw [hp] at h; exact absurd h (by simp)
    | running steps l =>
      rw [hp] at h
      cases steps with
      | nil => exact Or.inr (Or.inl ⟨i, [], l, hp, (Option.some.inj h).symm⟩)
      | cons t rest =>
        dsimp only at h
        cases ht : t.exec (l, s.world) with
        | error e =>
          rw [ht] at h
          exact Or.inr (Or.inl ⟨i, t :: rest, l, hp, (Option.some.inj h).symm⟩)
        | ok lw =>
          rw [ht] at h
          exact Or.inr (Or.inr ⟨i, t, rest, l, lw.1, lw.2, rfl, hp, ht, (Option.some.inj h).symm⟩)
    | done => rw [hp] at h; exact absurd h (by simp)
  | crash i =>
    simp only [step] at h
    cases hp : s.progress i with
    | waiting => rw [hp] at h; exact absurd h (by simp)
    | running steps l =>
      rw [hp] at h
      exact Or.inr (Or.inl ⟨i, steps, l, hp, (Option.some.inj h).symm⟩)
    | done => rw [hp] at h; exact absurd h (by simp)

end System

end OdooSemantic
