import OdooSemantic.Indexer.IndexerLock
import OdooSemantic.Lib.Machine

/-!
# One indexer a profile, and who is turned away

Two indexers of one profile never run together, and `indexer_is_running` sees one that runs for
as long as it is asked. But it takes the lock it asks for: an indexer that starts between its two
statements is refused, and so is one whose profile shares its lock number with another
(`indexer_lock`).
-/

namespace OdooSemantic
namespace IndexLocks

variable {T : Type} [DecidableEq T]

def Indexing (s : IndexLocks T) (t : T) (profile : String) : Prop := s.phase t = .indexing profile

/-- No peek has the lock of the profile, and no indexer of another profile. -/
def StartClear (md5 : String → Nat) (s : IndexLocks T) (profile : String) : Prop :=
  ∀ u q, profileLockId md5 q = profileLockId md5 profile →
    s.phase u ≠ .peeked q true ∧ (s.Indexing u q → q = profile)

end IndexLocks

/-- The lock that the session has. -/
def LockPhase.holds (md5 : String → Nat) : LockPhase → Option Nat
  | indexing profile => some (profileLockId md5 profile)
  | peeked profile true => some (profileLockId md5 profile)
  | _ => none

namespace IndexLocks

variable {T : Type} [DecidableEq T] {md5 : String → Nat} {s s' : IndexLocks T} {a : LockAct T}
  {t u : T} {id : Nat}

/-- Locks are held by those who are where they hold one, and once each. -/
def Tidy (md5 : String → Nat) (s : IndexLocks T) : Prop :=
  ∀ id t n, s.locks.holder id = some (t, n) ↔ n = 0 ∧ (s.phase t).holds md5 = some id

omit [DecidableEq T] in
theorem holds_of_indexing {profile : String} (h : s.Indexing t profile) :
    (s.phase t).holds md5 = some (profileLockId md5 profile) := by
  rw [show s.phase t = .indexing profile from h]
  rfl

omit [DecidableEq T] in
theorem Tidy.unique (h : s.Tidy md5) (ht : (s.phase t).holds md5 = some id)
    (hu : (s.phase u).holds md5 = some id) : t = u := by
  have ht' := (h id t 0).mpr ⟨rfl, ht⟩
  have hu' := (h id u 0).mpr ⟨rfl, hu⟩
  exact (Prod.mk.inj (Option.some.inj (ht'.symm.trans hu'))).1

/-- Somebody else has a lock that is not to be had. -/
theorem Tidy.available_iff (h : s.Tidy md5) (ht : (s.phase t).holds md5 = none) :
    s.locks.available t id = true ↔ ∀ u, (s.phase u).holds md5 ≠ some id := by
  rw [AdvisoryLocks.available_iff]
  constructor
  · intro hall u hu
    have heq := hall u 0 ((h id u 0).mpr ⟨rfl, hu⟩)
    rw [heq, ht] at hu
    exact absurd hu (by simp)
  · intro hnone u n hheld
    exact absurd ((h id u n).mp hheld).2 (hnone u)

/-! ## What a step does to the locks -/

/-- A step that leaves the locks alone, from a session without one to a session without one. -/
theorem Tidy.become (h : s.Tidy md5) {p : LockPhase} (ht : (s.phase t).holds md5 = none)
    (hp : p.holds md5 = none) : (s.become t s.locks p).Tidy md5 := by
  intro id u n
  rw [locks_become, h id u n]
  by_cases hu : u = t
  · subst hu
    rw [phase_become_self, ht, hp]
  · rw [phase_become_ne _ _ _ _ hu]

/-- The lock was free, and is taken. -/
theorem Tidy.take (h : s.Tidy md5) {p : LockPhase} (ht : (s.phase t).holds md5 = none)
    (hp : p.holds md5 = some id) (hfree : s.locks.available t id = true) :
    (s.become t (s.locks.tryLock t id) p).Tidy md5 := by
  have hnone : s.locks.holder id = none := by
    cases hh : s.locks.holder id with
    | none => rfl
    | some held => exact absurd ((h id held.1 held.2).mp hh).2 ((h.available_iff ht).mp hfree _)
  intro id' u n
  rw [locks_become, AdvisoryLocks.holder_tryLock_of_free hnone]
  by_cases hid : id' = id
  · subst hid
    rw [Function.update_self]
    by_cases hu : u = t
    · subst hu
      simp [hp, eq_comm]
    · have hother := (h.available_iff ht).mp hfree u
      simp [phase_become_ne _ _ _ _ hu, hother, Ne.symm hu]
  · rw [Function.update_of_ne hid, h id' u n]
    by_cases hu : u = t
    · subst hu
      simp [ht, hp, Ne.symm hid]
    · rw [phase_become_ne _ _ _ _ hu]

/-- The lock is given back. -/
theorem Tidy.giveBack (h : s.Tidy md5) {p : LockPhase} (ht : (s.phase t).holds md5 = some id)
    (hp : p.holds md5 = none) : (s.become t (s.locks.unlock t id) p).Tidy md5 := by
  have hheld := (h id t 0).mpr ⟨rfl, ht⟩
  intro id' u n
  rw [locks_become, AdvisoryLocks.holder_unlock hheld]
  by_cases hid : id' = id
  · subst hid
    rw [Function.update_self]
    by_cases hu : u = t
    · subst hu
      simp [hp]
    · have hother : (s.phase u).holds md5 ≠ some id' := fun hu' => hu (h.unique hu' ht)
      simp [phase_become_ne _ _ _ _ hu, hother]
  · rw [Function.update_of_ne hid, h id' u n]
    by_cases hu : u = t
    · subst hu
      simp [ht, hp, Ne.symm hid]
    · rw [phase_become_ne _ _ _ _ hu]

theorem Tidy.crash (h : s.Tidy md5) (t : T) :
    (s.become t (s.locks.endSession t) .idle).Tidy md5 := by
  intro id u n
  rw [locks_become, AdvisoryLocks.holder_endSession_eq_some, h id u n]
  by_cases hu : u = t
  · subst hu
    simp [LockPhase.holds]
  · simp [phase_become_ne _ _ _ _ hu, hu]

theorem tidy_step (hstep : s.step md5 a = some s') (h : s.Tidy md5) : s'.Tidy md5 := by
  cases a with
  | index t profile | peek t profile =>
    rw [step] at hstep
    split at hstep
    · rename_i hfree
      obtain rfl := Option.some.inj hstep
      refine h.become ?_ rfl
      cases hp : s.phase t <;> simp_all [LockPhase.isFree, LockPhase.holds]
    · exact absurd hstep (by simp)
  | lock t =>
    rw [step] at hstep
    split at hstep
    · rename_i profile hphase
      obtain rfl := Option.some.inj hstep
      have ht : (s.phase t).holds md5 = none := by rw [hphase]; rfl
      by_cases hav : s.locks.available t (profileLockId md5 profile) = true
      · rw [if_pos hav]
        exact h.take ht rfl hav
      · rw [if_neg hav, AdvisoryLocks.tryLock_of_not_available (by simpa using hav)]
        exact h.become ht rfl
    · rename_i profile hphase
      obtain rfl := Option.some.inj hstep
      have ht : (s.phase t).holds md5 = none := by rw [hphase]; rfl
      cases hav : s.locks.available t (profileLockId md5 profile) with
      | true => exact h.take ht rfl hav
      | false =>
        rw [AdvisoryLocks.tryLock_of_not_available hav]
        exact h.become ht rfl
    · exact absurd hstep (by simp)
  | leave t =>
    rw [step] at hstep
    split at hstep
    · rename_i profile hphase
      obtain rfl := Option.some.inj hstep
      exact h.giveBack (by rw [hphase]; rfl) rfl
    · rename_i profile acquired hphase
      obtain rfl := Option.some.inj hstep
      cases acquired with
      | true => exact h.giveBack (by rw [hphase]; rfl) rfl
      | false => exact h.become (by rw [hphase]; rfl) rfl
    · exact absurd hstep (by simp)
  | crash t =>
    obtain rfl := Option.some.inj hstep
    exact h.crash t

omit [DecidableEq T] in
theorem tidy_start : ({} : IndexLocks T).Tidy md5 := fun id t n => by simp [LockPhase.holds]

/-! ## A peek while an indexer runs -/

/-- The peek has not found the lock free, and will not say that it did. -/
def SeesIndexer (s : IndexLocks T) (t : T) (profile : String) : Prop :=
  s.phase t ≠ .peeked profile true ∧ s.phase t ≠ .answered profile false

theorem SeesIndexer.become {v : T} {profile : String} (h : s.SeesIndexer t profile)
    (locks : AdvisoryLocks T) {p : LockPhase}
    (hp : v = t → p ≠ .peeked profile true ∧ p ≠ .answered profile false) :
    (s.become v locks p).SeesIndexer t profile := by
  unfold SeesIndexer
  by_cases hv : t = v
  · subst hv
    rw [phase_become_self]
    exact hp rfl
  · rw [phase_become_ne _ _ _ _ hv]
    exact h

theorem seesIndexer_step {profile : String} (hstep : s.step md5 a = some s') (h : s.Tidy md5)
    (hu : s.Indexing u profile) (ht : s.SeesIndexer t profile) : s'.SeesIndexer t profile := by
  cases a with
  | index v q | peek v q =>
    rw [step] at hstep
    split at hstep
    · obtain rfl := Option.some.inj hstep
      exact ht.become _ fun _ => by simp
    · exact absurd hstep (by simp)
  | lock v =>
    rw [step] at hstep
    split at hstep
    · obtain rfl := Option.some.inj hstep
      refine ht.become _ fun _ => ?_
      split <;> simp
    · rename_i q hphase
      obtain rfl := Option.some.inj hstep
      refine ht.become _ fun _ => ⟨fun heq => ?_, by simp⟩
      -- the indexer has the lock now
      injection heq with hq hav
      subst hq
      have hfree := (h.available_iff (by rw [hphase]; rfl)).mp hav u
      exact hfree (by rw [hu]; rfl)
    · exact absurd hstep (by simp)
  | leave v =>
    rw [step] at hstep
    split at hstep
    · obtain rfl := Option.some.inj hstep
      exact ht.become _ fun _ => by simp
    · rename_i q acquired hphase
      obtain rfl := Option.some.inj hstep
      refine ht.become _ fun hv => ⟨by simp, fun heq => ?_⟩
      injection heq with hq hacquired
      have htrue : acquired = true := by simpa using hacquired
      subst hv hq
      exact ht.1 (by rw [hphase, htrue])
    · exact absurd hstep (by simp)
  | crash v =>
    obtain rfl := Option.some.inj hstep
    exact ht.become _ fun _ => by simp

/-! ## A start -/

/-- Nobody but an indexer of the profile is in the way of a start. -/
theorem refused_iff {profile : String} (h : s.Tidy md5) (ht : s.phase t = .starting profile)
    (hstep : s.step md5 (.lock t) = some s') :
    s'.phase t = .refused profile ↔
      ∃ u, (s.phase u).holds md5 = some (profileLockId md5 profile) := by
  rw [step, ht] at hstep
  obtain rfl := Option.some.inj hstep
  rw [phase_become_self]
  have hav : s.locks.available t (profileLockId md5 profile) = true ↔
      ∀ u, (s.phase u).holds md5 ≠ some (profileLockId md5 profile) :=
    h.available_iff (by rw [ht]; rfl)
  split
  · rename_i hfree
    simp only [reduceCtorEq, false_iff, not_exists]
    exact hav.mp hfree
  · rename_i hheld
    simp only [true_iff]
    by_contra hnone
    exact hheld (hav.mpr fun u hu => hnone ⟨u, hu⟩)

end IndexLocks

/-- **Indexers of one profile exclude each other, a peek sees them, and a start is refused on
    account of one exactly where no peek and no other profile has the lock.** -/
theorem indexer_lock {T : Type} [DecidableEq T] (md5 : String → Nat) {acts : List (LockAct T)}
    {s : IndexLocks T}
    (hrun : Machine.Runs (IndexLocks.step md5) (fun _ _ => True) {} acts s) :
    (∀ t u profile, s.Indexing t profile → s.Indexing u profile → t = u) ∧
    (∀ t u profile acts' s',
      Machine.Runs (IndexLocks.step md5) (fun s _ => s.Indexing u profile) s acts' s' →
      s.phase t = .peeking profile → ∀ running, s'.phase t = .answered profile running →
        running = true) ∧
    ∀ t profile s', s.phase t = .starting profile → s.step md5 (.lock t) = some s' →
      ((s'.phase t = .refused profile → ∃ u, u ≠ t ∧ s.Indexing u profile) ↔
        s.StartClear md5 profile) := by
  have htidy := hrun.invariant (fun _ _ _ hstep _ h => IndexLocks.tidy_step hstep h)
    IndexLocks.tidy_start
  refine ⟨fun t u profile ht hu => ?_, fun t u profile acts' s' hrun' ht => ?_,
    fun t profile s' ht hstep => ?_⟩
  · exact htidy.unique (IndexLocks.holds_of_indexing ht) (IndexLocks.holds_of_indexing hu)
  · have hkeeps : ∀ s a s', IndexLocks.step md5 s a = some s' → s.Indexing u profile →
        s.Tidy md5 ∧ s.SeesIndexer t profile → s'.Tidy md5 ∧ s'.SeesIndexer t profile :=
      fun _ _ _ hstep hu h =>
        ⟨IndexLocks.tidy_step hstep h.1, IndexLocks.seesIndexer_step hstep h.1 hu h.2⟩
    have hsees := hrun'.invariant hkeeps ⟨htidy, by simp [IndexLocks.SeesIndexer, ht]⟩
    intro running hanswer
    cases running with
    | true => rfl
    | false => exact absurd hanswer hsees.2.2
  · rw [IndexLocks.refused_iff htidy ht hstep]
    constructor
    · intro hindexing u q hid
      refine ⟨fun hpeek => ?_, fun hu => ?_⟩
      · obtain ⟨v, -, hv⟩ := hindexing ⟨u, by rw [hpeek, ← hid]; rfl⟩
        have hholds : (s.phase u).holds md5 = some (profileLockId md5 profile) := by
          rw [hpeek, ← hid]
          rfl
        obtain rfl := htidy.unique hholds (IndexLocks.holds_of_indexing hv)
        exact absurd (hpeek.symm.trans hv) (by simp)
      · obtain ⟨v, -, hv⟩ := hindexing ⟨u, by rw [hu, ← hid]; rfl⟩
        have hholds : (s.phase u).holds md5 = some (profileLockId md5 profile) := by
          rw [hu, ← hid]
          rfl
        obtain rfl := htidy.unique hholds (IndexLocks.holds_of_indexing hv)
        injection hu.symm.trans hv
    · rintro hclear ⟨u, hu⟩
      have hne : u ≠ t := by
        rintro rfl
        rw [ht] at hu
        exact absurd hu (by simp [LockPhase.holds])
      refine ⟨u, hne, ?_⟩
      unfold IndexLocks.Indexing
      cases hphase : s.phase u with
      | indexing q =>
        rw [hphase] at hu
        rw [(hclear u q (Option.some.inj hu)).2 hphase]
      | peeked q acquired =>
        rw [hphase] at hu
        cases acquired with
        | true => exact absurd hphase (hclear u q (Option.some.inj hu)).1
        | false => exact absurd hu (by simp [LockPhase.holds])
      | idle | starting _ | refused _ | peeking _ | answered _ _ =>
        rw [hphase] at hu
        exact absurd hu (by simp [LockPhase.holds])

/-! ## A start between the two statements of a peek -/

namespace PeekedStart

def md5 (text : String) : Nat := text.length

def peekFirst : List (LockAct Bool) :=
  [.peek true "odoo17", .lock true, .index false "odoo17"]

def startFirst : List (LockAct Bool) :=
  [.index false "odoo17", .lock false, .peek true "odoo17"]

def after (acts : List (LockAct Bool)) : IndexLocks Bool :=
  (Machine.replay (IndexLocks.step md5) (fun _ _ => true) acts {}).getD {}

theorem run_after (acts : List (LockAct Bool))
    (h : (Machine.replay (IndexLocks.step md5) (fun _ _ => true) acts {}).isSome) :
    Machine.Runs (IndexLocks.step md5) (fun _ _ => True) {} acts (after acts) := by
  obtain ⟨s, hs⟩ := Option.isSome_iff_exists.mp h
  exact Machine.runs_getD hs {}

/-- The indexer is alone, and is seen; and another start would be refused for its sake. -/
theorem indexer_lock_alone :
    (∀ t, (after startFirst).Indexing t "odoo17" → t = false) ∧
    (∀ acts s', Machine.Runs (IndexLocks.step md5) (fun s _ => s.Indexing false "odoo17")
      (after startFirst) acts s' → ∀ running, s'.phase true = .answered "odoo17" running →
        running = true) ∧
    (after [.index true "odoo17"]).StartClear md5 "odoo17" := by
  have hrun := indexer_lock md5 (run_after startFirst rfl)
  have hstart := indexer_lock md5 (run_after [.index true "odoo17"] rfl)
  refine ⟨fun t ht => hrun.1 t false _ ht rfl,
    fun acts s' hrun' => hrun.2.1 true false _ acts s' hrun' rfl, ?_⟩
  refine (hstart.2.2 true "odoo17" (after [.index true "odoo17", .lock true]) rfl rfl).mp ?_
  intro hrefused
  exact absurd hrefused (by decide)

/-- **Refused on account of a peek.** -/
theorem start_refused_by_peek :
    ¬∀ acts s, Machine.Runs (IndexLocks.step md5) (fun _ _ => True) ({} : IndexLocks Bool) acts s →
      ∀ t profile s', s.phase t = .starting profile → s.step md5 (.lock t) = some s' →
        s'.phase t = .refused profile → ∃ u, u ≠ t ∧ s.Indexing u profile := by
  intro h
  obtain ⟨u, hu, hindexing⟩ := h peekFirst (after peekFirst) (run_after _ rfl) false "odoo17"
    (after (peekFirst ++ [.lock false])) rfl rfl rfl
  cases u with
  | false => exact hu rfl
  | true => exact absurd hindexing (by unfold IndexLocks.Indexing; decide)

end PeekedStart

end OdooSemantic
