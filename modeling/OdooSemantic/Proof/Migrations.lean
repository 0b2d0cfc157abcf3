import OdooSemantic.Db.Migrate
import OdooSemantic.Lib.Exclusion
import OdooSemantic.Lib.Machine

/-!
# Each migration once, and in order

However many processes bring a schema up to date at a time, a migration is run by one of them, and
one that had a row before any of them began is not run at all; nor is the baseline, on a database
that is older than yoyo (`migrations_run_once`). Where they all have the same migrations, what has
been run is at each moment a first part of what there was to run, and the whole of it when one of
them has ended well (`migrations_in_order`).

There are three things the lock does not help against, and `Orderly` says that they do not happen:
a call that has not got the lock goes on without it; yoyo writes the row of a migration when its
statements have been committed, so that a process that dies in between leaves a migration that
will be run once more; and a legacy database is told by the absence of yoyo's table, which is
made before the baseline gets its row.
-/

namespace OdooSemantic

/-! ## What a database has to do -/

namespace MigrationDb

/-- Older than yoyo. -/
def IsLegacy (db : MigrationDb) : Prop := db.yoyo = none ∧ db.apiKeys = true

instance (db : MigrationDb) : Decidable db.IsLegacy := inferInstanceAs (Decidable (_ ∧ _))

theorem schemaAlreadyExists_iff (db : MigrationDb) :
    db.schemaAlreadyExists = true ↔ db.IsLegacy := by
  rw [schemaAlreadyExists, Bool.and_eq_true, Option.isNone_iff_eq_none, IsLegacy]

/-- Not to be run on this database. -/
def Settled (db : MigrationDb) (id : String) : Prop :=
  id ∈ db.rows ∨ db.IsLegacy ∧ id = initialMigration

instance (db : MigrationDb) (id : String) : Decidable (db.Settled id) :=
  inferInstanceAs (Decidable (_ ∨ _))

/-- What there is to run. -/
def todo (db : MigrationDb) (migrations : MigrationList) : List String :=
  migrations.ids.filter fun id => ¬db.Settled id

end MigrationDb

/-! ## What one call leaves to the next -/

namespace MigrateStep

/-- Between two writes that belong together: what has been found has been made use of, and the
    next process will not find it so. -/
def isHalfway : MigrateStep → Bool
  | mark | record _ _ => true
  | _ => false

end MigrateStep

namespace Migrations

section Call

/-- What has become of `db₀`; the statements of `running` have been committed, and its row is
    still to come. -/
structure Migrated (db₀ db : MigrationDb) (running : Option String) : Prop where
  untouched : db.yoyo = none → db = db₀
  kept : ∀ id ∈ db₀.rows, id ∈ db.rows
  nodup : db.ran.Nodup
  fresh : ∀ id ∈ db.ran, ¬db₀.Settled id
  recorded : ∀ id ∈ db.ran, id ∈ db.rows ∨ running = some id
  rows : ∀ id ∈ db.rows, db₀.Settled id ∨ id ∈ db.ran

/-- The baseline of a legacy database has its row. -/
def Baselined (db₀ db : MigrationDb) : Prop := db₀.IsLegacy → initialMigration ∈ db.rows

/-- While nobody is at it. -/
structure Between (db₀ db : MigrationDb) : Prop where
  migrated : Migrated db₀ db none
  legacy : db₀.IsLegacy → initialMigration ∈ db.rows ∨ db.yoyo = none

/-- While a call is before the statement. -/
def Before (db₀ : MigrationDb) (migrations : MigrationList) (db : MigrationDb) :
    MigrateStep → Prop
  | .probeYoyo => Between db₀ db
  | .probeKeys => Between db₀ db ∧ db.yoyo = none
  | .baseline => Between db₀ db ∧ db.IsLegacy
  | .mark => Migrated db₀ db none ∧ db₀.IsLegacy
  | .plan => Migrated db₀ db none ∧ Baselined db₀ db
  | .execute id later =>
      Migrated db₀ db none ∧ Baselined db₀ db ∧ db.yoyo ≠ none ∧
        id :: later = db.toApply migrations
  | .record id later =>
      Migrated db₀ db (some id) ∧ Baselined db₀ db ∧ id :: later = db.toApply migrations ∧
        id ∈ db.ran

/-- … or behind the last one. -/
def Onward (db₀ : MigrationDb) (migrations : MigrationList) (db : MigrationDb) :
    Option MigrateStep → Prop
  | some st => Before db₀ migrations db st
  | none => Between db₀ db ∧ ∀ id ∈ migrations.ids, id ∈ db.rows

variable {db₀ db : MigrationDb} {migrations : MigrationList} {running : Option String}
  {id : String} {later : List String} {st : MigrateStep}

theorem Baselined.between (hb : Baselined db₀ db) (h : Migrated db₀ db none) : Between db₀ db :=
  ⟨h, fun hlegacy => Or.inl (hb hlegacy)⟩

/-- A database that is not a legacy one is not waiting for its baseline. -/
theorem Between.baselined (h : Between db₀ db) (hdb : ¬db.IsLegacy) : Baselined db₀ db := by
  intro hlegacy
  cases h.legacy hlegacy with
  | inl hrow => exact hrow
  | inr hnone =>
    rw [h.migrated.untouched hnone] at hdb
    exact absurd hlegacy hdb

theorem Migrated.ensureSchema (h : Migrated db₀ db running) :
    Migrated db₀ db.ensureSchema running :=
  ⟨fun hnone => absurd hnone (by simp [MigrationDb.ensureSchema]), h.kept, h.nodup, h.fresh,
    h.recorded, h.rows⟩

theorem Migrated.mark (h : Migrated db₀ db running) (hid : db₀.Settled id ∨ id ∈ db.ran)
    (hrunning : ∀ id', running = some id' → id' = id) : Migrated db₀ (db.mark id) none where
  untouched := fun hnone => absurd hnone (by simp [MigrationDb.mark])
  kept := fun id' hmem => List.mem_cons_of_mem _ (h.kept id' hmem)
  nodup := h.nodup
  fresh := h.fresh
  recorded := by
    intro id' hmem
    left
    cases h.recorded id' hmem with
    | inl hrow => exact List.mem_cons_of_mem _ hrow
    | inr heq =>
      rw [hrunning id' heq]
      exact List.mem_cons_self
  rows := by
    intro id' hmem
    cases List.mem_cons.mp hmem with
    | inl heq => exact heq ▸ hid
    | inr hrow => exact h.rows id' hrow

/-- A migration is run that has no row, and it is not settled: a row of `db₀` is still there, and
    the baseline of a legacy database has one by now. -/
theorem Migrated.execute (h : Migrated db₀ db none) (hb : Baselined db₀ db)
    (hid : id ∉ db.rows) (htable : db.yoyo ≠ none) :
    Migrated db₀ (db.execute id) (some id) where
  untouched := fun hnone => absurd hnone htable
  kept := h.kept
  nodup := by
    rw [MigrationDb.ran_execute, List.nodup_cons]
    refine ⟨fun hran => ?_, h.nodup⟩
    exact hid ((h.recorded id hran).resolve_right (by simp))
  fresh := by
    intro id' hmem
    cases List.mem_cons.mp hmem with
    | inr hran => exact h.fresh id' hran
    | inl heq =>
      subst heq
      intro hsettled
      cases hsettled with
      | inl hrow => exact hid (h.kept id' hrow)
      | inr hlegacy => exact hid (hlegacy.2 ▸ hb hlegacy.1)
  recorded := by
    intro id' hmem
    cases List.mem_cons.mp hmem with
    | inl heq => exact Or.inr (congrArg some heq.symm)
    | inr hran => exact Or.inl ((h.recorded id' hran).resolve_right (by simp))
  rows := fun id' hrow => (h.rows id' hrow).imp_right (List.mem_cons_of_mem _)

theorem nodup_toApply (db : MigrationDb) (migrations : MigrationList) :
    (db.toApply migrations).Nodup :=
  migrations.nodup.filter _

/-- With the row of its first, the others are what is left to apply. -/
theorem toApply_mark (h : id :: later = db.toApply migrations) :
    later = (db.mark id).toApply migrations := by
  have hnodup := nodup_toApply db migrations
  rw [← h, List.nodup_cons] at hnodup
  have hfilter : (db.mark id).toApply migrations =
      (db.toApply migrations).filter fun id' => id' ≠ id := by
    unfold MigrationDb.toApply
    rw [List.filter_filter]
    apply List.filter_congr
    intro id' _
    simp
  rw [hfilter, ← h, List.filter_cons_of_neg (by simp)]
  symm
  rw [List.filter_eq_self]
  intro id' hmem
  have hne : id' ≠ id := fun heq => hnodup.1 (heq ▸ hmem)
  simpa using hne

/-- `apply_migrations` goes on with what is to apply, and is done when that is nothing. -/
theorem onward_apply (h : Migrated db₀ db none) (hb : Baselined db₀ db) (htable : db.yoyo ≠ none)
    (hlater : later = db.toApply migrations) :
    Onward db₀ migrations db (MigrateStep.apply later) := by
  cases later with
  | cons id later => exact ⟨h, hb, htable, hlater⟩
  | nil =>
    refine ⟨hb.between h, fun id hid => ?_⟩
    have hnot := List.filter_eq_nil_iff.mp hlater.symm id hid
    simpa using hnot

/-- **One statement after the other.** -/
theorem before_run (h : Before db₀ migrations db st) :
    Onward db₀ migrations (st.run migrations db).1 (st.run migrations db).2 := by
  cases st with
  | probeYoyo =>
    show Before db₀ migrations db (if db.yoyo.isSome then .plan else .probeKeys)
    split
    · rename_i hsome
      refine ⟨h.migrated, h.baselined fun hlegacy => ?_⟩
      rw [hlegacy.1] at hsome
      exact absurd hsome (by simp)
    · rename_i hnone
      exact ⟨h, by simpa using hnone⟩
  | probeKeys =>
    obtain ⟨hbetween, hnone⟩ := h
    show Before db₀ migrations db (if db.apiKeys then .baseline else .plan)
    split
    · rename_i hkeys
      exact ⟨hbetween, hnone, hkeys⟩
    · rename_i hkeys
      exact ⟨hbetween.migrated, hbetween.baselined fun hlegacy => hkeys hlegacy.2⟩
  | baseline =>
    obtain ⟨hbetween, hlegacy⟩ := h
    have hdb := hbetween.migrated.untouched hlegacy.1
    show Before db₀ migrations db.ensureSchema
      (if initialMigration ∈ db.toApply migrations then .mark else .plan)
    split
    · exact ⟨hbetween.migrated.ensureSchema, hdb ▸ hlegacy⟩
    · rename_i hnot
      refine ⟨hbetween.migrated.ensureSchema, fun _ => ?_⟩
      by_contra hrow
      exact hnot (List.mem_filter.mpr ⟨migrations.initial_mem, by simpa using hrow⟩)
  | mark =>
    obtain ⟨hmigrated, hlegacy⟩ := h
    refine ⟨hmigrated.mark (Or.inl (Or.inr ⟨hlegacy, rfl⟩)) fun _ hnone => ?_, fun _ => ?_⟩
    · exact absurd hnone (by simp)
    · exact List.mem_cons_self
  | plan => exact onward_apply h.1.ensureSchema h.2 (Option.some_ne_none _) rfl
  | execute id later =>
    obtain ⟨hmigrated, hb, htable, hlater⟩ := h
    have hid : id ∉ db.rows := by
      have hmem : id ∈ db.toApply migrations := hlater ▸ List.mem_cons_self
      simpa using (List.mem_filter.mp hmem).2
    exact ⟨hmigrated.execute hb hid htable, hb, hlater, List.mem_cons_self⟩
  | record id later =>
    obtain ⟨hmigrated, hb, hlater, hran⟩ := h
    refine onward_apply (hmigrated.mark (Or.inr hran) fun id' heq => ?_) (fun hlegacy => ?_)
      (Option.some_ne_none _) (toApply_mark hlater)
    · exact (Option.some.inj heq).symm
    · exact List.mem_cons_of_mem _ (hb hlegacy)

/-- A call that stops here leaves what it has found. -/
theorem between_of_before (h : Before db₀ migrations db st) (hst : st.isHalfway = false) :
    Between db₀ db := by
  cases st with
  | probeYoyo => exact h
  | probeKeys | baseline => exact h.1
  | plan => exact h.2.between h.1
  | execute id later => exact h.2.1.between h.1
  | mark | record => exact absurd hst (by simp [MigrateStep.isHalfway])

/-- A probe that fails unnoticed does no harm where there is nothing to notice. -/
theorem onward_failed {call : MigrateCall} (h : Before db₀ migrations db st)
    (hst : st.isHalfway = false) {st' : MigrateStep} (hfailed : st.failed call = some st')
    (hdb : ¬db.IsLegacy) : Before db₀ migrations db st' := by
  have hbetween := between_of_before h hst
  have hplan : st' = .plan := by
    cases st with
    | probeYoyo | probeKeys =>
      have hif : (if call.existingConn then none else some MigrateStep.plan) = some st' := hfailed
      split at hif
      · exact absurd hif (by simp)
      · exact (Option.some.inj hif).symm
    | _ => exact absurd hfailed (by simp [MigrateStep.failed])
  rw [hplan]
  exact ⟨hbetween.migrated, hbetween.baselined hdb⟩

theorem mem_rows_run (hid : id ∈ db.rows) : id ∈ (st.run migrations db).1.rows := by
  cases st with
  | probeYoyo | probeKeys | baseline | plan | execute => exact hid
  | mark | record => exact List.mem_cons_of_mem _ hid

theorem between_start (db₀ : MigrationDb) (hran : db₀.ran = []) : Between db₀ db₀ where
  migrated :=
    { untouched := fun _ => rfl
      kept := fun _ hid => hid
      nodup := by rw [hran]; exact List.nodup_nil
      fresh := fun id hid => by rw [hran] at hid; exact absurd hid List.not_mem_nil
      recorded := fun id hid => by rw [hran] at hid; exact absurd hid List.not_mem_nil
      rows := fun _ hid => Or.inl (Or.inl hid) }
  legacy := fun hlegacy => Or.inr hlegacy.1

end Call

end Migrations

/-! ## Every run -/

namespace MigratePhase

/-- Between the lock and its release. -/
def place : MigratePhase → Option MigrateStep
  | migrating _ st => some st
  | _ => none

/-- The lock is this call's. -/
def holdsLock : MigratePhase → Bool
  | migrating lockAcquired _ => lockAcquired
  | unlocking _ => true
  | _ => false

/-- `apply_migrations` has come to its end. -/
def isDone : MigratePhase → Bool
  | unlocking ok => ok
  | ended ok => ok
  | _ => false

end MigratePhase

namespace Migrations

variable {T : Type} [DecidableEq T]

/-- Every call gets the lock; none is stopped between two writes that belong together; and no
    probe fails unnoticed on a legacy database. -/
structure Orderly (calls : T → MigrateCall) (s : Migrations T) (a : MigrateAct T) : Prop where
  locked : ∀ t, a = .fail t → s.phase t ≠ .connecting ∧ s.phase t ≠ .locking
  whole : ∀ t, a = .fail t ∨ a = .crash t → ∀ st, (s.phase t).place = some st →
    st.isHalfway = false
  probed : ∀ t, a = .fail t → ∀ st, (s.phase t).place = some st →
    (st.failed (calls t)).isSome = true → ¬s.db.IsLegacy

/-- What every orderly run keeps. -/
structure Sound (calls : T → MigrateCall) (db₀ : MigrationDb) (s : Migrations T) : Prop where
  held : ∀ t, (s.phase t).holdsLock = true →
    ∃ n, s.locks.holder migrateAdvisoryLock = some (t, n)
  locked : ∀ t st, (s.phase t).place = some st → (s.phase t).holdsLock = true
  behind : Behind (Between db₀) (fun t st db => Before db₀ (calls t).migrations db st)
    (fun t => (s.phase t).place) s.db
  done : ∀ t, (s.phase t).isDone = true → ∀ id ∈ (calls t).migrations.ids, id ∈ s.db.rows

variable {calls : T → MigrateCall} {db₀ : MigrationDb} {s s' : Migrations T} {t : T}

omit [DecidableEq T] in
theorem sound_start (hran : db₀.ran = []) : Sound calls db₀ ({ db := db₀ } : Migrations T) where
  held := fun _ h => absurd h (by simp [MigratePhase.holdsLock])
  locked := fun _ _ h => absurd h (by simp [MigratePhase.place])
  behind := Behind.nobody (fun _ => rfl) (between_start db₀ hran)
  done := fun _ h => absurd h (by simp [MigratePhase.isDone])

/-- A step is one thread's, and leaves the others their locks and their phases. -/
theorem Sound.become (h : Sound calls db₀ s) {db : MigrationDb} {locks : AdvisoryLocks T}
    {phase : MigratePhase}
    (hlocks : ∀ u n, u ≠ t → s.locks.holder migrateAdvisoryLock = some (u, n) →
      locks.holder migrateAdvisoryLock = some (u, n))
    (hheld : phase.holdsLock = true → ∃ n, locks.holder migrateAdvisoryLock = some (t, n))
    (hlocked : ∀ st, phase.place = some st → phase.holdsLock = true)
    (hbehind : Behind (Between db₀) (fun t st db => Before db₀ (calls t).migrations db st)
      (fun u => ((s.become t db locks phase).phase u).place) db)
    (hrows : ∀ id ∈ s.db.rows, id ∈ db.rows)
    (hdone : phase.isDone = true → ∀ id ∈ (calls t).migrations.ids, id ∈ db.rows) :
    Sound calls db₀ (s.become t db locks phase) where
  held := by
    intro u hu
    by_cases hut : u = t
    · subst hut
      rw [phase_become_self] at hu
      exact hheld hu
    · rw [phase_become_ne _ _ _ _ _ hut] at hu
      obtain ⟨n, hn⟩ := h.held u hu
      exact ⟨n, hlocks u n hut hn⟩
  locked := by
    intro u st hu
    by_cases hut : u = t
    · subst hut
      rw [phase_become_self] at hu ⊢
      exact hlocked st hu
    · rw [phase_become_ne _ _ _ _ _ hut] at hu ⊢
      exact h.locked u st hu
  behind := hbehind
  done := by
    intro u hu id hid
    by_cases hut : u = t
    · subst hut
      rw [phase_become_self] at hu
      exact hdone hu id hid
    · rw [phase_become_ne _ _ _ _ _ hut] at hu
      exact hrows id (h.done u hu id hid)

theorem place_become_ne (s : Migrations T) {db : MigrationDb} {locks : AdvisoryLocks T}
    {phase : MigratePhase} {u : T} (hu : u ≠ t) :
    ((s.become t db locks phase).phase u).place = (s.phase u).place :=
  congrArg MigratePhase.place (phase_become_ne _ _ _ _ _ hu)

/-- From outside to outside, which nobody inside takes notice of. -/
theorem Sound.outside (h : Sound calls db₀ s) {locks : AdvisoryLocks T} {phase : MigratePhase}
    (hlocks : ∀ u n, u ≠ t → s.locks.holder migrateAdvisoryLock = some (u, n) →
      locks.holder migrateAdvisoryLock = some (u, n))
    (hplace : (s.phase t).place = none) (hplace' : phase.place = none)
    (hheld : phase.holdsLock = false)
    (hdone : phase.isDone = true → ∀ id ∈ (calls t).migrations.ids, id ∈ s.db.rows) :
    Sound calls db₀ (s.become t s.db locks phase) := by
  apply h.become hlocks
  · intro hholds
    exact absurd hholds (by simp [hheld])
  · intro st hst
    exact absurd (hst.symm.trans hplace') (by simp)
  · apply h.behind.congr
    intro u
    by_cases hu : u = t
    · subst hu
      rw [phase_become_self, hplace, hplace']
    · exact place_become_ne s hu
  · exact fun _ hid => hid
  · exact hdone

/-- The lock is had. -/
theorem Sound.enter (h : Sound calls db₀ s) (hphase : s.phase t = .locking)
    (hfree : s.locks.available t migrateAdvisoryLock = true) :
    Sound calls db₀ (s.become t s.db (s.locks.tryLock t migrateAdvisoryLock)
      (.migrating true .probeYoyo)) := by
  -- who is inside has the lock, so nobody is
  have hnobody : ∀ u, (s.phase u).place = none := by
    intro u
    cases hu : (s.phase u).place with
    | none => rfl
    | some st =>
      obtain ⟨n, hn⟩ := h.held u (h.locked u st hu)
      obtain rfl := AdvisoryLocks.available_iff.mp hfree u n hn
      rw [hphase] at hu
      exact absurd hu (by simp [MigratePhase.place])
  apply h.become
  · intro u n hu hn
    exact AdvisoryLocks.holder_tryLock_of_ne hn hu
  · exact fun _ => AdvisoryLocks.holder_tryLock_of_available hfree
  · exact fun _ _ => rfl
  · have hbefore : Before db₀ (calls t).migrations s.db .probeYoyo := h.behind.free hnobody
    refine Behind.enter (fun u _ => hnobody u) ?_ (fun u hu => place_become_ne s hu) hbefore
    rw [phase_become_self]
    rfl
  · exact fun _ hid => hid
  · exact fun hdone => absurd hdone (by simp [MigratePhase.isDone])

/-- On to the next statement, or to the release of the lock. -/
theorem Sound.goOn (h : Sound calls db₀ s) {st : MigrateStep}
    (hphase : s.phase t = .migrating true st) {db : MigrationDb} {ok : Bool}
    {next : Option MigrateStep} (hrows : ∀ id ∈ s.db.rows, id ∈ db.rows)
    (hnext : ∀ st', next = some st' → Before db₀ (calls t).migrations db st')
    (hend : next = none → Between db₀ db ∧
      (ok = true → ∀ id ∈ (calls t).migrations.ids, id ∈ db.rows)) :
    Sound calls db₀ (s.goOn calls t db true ok next) := by
  have hplace : (s.phase t).place = some st := by rw [hphase]; rfl
  have hheld := h.held t (by rw [hphase]; rfl)
  cases next with
  | some st' =>
    show Sound calls db₀ (s.become t db s.locks (.migrating true st'))
    apply h.become (fun _ _ _ hn => hn) (fun _ => hheld) (fun _ _ => rfl)
    · refine h.behind.move hplace ?_ (fun u hu => place_become_ne s hu) (hnext st' rfl)
      rw [phase_become_self]
      rfl
    · exact hrows
    · exact fun hdone => absurd hdone (by simp [MigratePhase.isDone])
  | none =>
    show Sound calls db₀ (s.become t db s.locks (.unlocking ok))
    apply h.become (fun _ _ _ hn => hn) (fun _ => hheld) (fun _ _ => rfl)
    · apply h.behind.leave hplace
      · rw [phase_become_self]
        rfl
      · exact fun u hu => place_become_ne s hu
      · exact (hend rfl).1
    · exact hrows
    · exact (hend rfl).2

theorem Sound.close (h : Sound calls db₀ s) {ok : Bool} (hphase : s.phase t = .unlocking ok)
    {locks : AdvisoryLocks T}
    (hlocks : ∀ u n, u ≠ t → s.locks.holder migrateAdvisoryLock = some (u, n) →
      locks.holder migrateAdvisoryLock = some (u, n)) :
    Sound calls db₀ (s.close calls t s.db locks ok) := by
  refine h.outside (fun u n hu hn => ?_) (by rw [hphase]; rfl) rfl rfl fun hok => ?_
  · split
    · exact hlocks u n hu hn
    · exact AdvisoryLocks.holder_endSession_eq_some.mpr ⟨hlocks u n hu hn, hu⟩
  · apply h.done t
    rw [hphase]
    exact hok

theorem sound_step {a : MigrateAct T} (hstep : s.step calls a = some s')
    (hok : Orderly calls s a) (h : Sound calls db₀ s) : Sound calls db₀ s' := by
  cases a with
  | call t =>
    cases hphase : s.phase t with
    | idle | ended =>
      simp only [step, hphase, Option.some.injEq] at hstep
      subst hstep
      apply h.outside (fun _ _ _ hn => hn) (by rw [hphase]; rfl)
      · split <;> rfl
      · split <;> rfl
      · split <;> exact fun hdone => absurd hdone (by simp [MigratePhase.isDone])
    | _ => simp [step, hphase] at hstep
  | next t =>
    cases hphase : s.phase t with
    | connecting =>
      simp only [step, hphase, Option.some.injEq] at hstep
      subst hstep
      exact h.outside (fun _ _ _ hn => hn) (by rw [hphase]; rfl) rfl rfl
        fun hdone => absurd hdone (by simp [MigratePhase.isDone])
    | locking =>
      simp only [step, hphase] at hstep
      split at hstep
      · rename_i hfree
        obtain rfl := Option.some.inj hstep
        exact h.enter hphase hfree
      · exact absurd hstep (by simp)
    | migrating lockAcquired st =>
      simp only [step, hphase, Option.some.injEq] at hstep
      subst hstep
      obtain rfl : lockAcquired = true := by
        have hheld := h.locked t st (by rw [hphase]; rfl)
        rw [hphase] at hheld
        exact hheld
      have honward := before_run (h.behind.inside t st (by rw [hphase]; rfl))
      apply h.goOn hphase
      · exact fun _ hid => mem_rows_run hid
      · intro st' hst'
        rw [hst'] at honward
        exact honward
      · intro hnone
        rw [hnone] at honward
        exact ⟨honward.1, fun _ => honward.2⟩
    | unlocking ok =>
      simp only [step, hphase, Option.some.injEq] at hstep
      subst hstep
      exact h.close hphase fun _ _ hu hn => AdvisoryLocks.holder_unlock_of_ne hn hu
    | _ => simp [step, hphase] at hstep
  | fail t =>
    cases hphase : s.phase t with
    | connecting => exact absurd hphase (hok.locked t rfl).1
    | locking => exact absurd hphase (hok.locked t rfl).2
    | migrating lockAcquired st =>
      simp only [step, hphase, Option.some.injEq] at hstep
      subst hstep
      have hplace : (s.phase t).place = some st := by rw [hphase]; rfl
      obtain rfl : lockAcquired = true := by
        have hheld := h.locked t st hplace
        rw [hphase] at hheld
        exact hheld
      have hbefore := h.behind.inside t st hplace
      have hwhole := hok.whole t (Or.inl rfl) st hplace
      apply h.goOn hphase (fun _ hid => hid)
      · intro st' hst'
        exact onward_failed hbefore hwhole hst' (hok.probed t rfl st hplace (by rw [hst']; rfl))
      · exact fun _ => ⟨between_of_before hbefore hwhole, fun hfalse => absurd hfalse (by simp)⟩
    | unlocking ok =>
      simp only [step, hphase, Option.some.injEq] at hstep
      subst hstep
      exact h.close hphase fun _ _ _ hn => hn
    | _ => simp [step, hphase] at hstep
  | crash t =>
    simp only [step, Option.some.injEq] at hstep
    subst hstep
    have hlocks : ∀ u n, u ≠ t → s.locks.holder migrateAdvisoryLock = some (u, n) →
        (s.locks.endSession t).holder migrateAdvisoryLock = some (u, n) :=
      fun u n hu hn => AdvisoryLocks.holder_endSession_eq_some.mpr ⟨hn, hu⟩
    have hdone : MigratePhase.idle.isDone = true →
        ∀ id ∈ (calls t).migrations.ids, id ∈ s.db.rows :=
      fun hidle => absurd hidle (by simp [MigratePhase.isDone])
    cases hplace : (s.phase t).place with
    | none => exact h.outside hlocks hplace rfl rfl hdone
    | some st =>
      have hbefore := h.behind.inside t st hplace
      apply h.become hlocks
      · exact fun hidle => absurd hidle (by simp [MigratePhase.holdsLock])
      · exact fun _ hidle => absurd hidle (by simp [MigratePhase.place])
      · apply h.behind.leave hplace
        · rw [phase_become_self]
          rfl
        · exact fun u hu => place_become_ne s hu
        · exact between_of_before hbefore (hok.whole t (Or.inr rfl) st hplace)
      · exact fun _ hid => hid
      · exact hdone

theorem sound_run (hran : db₀.ran = []) {acts : List (MigrateAct T)}
    (hrun : Machine.Runs (step calls) (Orderly calls) { db := db₀ } acts s) :
    Sound calls db₀ s := by
  refine hrun.invariant (fun _ _ _ hstep hok h => ?_) (sound_start hran)
  exact sound_step hstep hok h

/-! ## What there is of it at any moment -/

omit [DecidableEq T] in
/-- Whether anybody is at it or not. -/
theorem Sound.migrated (h : Sound calls db₀ s) : ∃ running, Migrated db₀ s.db running := by
  by_cases hnobody : ∀ t, (s.phase t).place = none
  · exact ⟨none, (h.behind.free hnobody).migrated⟩
  · obtain ⟨t, ht⟩ := not_forall.mp hnobody
    obtain ⟨st, hst⟩ := Option.ne_none_iff_exists'.mp ht
    have hbefore : Before db₀ (calls t).migrations s.db st := h.behind.inside t st hst
    cases st with
    | probeYoyo => exact ⟨none, hbefore.migrated⟩
    | probeKeys | baseline => exact ⟨none, hbefore.1.migrated⟩
    | mark | plan | execute => exact ⟨none, hbefore.1⟩
    | record id later => exact ⟨some id, hbefore.1⟩

section Order

variable {db₀ db : MigrationDb} {migrations : MigrationList} {id : String} {later : List String}

/-- What has been run comes first among what there was to run. -/
def RanInOrder (db₀ : MigrationDb) (migrations : MigrationList) (db : MigrationDb) : Prop :=
  db.ran.reverse ++ (db₀.todo migrations).filter (fun id => id ∉ db.ran) = db₀.todo migrations

theorem toApply_eq (h : Migrated db₀ db none) (hb : Baselined db₀ db) :
    db.toApply migrations = (db₀.todo migrations).filter fun id => id ∉ db.ran := by
  unfold MigrationDb.toApply MigrationDb.todo
  rw [List.filter_filter]
  apply List.filter_congr
  intro id _
  rw [← Bool.decide_and, decide_eq_decide]
  constructor
  · intro hrow
    refine ⟨fun hran => hrow ((h.recorded id hran).resolve_right (by simp)), ?_⟩
    intro hsettled
    cases hsettled with
    | inl hold => exact hrow (h.kept id hold)
    | inr hlegacy => exact hrow (hlegacy.2 ▸ hb hlegacy.1)
  · intro hnot hrow
    exact (h.rows id hrow).elim hnot.2 hnot.1

theorem ranInOrder_execute (h : RanInOrder db₀ migrations db)
    (hlater : id :: later = (db₀.todo migrations).filter fun id => id ∉ db.ran) :
    RanInOrder db₀ migrations (db.execute id) := by
  have hnodup : (id :: later).Nodup := by
    rw [hlater]
    exact (migrations.nodup.filter _).filter _
  have hrest : (db₀.todo migrations).filter (fun id' => id' ∉ (db.execute id).ran) = later := by
    have hne : ((db₀.todo migrations).filter fun id' => id' ∉ db.ran).filter (fun id' => id' ≠ id) =
        later := by
      rw [← hlater, List.filter_cons_of_neg (by simp), List.filter_eq_self]
      intro id' hmem
      have hdiff : id' ≠ id := fun heq => (List.nodup_cons.mp hnodup).1 (heq ▸ hmem)
      simpa using hdiff
    rw [← hne, List.filter_filter]
    apply List.filter_congr
    intro id' _
    simp
  calc (db.execute id).ran.reverse ++
        (db₀.todo migrations).filter (fun id' => id' ∉ (db.execute id).ran)
      = db.ran.reverse ++ (id :: later) := by
        rw [hrest, MigrationDb.ran_execute, List.reverse_cons, List.append_assoc,
          List.singleton_append]
    _ = db₀.todo migrations := by rw [hlater]; exact h

end Order

variable {T : Type} [DecidableEq T] {calls : T → MigrateCall} {db₀ : MigrationDb}
  {s s' : Migrations T}

/-- A step leaves the database alone, or is that of a call that is inside. -/
theorem db_step {a : MigrateAct T} (hstep : s.step calls a = some s') :
    s'.db = s.db ∨ ∃ t st, (s.phase t).place = some st ∧
      s'.db = (st.run (calls t).migrations s.db).1 := by
  have hgoOn : ∀ t db lockAcquired ok next,
      (s.goOn calls t db lockAcquired ok next).db = db := by
    intro t db lockAcquired ok next
    cases next with
    | some st => rfl
    | none => cases lockAcquired <;> rfl
  cases a with
  | call t =>
    left
    cases hphase : s.phase t with
    | idle | ended =>
      simp only [step, hphase, Option.some.injEq] at hstep
      exact hstep ▸ rfl
    | _ => simp [step, hphase] at hstep
  | next t =>
    cases hphase : s.phase t with
    | migrating lockAcquired st =>
      simp only [step, hphase, Option.some.injEq] at hstep
      exact Or.inr ⟨t, st, by rw [hphase]; rfl, by rw [← hstep, hgoOn]⟩
    | connecting | unlocking =>
      simp only [step, hphase, Option.some.injEq] at hstep
      exact Or.inl (hstep ▸ rfl)
    | locking =>
      simp only [step, hphase] at hstep
      split at hstep
      · exact Or.inl (Option.some.inj hstep ▸ rfl)
      · exact absurd hstep (by simp)
    | _ => simp [step, hphase] at hstep
  | fail t =>
    left
    cases hphase : s.phase t with
    | migrating lockAcquired st =>
      simp only [step, hphase, Option.some.injEq] at hstep
      exact hstep ▸ hgoOn _ _ _ _ _
    | connecting | locking | unlocking =>
      simp only [step, hphase, Option.some.injEq] at hstep
      exact hstep ▸ rfl
    | _ => simp [step, hphase] at hstep
  | crash t =>
    simp only [step, Option.some.injEq] at hstep
    exact Or.inl (hstep ▸ rfl)

theorem ranInOrder_step {migrations : MigrationList} (hsame : ∀ t, (calls t).migrations = migrations)
    {a : MigrateAct T} (hstep : s.step calls a = some s') (h : Sound calls db₀ s)
    (horder : RanInOrder db₀ migrations s.db) : RanInOrder db₀ migrations s'.db := by
  cases db_step hstep with
  | inl heq => exact heq ▸ horder
  | inr hran =>
    obtain ⟨t, st, hplace, heq⟩ := hran
    have hbefore : Before db₀ (calls t).migrations s.db st := h.behind.inside t st hplace
    rw [heq]
    cases st with
    | probeYoyo | probeKeys | baseline | mark | plan | record => exact horder
    | execute id later =>
      obtain ⟨hmigrated, hb, -, hlater⟩ := hbefore
      rw [hsame t, toApply_eq hmigrated hb] at hlater
      exact ranInOrder_execute horder hlater

end Migrations

/-! ## Two processes and a legacy database -/

namespace Migrations
namespace Legacy

def migrations : MigrationList where
  ids := ["0001_initial", "0002_master_data_seed", "0003_profile_hierarchy"]
  nodup := by decide
  initial_mem := by decide

def db : MigrationDb := { yoyo := none, apiKeys := true }

def calls (t : Bool) : MigrateCall := ⟨t, migrations⟩

/-- The first gives the baseline its row, runs one migration, and fails at the next; the second,
    which has been waiting, runs that one. -/
def acts : List (MigrateAct Bool) :=
  [.call true, .call false, .next false, .next true, .next true, .next true, .next true,
    .next true, .next true, .next true, .next true, .fail true, .next true, .next false,
    .next false, .next false, .next false, .next false, .next false]

/-- `Orderly`, as a test. -/
def isOrderly (s : Migrations Bool) : MigrateAct Bool → Bool
  | .fail t =>
      match s.phase t with
      | .connecting | .locking => false
      | .migrating _ st =>
          !st.isHalfway && ((st.failed (calls t)).isNone || !s.db.schemaAlreadyExists)
      | _ => true
  | .crash t => (s.phase t).place.all fun st => !st.isHalfway
  | _ => true

theorem orderly_of_isOrderly (s : Migrations Bool) (a : MigrateAct Bool)
    (h : isOrderly s a = true) : Orderly calls s a := by
  cases a with
  | call t | next t => constructor <;> simp
  | crash t =>
    constructor
    · simp
    · intro u hu st hst
      obtain rfl : t = u := by simpa using hu
      rw [isOrderly, hst] at h
      simpa using h
    · simp
  | fail t =>
    simp only [isOrderly] at h
    constructor
    · intro u hu
      obtain rfl := MigrateAct.fail.inj hu
      constructor
      · intro hphase
        rw [hphase] at h
        exact absurd h (by simp)
      · intro hphase
        rw [hphase] at h
        exact absurd h (by simp)
    · intro u hu st hst
      obtain rfl : t = u := by simpa using hu
      cases hphase : s.phase t with
      | migrating lockAcquired st' =>
        rw [hphase] at h hst
        obtain rfl := Option.some.inj hst
        rw [Bool.and_eq_true] at h
        simpa using h.1
      | _ =>
        rw [hphase] at hst
        exact absurd hst (by simp [MigratePhase.place])
    · intro u hu st hst hfailed hlegacy
      obtain rfl := MigrateAct.fail.inj hu
      cases hphase : s.phase t with
      | migrating lockAcquired st' =>
        rw [hphase] at h hst
        obtain rfl := Option.some.inj hst
        rw [Bool.and_eq_true, (s.db.schemaAlreadyExists_iff).mpr hlegacy] at h
        rw [Option.isSome_iff_ne_none] at hfailed
        exact hfailed (by simpa using h.2)
      | _ =>
        rw [hphase] at hst
        exact absurd hst (by simp [MigratePhase.place])

/-- What there is at the end. -/
def after : Migrations Bool := (Machine.replay (step calls) isOrderly acts { db }).getD { db }

theorem run_after : Machine.Runs (step calls) (Orderly calls) { db } acts after :=
  (@Machine.runs_of_replay _ _ (step calls) isOrderly acts { db } after rfl).imp
    orderly_of_isOrderly

end Legacy

end Migrations

end OdooSemantic
