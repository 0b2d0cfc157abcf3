import OdooSemantic.Lib.AdvisoryLock

/-!
# `_run_yoyo` of `src/db/migrate.py`

Any number of processes bring the schema up to date, each under the advisory lock
`0x05DA0E05`. The migrations themselves are yoyo's: `to_apply` makes yoyo's table where it is
missing and says which migrations have no row there; `mark_migrations` writes rows;
`apply_migrations` runs each migration in a transaction of its own, and then writes its row.

A database that is older than yoyo has the schema (`api_keys`), but not yoyo's table. There
`0001_initial` gets its row without being run.
-/

namespace OdooSemantic

/-- "0001_initial", the baseline -/
def initialMigration : String := "0001_initial"

/-- `_MIGRATE_ADVISORY_LOCK` -/
def migrateAdvisoryLock : Nat := 0x05DA0E05

/-- `read_migrations(_MIGRATIONS_DIR)`: the ids in order, which are the names of files. -/
structure MigrationList where
  ids : List String
  nodup : ids.Nodup
  initial_mem : initialMigration ∈ ids

structure MigrationDb where
  /-- The rows of `_yoyo_migration`, where there is such a table. -/
  yoyo : Option (List String)
  /-- There is a table `api_keys`. -/
  apiKeys : Bool
  /-- The migrations whose statements have been committed, newest first. -/
  ran : List String := []

namespace MigrationDb

variable (db : MigrationDb)

def rows : List String := db.yoyo.getD []

/-- The tables of yoyo are made by the first call that needs them. -/
def ensureSchema : MigrationDb := { db with yoyo := some db.rows }

/-- `backend.to_apply(migrations)` -/
def toApply (migrations : MigrationList) : List String :=
  migrations.ids.filter fun id => id ∉ db.rows

/-- `backend.mark_migrations(…)`, and the row of a migration that has been run -/
def mark (id : String) : MigrationDb := { db with yoyo := some (id :: db.rows) }

/-- The statements of a migration. `api_keys` is made by the baseline. -/
def execute (id : String) : MigrationDb :=
  { db with ran := id :: db.ran, apiKeys := db.apiKeys || id = initialMigration }

/-- `_schema_already_exists(conn)`, its two statements together -/
def schemaAlreadyExists : Bool := db.yoyo.isNone && db.apiKeys

@[simp] theorem rows_ensureSchema : db.ensureSchema.rows = db.rows := rfl

@[simp] theorem ran_ensureSchema : db.ensureSchema.ran = db.ran := rfl

@[simp] theorem rows_mark (id : String) : (db.mark id).rows = id :: db.rows := rfl

@[simp] theorem ran_mark (id : String) : (db.mark id).ran = db.ran := rfl

@[simp] theorem rows_execute (id : String) : (db.execute id).rows = db.rows := rfl

@[simp] theorem ran_execute (id : String) : (db.execute id).ran = id :: db.ran := rfl

end MigrationDb

/-- A call of `_run_yoyo(dsn_uri, existing_conn)`. -/
structure MigrateCall where
  existingConn : Bool
  migrations : MigrationList

/-- The statements between the lock and its release. -/
inductive MigrateStep where
  /-- Is there a table `_yoyo_migration`? -/
  | probeYoyo
  /-- Is there a table `api_keys`? -/
  | probeKeys
  /-- `pending_ids` -/
  | baseline
  | mark
  /-- `pending` -/
  | plan
  | execute (id : String) (later : List String)
  /-- The row of a migration that has been run. -/
  | record (id : String) (later : List String)

namespace MigrateStep

/-- `backend.apply_migrations(pending)`, where it goes on -/
def apply : List String → Option MigrateStep
  | [] => none
  | id :: later => some (.execute id later)

/-- What a statement does, and which is next. -/
def run (migrations : MigrationList) (db : MigrationDb) :
    MigrateStep → MigrationDb × Option MigrateStep
  | probeYoyo => (db, some (if db.yoyo.isSome then plan else probeKeys))
  | probeKeys => (db, some (if db.apiKeys then baseline else plan))
  | baseline =>
      (db.ensureSchema, some (if initialMigration ∈ db.toApply migrations then mark else plan))
  | mark => (db.mark initialMigration, some plan)
  | plan => (db.ensureSchema, apply (db.toApply migrations))
  | execute id later => (db.execute id, some (record id later))
  | record id later => (db.mark id, apply later)

/-- What is next when a statement has failed. A probe on a connection of its own says then that
    there is no schema. -/
def failed (call : MigrateCall) : MigrateStep → Option MigrateStep
  | probeYoyo | probeKeys => if call.existingConn then none else some plan
  | _ => none

end MigrateStep

/-- Where a call is. -/
inductive MigratePhase where
  | idle
  /-- `lock_conn = _psycopg2.connect(dsn_uri)` -/
  | connecting
  /-- `SELECT pg_advisory_lock` -/
  | locking
  | migrating (lockAcquired : Bool) (st : MigrateStep)
  /-- `SELECT pg_advisory_unlock` -/
  | unlocking (ok : Bool)
  | ended (ok : Bool)

inductive MigrateAct (T : Type) where
  | call (t : T)
  /-- The statement that is next. -/
  | next (t : T)
  /-- … raises. -/
  | fail (t : T)
  /-- The session of the lock is over. -/
  | crash (t : T)

structure Migrations (T : Type) where
  db : MigrationDb
  locks : AdvisoryLocks T := {}
  phase : T → MigratePhase := fun _ => .idle

namespace Migrations

variable {T : Type} [DecidableEq T] (calls : T → MigrateCall)

def become (s : Migrations T) (t : T) (db : MigrationDb) (locks : AdvisoryLocks T)
    (phase : MigratePhase) : Migrations T where
  db := db
  locks := locks
  phase := Function.update s.phase t phase

section Become

variable (s : Migrations T) (t : T) (db : MigrationDb) (locks : AdvisoryLocks T)
  (phase : MigratePhase)

@[simp] theorem db_become : (s.become t db locks phase).db = db := rfl

@[simp] theorem locks_become : (s.become t db locks phase).locks = locks := rfl

@[simp] theorem phase_become_self : (s.become t db locks phase).phase t = phase := by
  simp [become]

theorem phase_become_ne {u : T} (hu : u ≠ t) :
    (s.become t db locks phase).phase u = s.phase u := by
  simp [become, hu]

end Become

/-- `lock_conn.close()`, where the connection is this call's own -/
def close (s : Migrations T) (t : T) (db : MigrationDb) (locks : AdvisoryLocks T) (ok : Bool) :
    Migrations T :=
  s.become t db (if (calls t).existingConn then locks else locks.endSession t) (.ended ok)

/-- The way out, by the end or by an exception: `finally`. -/
def leave (s : Migrations T) (t : T) (db : MigrationDb) (lockAcquired ok : Bool) : Migrations T :=
  if lockAcquired then s.become t db s.locks (.unlocking ok)
  else s.close calls t db s.locks ok

/-- On to a statement, or out. -/
def goOn (s : Migrations T) (t : T) (db : MigrationDb) (lockAcquired ok : Bool) :
    Option MigrateStep → Migrations T
  | some st => s.become t db s.locks (.migrating lockAcquired st)
  | none => s.leave calls t db lockAcquired ok

def step (s : Migrations T) : MigrateAct T → Option (Migrations T)
  | .call t =>
      match s.phase t with
      | .idle | .ended _ =>
          some (s.become t s.db s.locks
            (if (calls t).existingConn then .locking else .connecting))
      | _ => none
  | .next t =>
      match s.phase t with
      | .connecting => some (s.become t s.db s.locks .locking)
      | .locking =>
          -- `pg_advisory_lock` waits for as long as somebody else has the lock
          if s.locks.available t migrateAdvisoryLock then
            some (s.become t s.db (s.locks.tryLock t migrateAdvisoryLock)
              (.migrating true .probeYoyo))
          else none
      | .migrating lockAcquired st =>
          let done := st.run (calls t).migrations s.db
          some (s.goOn calls t done.1 lockAcquired true done.2)
      | .unlocking ok =>
          some (s.close calls t s.db (s.locks.unlock t migrateAdvisoryLock) ok)
      | _ => none
  | .fail t =>
      match s.phase t with
      -- no lock, and on without it
      | .connecting | .locking => some (s.become t s.db s.locks (.migrating false .probeYoyo))
      | .migrating lockAcquired st =>
          some (s.goOn calls t s.db lockAcquired false (st.failed (calls t)))
      | .unlocking ok => some (s.close calls t s.db s.locks ok)
      | _ => none
  | .crash t => some (s.become t s.db (s.locks.endSession t) .idle)

end Migrations

end OdooSemantic
