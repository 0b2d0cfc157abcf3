import OdooSemantic.Cli.RotateFernet
import OdooSemantic.Lib.Fallible

/-!
# `backup` of `src/cli.py`

`_cmd_backup`: dump PostgreSQL, dump Neo4j where that works, encrypt the Fernet key where a
passphrase is given, write down what there is and its checksums, and put all of it into one
archive. The nightly job is not to page anybody for a database that is down, so the command
returns 0 there too, and says `SKIPPED`.

The programs it runs are not part of the repository. `PostgreSQL` is what is relied on of
`pg_dump` and `psql`, `Tarfile` what is relied on of archives; `C` is what a file can hold. What
becomes of a run in the end is data.
-/

namespace OdooSemantic

/-! ## Around the command -/

section Surroundings

variable (C : Type)

/-- Statements, and dumps that are made of them. -/
structure PostgreSQL where
  Db : Type
  Statement : Type
  /-- A statement of `psql`, committed on its own; `none` is an error. -/
  exec : Statement → Db → Option Db
  /-- What `psql` reads in a file. -/
  script : C → List Statement
  /-- `pg_dump -F plain` -/
  dump : Db → C
  /-- `CREATE DATABASE` -/
  fresh : Db
  dump_fresh : ∀ db, Script.runStrict exec (script (dump db)) fresh = some db

/-- A name in the directory an archive was extracted to. -/
inductive DirEntry where
  | missing
  | file (content : C)
  /-- It is there and cannot be read: a directory, a dangling link. -/
  | unreadable
deriving DecidableEq

def DirEntry.exists {C : Type} : DirEntry C → Bool
  | missing => false
  | _ => true

inductive ExtractEnd where
  | extracted (dir : String → DirEntry C)
  /-- The filter `data` refuses a member. -/
  | rejected (text : String)
  /-- Any other `TarError`. -/
  | tarError (text : String)
  | raised

/-- The last of the files of this name. -/
def filesDir {C : Type} (files : List (String × C)) (name : String) : DirEntry C :=
  match files.reverse.find? fun f => f.1 = name with
  | some f => .file f.2
  | none => .missing

structure Tarfile where
  /-- `tar.add` for each of the files. -/
  pack : List (String × C) → C
  /-- `tar.extractall(tmpdir, filter="data")`, into an empty directory. -/
  extract : C → ExtractEnd C
  extract_pack : ∀ files, extract (pack files) = .extracted (filesDir files)

/-- An entry of `components`. -/
structure BundleComponent where
  file : String
  sha256 : String
deriving DecidableEq

structure BundleManifest where
  createdAt : String
  schemaVersion : String
  components : List BundleComponent
deriving DecidableEq

/-- What `json` makes of a manifest; a text that is JSON and no manifest has no components. -/
structure ManifestJson where
  Json : Type
  loads : C → Option Json
  dumps : BundleManifest → C
  components : Json → List BundleComponent
  loads_dumps : ∀ m, ∃ json, loads (dumps m) = some json ∧ components json = m.components

end Surroundings

inductive CliExit where
  | returned (code : Int) (stderr : String)
  | raised
deriving DecidableEq

/-- The command reports success. -/
def CliExit.succeeded : CliExit → Bool
  | returned 0 _ => true
  | _ => false

/-- How a program ends that has to be complete if it exits 0. -/
inductive ToolEnd where
  | finished
  | failed (code : { c : Int // c ≠ 0 }) (stderr : String)
deriving DecidableEq

/-! ## The backup -/

structure BackupArgs where
  output : String
  bundlePassphraseEnv : String := ""

inductive ConnectEnd where
  | connected
  /-- `psycopg2.OperationalError` -/
  | refused (cause : String)
deriving DecidableEq

structure Neo4jEnd (C : Type) where
  /-- The exit code of the dump container; `none` is `FileNotFoundError`. -/
  code : Option Int := none
  /-- `neo4j.dump`, where it is there afterwards. -/
  dump : Option C := none
deriving DecidableEq

/-- Where an exception ends the command. -/
inductive BackupStep where
  | directory
  | connect
  | lock
  | pgDump
  | neo4j
  | fernet
  | bundle
  | conclude
deriving DecidableEq

structure BackupWorld (C : Type) where
  /-- `os.getenv` -/
  env : String → Option String
  home : String
  /-- `str(Path(path).resolve())` -/
  resolve : String → String
  /-- `_get_pg_dsn()` -/
  dsn : String
  /-- The `ValueError` of `_dsn_to_pg_args_and_env`. -/
  dsnError : Option String := none
  /-- `_is_pg_container_running()` -/
  containerRunning : Option Bool := none
  connect : ConnectEnd := .connected
  /-- `pg_try_advisory_lock` -/
  lockAcquired : Bool := true
  pgDump : ToolEnd := .finished
  neo4j : Neo4jEnd C := {}
  /-- `_encrypt_with_passphrase` -/
  encryptWithPassphrase : String → String → C
  createdAt : String
  schemaVersion : String
  raises : BackupStep → Bool := fun _ => false

/-- The file at `--output`. -/
inductive BackupOutput (C : Type) where
  | untouched
  /-- `tarfile.open` has truncated it, and an exception came before the archive was closed. -/
  | torn
  | written (bundle : C)
deriving DecidableEq

section Backup

variable {C : Type}

/-- `hashlib.sha256(content).hexdigest()`, of one file. -/
def bundleComponent (sha256 : C → String) (f : String × C) : BundleComponent :=
  ⟨f.1, sha256 f.2⟩

/-- `neo4j.dump`, wherever it is. -/
def neo4jFiles (e : Neo4jEnd C) : List (String × C) :=
  e.dump.toList.map fun dump => ("neo4j.dump", dump)

/-- The manifest has it if the dump went well. -/
def neo4jComponents (e : Neo4jEnd C) : List (String × C) :=
  if e.code = some 0 then neo4jFiles e else []

/-- `fernet.enc` -/
def fernetFiles (w : BackupWorld C) (args : BackupArgs) : List (String × C) :=
  if args.bundlePassphraseEnv = "" then []
  else
    match (w.env args.bundlePassphraseEnv).filter (· ≠ "") with
    | some passphrase =>
        [("fernet.enc", w.encryptWithPassphrase ((w.env "FERNET_KEY").getD "") passphrase)]
    | none => []

/-- `os.getenv("POSTGRES_CONTAINER", …)` -/
def postgresContainer (w : BackupWorld C) : String :=
  (w.env "POSTGRES_CONTAINER").getD "odoo-semantic-mcp-postgres-1"

def backupDir (w : BackupWorld C) : String := (w.env "BACKUP_DIR").getD (w.home ++ "/backup")

variable (P : PostgreSQL C) (T : Tarfile C) (J : ManifestJson C) (sha256 : C → String)
  (w : BackupWorld C) (args : BackupArgs) (db : P.Db)

/-- What the manifest lists. -/
def backedUp : List (String × C) :=
  ("postgres.sql", P.dump db) :: (neo4jComponents w.neo4j ++ fernetFiles w args)

def backupManifest : BundleManifest where
  createdAt := w.createdAt
  schemaVersion := w.schemaVersion
  components := (backedUp P w args db).map (bundleComponent sha256)

/-- `sorted(tmpdir.iterdir())` -/
def bundleFiles : List (String × C) :=
  fernetFiles w args ++ [("manifest.json", J.dumps (backupManifest P sha256 w args db))] ++
    neo4jFiles w.neo4j ++ [("postgres.sql", P.dump db)]

/-- Behind the lock. -/
def backupLocked : CliExit × BackupOutput C :=
  if w.raises .pgDump then (.raised, .untouched)
  else
    match w.pgDump with
    | .failed code stderr => (.returned code ("pg_dump failed: " ++ stderr), .untouched)
    | .finished =>
        if w.raises .neo4j || w.raises .fernet then (.raised, .untouched)
        else if w.raises .bundle then (.raised, .torn)
        else
          let bundle := T.pack (bundleFiles P J sha256 w args db)
          if w.raises .conclude then (.raised, .written bundle)
          else (.returned 0 "", .written bundle)

/-- `_cmd_backup(args)`, for the database as `pg_dump` sees it. -/
def cmdBackup : CliExit × BackupOutput C :=
  if !PyText.endswith args.output ".tar.gz" then
    (.returned 1 "ERROR: --output must end with .tar.gz", .untouched)
  else if !PyText.startswith (w.resolve args.output) (w.resolve (backupDir w)) then
    (.returned 1 ("ERROR: --output must be under BACKUP_DIR=" ++ backupDir w), .untouched)
  else if w.raises .directory then (.raised, .untouched)
  else if w.dsn = "" then (.returned 1 dsnMissingHint, .untouched)
  else
    match w.dsnError with
    | some e => (.returned 1 ("ERROR: " ++ e), .untouched)
    | none =>
        if w.containerRunning = some false then
          (.returned 0 ("SKIPPED: postgres container '" ++ postgresContainer w ++
            "' is not running — backup not taken."), .untouched)
        else if w.raises .connect then (.raised, .untouched)
        else
          match w.connect with
          | .refused cause =>
              (.returned 0 ("SKIPPED: PG connection failed — backup not taken. Cause: " ++
                cause.take 300), .untouched)
          | .connected =>
              if w.raises .lock then (.raised, .untouched)
              else if !w.lockAcquired then
                (.returned 1 "ERROR: Another backup is in progress (advisory lock held)",
                  .untouched)
              else backupLocked P T J sha256 w args db

end Backup

end OdooSemantic
