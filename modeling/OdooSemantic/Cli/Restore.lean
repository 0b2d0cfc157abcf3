import OdooSemantic.Cli.Backup
import OdooSemantic.Lib.PosixPath

/-!
# `restore` of `src/cli.py`

`_cmd_restore` runs a file through `psql`: the file itself, or `postgres.sql` in a bundle. A bundle
has to hold a manifest that is JSON, and the database is dumped before it is touched.

`psql` gets no `ON_ERROR_STOP`: it goes on behind a statement that fails, and exits 0 at the end of
the file.
-/

namespace OdooSemantic

structure RestoreArgs where
  file : String

/-- `psql` has come to the end of its input, or it has executed some of it. -/
inductive PsqlEnd where
  | finished
  | stopped (executed : Nat) (code : { c : Int // c ≠ 0 }) (stderr : String)
deriving DecidableEq

inductive SafetyDumpEnd where
  | ended (tool : ToolEnd)
  /-- The exception around the dump. -/
  | raised (text : String)
deriving DecidableEq

/-- Where an exception ends the command. -/
inductive RestoreCommandStep where
  | extract
  | backupDir
  | psql
deriving DecidableEq

structure RestoreWorld where
  /-- `_get_pg_dsn()` -/
  dsn : String
  /-- The `ValueError` of `_dsn_to_pg_args_and_env`. -/
  dsnError : Option String := none
  /-- The exception of `read_text` or of `json.loads`, as text. -/
  jsonError : String := ""
  safetyDump : SafetyDumpEnd := .ended .finished
  psql : PsqlEnd := .finished
  raises : RestoreCommandStep → Bool := fun _ => false

section Restore

variable {C : Type} (P : PostgreSQL C) (T : Tarfile C) (J : ManifestJson C) (w : RestoreWorld)

/-- `psql < file`: its exit code, its `stderr`, and the database behind it. -/
def psql (content : C) (db : P.Db) : Int × String × P.Db :=
  match w.psql with
  | .finished => (0, "", Script.runAll P.exec (P.script content) db)
  | .stopped executed code stderr =>
      (code, stderr, Script.runAll P.exec ((P.script content).take executed) db)

/-- `_restore_sql_plaintext(path, args)` -/
def restoreSqlPlaintext (content : C) (db : P.Db) : CliExit × P.Db :=
  if w.dsn = "" then (.returned 1 dsnMissingHint, db)
  else
    match w.dsnError with
    | some e => (.returned 1 ("ERROR: " ++ e), db)
    | none =>
        if w.raises .psql then (.raised, db)
        else
          let (code, stderr, db') := psql P w content db
          if code ≠ 0 then (.returned code ("psql failed: " ++ stderr), db')
          else (.returned 0 "", db')

/-- From the manifest on, in the directory of the bundle. -/
def restoreExtracted (dir : String → DirEntry C) (db : P.Db) : CliExit × P.Db :=
  match dir "manifest.json" with
  | .missing =>
      (.returned 1 "ERROR: Bundle missing manifest.json — not a valid backup bundle.", db)
  | .unreadable => (.returned 1 ("ERROR: Invalid manifest.json: " ++ w.jsonError), db)
  | .file manifest =>
      if (J.loads manifest).isNone then
        (.returned 1 ("ERROR: Invalid manifest.json: " ++ w.jsonError), db)
      else if !(dir "postgres.sql").exists then
        (.returned 1 "ERROR: Bundle missing postgres.sql.", db)
      else if w.raises .backupDir then (.raised, db)
      else
        match w.safetyDump with
        | .raised e => (.returned 1 ("ERROR: Pre-restore safety backup failed: " ++ e), db)
        | .ended (.failed _ stderr) =>
            (.returned 1 ("ERROR: Pre-restore safety backup failed: " ++ stderr), db)
        | .ended .finished =>
            match dir "postgres.sql" with
            | .file sql =>
                if w.raises .psql then (.raised, db)
                else
                  let (code, stderr, db') := psql P w sql db
                  if code ≠ 0 then
                    (.returned 1 ("ERROR: psql restore failed: " ++ stderr), db')
                  else (.returned 0 "", db')
            | _ => (.raised, db)

/-- `_restore_bundle(path, args)` -/
def restoreBundle (bundle : C) (db : P.Db) : CliExit × P.Db :=
  if w.dsn = "" then (.returned 1 dsnMissingHint, db)
  else
    match w.dsnError with
    | some e => (.returned 1 ("ERROR: " ++ e), db)
    | none =>
        match T.extract bundle with
        | .rejected e => (.returned 1 ("ERROR: Rejected malicious tar member: " ++ e), db)
        | .tarError e => (.returned 1 ("ERROR: Failed to open bundle: " ++ e), db)
        | .raised => (.raised, db)
        | .extracted dir =>
            if w.raises .extract then (.raised, db) else restoreExtracted P J w dir db

/-- `_cmd_restore(args)`; `none` is a file that is not there. -/
def cmdRestore (args : RestoreArgs) (content : Option C) (db : P.Db) : CliExit × P.Db :=
  match content with
  | none => (.returned 1 ("ERROR: File not found: " ++ args.file), db)
  | some content =>
      let fname := (PosixPath.name args.file).toLower
      if PyText.endswith fname ".tar.gz" || PyText.endswith fname ".tgz" then
        restoreBundle P T J w content db
      else restoreSqlPlaintext P w content db

end Restore

end OdooSemantic
