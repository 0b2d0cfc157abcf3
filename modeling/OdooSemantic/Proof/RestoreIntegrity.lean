import Mathlib.Algebra.GroupWithZero.Nat
import OdooSemantic.Cli.Restore

/-!
# What a successful backup and a successful restore say

A backup that reports success has written a bundle whose checksums are right, unless it says that
it was skipped; and its dump, restored into a fresh database, leaves what was backed up
(`restore_integrity`). A restore does not look at the checksums, and `psql` exits 0 over statements
that fail. So over a database that holds something already, or for a bundle that was damaged, its
success says less (`NightlyBundle`).
-/

namespace OdooSemantic

/-! ## The directory of a bundle -/

section Files

variable {C : Type}

theorem filesDir_eq_file {files : List (String × C)} {name : String} {content : C}
    (hmem : (name, content) ∈ files) (hnodup : (files.map Prod.fst).Nodup) :
    filesDir files name = .file content := by
  unfold filesDir
  have hsome : ∃ f, files.reverse.find? (fun f => f.1 = name) = some f :=
    Option.isSome_iff_exists.mp (List.find?_isSome.mpr
      ⟨(name, content), List.mem_reverse.mpr hmem, by simp⟩)
  obtain ⟨f, hf⟩ := hsome
  have hname : f.1 = name := by simpa using List.find?_some hf
  have hin : f ∈ files := List.mem_reverse.mp (List.mem_of_find?_eq_some hf)
  have heq : f = (name, content) :=
    List.inj_on_of_nodup_map hnodup hin hmem hname
  simp only [hf, heq]

variable {w : BackupWorld C} {args : BackupArgs}

theorem names_neo4jFiles (e : Neo4jEnd C) :
    ((neo4jFiles e).map Prod.fst).Sublist ["neo4j.dump"] := by
  unfold neo4jFiles
  cases e.dump with
  | none => exact List.nil_sublist _
  | some dump => exact List.Sublist.refl _

theorem neo4jComponents_subset (e : Neo4jEnd C) : neo4jComponents e ⊆ neo4jFiles e := by
  unfold neo4jComponents
  split
  · exact List.Subset.refl _
  · exact List.nil_subset _

theorem names_fernetFiles : ((fernetFiles w args).map Prod.fst).Sublist ["fernet.enc"] := by
  unfold fernetFiles
  split
  · exact List.nil_sublist _
  · split
    · exact List.Sublist.refl _
    · exact List.nil_sublist _

variable {P : PostgreSQL C} {J : ManifestJson C} {sha256 : C → String} {db : P.Db}

theorem nodup_bundleFiles : ((bundleFiles P J sha256 w args db).map Prod.fst).Nodup := by
  have hnames : ((bundleFiles P J sha256 w args db).map Prod.fst).Sublist
      (["fernet.enc"] ++ ["manifest.json"] ++ ["neo4j.dump"] ++ ["postgres.sql"]) := by
    simp only [bundleFiles, List.map_append]
    exact ((names_fernetFiles.append (List.Sublist.refl _)).append (names_neo4jFiles _)).append
      (List.Sublist.refl _)
  exact hnames.nodup (by decide)

theorem backedUp_subset : backedUp P w args db ⊆ bundleFiles P J sha256 w args db := by
  intro f hf
  simp only [backedUp, bundleFiles, List.mem_cons, List.mem_append] at hf ⊢
  rcases hf with hdump | hneo4j | hfernet
  · exact Or.inr (Or.inl hdump)
  · exact Or.inl (Or.inr (neo4jComponents_subset _ hneo4j))
  · exact Or.inl (Or.inl (Or.inl hfernet))

end Files

/-! ## What success says of each command -/

section Success

variable {C : Type} {P : PostgreSQL C} {T : Tarfile C} {J : ManifestJson C} {sha256 : C → String}

theorem succeeded_returned {code : Int} {stderr : String} :
    (CliExit.returned code stderr).succeeded = true ↔ code = 0 := by
  unfold CliExit.succeeded
  split
  · rename_i heq
    injection heq with hcode
    simp [hcode]
  · rename_i hne
    simp only [Bool.false_eq_true, false_iff]
    rintro rfl
    exact hne stderr rfl

theorem not_succeeded_raised : CliExit.raised.succeeded ≠ true := by decide

/-- PostgreSQL is down, as far as the backup can tell. -/
def BackupWorld.Skips (w : BackupWorld C) : Prop :=
  w.containerRunning = some false ∨ ∃ cause, w.connect = .refused cause

theorem backupLocked_succeeded {w : BackupWorld C} {args : BackupArgs} {db : P.Db}
    (h : (backupLocked P T J sha256 w args db).1.succeeded = true) :
    (backupLocked P T J sha256 w args db).2 =
      .written (T.pack (bundleFiles P J sha256 w args db)) := by
  unfold backupLocked at h ⊢
  split at h
  · exact absurd h not_succeeded_raised
  · rename_i hdump
    rw [if_neg hdump]
    cases hend : w.pgDump with
    | failed code stderr =>
      rw [hend] at h
      exact absurd (succeeded_returned.mp h) code.2
    | finished =>
      rw [hend] at h
      dsimp only at h ⊢
      split at h
      · exact absurd h not_succeeded_raised
      · split at h
        · exact absurd h not_succeeded_raised
        · split at h
          · exact absurd h not_succeeded_raised
          · simp [*]

/-- **A backup that reports success was skipped or has written its bundle.** -/
theorem cmdBackup_succeeded {w : BackupWorld C} {args : BackupArgs} {db : P.Db}
    (h : (cmdBackup P T J sha256 w args db).1.succeeded = true) :
    w.Skips ∧ (cmdBackup P T J sha256 w args db).2 = .untouched ∨
      (cmdBackup P T J sha256 w args db).2 =
        .written (T.pack (bundleFiles P J sha256 w args db)) := by
  unfold cmdBackup at h ⊢
  split at h
  · exact absurd (succeeded_returned.mp h) (by decide)
  split at h
  · exact absurd (succeeded_returned.mp h) (by decide)
  split at h
  · exact absurd h not_succeeded_raised
  split at h
  · exact absurd (succeeded_returned.mp h) (by decide)
  split at h
  · exact absurd (succeeded_returned.mp h) (by decide)
  split at h
  · rename_i hcontainer
    exact Or.inl ⟨Or.inl hcontainer, by simp [*]⟩
  split at h
  · exact absurd h not_succeeded_raised
  split at h
  · rename_i cause hconnect
    exact Or.inl ⟨Or.inr ⟨cause, hconnect⟩, by simp [*]⟩
  split at h
  · exact absurd h not_succeeded_raised
  split at h
  · exact absurd (succeeded_returned.mp h) (by decide)
  right
  simp only [*]
  exact backupLocked_succeeded h

theorem psql_code {w : RestoreWorld} {content : C} {db : P.Db}
    (h : (psql P w content db).1 = 0) :
    w.psql = .finished ∧
      (psql P w content db).2.2 = Script.runAll P.exec (P.script content) db := by
  unfold psql at h ⊢
  cases hend : w.psql with
  | finished => exact ⟨rfl, rfl⟩
  | stopped executed code stderr =>
    rw [hend] at h
    exact absurd h code.2

/-- What a restore has come through when it reports success. -/
structure Restored (P : PostgreSQL C) (T : Tarfile C) (J : ManifestJson C) (w : RestoreWorld)
    (bundle : C) (db : P.Db) (dir : String → DirEntry C) (manifest sql : C) : Prop where
  hextract : T.extract bundle = .extracted dir
  hmanifest : dir "manifest.json" = .file manifest
  hjson : (J.loads manifest).isSome
  hdump : dir "postgres.sql" = .file sql
  hsafety : w.safetyDump = .ended .finished
  hpsql : w.psql = .finished
  hdb : (restoreBundle P T J w bundle db).2 = Script.runAll P.exec (P.script sql) db

theorem restoreExtracted_succeeded {w : RestoreWorld} {dir : String → DirEntry C} {db : P.Db}
    (h : (restoreExtracted P J w dir db).1.succeeded = true) :
    ∃ manifest sql, dir "manifest.json" = .file manifest ∧ (J.loads manifest).isSome ∧
      dir "postgres.sql" = .file sql ∧ w.safetyDump = .ended .finished ∧ w.psql = .finished ∧
      (restoreExtracted P J w dir db).2 = Script.runAll P.exec (P.script sql) db := by
  unfold restoreExtracted at h ⊢
  split at h
  · exact absurd (succeeded_returned.mp h) (by decide)
  · exact absurd (succeeded_returned.mp h) (by decide)
  rename_i manifest hmanifest
  split at h
  · exact absurd (succeeded_returned.mp h) (by decide)
  rename_i hjson
  split at h
  · exact absurd (succeeded_returned.mp h) (by decide)
  rename_i hexists
  split at h
  · exact absurd h not_succeeded_raised
  rename_i hraise
  split at h
  · exact absurd (succeeded_returned.mp h) (by decide)
  · exact absurd (succeeded_returned.mp h) (by decide)
  rename_i hsafety
  split at h
  · rename_i sql hsql
    split at h
    · exact absurd h not_succeeded_raised
    rename_i hpsql
    dsimp only at h
    split at h
    · exact absurd (succeeded_returned.mp h) (by decide)
    rename_i hcode
    obtain ⟨hend, hdb⟩ := psql_code (not_not.mp hcode)
    refine ⟨manifest, sql, hmanifest, Option.isSome_iff_ne_none.mpr ?_, hsql, hsafety, hend, ?_⟩
    · simpa using hjson
    · simp only [hsql, if_neg hjson, if_neg hraise, if_neg hpsql, if_neg hcode]
      rw [if_neg (by simp [DirEntry.exists])]
      exact hdb
  · exact absurd h not_succeeded_raised

theorem restoreBundle_succeeded {w : RestoreWorld} {bundle : C} {db : P.Db}
    (h : (restoreBundle P T J w bundle db).1.succeeded = true) :
    ∃ dir manifest sql, Restored P T J w bundle db dir manifest sql := by
  unfold restoreBundle at h
  split at h
  · exact absurd (succeeded_returned.mp h) (by decide)
  rename_i hdsn
  split at h
  · exact absurd (succeeded_returned.mp h) (by decide)
  rename_i herror
  split at h
  · exact absurd (succeeded_returned.mp h) (by decide)
  · exact absurd (succeeded_returned.mp h) (by decide)
  · exact absurd h not_succeeded_raised
  rename_i dir hdir
  split at h
  · exact absurd h not_succeeded_raised
  rename_i hextract
  obtain ⟨manifest, sql, hmanifest, hjson, hsql, hsafety, hpsql, hdb⟩ :=
    restoreExtracted_succeeded h
  refine ⟨dir, manifest, sql, hdir, hmanifest, hjson, hsql, hsafety, hpsql, ?_⟩
  rw [← hdb]
  simp only [restoreBundle, if_neg hdsn, herror, hdir, if_neg hextract]

/-- The checksums of a manifest are those of the files. -/
def ChecksumsMatch (J : ManifestJson C) (sha256 : C → String) (dir : String → DirEntry C)
    (json : J.Json) : Prop :=
  ∀ c ∈ J.components json, ∃ content, dir c.file = .file content ∧ sha256 content = c.sha256

/-- The bundle holds a dump of the database, and a manifest that has it and is right. -/
def Complete (P : PostgreSQL C) (T : Tarfile C) (J : ManifestJson C) (sha256 : C → String)
    (db : P.Db) (bundle : C) : Prop :=
  ∃ dir manifest json, T.extract bundle = .extracted dir ∧
    dir "postgres.sql" = .file (P.dump db) ∧ dir "manifest.json" = .file manifest ∧
    J.loads manifest = some json ∧ ChecksumsMatch J sha256 dir json ∧
    ⟨"postgres.sql", sha256 (P.dump db)⟩ ∈ J.components json

theorem complete_bundleFiles (w : BackupWorld C) (args : BackupArgs) (db : P.Db) :
    Complete P T J sha256 db (T.pack (bundleFiles P J sha256 w args db)) := by
  obtain ⟨json, hloads, hcomponents⟩ := J.loads_dumps (backupManifest P sha256 w args db)
  have hfile : ∀ f ∈ bundleFiles P J sha256 w args db,
      filesDir (bundleFiles P J sha256 w args db) f.1 = .file f.2 :=
    fun f hf => filesDir_eq_file hf nodup_bundleFiles
  refine ⟨_, J.dumps (backupManifest P sha256 w args db), json, T.extract_pack _, ?_, ?_, hloads,
    ?_, ?_⟩
  · exact hfile ("postgres.sql", P.dump db) (by simp [bundleFiles])
  · exact hfile ("manifest.json", _) (by simp [bundleFiles])
  · intro c hc
    rw [hcomponents] at hc
    obtain ⟨f, hf, rfl⟩ := List.mem_map.mp hc
    exact ⟨f.2, hfile f (backedUp_subset hf), rfl⟩
  · rw [hcomponents]
    exact List.mem_map.mpr ⟨("postgres.sql", P.dump db), List.mem_cons_self, rfl⟩

end Success

/-- **Backups that report success are complete, restores that report success have gone through the
    whole dump, and into a fresh database they bring back what was backed up.** -/
theorem restore_integrity {C : Type} (P : PostgreSQL C) (T : Tarfile C) (J : ManifestJson C)
    (sha256 : C → String) :
    (∀ w args (db : P.Db), (cmdBackup P T J sha256 w args db).1.succeeded = true →
      w.Skips ∧ (cmdBackup P T J sha256 w args db).2 = .untouched ∨
      ∃ bundle, (cmdBackup P T J sha256 w args db).2 = .written bundle ∧
        Complete P T J sha256 db bundle) ∧
    (∀ w bundle (db : P.Db), (restoreBundle P T J w bundle db).1.succeeded = true →
      ∃ dir manifest sql, T.extract bundle = .extracted dir ∧
        dir "manifest.json" = .file manifest ∧ (J.loads manifest).isSome ∧
        dir "postgres.sql" = .file sql ∧ w.safetyDump = .ended .finished ∧ w.psql = .finished ∧
        ∀ db', Script.runStrict P.exec (P.script sql) db = some db' →
          (restoreBundle P T J w bundle db).2 = db') ∧
    ∀ w args (db : P.Db) w' bundle, (cmdBackup P T J sha256 w args db).1.succeeded = true →
      (cmdBackup P T J sha256 w args db).2 = .written bundle →
      (restoreBundle P T J w' bundle P.fresh).1.succeeded = true →
      Script.Clean P.exec (P.script (P.dump db)) P.fresh ∧
        (restoreBundle P T J w' bundle P.fresh).2 = db := by
  refine ⟨fun w args db h => ?_, fun w bundle db h => ?_, fun w args db w' bundle h hwritten h' => ?_⟩
  · cases cmdBackup_succeeded h with
    | inl hskip => exact Or.inl hskip
    | inr hbundle => exact Or.inr ⟨_, hbundle, complete_bundleFiles w args db⟩
  · obtain ⟨dir, manifest, sql, hr⟩ := restoreBundle_succeeded h
    refine ⟨dir, manifest, sql, hr.hextract, hr.hmanifest, hr.hjson, hr.hdump, hr.hsafety,
      hr.hpsql, fun db' hclean => ?_⟩
    exact hr.hdb.trans (Script.runAll_of_runStrict hclean)
  · have hbundle : bundle = T.pack (bundleFiles P J sha256 w args db) := by
      cases cmdBackup_succeeded h with
      | inl hskip => exact absurd (hwritten.symm.trans hskip.2) (by simp)
      | inr hpacked => exact BackupOutput.written.inj (hwritten.symm.trans hpacked)
    obtain ⟨dir, manifest, sql, hr⟩ := restoreBundle_succeeded h'
    have hcomplete : Complete P T J sha256 db (T.pack (bundleFiles P J sha256 w args db)) :=
      complete_bundleFiles w args db
    obtain ⟨dir', _, _, hextract, hdump, _⟩ := hcomplete
    have hdir : dir = dir' := by
      have := hr.hextract
      rw [hbundle, hextract] at this
      injection this with heq
      exact heq.symm
    have hsql : sql = P.dump db := by
      have := hr.hdump
      rw [hdir, hdump] at this
      injection this with heq
      exact heq.symm
    have hclean := P.dump_fresh db
    rw [← hsql] at hclean ⊢
    exact ⟨Script.clean_iff.mpr ⟨db, hclean⟩, hr.hdb.trans (Script.runAll_of_runStrict hclean)⟩

/-! ## A nightly bundle

One table, whose rows are their ids. The backup is of two rows; another row has come since. -/

namespace NightlyBundle

inductive Content where
  | table (keyed : Bool) (ids : List Nat)
  | manifest (m : BundleManifest)
  | bundle (files : List (String × Content))
  | other

structure Table where
  keyed : Bool := false
  ids : List Nat := []
  nodup : keyed = true → ids.Nodup
deriving DecidableEq

inductive Statement where
  | create
  | copy (ids : List Nat)
  | addPrimaryKey

def exec : Statement → Option Table → Option (Option Table)
  | .create, none => some (some { nodup := by simp })
  | .copy ids, some t =>
      if h : t.keyed = true → (t.ids ++ ids).Nodup then
        some (some { t with ids := t.ids ++ ids, nodup := h })
      else none
  | .addPrimaryKey, some t =>
      if h : t.keyed = false ∧ t.ids.Nodup then
        some (some { keyed := true, ids := t.ids, nodup := fun _ => h.2 })
      else none
  | _, _ => none

def script : Content → List Statement
  | .table true ids => [.create, .copy ids, .addPrimaryKey]
  | .table false ids => [.create, .copy ids]
  | _ => []

def dump : Option Table → Content
  | none => .other
  | some t => .table t.keyed t.ids

theorem dump_fresh (db : Option Table) :
    Script.runStrict exec (script (dump db)) none = some db := by
  cases db with
  | none => rfl
  | some t =>
    obtain ⟨keyed, ids, nodup⟩ := t
    cases keyed with
    | false => simp [dump, script, Script.runStrict, exec]
    | true => simp [dump, script, Script.runStrict, exec, nodup rfl]

def postgres : PostgreSQL Content where
  Db := Option Table
  Statement := Statement
  exec := exec
  script := script
  dump := dump
  fresh := none
  dump_fresh := dump_fresh

def tarfile : Tarfile Content where
  pack := .bundle
  extract
    | .bundle files => .extracted (filesDir files)
    | _ => .tarError "not a gzip file"
  extract_pack := fun _ => rfl

def json : ManifestJson Content where
  Json := BundleManifest
  loads
    | .manifest m => some m
    | _ => none
  dumps := .manifest
  components := BundleManifest.components
  loads_dumps := fun m => ⟨m, rfl, rfl⟩

def sha256 : Content → String
  | .table _ ids => PyText.str ids.sum
  | _ => ""

def backupWorld : BackupWorld Content where
  env := fun _ => none
  home := "/home/osm"
  resolve := fun _ => "/home/osm/backup"
  dsn := "postgresql://osm@localhost/osm"
  encryptWithPassphrase := fun _ _ => .other
  createdAt := "2026-05-19T03:00:00+00:00"
  schemaVersion := "m9"

def stopped : BackupWorld Content := { backupWorld with containerRunning := some false }

def args : BackupArgs where
  output := "/home/osm/backup/nightly.tar.gz"

def restoreWorld : RestoreWorld where
  dsn := "postgresql://osm@localhost/osm"

/-- What is backed up. -/
def rows : Option Table := some { keyed := true, ids := [1, 2], nodup := by decide }

/-- What is there when it is restored. -/
def later : Option Table := some { keyed := true, ids := [1, 3], nodup := by decide }

def nightly : Content := .bundle (bundleFiles postgres json sha256 backupWorld args rows)

/-- The bundle with a row lost on the way. -/
def damaged : Content :=
  match nightly with
  | .bundle files => .bundle (files.dropLast ++ [("postgres.sql", .table true [1])])
  | c => c

/-- Into a fresh database the backup brings back its rows. -/
theorem restore_integrity_fresh :
    (Complete postgres tarfile json sha256 rows nightly) ∧
      (restoreBundle postgres tarfile json restoreWorld nightly none).2 = rows := by
  obtain ⟨hbackup, -, hfresh⟩ := restore_integrity postgres tarfile json sha256
  refine ⟨?_, (hfresh backupWorld args rows restoreWorld nightly rfl rfl rfl).2⟩
  cases hbackup backupWorld args rows rfl with
  | inl hskip => exact absurd hskip.2 (by rw [show (cmdBackup postgres tarfile json sha256
      backupWorld args rows).2 = .written nightly from rfl]; simp)
  | inr hwritten =>
    obtain ⟨bundle, hbundle, hcomplete⟩ := hwritten
    obtain rfl : nightly = bundle := BackupOutput.written.inj hbundle
    exact hcomplete

/-- **Success over a wrong checksum, over statements that failed, over other rows than were backed
    up, and without a bundle.** -/
theorem success_without_integrity :
    (¬∀ w bundle db, (restoreBundle postgres tarfile json w bundle db).1.succeeded = true →
      ∃ dir manifest m, tarfile.extract bundle = .extracted dir ∧
        dir "manifest.json" = .file manifest ∧ json.loads manifest = some m ∧
        ChecksumsMatch json sha256 dir m) ∧
    (¬∀ w bundle db, (restoreBundle postgres tarfile json w bundle db).1.succeeded = true →
      ∃ dir sql, tarfile.extract bundle = .extracted dir ∧ dir "postgres.sql" = .file sql ∧
        Script.Clean postgres.exec (postgres.script sql) db) ∧
    (¬∀ w args db w' bundle db',
      (cmdBackup postgres tarfile json sha256 w args db).1.succeeded = true →
      (cmdBackup postgres tarfile json sha256 w args db).2 = .written bundle →
      (restoreBundle postgres tarfile json w' bundle db').1.succeeded = true →
      (restoreBundle postgres tarfile json w' bundle db').2 = db) ∧
    ¬∀ w args db, (cmdBackup postgres tarfile json sha256 w args db).1.succeeded = true →
      ∃ bundle, (cmdBackup postgres tarfile json sha256 w args db).2 = .written bundle := by
  refine ⟨fun h => ?_, fun h => ?_, fun h => ?_, fun h => ?_⟩
  · obtain ⟨dir, manifest, m, hdir, hmanifest, hm, hmatch⟩ := h restoreWorld damaged none rfl
    obtain rfl := ExtractEnd.extracted.inj hdir
    obtain rfl := DirEntry.file.inj hmanifest
    obtain rfl := Option.some.inj hm
    obtain ⟨content, hfile, hsha⟩ := hmatch ⟨"postgres.sql", "3"⟩ (List.mem_singleton.mpr rfl)
    obtain rfl := DirEntry.file.inj hfile
    exact absurd hsha (by decide)
  · obtain ⟨dir, sql, hdir, hsql, hclean⟩ := h restoreWorld nightly later rfl
    obtain rfl := ExtractEnd.extracted.inj hdir
    obtain rfl := DirEntry.file.inj hsql
    -- the table is there already, and has one of the rows
    have hfails : Script.runStrict exec (script (dump rows)) later = none := rfl
    obtain ⟨db', hdb'⟩ := Script.clean_iff.mp hclean
    exact absurd (hfails.symm.trans hdb') (by simp)
  · have hkept : (restoreBundle postgres tarfile json restoreWorld nightly later).2 = later := rfl
    have hrows := h backupWorld args rows restoreWorld nightly later rfl rfl rfl
    exact absurd (hkept.symm.trans hrows) (by decide : ¬later = rows)
  · have huntouched : (cmdBackup postgres tarfile json sha256 stopped args rows).2 = .untouched := rfl
    obtain ⟨bundle, hbundle⟩ := h stopped args rows rfl
    exact absurd (huntouched.symm.trans hbundle) (by simp)

end NightlyBundle

end OdooSemantic
