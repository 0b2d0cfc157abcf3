import OdooSemantic.Db.RepoRegistry
import OdooSemantic.Indexer.CommandLine

/-!
# The routes that spawn the indexer

Five routes, of `src/web_ui/routes/operations.py` and `src/web_ui/routes/repos.py`, check a
request body and build the words of an indexer command line from it; `spawn_indexer_subcommand`
adds `--job-id` to whatever they have built. A route that rejects the body answers with a
status and a text.

The disk and the advisory locks enter as data: which paths are directories or files, and which
profiles are being indexed.
-/

namespace OdooSemantic

open KeyedStore

structure Disk where
  /-- `Path(p).is_dir()` -/
  isDir : String → Bool
  /-- `Path(p).is_file()` -/
  isFile : String → Bool

/-- The arguments of `spawn_indexer_subcommand`. -/
structure SpawnCall where
  subcommandArgv : List String
  jobLabel : String
deriving DecidableEq

structure Rejection where
  status : Nat
  error : String
deriving DecidableEq

/-- `spawn_indexer_subcommand`: the words behind `python -m src.indexer`. -/
def SpawnCall.argv (call : SpawnCall) (jobId : Nat) : List String :=
  call.subcommandArgv ++ ["--job-id", PyText.str jobId]

/-- `_VERSION_RE.match(s)`: `^\d{1,2}\.\d+$`, for a text without a final newline. -/
def isVersion (s : String) : Bool :=
  let major := s.toList.takeWhile PyText.isDecimal
  (major.length = 1 || major.length = 2) &&
    match s.toList.dropWhile PyText.isDecimal with
    | '.' :: minor => !minor.isEmpty && minor.all PyText.isDecimal
    | _ => false

/-! ## `operations.py` -/

structure IndexCoreBody where
  source : String
  version : String
  staticDataDir : String := ""

/-- `post_index_core(body)` -/
def postIndexCore (disk : Disk) (body : IndexCoreBody) : Except Rejection SpawnCall :=
  let version := PyText.strip body.version
  let staticDataDir := PyText.strip body.staticDataDir
  if !isVersion version then
    .error ⟨400, "Invalid version '" ++ body.version ++
      "'. Expected format: 17.0 (up to 2-digit major)"⟩
  else if !disk.isDir body.source then
    .error ⟨400, "Source path does not exist or is not a directory: " ++ body.source⟩
  else if staticDataDir ≠ "" && !disk.isDir staticDataDir then
    .error ⟨400, "Static data dir does not exist or is not a directory: " ++ body.staticDataDir⟩
  else
    .ok ⟨["index-core", "--source", PyText.strip body.source, "--version", version]
      ++ (if staticDataDir ≠ "" then ["--static-data-dir", staticDataDir] else []),
      "core:" ++ version⟩

structure SeedPatternsBody where
  version : String := ""
  noEmbed : String := ""
  force : String := ""
  patternsFile : String := ""

/-- `post_seed_patterns(body)` -/
def postSeedPatterns (disk : Disk) (body : SeedPatternsBody) : Except Rejection SpawnCall :=
  let version := PyText.strip body.version
  let patternsFile := PyText.strip body.patternsFile
  if version ≠ "" && !isVersion version then
    .error ⟨400, "Invalid version '" ++ version ++
      "'. Expected format: 17.0 (up to 2-digit major)"⟩
  else if patternsFile ≠ "" && !disk.isFile patternsFile then
    .error ⟨400, "Patterns file does not exist or is not a file: " ++ patternsFile⟩
  else
    .ok ⟨["seed-patterns"]
      ++ (if version ≠ "" then ["--version", version] else [])
      ++ (if body.noEmbed ≠ "" then ["--no-embed"] else [])
      ++ (if body.force ≠ "" then ["--force"] else [])
      ++ (if patternsFile ≠ "" then ["--patterns-file", patternsFile] else []),
      if version ≠ "" then "patterns:" ++ version else "patterns"⟩

/-! ## `repos.py` -/

/-- `int(body.max_workers)` and the check of its range, with the two answers. -/
def parseWorkers (text : String) (max : Nat) (invalid : String) (outOfRange : Int → String) :
    Except Rejection Nat :=
  match PyText.int text with
  | none => .error ⟨422, invalid⟩
  | some n => if 1 ≤ n ∧ n ≤ max then .ok n.toNat else .error ⟨422, outOfRange n⟩

structure IndexRepoBody where
  noEmbed : String := ""
  full : String := ""
  gc : String := ""
  maxWorkers : String := "1"

def maxWorkersRange (n : Int) : String :=
  "max_workers must be between 1 and 8 (got " ++ toString n ++ ")."

/-- `index_repo(repo_id, body)` -/
def indexRepoRoute (running : String → Bool) (db : Db) (repoId : Nat) (body : IndexRepoBody) :
    Except Rejection SpawnCall := do
  let maxWorkers ← parseWorkers body.maxWorkers 8
    ("Invalid max_workers value '" ++ body.maxWorkers ++
      "': must be an integer between 1 and 8.") maxWorkersRange
  match db.repos.lookup repoId with
  | none => .error ⟨404, "Repo not found."⟩
  | some r =>
      match (db.profiles.lookup r.profileId).map (·.name) with
      | none => .error ⟨400, "Repo is not attached to a profile."⟩
      | some profileName =>
          if profileName = "" then .error ⟨400, "Repo is not attached to a profile."⟩
          else if running profileName then
            .error ⟨409, "Indexer already running for profile " ++ profileName ++
              ". Wait for it to finish."⟩
          else
            .ok ⟨["index-repo", "--profile", profileName]
              ++ (if body.noEmbed ≠ "" then ["--no-embed"] else [])
              ++ (if body.full ≠ "" then ["--full"] else [])
              ++ (if body.gc ≠ "" then ["--gc"] else [])
              ++ (if maxWorkers ≠ 1 then ["--max-workers", PyText.str maxWorkers] else []),
              profileName⟩

/-- `reset_embed(repo_id)`: the command line, and the registry with the head taken out. -/
def resetEmbedRoute (running : String → Bool) (db : Db) (repoId : Nat) :
    Except Rejection (SpawnCall × Db) :=
  match db.getRepoById repoId with
  | none => .error ⟨404, "Repo not found."⟩
  | some repo =>
      if running repo.profileName then
        .error ⟨409, "Cannot reset embed state: indexer already running for profile " ++
          repo.profileName ++ ". Wait for it to finish."⟩
      else
        match db.resetRepoHeadSha repoId with
        | .error _ => .error ⟨500, "Reset embed failed: repo id=" ++ PyText.str repoId ++ " not found"⟩
        | .ok db => .ok (⟨["index-repo", "--profile", repo.profileName], repo.profileName⟩, db)

structure IndexAllBody where
  noEmbed : String := ""
  full : String := ""
  maxWorkers : String := "1"
  profileWorkers : String := "1"

/-- The names of `list_profiles()`. -/
def Db.profileNames (db : Db) : List String :=
  (db.profiles.keys.insertionSort (· ≤ ·)).filterMap fun id => (db.profiles.lookup id).map (·.name)

/-- `index_all(body)` -/
def indexAllRoute (running : String → Bool) (db : Db) (body : IndexAllBody) :
    Except Rejection SpawnCall := do
  let maxWorkers ← parseWorkers body.maxWorkers 8
    ("Invalid max_workers '" ++ body.maxWorkers ++ "': must be an integer between 1 and 8.")
    maxWorkersRange
  let profileWorkers ← parseWorkers body.profileWorkers 4
    ("Invalid profile_workers '" ++ body.profileWorkers ++
      "': must be an integer between 1 and 4.")
    fun n => "profile_workers must be between 1 and 4 (got " ++ toString n ++ ")."
  let blocked := db.profileNames.filter running
  if blocked ≠ [] then
    .error ⟨409, "Cannot start index-all: indexer running for: " ++ String.intercalate ", " blocked⟩
  else
    .ok ⟨["index-repo", "--all"]
      ++ (if body.noEmbed ≠ "" then ["--no-embed"] else [])
      ++ (if body.full ≠ "" then ["--full"] else [])
      ++ (if maxWorkers ≠ 1 then ["--max-workers", PyText.str maxWorkers] else [])
      ++ (if profileWorkers ≠ 1 then ["--profile-workers", PyText.str profileWorkers] else []),
      "all"⟩

end OdooSemantic
