import Mathlib.Data.Finset.Defs
import Mathlib.Data.List.Sort
import OdooSemantic.Lib.KeyedStore
import OdooSemantic.Lib.PosixPath

/-!
# `src/db/repo_registry.py` — profiles and repos

The two tables the indexer reads its work from and writes its progress to. A row is found by
its id; `head_sha` is the one column the indexer itself writes, and `NULL` there means "index
this repo in full". What fails raises before anything is updated, so a failing operation is an
`Except` error and the tables it was given are still the tables there are.

`chain` is the recursive query: from a profile up its `parent_profile_id`. The query has no
bound of its own; on a forest it is no longer than the table, which is the fuel here.
-/

namespace OdooSemantic

open KeyedStore

structure ProfileRow where
  name : String
  odooVersion : String
  description : Option String := none
  parentProfileId : Option Nat := none
deriving DecidableEq

structure RepoRow where
  profileId : Nat
  url : String
  branch : String
  localPath : String
  sshKeyId : Option Nat := none
  headSha : Option String := none
deriving DecidableEq

/-- A repo dict of `get_repos_for_profile`, with the keys the pipeline reads. -/
structure Repo where
  id : Nat
  localPath : String
  odooVersion : String
deriving DecidableEq

structure Db where
  profiles : Store Nat ProfileRow := ∅
  repos : Store Nat RepoRow := ∅

inductive RegistryError where
  | profileNotFound
  | profileCycle
  | profileVersionMismatch
  | profileNameConflict
  | profileIndexed
  | repoNotFound
  | repoConflict
deriving DecidableEq

namespace Db

/-! ## Reading -/

/-- A profile and its row, by name. -/
def profileNamed (db : Db) (name : String) : Option (Nat × ProfileRow) :=
  (db.profiles.entries.find? fun e => e.2.name = name).map fun e => (e.1, e.2)

/-- The walk up from a profile: the profile itself, then its ancestors. -/
def chain (db : Db) : Nat → Option Nat → List (Nat × ProfileRow)
  | 0, _ => []
  | _ + 1, none => []
  | fuel + 1, some id =>
      match db.profiles.lookup id with
      | none => []
      | some p => (id, p) :: chain db fuel p.parentProfileId

/-- More than the number of profiles. -/
def fuel (db : Db) : Nat := db.profiles.keys.length + 1

/-- `get_ancestor_profile_names(profile_name)` -/
def getAncestorProfileNames (db : Db) (profileName : String) : List String :=
  match db.profileNamed profileName with
  | none => []
  | some (id, _) => (db.chain db.fuel (some id)).map (·.2.name)

/-- `get_repo_head_sha(repo_id)` -/
def getRepoHeadSha (db : Db) (repoId : Nat) : Option String :=
  (db.repos.lookup repoId).bind (·.headSha)

/-- `get_repos_for_profile(profile_name)`: the rows by id, with the profile's version. -/
def getReposForProfile (db : Db) (profileName : String) : List Repo :=
  match db.profileNamed profileName with
  | none => []
  | some (profileId, p) =>
      (db.repos.keys.insertionSort (· ≤ ·)).filterMap fun id =>
        ((db.repos.lookup id).filter (·.profileId = profileId)).map fun r =>
          ⟨id, r.localPath, p.odooVersion⟩

/-- `get_repo_ids_by_local_path_basenames(basenames)`: only membership in `basenames` counts. -/
def getRepoIdsByLocalPathBasenames (db : Db) (basenames : Finset String) : List Nat :=
  (db.repos.entries.filter fun e => PosixPath.afterLastSlash e.2.localPath ∈ basenames).map (·.1)

/-- `_has_indexed_repos(profile_id)` -/
def hasIndexedRepos (db : Db) (profileId : Nat) : Nat :=
  (db.repos.entries.filter fun e => e.2.profileId = profileId ∧ e.2.headSha.isSome).length

/-! ## Writing a repo row -/

/-- `UPDATE repos SET … WHERE id = …` -/
def updateRow (db : Db) (repoId : Nat) (f : RepoRow → RepoRow) : Db :=
  match db.repos.lookup repoId with
  | none => db
  | some r => { db with repos := db.repos.insert repoId (f r) }

/-- `update_repo_head_sha(repo_id, head_sha)` -/
def updateRepoHeadSha (db : Db) (repoId : Nat) (headSha : String) : Except RegistryError Db :=
  if repoId ∈ db.repos then
    .ok (db.updateRow repoId fun r => { r with headSha := some headSha })
  else .error .repoNotFound

/-- `reset_head_sha(repo_ids)` -/
def resetHeadSha (db : Db) (repoIds : List Nat) : Db :=
  repoIds.foldl (fun db id => db.updateRow id fun r => { r with headSha := none }) db

/-- `reset_repo_head_sha(repo_id)` -/
def resetRepoHeadSha (db : Db) (repoId : Nat) : Except RegistryError Db :=
  if repoId ∈ db.repos then .ok (db.resetHeadSha [repoId]) else .error .repoNotFound

/-- The arguments of `update_repo`; `none` leaves a column alone. -/
structure RepoPatch where
  url : Option String := none
  branch : Option String := none
  sshKeyId : Option Nat := none
  clearSshKey : Bool := false
  localPath : Option String := none

/-- `update_repo(repo_id, …)`: no patch touches `head_sha`. -/
def updateRepo (db : Db) (repoId : Nat) (patch : RepoPatch) : Except RegistryError Db :=
  match db.repos.lookup repoId with
  | none => .error .repoNotFound
  | some existing =>
      let url := patch.url.getD existing.url
      let branch := patch.branch.getD existing.branch
      if (patch.url.isSome || patch.branch.isSome) &&
          db.repos.entries.any fun e => e.1 ≠ repoId && e.2.url = url && e.2.branch = branch then
        .error .repoConflict
      else
        .ok <| db.updateRow repoId fun r =>
          { r with
            url
            branch
            sshKeyId := if patch.clearSshKey then none else patch.sshKeyId.or r.sshKeyId
            localPath := patch.localPath.getD r.localPath }

/-! ## Writing a profile row -/

def updateProfileRow (db : Db) (profileId : Nat) (f : ProfileRow → ProfileRow) : Db :=
  match db.profiles.lookup profileId with
  | none => db
  | some p => { db with profiles := db.profiles.insert profileId (f p) }

/-- `_validate_parent(profile_id, parent_id)` -/
def validateParent (db : Db) (profileId : Nat) : Option Nat → Except RegistryError Unit
  | none => .ok ()
  | some parentId =>
      if parentId = profileId then .error .profileCycle
      else match db.profiles.lookup profileId, db.profiles.lookup parentId with
        | some child, some parent =>
            if child.odooVersion ≠ parent.odooVersion then .error .profileVersionMismatch
            else if profileId ∈ (db.chain db.fuel (some parentId)).map Prod.fst then
              .error .profileCycle
            else .ok ()
        | _, _ => .error .profileNotFound

/-- `set_profile_parent(profile_id, parent_id)`: nothing asks whether the profile has indexed
    repos. -/
def setProfileParent (db : Db) (profileId : Nat) (parentId : Option Nat) :
    Except RegistryError Db :=
  match db.validateParent profileId parentId with
  | .error e => .error e
  | .ok () =>
      if profileId ∈ db.profiles then
        .ok (db.updateProfileRow profileId fun p => { p with parentProfileId := parentId })
      else .error .profileNotFound

/-- The arguments of `update_profile`. -/
structure ProfilePatch where
  name : Option String := none
  version : Option String := none
  description : Option String := none

/-- `update_profile(profile_id, …)`: a name or a version is not changed under indexed repos. -/
def updateProfile (db : Db) (profileId : Nat) (patch : ProfilePatch) : Except RegistryError Db :=
  match db.profiles.lookup profileId with
  | none => .error .profileNotFound
  | some current =>
      let name := patch.name.getD current.name
      let version := patch.version.getD current.odooVersion
      let nameChanging : Bool := name ≠ current.name
      let versionChanging : Bool := version ≠ current.odooVersion
      if (nameChanging || versionChanging) && db.hasIndexedRepos profileId > 0 then
        .error .profileIndexed
      else if versionChanging && (current.parentProfileId.bind db.profiles.lookup).any
          (·.odooVersion ≠ version) then
        .error .profileVersionMismatch
      else if versionChanging && db.profiles.entries.any fun e =>
          profileId ∈ (db.chain db.fuel e.2.parentProfileId).map Prod.fst
            && e.2.odooVersion ≠ version then
        .error .profileVersionMismatch
      else if nameChanging && db.profiles.entries.any fun e => e.2.name = name then
        .error .profileNameConflict
      else
        .ok <| db.updateProfileRow profileId fun p =>
          { p with name, odooVersion := version, description := patch.description.or p.description }

/-! ## Deleting -/

end Db

/-- A row of `get_repo_by_id`, with the keys its callers read. -/
structure RepoDict where
  url : String
  localPath : String
  profileName : String
  odooVersion : String
deriving DecidableEq

inductive DeleteError where
  /-- `ValueError` -/
  | notFound
  /-- `ON DELETE RESTRICT`: a profile has children. -/
  | restricted
deriving DecidableEq

/-- `{"repo_basename": …, "odoo_version": …}` -/
structure RepoPair where
  basename : String
  version : String
deriving DecidableEq

namespace Db

/-- `get_repo_by_id(repo_id)`; `profile_id` is a foreign key. -/
def getRepoById (db : Db) (repoId : Nat) : Option RepoDict :=
  (db.repos.lookup repoId).bind fun r =>
    (db.profiles.lookup r.profileId).map fun p => ⟨r.url, r.localPath, p.name, p.odooVersion⟩

/-- The id of the first repo of `list_repos()` with that url. -/
def repoIdWithUrl (db : Db) (url : String) : Option Nat :=
  (db.repos.keys.insertionSort (· ≤ ·)).find? fun id =>
    (db.repos.lookup id).any (·.url = url)

/-- `delete_repo(repo_id)` -/
def deleteRepo (db : Db) (repoId : Nat) : Except DeleteError (Db × RepoPair) :=
  match db.getRepoById repoId with
  | none => .error .notFound
  | some r =>
      .ok ({ db with repos := db.repos.erase repoId },
        ⟨PosixPath.name r.localPath, r.odooVersion⟩)

/-- The ids of the repos that go with a profile. -/
def repoIdsOf (db : Db) (profileId : Nat) : List Nat :=
  db.repos.keys.filter fun id => (db.repos.lookup id).any (·.profileId = profileId)

/-- `delete_profile(profile_id)`: the repos go with the row, by `ON DELETE CASCADE`. -/
def deleteProfile (db : Db) (profileId : Nat) : Except DeleteError (Db × List RepoPair) :=
  match db.profiles.lookup profileId with
  | none => .error .notFound
  | some p =>
      if db.profiles.entries.any fun e => e.1 ≠ profileId && e.2.parentProfileId = some profileId then
        .error .restricted
      else
        .ok ({ profiles := db.profiles.erase profileId
               repos := eraseWhere
                 (fun id => (db.repos.lookup id).any (·.profileId = profileId)) db.repos },
          (db.repoIdsOf profileId).filterMap fun id =>
            (db.repos.lookup id).map fun r => ⟨PosixPath.name r.localPath, p.odooVersion⟩)

/-! ## What the writes do to a row -/

theorem lookup_updateRow (db : Db) (repoId : Nat) (f : RepoRow → RepoRow) (id : Nat) :
    (db.updateRow repoId f).repos.lookup id =
      if id = repoId then (db.repos.lookup id).map f else db.repos.lookup id := by
  unfold updateRow
  by_cases h : id = repoId
  · subst h
    cases hl : db.repos.lookup id <;> simp [hl]
  · cases hl : db.repos.lookup repoId <;> simp [h]

@[simp] theorem profiles_updateRow (db : Db) (repoId : Nat) (f : RepoRow → RepoRow) :
    (db.updateRow repoId f).profiles = db.profiles := by
  unfold updateRow
  cases db.repos.lookup repoId <;> rfl

/-- **A reset clears the head of the listed repos and nothing else.** -/
theorem lookup_resetHeadSha (db : Db) (repoIds : List Nat) (id : Nat) :
    (db.resetHeadSha repoIds).repos.lookup id =
      if id ∈ repoIds then (db.repos.lookup id).map fun r => { r with headSha := none }
      else db.repos.lookup id := by
  unfold resetHeadSha
  induction repoIds generalizing db with
  | nil => simp
  | cons repoId repoIds ih =>
    rw [List.foldl_cons, ih, lookup_updateRow]
    by_cases h : id = repoId
    · subst h
      by_cases hm : id ∈ repoIds <;> simp [hm, Function.comp_def]
    · simp [h]

theorem mem_getRepoIdsByLocalPathBasenames {db : Db} {basenames : Finset String}
    {id : Nat} :
    id ∈ db.getRepoIdsByLocalPathBasenames basenames ↔
      ∃ r, db.repos.lookup id = some r ∧ PosixPath.afterLastSlash r.localPath ∈ basenames := by
  unfold getRepoIdsByLocalPathBasenames
  simp only [List.mem_map, List.mem_filter, decide_eq_true_eq]
  constructor
  · rintro ⟨e, ⟨he, hb⟩, rfl⟩
    exact ⟨e.2, AList.mem_lookup_iff.mpr he, hb⟩
  · rintro ⟨r, hr, hb⟩
    exact ⟨⟨id, r⟩, ⟨AList.mem_lookup_iff.mp hr, hb⟩, rfl⟩

theorem getRepoHeadSha_resetHeadSha (db : Db) (repoIds : List Nat) (id : Nat) :
    (db.resetHeadSha repoIds).getRepoHeadSha id =
      if id ∈ repoIds then none else db.getRepoHeadSha id := by
  unfold getRepoHeadSha
  rw [lookup_resetHeadSha]
  by_cases h : id ∈ repoIds
  · cases db.repos.lookup id <;> simp [h]
  · simp [h]

theorem updateRepoHeadSha_eq_ok {db db' : Db} {repoId : Nat} {sha : String}
    (h : db.updateRepoHeadSha repoId sha = .ok db') :
    repoId ∈ db.repos ∧ db' = db.updateRow repoId fun r => { r with headSha := some sha } := by
  unfold updateRepoHeadSha at h
  split at h
  · rename_i hm
    exact ⟨hm, (Except.ok.inj h).symm⟩
  · exact absurd h (by simp)

/-- **An update sets the head of its repo and nothing else.** -/
theorem getRepoHeadSha_updateRepoHeadSha {db db' : Db} {repoId : Nat} {sha : String}
    (h : db.updateRepoHeadSha repoId sha = .ok db') (id : Nat) :
    db'.getRepoHeadSha id = if id = repoId then some sha else db.getRepoHeadSha id := by
  obtain ⟨hm, rfl⟩ := updateRepoHeadSha_eq_ok h
  unfold getRepoHeadSha
  rw [lookup_updateRow]
  by_cases hid : id = repoId
  · subst hid
    obtain ⟨r, hr⟩ := Option.isSome_iff_exists.mp (AList.lookup_isSome.mpr hm)
    simp [hr]
  · simp [hid]

end Db

end OdooSemantic
