import OdooSemantic.Indexer.Pipeline
import OdooSemantic.Indexer.ScopedDeletion

/-!
# `src/web_ui/routes/repos.py` — deleting a repo or a profile

The row goes first. Then three helpers go through the pairs `(basename, version)` that the
rows stood for: one asks the graph for the names of their modules, one deletes the modules,
one deletes the embeddings under the names. Each helper catches what a store raises, logs it
and goes on, so the route answers `ok` whatever became of them.

What the stores answer is data (`StoreAnswers`). A deletion in the graph is three queries, each
its own transaction, and may fail after any of them.
-/

namespace OdooSemantic

open KeyedStore

variable {Vec : Type}

/-- How the stores answer during a cleanup, by the position of the pair, and by version. -/
structure StoreAnswers where
  /-- `_get_neo4j_writer()` finds a password. -/
  configured : Bool := true
  collectRaises : Nat → Bool := fun _ => false
  /-- After how many of its queries `delete_modules_scoped` raises, if it does. -/
  deleteRaises : Nat → Option Nat := fun _ => none
  vectorRaises : String → Bool := fun _ => false

/-- `_logger.warning` -/
inductive CleanupWarning where
  | neo4jUnavailable (pair : RepoPair)
  | collectFailed (pair : RepoPair)
  | neo4jFailed (pair : RepoPair)
  | pgvectorFailed (version : String) (modules : List String)
deriving DecidableEq

/-! ## The helpers -/

/-- One turn of the loop of `_collect_module_names_for_repos`. -/
def collectPair (answers : StoreAnswers) (g : Graph)
    (s : Dict String (List String) × List CleanupWarning) (p : RepoPair × Nat) :
    Dict String (List String) × List CleanupWarning :=
  let pair := p.1
  if !answers.configured then (s.1, s.2 ++ [.neo4jUnavailable pair])
  else if answers.collectRaises p.2 then (s.1, s.2 ++ [.collectFailed pair])
  else
    (s.1.set pair.version
      ((s.1.get? pair.version).getD [] ++ g.moduleNames pair.basename pair.version), s.2)

/-- `_collect_module_names_for_repos(repo_cleanup_pairs)` -/
def collectModuleNamesForRepos (answers : StoreAnswers) (g : Graph) (pairs : List RepoPair) :
    Dict String (List String) × List CleanupWarning :=
  pairs.zipIdx.foldl (collectPair answers g) (.empty, [])

/-- `delete_modules_scoped`, of which the first `n` queries are answered. -/
def deleteModulesScopedUpTo (n : Nat) (repo version : String) (g : Graph) : Graph :=
  if n < 2 then g
  else if n = 2 then
    g.detachChildren fun k => k.name ∈ g.moduleNames repo version && k.odooVersion = version
  else (deleteModulesScoped repo version g).1

/-- One turn of the loop of `_delete_neo4j_for_repos`. -/
def deletePair (answers : StoreAnswers) (s : Graph × DeletedCounts × List CleanupWarning)
    (p : RepoPair × Nat) : Graph × DeletedCounts × List CleanupWarning :=
  let pair := p.1
  if !answers.configured then s
  else match answers.deleteRaises p.2 with
    | some n =>
        (deleteModulesScopedUpTo n pair.basename pair.version s.1, s.2.1,
          s.2.2 ++ [.neo4jFailed pair])
    | none =>
        let result := deleteModulesScoped pair.basename pair.version s.1
        (result.1, ⟨s.2.1.modules + result.2.modules, s.2.1.children + result.2.children⟩, s.2.2)

/-- `_delete_neo4j_for_repos(repo_cleanup_pairs)` -/
def deleteNeo4jForRepos (answers : StoreAnswers) (pairs : List RepoPair) (g : Graph) :
    Graph × DeletedCounts × List CleanupWarning :=
  pairs.zipIdx.foldl (deletePair answers) (g, ⟨0, 0⟩, [])

/-- `DELETE FROM embeddings WHERE odoo_version = … AND module = ANY(…)` -/
def deleteRows (version : String) (modules : List String) (t : EmbeddingTable Vec) :
    EmbeddingTable Vec :=
  eraseWhere (fun k => k.odooVersion = version && k.module ∈ modules) t

/-- `_delete_embeddings_for_repos(repo_cleanup_pairs, module_names_by_version)` -/
def deleteEmbeddingsForRepos (answers : StoreAnswers) (pairs : List RepoPair)
    (moduleNamesByVersion : Dict String (List String)) (t : EmbeddingTable Vec) :
    EmbeddingTable Vec × Nat × List CleanupWarning :=
  let versionsSeen := (pairs.map (·.version)).dedup
  let modulesOf := fun version => (moduleNamesByVersion.get? version).getD []
  if versionsSeen.all fun v => (modulesOf v).isEmpty then (t, 0, [])
  else
    versionsSeen.foldl
      (fun (t, total, warnings) version =>
        let modules := modulesOf version
        if modules.isEmpty then (t, total, warnings)
        else if answers.vectorRaises version then
          (t, total, warnings ++ [.pgvectorFailed version modules])
        else
          let rows := t.keys.filter fun k => k.odooVersion = version && k.module ∈ modules
          (deleteRows version modules t, total + rows.length, warnings))
      (t, 0, [])

/-- What the three helpers leave, count and log. -/
structure Cleanup (Vec : Type) where
  index : Index Vec
  counts : DeletedCounts
  embeddings : Nat
  warnings : List CleanupWarning

/-- The part of both routes behind the deletion of the row. -/
def cleanUp (answers : StoreAnswers) (pairs : List RepoPair) (ix : Index Vec) : Cleanup Vec :=
  let (names, collectWarnings) := collectModuleNamesForRepos answers ix.graph pairs
  let (graph, counts, neo4jWarnings) := deleteNeo4jForRepos answers pairs ix.graph
  let (embeddings, total, pgWarnings) := deleteEmbeddingsForRepos answers pairs names ix.embeddings
  ⟨⟨graph, embeddings⟩, counts, total, collectWarnings ++ neo4jWarnings ++ pgWarnings⟩

/-! ## The routes -/

inductive DeleteResponse where
  /-- 404 -/
  | notFound
  /-- 409 -/
  | indexerRunning
  /-- 500 -/
  | failed (e : DeleteError)
  | repoDeleted (basename : String) (counts : DeletedCounts) (embeddings : Nat)
  | profileDeleted (profileName : String) (repoCount : Nat) (counts : DeletedCounts)
      (embeddings : Nat)
deriving DecidableEq

/-- `"ok": True` -/
def DeleteResponse.ok : DeleteResponse → Bool
  | repoDeleted _ _ _ => true
  | profileDeleted _ _ _ _ => true
  | _ => false

/-- What a deletion leaves, what it answers, and what it logs on the way. -/
structure Deletion (Vec : Type) where
  world : World Vec
  response : DeleteResponse
  warnings : List CleanupWarning := []

/-- `delete_repo(request, repo_id)`; `running` is `indexer_is_running`. -/
def deleteRepoRoute (running : String → Bool) (answers : StoreAnswers) (repoId : Nat)
    (w : World Vec) : Deletion Vec :=
  match w.db.getRepoById repoId with
  | none => ⟨w, .notFound, []⟩
  | some repo =>
      let basename := PosixPath.name repo.localPath
      if running repo.profileName then ⟨w, .indexerRunning, []⟩
      else match w.db.deleteRepo repoId with
        | .error e => ⟨w, .failed e, []⟩
        | .ok (db, _) =>
            let c := cleanUp answers [⟨basename, repo.odooVersion⟩] w.index
            ⟨⟨c.index, db⟩, .repoDeleted basename c.counts c.embeddings, c.warnings⟩

/-- `delete_profile(request, profile_id)` -/
def deleteProfileRoute (running : String → Bool) (answers : StoreAnswers) (profileId : Nat)
    (w : World Vec) : Deletion Vec :=
  match w.db.profiles.lookup profileId with
  | none => ⟨w, .notFound, []⟩
  | some profile =>
      if running profile.name then ⟨w, .indexerRunning, []⟩
      else
        let pairs := (w.db.getReposForProfile profile.name).map fun r =>
          (⟨PosixPath.name r.localPath, r.odooVersion⟩ : RepoPair)
        match w.db.deleteProfile profileId with
        | .error e => ⟨w, .failed e, []⟩
        | .ok (db, repos) =>
            let c := cleanUp answers pairs w.index
            ⟨⟨c.index, db⟩, .profileDeleted profile.name repos.length c.counts c.embeddings,
              c.warnings⟩

end OdooSemantic
