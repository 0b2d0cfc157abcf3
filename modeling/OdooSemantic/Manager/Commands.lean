import OdooSemantic.Indexer.Pipeline

/-!
# `src/manager/__main__.py` — deleting a repo or a profile

The commands delete the row and print that they did. What `delete_repo` and `delete_profile`
return "for Neo4j cleanup" is not looked at.
-/

namespace OdooSemantic

variable {Vec : Type}

/-- How a command ends: what it prints, and its exit code. -/
inductive CommandResult where
  /-- `✗ … not found.`, 2 -/
  | notFound
  /-- `✗ Aborted.`, 0 -/
  | aborted
  /-- `✓ Deleted …`, 0 -/
  | deleted
  /-- `✗ …`, 1 -/
  | failed
  /-- What is no `ValueError` ends the process. -/
  | raised
deriving DecidableEq

/-- The `try` around a deletion. -/
def reportDeletion (w : World Vec) {α : Type} : Except DeleteError (Db × α) →
    World Vec × CommandResult
  | .ok (db, _) => ({ w with db }, .deleted)
  | .error .notFound => (w, .failed)
  | .error .restricted => (w, .raised)

/-- `_cmd_delete_profile(args, conn)`; `confirmed` is `--yes` or the answer `YES`. -/
def cmdDeleteProfile (name : String) (confirmed : Bool) (w : World Vec) :
    World Vec × CommandResult :=
  match w.db.profileNamed name with
  | none => (w, .notFound)
  | some (profileId, _) =>
      if !confirmed then (w, .aborted) else reportDeletion w (w.db.deleteProfile profileId)

/-- `id_or_url`: what `int` accepts is an id. -/
inductive RepoArg where
  | id (n : Nat)
  | url (url : String)
deriving DecidableEq

/-- `_cmd_delete_repo(args, conn)` -/
def cmdDeleteRepo (arg : RepoArg) (confirmed : Bool) (w : World Vec) :
    World Vec × CommandResult :=
  let repoId := match arg with
    | .id n => (w.db.getRepoById n).map fun _ => n
    | .url url => w.db.repoIdWithUrl url
  match repoId with
  | none => (w, .notFound)
  | some repoId =>
      if !confirmed then (w, .aborted) else reportDeletion w (w.db.deleteRepo repoId)

end OdooSemantic
