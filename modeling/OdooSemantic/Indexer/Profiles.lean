import OdooSemantic.Indexer.Pipeline

/-!
# `index_profile`, and what happens between two runs of it

`index_profile` reads the repos of a profile and its ancestors once, before the loop, and goes
on to the next repo when one fails. Between two runs the registry may change under it: a
profile gets another parent, a profile or a repo is edited. A *history* is a list of such
operations.

What the graph is after a history depends on one thing about it, the list of transactions that
were executed (`Operation.written`), each with the profile array of the run it belongs to.
-/

namespace OdooSemantic

variable {Vec : Type}

/-! ## `index_profile` -/

/-- The arguments of `index_profile`, and the checkouts it finds, by repo id. -/
structure ProfileRun (Vec : Type) where
  profileName : String
  checkout : Nat → Checkout
  /-- The number of steps after which the run of a repo raises, if it does. -/
  raisesAt : Nat → Option Nat := fun _ => none
  /-- Everything but `ancestorProfiles`, which the run computes. -/
  opts : RunOptions Vec := {}

/-- `ancestor_profiles`: never empty. -/
def Db.runProfiles (db : Db) (profileName : String) : List String :=
  match db.getAncestorProfileNames profileName with
  | [] => [profileName]
  | ps => ps

/-- The options of the repo runs of a profile run. -/
def ProfileRun.repoOpts (run : ProfileRun Vec) (db : Db) : RunOptions Vec :=
  { run.opts with ancestorProfiles := db.runProfiles run.profileName }

/-- One turn of the loop over `repos`. -/
def ProfileRun.indexRepo (run : ProfileRun Vec) (opts : RunOptions Vec) (repo : Repo)
    (w : World Vec) : World Vec × Option IndexError :=
  match run.raisesAt repo.id with
  | none => OdooSemantic.indexRepo repo (run.checkout repo.id) opts w
  | some n => ((indexRepoUpTo n repo (run.checkout repo.id) opts w).1, some .raised)

/-- The loop over `repos`; the failures are collected in `failed_repos`. -/
def ProfileRun.indexRepos (run : ProfileRun Vec) (opts : RunOptions Vec) :
    List Repo → World Vec → World Vec × List (Nat × IndexError)
  | [], w => (w, [])
  | repo :: repos, w =>
      let rest := indexRepos run opts repos (run.indexRepo opts repo w).1
      (rest.1, ((run.indexRepo opts repo w).2.map (repo.id, ·)).toList ++ rest.2)

/-- `index_profile(pg_conn, profile_name, …)`, one repo after the other. -/
def indexProfile (run : ProfileRun Vec) (w : World Vec) : World Vec × List (Nat × IndexError) :=
  run.indexRepos (run.repoOpts w.db) (w.db.getReposForProfile run.profileName) w

/-! ## Histories -/

inductive Operation (Vec : Type) where
  | indexProfile (run : ProfileRun Vec)
  | setProfileParent (profileId : Nat) (parentId : Option Nat)
  | updateProfile (profileId : Nat) (patch : Db.ProfilePatch)
  | updateRepo (repoId : Nat) (patch : Db.RepoPatch)

/-- The tables after an operation on them; one that raises leaves them as they were. -/
def orUnchanged (w : World Vec) : Except RegistryError Db → World Vec
  | .ok db => { w with db }
  | .error _ => w

namespace Operation

def exec (w : World Vec) : Operation Vec → World Vec
  | indexProfile run => (OdooSemantic.indexProfile run w).1
  | setProfileParent profileId parentId => orUnchanged w (w.db.setProfileParent profileId parentId)
  | updateProfile profileId patch => orUnchanged w (w.db.updateProfile profileId patch)
  | updateRepo repoId patch => orUnchanged w (w.db.updateRepo repoId patch)

def execAll (ops : List (Operation Vec)) (w : World Vec) : World Vec := ops.foldl exec w

theorem execAll_append (us vs : List (Operation Vec)) (w : World Vec) :
    execAll (us ++ vs) w = execAll vs (execAll us w) := List.foldl_append

end Operation

/-! ## The transactions of a history -/

/-- What one turn of the loop writes. -/
def ProfileRun.repoWritten (run : ProfileRun Vec) (opts : RunOptions Vec) (repo : Repo)
    (w : World Vec) : List (WriteStep Vec) :=
  match planIndexRepo repo (run.checkout repo.id) opts (w.db.getRepoHeadSha repo.id),
      run.raisesAt repo.id with
  | .error _, _ => []
  | .ok plan, none => plan.writes ++ plan.gc
  | .ok plan, some n => (plan.writes ++ plan.gc).take n

def ProfileRun.reposWritten (run : ProfileRun Vec) (opts : RunOptions Vec) :
    List Repo → World Vec → List (WriteStep Vec)
  | [], _ => []
  | repo :: repos, w =>
      run.repoWritten opts repo w ++ reposWritten run opts repos (run.indexRepo opts repo w).1

namespace Operation

def written (w : World Vec) : Operation Vec → List (WriteStep Vec)
  | indexProfile run =>
      run.reposWritten (run.repoOpts w.db) (w.db.getReposForProfile run.profileName) w
  | _ => []

/-- The transactions of a history, in the order they were executed. -/
def writtenAll : List (Operation Vec) → World Vec → List (WriteStep Vec)
  | [], _ => []
  | op :: ops, w => op.written w ++ writtenAll ops (op.exec w)

end Operation

namespace ProfileRun

theorem index_indexRepo (run : ProfileRun Vec) (opts : RunOptions Vec) (repo : Repo)
    (w : World Vec) :
    (run.indexRepo opts repo w).1.index =
      WriteStep.execAll (run.repoWritten opts repo w) w.index := by
  unfold ProfileRun.indexRepo repoWritten OdooSemantic.indexRepo indexRepoUpTo
  cases planIndexRepo repo (run.checkout repo.id) opts (w.db.getRepoHeadSha repo.id) with
  | error e => cases run.raisesAt repo.id <;> rfl
  | ok plan =>
    cases run.raisesAt repo.id with
    | none => exact plan.index_execAll_steps w
    | some n => exact plan.index_execAll_take n w

theorem index_indexRepos (run : ProfileRun Vec) (opts : RunOptions Vec) (repos : List Repo)
    (w : World Vec) :
    (run.indexRepos opts repos w).1.index =
      WriteStep.execAll (run.reposWritten opts repos w) w.index := by
  induction repos generalizing w with
  | nil => rfl
  | cons repo repos ih =>
    rw [indexRepos, ih, reposWritten, WriteStep.execAll_append, index_indexRepo]

end ProfileRun

theorem Operation.index_exec (op : Operation Vec) (w : World Vec) :
    (op.exec w).index = WriteStep.execAll (op.written w) w.index := by
  have hdb : ∀ r : Except RegistryError Db, (orUnchanged w r).index = w.index := by
    intro r
    cases r <;> rfl
  cases op with
  | indexProfile run => exact run.index_indexRepos _ _ _
  | setProfileParent profileId parentId => exact hdb _
  | updateProfile profileId patch => exact hdb _
  | updateRepo repoId patch => exact hdb _

/-- **The index after a history is its transactions, executed.** -/
theorem Operation.index_execAll (ops : List (Operation Vec)) (w : World Vec) :
    (Operation.execAll ops w).index = WriteStep.execAll (writtenAll ops w) w.index := by
  induction ops generalizing w with
  | nil => rfl
  | cons op ops ih =>
    rw [execAll, List.foldl_cons, ← execAll, ih, writtenAll, WriteStep.execAll_append, index_exec]

end OdooSemantic
