import Mathlib.Data.Prod.Lex
import Mathlib.Data.String.Basic
import OdooSemantic.Db.RepoRegistry
import OdooSemantic.Graph.Graph
import OdooSemantic.Indexer.EmbeddingChunks
import OdooSemantic.Indexer.EmbeddingWrites
import OdooSemantic.Indexer.Registry

/-!
# The modules that are in the graph and not in the embeddings

`reembed_stubs_for_profile` and `audit_repo_for_profile` of `src/indexer/pipeline.py`. The first goes
through the module nodes of a profile, repo by repo, and embeds those that have no rows; the second
counts what there is of each.

How many rows the modules of a repo have is asked once, before the first of them is embedded. What is
embedded under a name is the module of that name in the repo, whatever version its manifest says, and
only the chunks of its stylesheets go by that version (`stubChunks`).
-/

namespace OdooSemantic

open KeyedStore

variable {Vec : Type}

/-- The names of `MATCH (mod:Module {odoo_version: $v}) WHERE $profile_name IN coalesce(mod.profile, [])`. -/
def Graph.profileModules (g : Graph) (v profileName : String) : List String :=
  (g.modules.entries.filter fun e =>
    e.1.odooVersion = v ∧ profileName ∈ e.2.profile.getD []).map (·.1.name)

/-- `SELECT COUNT(*) FROM embeddings WHERE odoo_version = %s AND module = %s` -/
def rowCount (t : EmbeddingTable Vec) (v module : String) : Nat :=
  t.keys.countP fun k => k.module = module ∧ k.odooVersion = v

/-! ## `audit_repo_for_profile` -/

structure ModuleAudit where
  module : String
  odooVersion : String
  modelCount : Nat
  fieldCount : Nat
  methodCount : Nat
  viewCount : Nat
  embeddingCount : Nat
deriving DecidableEq

/-- The counts of one module. -/
def auditModule (g : Graph) (embedAvailable : Bool) (t : EmbeddingTable Vec) (v module : String) :
    ModuleAudit where
  module
  odooVersion := v
  modelCount := g.models.keys.countP fun k => k.module = module ∧ k.odooVersion = v
  fieldCount := g.fields.keys.countP fun k => k.module = module ∧ k.odooVersion = v
  methodCount := g.methods.keys.countP fun k => k.module = module ∧ k.odooVersion = v
  viewCount := g.views.nodes.countP fun n => n.module = module ∧ n.odooVersion = v
  embeddingCount := if embedAvailable then rowCount t v module else 0

/-- `audit_repo_for_profile(pg_conn, profile_name=…)`, for the repos of the profile. -/
def auditRepoForProfile (g : Graph) (profileName : String) (repos : List Repo)
    (embedAvailable : Bool) (t : EmbeddingTable Vec) : List ModuleAudit :=
  ((repos.map (·.odooVersion)).dedup.flatMap fun v =>
      (g.profileModules v profileName).map (auditModule g embedAvailable t v)).insertionSort
    fun a b => toLex (a.odooVersion, a.module) ≤ toLex (b.odooVersion, b.module)

/-! ## What is embedded of a module -/

namespace ModuleSource

variable (env : ParserEnv) (m : ModuleSource)

/-- What `make_chunks` is made of. -/
def codeUnits : List SourceUnit :=
  (m.models.flatMap fun model =>
    model.methods.map (m.methodUnit model) ++ model.fields.map (m.fieldUnit env model)) ++
  m.views.map m.viewUnit ++ m.qweb.map m.qwebUnit ++ m.jsUnits env

/-- What `make_css_chunks`, `make_scss_chunks` and `make_less_chunks` are made of. -/
def sheetUnits : List SourceUnit := m.cssUnits env ++ m.scssUnits env ++ m.lessUnits env

/-- The chunks of a module that is embedded as one of version `v`. -/
def chunksAs (v : String) : List EmbeddingChunk :=
  (codeUnits env { m with odooVersion := v }).flatMap (·.chunks m.name v) ++
    (m.sheetUnits env).flatMap (·.chunks m.name m.odooVersion)

theorem chunksAs_self : m.chunksAs env m.odooVersion = m.makeChunks env := by
  unfold chunksAs makeChunks units
  rw [← List.flatMap_append]
  unfold codeUnits sheetUnits
  simp only [List.append_assoc]

variable {env m} {v : String} {c : EmbeddingChunk}

theorem of_mem_chunks {u : SourceUnit} {module version : String} (h : c ∈ u.chunks module version) :
    c.module = module ∧ c.odooVersion = version := by
  obtain ⟨piece, -, rfl⟩ := List.mem_map.mp h
  exact ⟨rfl, rfl⟩

theorem module_of_mem_chunksAs (h : c ∈ m.chunksAs env v) : c.module = m.name := by
  cases List.mem_append.mp h with
  | inl hcode =>
    obtain ⟨u, -, hc⟩ := List.mem_flatMap.mp hcode
    exact (of_mem_chunks hc).1
  | inr hsheet =>
    obtain ⟨u, -, hc⟩ := List.mem_flatMap.mp hsheet
    exact (of_mem_chunks hc).1

theorem version_of_mem_makeChunks (h : c ∈ m.makeChunks env) : c.odooVersion = m.odooVersion := by
  obtain ⟨u, -, hc⟩ := List.mem_flatMap.mp h
  exact (of_mem_chunks hc).2

end ModuleSource

/-! ## `reembed_stubs_for_profile` -/

/-- What the run goes by: the repos of the profile, what is on disk, and whether there is pgvector. -/
structure StubSources where
  vectorAvailable : Bool := true
  repos : List Repo
  isDir : String → Bool := fun _ => true
  /-- `get_git_branch` -/
  branch : String → Option String := fun _ => none
  manifests : String → List ManifestFile
  env : ParserEnv
  /-- Nothing where a parser raises. -/
  source : ModuleInfo → Option ModuleSource

namespace StubSources

variable (src : StubSources)

def registry (r : Repo) : Registry :=
  buildRegistry r.localPath r.odooVersion (src.branch r.localPath) (src.manifests r.localPath)

/-- `_modules_map`: a later version of a name is put over an earlier one. -/
def modulesMap (r : Repo) : Dict String ModuleInfo :=
  (src.registry r).items.foldl
    (fun modules mmap => mmap.2.items.foldl (fun modules i => modules.set i.1 i.2) modules) Dict.empty

/-- What the parsers make of a module. -/
def sourceOf (info : ModuleInfo) : Option ModuleSource :=
  (src.source info).map fun m =>
    { m with name := info.name, odooVersion := info.odooVersion, path := info.path }

/-- The chunks of the module of a name: none where the repo has no such module, and nothing at all
    where a parser raises. -/
def stubChunks (r : Repo) (name : String) : Option (List EmbeddingChunk) :=
  match (src.modulesMap r).get? name with
  | none => some []
  | some info => (src.sourceOf info).map (·.chunksAs src.env r.odooVersion)

end StubSources

/-- What the run meets with: the rows of the graph in some order, the queries that raise, and the
    writers of its calls of `write_module_embeddings`, one after the other. -/
structure StubAnswers (Vec : Type) (g : Graph) (profileName : String) where
  rows : Repo → List String
  rows_perm : ∀ r, (rows r).Perm (g.profileModules r.odooVersion profileName)
  raises : Repo → Bool := fun _ => false
  writer : Nat → EmbeddingWriter Vec

structure StubRun (Vec : Type) where
  table : EmbeddingTable Vec
  calls : Nat := 0
  modulesChecked : Nat := 0
  totalEmbedCalls : Nat := 0
  /-- The version and the name in "re-embedded …". -/
  reembedded : List (String × String) := []
  /-- The version and the name in "failed to re-embed …". -/
  failed : List (String × String) := []

namespace StubSources

variable (src : StubSources) {g : Graph} {profileName : String}
  (answers : StubAnswers Vec g profileName)

/-- The body of the `try`. -/
def embedStub (r : Repo) (name : String) (s : StubRun Vec) : StubRun Vec :=
  match src.stubChunks r name with
  | none => { s with failed := s.failed ++ [(r.odooVersion, name)] }
  | some chunks =>
      if chunks = [] then s
      else
        match (answers.writer s.calls).writeModuleEmbeddings name r.odooVersion chunks {} s.table with
        | (.ok embedCalls, t) =>
            { s with
              table := t
              calls := s.calls + 1
              totalEmbedCalls := s.totalEmbedCalls + embedCalls
              reembedded := s.reembedded ++ [(r.odooVersion, name)] }
        | (.error _, t) =>
            { s with
              table := t
              calls := s.calls + 1
              failed := s.failed ++ [(r.odooVersion, name)] }

/-- One turn of `for row in rows`. -/
def stubTurn (r : Repo) (embedCounts : String → Nat) (s : StubRun Vec) (name : String) :
    StubRun Vec :=
  let s := { s with modulesChecked := s.modulesChecked + 1 }
  if 0 < embedCounts name then s else src.embedStub answers r name s

/-- One turn of `for repo in repos`, for a repo that is there. -/
def repoTurn (r : Repo) (s : StubRun Vec) : StubRun Vec :=
  (answers.rows r).foldl (src.stubTurn answers r (rowCount s.table r.odooVersion)) s

/-- `for repo in repos`, and whether a query has raised. -/
def reposLoop : List Repo → StubRun Vec → Bool × StubRun Vec
  | [], s => (false, s)
  | r :: repos, s =>
      if !src.isDir r.localPath then reposLoop repos s
      else if answers.raises r then (true, s)
      else reposLoop repos (src.repoTurn answers r s)

/-- `reembed_stubs_for_profile(pg_conn, profile_name=…, embedder=…)` on a table, and whether it
    raises. -/
def reembedStubs (t : EmbeddingTable Vec) : Bool × StubRun Vec :=
  if src.vectorAvailable then src.reposLoop answers src.repos { table := t }
  else (false, { table := t })

end StubSources

end OdooSemantic
