import OdooSemantic.Db.RepoRegistry
import OdooSemantic.Indexer.CrossRepo
import OdooSemantic.Indexer.Incremental
import OdooSemantic.Indexer.Resolver
import OdooSemantic.Indexer.WriterNeo4j
import OdooSemantic.Indexer.WriterPgvector

/-!
# `src/indexer/pipeline.py` — one run over a repo

`_index_repo` decides once, from the stored head and the checkout, what it is going to do, and
then does it in an order that never depends on an answer. So a run is a *plan*, the list of
its transactions (`planIndexRepo`), and the execution of that plan. The only answers that are
carried along are the two local variables between the last three steps (`Locals`).

A run that raises is a run of which a first part was executed: `take n` of the plan, for any
`n`. Every step is one transaction, so there is nothing in between.

Disk and git are data (`Checkout`): what the scan finds, what the git calls answer, and what
the parsers make of a module. The parsers name every entity after the module they were called
for, and `Parsed` carries that.
-/

namespace OdooSemantic

open PosixPath

variable {Vec : Type}

/-! ## What a run reads -/

/-- What the parsers return for the module `info`. -/
structure Parsed (info : ModuleInfo) where
  models : List ModelInfo := []
  views : List ViewInfo := []
  qweb : List QWebInfo := []
  patches : List JSPatchInfo := []
  components : List OWLCompInfo := []
  stylesheets : List StylesheetInfo := []
  /-- `make_chunks`, `make_css_chunks`, `make_scss_chunks` and `make_less_chunks`. -/
  chunks : List EmbeddingChunk := []
  models_named : ∀ m ∈ models, m.module = info.name ∧ m.odooVersion = info.odooVersion := by
    simp
  views_named : ∀ v ∈ views, v.module = info.name ∧ v.odooVersion = info.odooVersion := by simp
  qweb_named : ∀ q ∈ qweb, q.module = info.name ∧ q.odooVersion = info.odooVersion := by simp
  patches_named : ∀ p ∈ patches, p.module = info.name ∧ p.odooVersion = info.odooVersion := by
    simp
  components_named :
    ∀ c ∈ components, c.module = info.name ∧ c.odooVersion = info.odooVersion := by simp
  stylesheets_named :
    ∀ s ∈ stylesheets, s.module = info.name ∧ s.odooVersion = info.odooVersion := by simp
  chunks_named : ∀ c ∈ chunks, c.module = info.name ∧ c.odooVersion = info.odooVersion := by simp

namespace Parsed

variable (info : ModuleInfo)

/-- A module with nothing in it. -/
def empty : Parsed info := {}

/-- A module with one model. -/
def ofModel (name : String) : Parsed info where
  models := [{ name, module := info.name, odooVersion := info.odooVersion }]

/-- A module with views and nothing else. -/
def ofViews (views : List ViewInfo)
    (h : ∀ v ∈ views, v.module = info.name ∧ v.odooVersion = info.odooVersion) : Parsed info where
  views := views
  views_named := h

end Parsed

/-- A repo on disk at its `HEAD`. -/
structure Checkout where
  isDir : Bool := true
  /-- `git rev-parse HEAD` -/
  head : GitOutcome
  /-- `git merge-base --is-ancestor <old> HEAD` -/
  ancestry : String → GitOutcome
  /-- `git diff --name-only <old>..HEAD` -/
  diff : String → GitDiff
  files : List (List String)
  branch : Option String := none
  manifests : List ManifestFile
  parse : (info : ModuleInfo) → Parsed info

/-- The arguments of `_index_repo` beside the repo and the writer. -/
structure RunOptions (Vec : Type) where
  /-- `pg_conn is not None` -/
  pgConn : Bool := true
  embedder : Option (Embedder Vec) := none
  /-- `_vector_extension_available(pg_conn)` -/
  vectorExtension : Bool := true
  fullReindex : Bool := false
  gc : Bool := false
  /-- `ancestor_profiles or []` -/
  ancestorProfiles : List String := []

/-! ## The transactions -/

/-- What a run writes: the Neo4j graph and the `embeddings` table. -/
structure Index (Vec : Type) where
  graph : Graph := {}
  embeddings : EmbeddingTable Vec := ∅

/-- One transaction on the index. -/
inductive WriteStep (Vec : Type) where
  | embed (embedder : Embedder Vec) (module version : String) (chunks : List EmbeddingChunk)
  | writeResult (ps : List String) (r : ParseResult)
  | writeView (ps : List String) (r : ViewParseResult)
  | writeJs (ps : List String) (r : JSGraphResult)
  | writeStylesheets (ps : List String) (batch : List StylesheetInfo)
  | gcStaleModules (repo version : String) (livePaths : List String)

namespace WriteStep

def exec (ix : Index Vec) : WriteStep Vec → Index Vec
  | embed embedder module version chunks =>
      { ix with embeddings := writeModuleEmbeddings embedder module version chunks ix.embeddings }
  | writeResult ps r => { ix with graph := writeParseResult ps r ix.graph }
  | writeView ps r => { ix with graph := writeViewParseResult ps r ix.graph }
  | writeJs ps r => { ix with graph := writeJsGraphResult ps r ix.graph }
  | writeStylesheets ps batch => { ix with graph := writeStylesheetsBatch ps batch ix.graph }
  | gcStaleModules repo version livePaths =>
      { ix with graph := OdooSemantic.gcStaleModules repo version livePaths ix.graph }

def execAll (ss : List (WriteStep Vec)) (ix : Index Vec) : Index Vec := ss.foldl exec ix

@[simp] theorem execAll_nil (ix : Index Vec) : execAll [] ix = ix := rfl

@[simp] theorem execAll_cons (s : WriteStep Vec) (ss : List (WriteStep Vec)) (ix : Index Vec) :
    execAll (s :: ss) ix = execAll ss (exec ix s) := rfl

theorem execAll_append (ss ts : List (WriteStep Vec)) (ix : Index Vec) :
    execAll (ss ++ ts) ix = execAll ts (execAll ss ix) := List.foldl_append

end WriteStep

/-- The index and the registry database. -/
structure World (Vec : Type) where
  index : Index Vec := {}
  db : Db := {}

/-- `dep_repo_basenames` and `dep_repo_ids`. -/
structure Locals where
  depRepoBasenames : Finset String := ∅
  depRepoIds : List Nat := []

inductive IndexError where
  | localPathMissing
  | registry (e : RegistryError)
  /-- Whatever else a transaction raises. -/
  | raised
deriving DecidableEq

/-- What a run does once the index is written. -/
inductive DbStep where
  | updateHeadSha (repoId : Nat) (headSha : String)
  | findDependentRepos (version : String) (changed : List String) (own : String)
  | getRepoIds
  | resetHeadSha
deriving DecidableEq

def DbStep.exec : DbStep → Locals × World Vec → Except IndexError (Locals × World Vec)
  | updateHeadSha repoId headSha, (l, w) =>
      match w.db.updateRepoHeadSha repoId headSha with
      | .error e => .error (.registry e)
      | .ok db => .ok (l, { w with db })
  | findDependentRepos version changed own, (l, w) =>
      .ok ({ l with depRepoBasenames :=
        (OdooSemantic.findDependentRepos w.index.graph version changed).filter (· ≠ own) }, w)
  | getRepoIds, (l, w) =>
      .ok ({ l with depRepoIds := w.db.getRepoIdsByLocalPathBasenames l.depRepoBasenames }, w)
  | resetHeadSha, (l, w) => .ok (l, { w with db := w.db.resetHeadSha l.depRepoIds })

inductive IndexStep (Vec : Type) where
  | write (s : WriteStep Vec)
  | db (s : DbStep)

namespace IndexStep

def exec : IndexStep Vec → Locals × World Vec → Except IndexError (Locals × World Vec)
  | write s, (l, w) => .ok (l, { w with index := s.exec w.index })
  | db s, lw => s.exec lw

/-- Execute steps until one raises; what was done by then stays done. -/
def execAll : List (IndexStep Vec) → Locals × World Vec → World Vec × Option IndexError
  | [], (_, w) => (w, none)
  | s :: ss, lw =>
      match s.exec lw with
      | .error e => (lw.2, some e)
      | .ok lw' => execAll ss lw'

end IndexStep

/-! ## The plan -/

namespace Checkout

variable (co : Checkout)

/-- `current_head` -/
def currentHead : Option String := getRepoHead co.head

/-- `registry` -/
def registry (repo : Repo) : Registry :=
  buildRegistry repo.localPath repo.odooVersion co.branch co.manifests

/-- `live_paths` -/
def livePaths (repo : Repo) : List String := (co.registry repo).modules.map (·.path)

/-- `changed_abs_paths`, for the diff against `lastHead`. -/
def changedAbsPaths (repo : Repo) (lastHead : String) : List String :=
  (computeChangedModulePaths co.files (co.diff lastHead).outcome).map (under repo.localPath)

end Checkout

section Plan

variable (repo : Repo) (co : Checkout) (opts : RunOptions Vec) (stored : Option String)

/-- `last_head` as it is read: not at all in a full run or without a database. -/
def readHead : Option String := if opts.fullReindex || !opts.pgConn then none else stored

/-- `current_head and last_head and current_head == last_head` -/
def isUnchanged : Bool :=
  match co.currentHead, truthy (readHead opts stored) with
  | some current, some last => current = last
  | _, _ => false

/-- `last_head` after the check for a rewritten history. -/
def lastHead : Option String :=
  match co.currentHead, truthy (readHead opts stored) with
  | some _, some last => if isAncestor (co.ancestry last) then some last else none
  | _, _ => readHead opts stored

/-- The commit the run diffs against, where it does. -/
def diffBase : Option String :=
  match co.currentHead with
  | some _ => truthy (lastHead co opts stored)
  | none => none

/-- `modules_by_version`, as the loop goes through it. -/
def modulesByVersion : Registry :=
  match diffBase co opts stored with
  | some last => (co.registry repo).map (filterModulesByChanged (co.changedAbsPaths repo last))
  | none => co.registry repo

/-- The triples `version, mod_name, info` of the two nested loops, in order. -/
def indexedModules (registry : Registry) : List (String × String × ModuleInfo) :=
  registry.items.flatMap fun (version, modules) =>
    (topologicalSort modules).filterMap fun name =>
      (modules.get? name).map fun info => (version, name, info)

/-- `changed_module_names` -/
def changedModuleNames (registry : Registry) : List String := registry.values.flatMap Dict.keys

/-- `_is_incremental` -/
def isIncremental : Bool :=
  (lastHead co opts stored).isSome && co.currentHead.isSome && !opts.fullReindex

def embedSteps (modules : List (String × String × ModuleInfo)) : List (WriteStep Vec) :=
  match opts.embedder with
  | some embedder =>
      if opts.pgConn && opts.vectorExtension then
        (modules.filter fun m => m.1 ≠ "unknown").map fun (version, name, info) =>
          .embed embedder name version (co.parse info).chunks
      else []
  | none => []

def Checkout.parseResult (info : ModuleInfo) : ParseResult := ⟨info, (co.parse info).models⟩

def Checkout.viewResult (info : ModuleInfo) : ViewParseResult :=
  ⟨info, (co.parse info).views, (co.parse info).qweb⟩

def Checkout.jsResult (info : ModuleInfo) : JSGraphResult :=
  ⟨info, (co.parse info).patches, (co.parse info).components⟩

/-- `write_results`, `write_view_results`, `write_js_graph_results`, `write_stylesheets`. -/
def graphSteps (infos : List ModuleInfo) : List (WriteStep Vec) :=
  (infos.map fun info => .writeResult opts.ancestorProfiles (co.parseResult info))
    ++ (infos.map fun info => .writeView opts.ancestorProfiles (co.viewResult info))
    ++ (infos.map fun info => .writeJs opts.ancestorProfiles (co.jsResult info))
    ++ (chunked neo4jWriteBatchSize (infos.flatMap fun info => (co.parse info).stylesheets)).map
        fun batch => .writeStylesheets opts.ancestorProfiles batch

/-- Garbage collection, unless the scan found nothing. -/
def gcSteps : List (WriteStep Vec) :=
  if opts.gc && !(co.livePaths repo).isEmpty then
    [.gcStaleModules (name repo.localPath) repo.odooVersion (co.livePaths repo)]
  else []

/-- `if current_head and pg_conn is not None: update_repo_head_sha(…)` -/
def headSteps : List DbStep :=
  match co.currentHead with
  | some current => if opts.pgConn then [.updateHeadSha repo.id current] else []
  | none => []

/-- Cross-repo propagation. -/
def propagateSteps (changed : List String) : List DbStep :=
  if isIncremental co opts stored && opts.pgConn && !changed.isEmpty then
    [.findDependentRepos repo.odooVersion changed (name repo.localPath), .getRepoIds,
      .resetHeadSha]
  else []

/-- The transactions of a run, in four groups that are executed one after the other. -/
structure IndexPlan (Vec : Type) where
  writes : List (WriteStep Vec) := []
  gc : List (WriteStep Vec) := []
  head : List DbStep := []
  propagate : List DbStep := []

def IndexPlan.steps (plan : IndexPlan Vec) : List (IndexStep Vec) :=
  (plan.writes ++ plan.gc).map .write ++ (plan.head ++ plan.propagate).map .db

/-- The nested loops and everything after them. -/
def fullPlan (registry : Registry) : IndexPlan Vec where
  writes :=
    embedSteps co opts (indexedModules registry) ++
      graphSteps co opts ((indexedModules registry).map (·.2.2))
  gc := gcSteps repo co opts
  head := headSteps repo co opts
  propagate := propagateSteps repo co opts stored (changedModuleNames registry)

/-- `_index_repo(repo, writer, …)`: the transactions of a run that reads `stored`. -/
def planIndexRepo : Except IndexError (IndexPlan Vec) :=
  if !co.isDir then .error .localPathMissing
  else if isUnchanged co opts stored then .ok {}
  else
    let registry := modulesByVersion repo co opts stored
    if (diffBase co opts stored).isSome && registry.modules.isEmpty then
      .ok { head := headSteps repo co opts }
    else .ok (fullPlan repo co opts stored registry)

end Plan

/-! ## Runs -/

/-- A run of `_index_repo`, of which at most `n` steps are executed. -/
def indexRepoUpTo (n : Nat) (repo : Repo) (co : Checkout) (opts : RunOptions Vec)
    (w : World Vec) : World Vec × Option IndexError :=
  match planIndexRepo repo co opts (w.db.getRepoHeadSha repo.id) with
  | .error e => (w, some e)
  | .ok plan => IndexStep.execAll (plan.steps.take n) ({}, w)

/-- A run of `_index_repo` to its end. -/
def indexRepo (repo : Repo) (co : Checkout) (opts : RunOptions Vec) (w : World Vec) :
    World Vec × Option IndexError :=
  match planIndexRepo repo co opts (w.db.getRepoHeadSha repo.id) with
  | .error e => (w, some e)
  | .ok plan => IndexStep.execAll plan.steps ({}, w)

/-! ## Executing a plan -/

namespace IndexStep

/-- The writes never raise, and leave the database alone. -/
theorem execAll_write (ss : List (WriteStep Vec)) (ts : List (IndexStep Vec)) (l : Locals)
    (w : World Vec) :
    execAll (ss.map write ++ ts) (l, w) =
      execAll ts (l, { w with index := WriteStep.execAll ss w.index }) := by
  induction ss generalizing w with
  | nil => rfl
  | cons s ss ih => exact ih _

/-- The steps after the writes leave the index alone. -/
theorem index_execAll_db (ss : List DbStep) (l : Locals) (w : World Vec) :
    (execAll (ss.map db) (l, w)).1.index = w.index := by
  induction ss generalizing l w with
  | nil => rfl
  | cons s ss ih =>
    cases s with
    | updateHeadSha repoId headSha =>
      simp only [List.map_cons, execAll, exec, DbStep.exec]
      cases w.db.updateRepoHeadSha repoId headSha with
      | error e => rfl
      | ok db => exact ih _ _
    | findDependentRepos version changed own => exact ih _ _
    | getRepoIds => exact ih _ _
    | resetHeadSha => exact ih _ _

end IndexStep

namespace IndexPlan

/-- The first `n` steps of a plan. -/
theorem take_steps (plan : IndexPlan Vec) (n : Nat) :
    plan.steps.take n = ((plan.writes ++ plan.gc).take n).map .write ++
      ((plan.head ++ plan.propagate).take (n - (plan.writes ++ plan.gc).length)).map .db := by
  rw [steps, List.take_append, ← List.map_take, ← List.map_take, List.length_map]

/-- The index after the first `n` steps. -/
theorem index_execAll_take (plan : IndexPlan Vec) (n : Nat) (w : World Vec) :
    (IndexStep.execAll (plan.steps.take n) ({}, w)).1.index =
      WriteStep.execAll ((plan.writes ++ plan.gc).take n) w.index := by
  rw [take_steps, IndexStep.execAll_write, IndexStep.index_execAll_db]

/-- **As long as only writes are executed, the database is as it was.** -/
theorem db_execAll_take (plan : IndexPlan Vec) {n : Nat}
    (hn : n ≤ (plan.writes ++ plan.gc).length) (w : World Vec) :
    (IndexStep.execAll (plan.steps.take n) ({}, w)).1.db = w.db := by
  rw [take_steps, IndexStep.execAll_write, Nat.sub_eq_zero_of_le hn]
  rfl

/-- The index after a whole plan. -/
theorem index_execAll_steps (plan : IndexPlan Vec) (w : World Vec) :
    (IndexStep.execAll plan.steps ({}, w)).1.index =
      WriteStep.execAll (plan.writes ++ plan.gc) w.index := by
  rw [steps, IndexStep.execAll_write, IndexStep.index_execAll_db]

end IndexPlan

/-! ## The modules of a plan -/

theorem mem_indexedModules {registry : Registry} {v n : String} {info : ModuleInfo} :
    (v, n, info) ∈ indexedModules registry ↔
      ∃ mods, (v, mods) ∈ registry.items ∧ (n, info) ∈ mods.items := by
  unfold indexedModules
  simp only [List.mem_flatMap, List.mem_filterMap, Option.map_eq_some_iff, Prod.mk.injEq]
  constructor
  · intro h
    obtain ⟨⟨v', mods⟩, hv, name, -, i, hi, rfl, rfl, rfl⟩ := h
    exact ⟨mods, hv, Dict.get?_eq_some_iff.mp hi⟩
  · intro h
    obtain ⟨mods, hv, hn⟩ := h
    refine ⟨(v, mods), hv, n, ?_, info, Dict.get?_eq_some_iff.mpr hn, rfl, rfl, rfl⟩
    exact (topologicalSort_perm mods).mem_iff.mpr (List.mem_map_of_mem hn)

/-- **The loops go through every module of the registry.** -/
theorem mem_map_indexedModules {registry : Registry} {info : ModuleInfo} :
    info ∈ (indexedModules registry).map (·.2.2) ↔ info ∈ registry.modules := by
  rw [Registry.mem_modules, List.mem_map]
  constructor
  · intro h
    obtain ⟨⟨v, n, i⟩, hi, rfl⟩ := h
    obtain ⟨mods, hv, hn⟩ := mem_indexedModules.mp hi
    exact ⟨v, mods, n, hv, hn⟩
  · intro h
    obtain ⟨v, mods, n, hv, hn⟩ := h
    exact ⟨(v, n, info), mem_indexedModules.mpr ⟨mods, hv, hn⟩, rfl⟩

theorem mem_items_filterModulesByChanged {registry : Registry} {paths : List String} {v : String}
    {mods : Dict String ModuleInfo}
    (h : (v, mods) ∈ (registry.map (filterModulesByChanged paths)).items) :
    ∃ all, (v, all) ∈ registry.items ∧
      ∀ n info, (n, info) ∈ mods.items ↔ (n, info) ∈ all.items ∧ info.path ∈ paths := by
  obtain ⟨⟨v', all⟩, hv, heq⟩ := List.mem_map.mp h
  obtain ⟨rfl, rfl⟩ := Prod.mk.inj heq
  refine ⟨all, hv, fun n info => ?_⟩
  simp [filterModulesByChanged, Dict.filter]

section ModulesByVersion

variable (repo : Repo) (co : Checkout) (opts : RunOptions Vec) (stored : Option String)

/-- **What the run writes**: everything, or the modules at a changed path. -/
theorem mem_modulesByVersion {info : ModuleInfo} :
    info ∈ (modulesByVersion repo co opts stored).modules ↔
      info ∈ (co.registry repo).modules ∧
        ∀ last, diffBase co opts stored = some last →
          info.path ∈ co.changedAbsPaths repo last := by
  unfold modulesByVersion
  cases diffBase co opts stored with
  | none => simp
  | some last =>
    simp only [Registry.mem_modules, Option.some.injEq, forall_eq']
    constructor
    · intro h
      obtain ⟨v, mods, n, hv, hn⟩ := h
      obtain ⟨all, hall, hmem⟩ := mem_items_filterModulesByChanged hv
      exact ⟨⟨v, all, n, hall, ((hmem n info).mp hn).1⟩, ((hmem n info).mp hn).2⟩
    · intro h
      obtain ⟨⟨v, all, n, hall, hn⟩, hpath⟩ := h
      refine ⟨v, filterModulesByChanged (co.changedAbsPaths repo last) all, n,
        List.mem_map_of_mem hall, ?_⟩
      simp [filterModulesByChanged, Dict.filter, hn, hpath]

theorem wellFiled_modulesByVersion : (modulesByVersion repo co opts stored).WellFiled := by
  have hall : (co.registry repo).WellFiled := wellFiled_buildRegistry _ _ _ _
  unfold modulesByVersion
  cases diffBase co opts stored with
  | none => exact hall
  | some last =>
    constructor
    · intro v mods n info hv hn
      obtain ⟨all, hv', hmem⟩ := mem_items_filterModulesByChanged hv
      exact hall.version v all n info hv' ((hmem n info).mp hn).1
    · intro v mods n info hv hn
      obtain ⟨all, hv', hmem⟩ := mem_items_filterModulesByChanged hv
      exact hall.name v all n info hv' ((hmem n info).mp hn).1

/-- The modules a run writes. -/
def writtenModules : List ModuleInfo := (modulesByVersion repo co opts stored).modules

/-- The writes of a run that is not cut short. -/
def planWrites : List (WriteStep Vec) :=
  (fullPlan repo co opts stored (modulesByVersion repo co opts stored)).writes

/-- The transactions that write a list of modules. -/
inductive Planned (co : Checkout) (ps : List String) (written : List ModuleInfo) :
    WriteStep Vec → Prop
  | embed {embedder : Embedder Vec} {info : ModuleInfo} (h : info ∈ written) :
      Planned co ps written (.embed embedder info.name info.odooVersion (co.parse info).chunks)
  | result {info : ModuleInfo} (h : info ∈ written) :
      Planned co ps written (.writeResult ps (co.parseResult info))
  | view {info : ModuleInfo} (h : info ∈ written) :
      Planned co ps written (.writeView ps (co.viewResult info))
  | js {info : ModuleInfo} (h : info ∈ written) :
      Planned co ps written (.writeJs ps (co.jsResult info))
  | stylesheets {batch : List StylesheetInfo}
      (h : ∀ s ∈ batch, ∃ info ∈ written, s.module = info.name ∧ s.odooVersion = info.odooVersion) :
      Planned co ps written (.writeStylesheets ps batch)

/-- **A run writes its modules and nothing else.** -/
theorem planned_of_mem_planWrites {s : WriteStep Vec}
    (h : s ∈ planWrites repo co opts stored) :
    Planned co opts.ancestorProfiles (writtenModules repo co opts stored) s := by
  unfold planWrites fullPlan graphSteps at h
  simp only [List.mem_append] at h
  rcases h with h | ((h | h) | h) | h
  · unfold embedSteps at h
    split at h
    · split at h
      · obtain ⟨⟨v, n, info⟩, hmem, rfl⟩ := List.mem_map.mp h
        obtain ⟨mods, hv, hn⟩ := mem_indexedModules.mp (List.mem_filter.mp hmem).1
        have hfiled := wellFiled_modulesByVersion repo co opts stored
        obtain rfl := hfiled.version v mods n info hv hn
        obtain rfl := hfiled.name _ mods n info hv hn
        exact .embed (Registry.mem_modules.mpr ⟨_, mods, _, hv, hn⟩)
      · exact absurd h (by simp)
    · exact absurd h (by simp)
  · obtain ⟨info, hinfo, rfl⟩ := List.mem_map.mp h
    exact .result (mem_map_indexedModules.mp hinfo)
  · obtain ⟨info, hinfo, rfl⟩ := List.mem_map.mp h
    exact .view (mem_map_indexedModules.mp hinfo)
  · obtain ⟨info, hinfo, rfl⟩ := List.mem_map.mp h
    exact .js (mem_map_indexedModules.mp hinfo)
  · obtain ⟨batch, hbatch, rfl⟩ := List.mem_map.mp h
    refine .stylesheets fun s hs => ?_
    obtain ⟨info, hinfo, hsheet⟩ := List.mem_flatMap.mp (mem_of_mem_chunked hbatch hs)
    exact ⟨info, mem_map_indexedModules.mp hinfo, (co.parse info).stylesheets_named s hsheet⟩

/-- Every module a run writes has its three transactions. -/
theorem writeResult_mem_planWrites {info : ModuleInfo}
    (h : info ∈ writtenModules repo co opts stored) :
    .writeResult opts.ancestorProfiles (co.parseResult info) ∈
      planWrites repo co opts stored := by
  unfold planWrites fullPlan graphSteps
  simp only [List.mem_append, List.mem_map]
  exact Or.inr (Or.inl (Or.inl (Or.inl
    ⟨info, List.mem_map.mp (mem_map_indexedModules.mpr h), rfl⟩)))

theorem writeView_mem_planWrites {info : ModuleInfo}
    (h : info ∈ writtenModules repo co opts stored) :
    .writeView opts.ancestorProfiles (co.viewResult info) ∈ planWrites repo co opts stored := by
  unfold planWrites fullPlan graphSteps
  simp only [List.mem_append, List.mem_map]
  exact Or.inr (Or.inl (Or.inl (Or.inr
    ⟨info, List.mem_map.mp (mem_map_indexedModules.mpr h), rfl⟩)))

theorem writeJs_mem_planWrites {info : ModuleInfo}
    (h : info ∈ writtenModules repo co opts stored) :
    .writeJs opts.ancestorProfiles (co.jsResult info) ∈ planWrites repo co opts stored := by
  unfold planWrites fullPlan graphSteps
  simp only [List.mem_append, List.mem_map]
  exact Or.inr (Or.inl (Or.inr
    ⟨info, List.mem_map.mp (mem_map_indexedModules.mpr h), rfl⟩))

end ModulesByVersion

/-! ## The three kinds of plan -/

/-- What a run of `_index_repo` may have decided to do. -/
theorem planIndexRepo_cases {repo : Repo} {co : Checkout} {opts : RunOptions Vec}
    {stored : Option String} {plan : IndexPlan Vec}
    (h : planIndexRepo repo co opts stored = .ok plan) :
    (isUnchanged co opts stored = true ∧ plan = {}) ∨
    (isUnchanged co opts stored = false ∧ (diffBase co opts stored).isSome ∧
      (modulesByVersion repo co opts stored).modules = [] ∧
      plan = { head := headSteps repo co opts }) ∨
    (isUnchanged co opts stored = false ∧
      plan = fullPlan repo co opts stored (modulesByVersion repo co opts stored)) := by
  unfold planIndexRepo at h
  split at h
  · exact absurd h (by simp)
  · split at h
    · rename_i hun
      exact Or.inl ⟨hun, (Except.ok.inj h).symm⟩
    · rename_i hun
      dsimp only at h
      split at h
      · rename_i hempty
        rw [Bool.and_eq_true, List.isEmpty_iff] at hempty
        exact Or.inr (Or.inl ⟨by simpa using hun, hempty.1, hempty.2, (Except.ok.inj h).symm⟩)
      · exact Or.inr (Or.inr ⟨by simpa using hun, (Except.ok.inj h).symm⟩)

/-- A known head is not empty. -/
theorem Checkout.truthy_currentHead {co : Checkout} {current : String}
    (h : co.currentHead = some current) : truthy (some current) = some current := by
  have hne : current ≠ "" := by
    unfold Checkout.currentHead at h
    cases hout : co.head with
    | completed returncode stdout =>
      rw [hout] at h
      simp only [getRepoHead] at h
      split at h
      · exact absurd h (by simp)
      · rename_i hcond
        obtain rfl := Option.some.inj h
        exact fun he => hcond (Or.inr he)
    | raised =>
      rw [hout] at h
      exact absurd h (by simp [getRepoHead])
  simp [truthy, hne]

section Runs

variable {repo : Repo} {co : Checkout} {opts : RunOptions Vec} {w : World Vec}
  {plan : IndexPlan Vec}

theorem indexRepoUpTo_eq (h : planIndexRepo repo co opts (w.db.getRepoHeadSha repo.id) = .ok plan)
    (n : Nat) :
    indexRepoUpTo n repo co opts w = IndexStep.execAll (plan.steps.take n) ({}, w) := by
  rw [indexRepoUpTo, h]

theorem indexRepo_eq (h : planIndexRepo repo co opts (w.db.getRepoHeadSha repo.id) = .ok plan) :
    indexRepo repo co opts w = IndexStep.execAll plan.steps ({}, w) := by
  rw [indexRepo, h]

theorem isDir_of_planIndexRepo {stored : Option String}
    (h : planIndexRepo repo co opts stored = .ok plan) : co.isDir = true := by
  unfold planIndexRepo at h
  split at h
  · exact absurd h (by simp)
  · rename_i hdir
    simpa using hdir

theorem of_truthy {o : Option String} {a : String} (h : truthy o = some a) : o = some a :=
  (Option.filter_eq_some_iff.mp h).1

/-- `last_head` is the stored head or nothing. -/
theorem stored_of_lastHead {stored : Option String} {last : String}
    (h : lastHead co opts stored = some last) : stored = some last := by
  have hread : readHead opts stored = some last := by
    unfold lastHead at h
    split at h
    · rename_i last' _ htruthy
      split at h
      · obtain rfl := Option.some.inj h
        exact of_truthy htruthy
      · exact absurd h (by simp)
    · exact h
  unfold readHead at hread
  split at hread
  · exact absurd hread (by simp)
  · exact hread

/-- The commit a run diffs against is the stored one. -/
theorem stored_of_diffBase {stored : Option String} {last : String}
    (h : diffBase co opts stored = some last) : stored = some last := by
  unfold diffBase at h
  split at h
  · exact stored_of_lastHead (of_truthy h)
  · exact absurd h (by simp)

/-- A run that propagates had a head stored, knows the current one, and is not a full one. -/
theorem isIncremental_spec {stored : Option String} (h : isIncremental co opts stored = true) :
    opts.fullReindex = false ∧ (∃ current, co.currentHead = some current) ∧
      ∃ last, stored = some last := by
  simp only [isIncremental, Bool.and_eq_true, Bool.not_eq_true'] at h
  obtain ⟨⟨hlast, hcurrent⟩, hfull⟩ := h
  obtain ⟨last, hlast⟩ := Option.isSome_iff_exists.mp hlast
  exact ⟨hfull, Option.isSome_iff_exists.mp hcurrent, last, stored_of_lastHead hlast⟩

/-- **A repo whose stored head is the current one is skipped.** -/
theorem planIndexRepo_of_isUnchanged {stored : Option String} (hdir : co.isDir = true)
    (h : isUnchanged co opts stored = true) : planIndexRepo repo co opts stored = .ok {} := by
  rw [planIndexRepo, if_neg (by simp [hdir]), if_pos h]

theorem isUnchanged_currentHead (hfull : opts.fullReindex = false) (hpg : opts.pgConn = true)
    {current : String} (h : co.currentHead = some current) :
    isUnchanged co opts (some current) = true := by
  simp [isUnchanged, readHead, hfull, hpg, h, Checkout.truthy_currentHead h]

/-- **A run that has moved the stored head** has executed all its writes, and then the update,
    with the head of the checkout. -/
theorem advanced_spec {h0 h1 : String} {n : Nat}
    (hplan : planIndexRepo repo co opts (w.db.getRepoHeadSha repo.id) = .ok plan)
    (hstored : w.db.getRepoHeadSha repo.id = some h0) (hne : h0 ≠ h1)
    (hadvanced : (indexRepoUpTo n repo co opts w).1.db.getRepoHeadSha repo.id = some h1) :
    (plan.writes ++ plan.gc).length < n ∧ isUnchanged co opts (some h0) = false ∧
      opts.pgConn = true ∧ ∃ current, co.currentHead = some current ∧
        plan.head = [.updateHeadSha repo.id current] := by
  have hdb : (indexRepoUpTo n repo co opts w).1.db ≠ w.db := by
    intro heq
    rw [heq, hstored] at hadvanced
    exact hne (Option.some.inj hadvanced)
  have hpast : (plan.writes ++ plan.gc).length < n := by
    by_contra hle
    exact hdb (by rw [indexRepoUpTo_eq hplan, IndexPlan.db_execAll_take plan (by omega)])
  have hhead : isUnchanged co opts (some h0) = false ∧ plan.head = headSteps repo co opts ∧
      (headSteps repo co opts = [] → plan.propagate = []) := by
    have hplan' := hplan
    rw [hstored] at hplan'
    rcases planIndexRepo_cases hplan' with ⟨-, rfl⟩ | ⟨hun, -, -, rfl⟩ | ⟨hun, rfl⟩
    · refine absurd ?_ hdb
      rw [indexRepoUpTo_eq hplan]
      simp [IndexPlan.steps, IndexStep.execAll]
    · exact ⟨hun, rfl, fun _ => rfl⟩
    · refine ⟨hun, rfl, fun hnil => ?_⟩
      have hoff : isIncremental co opts (some h0) = false ∨ opts.pgConn = false := by
        unfold headSteps at hnil
        split at hnil
        · split at hnil
          · exact absurd hnil (by simp)
          · exact Or.inr (by simpa using ‹¬opts.pgConn = true›)
        · rename_i hcurrent
          exact Or.inl (by simp [isIncremental, hcurrent])
      show propagateSteps repo co opts (some h0) _ = []
      unfold propagateSteps
      rw [if_neg]
      cases hoff with
      | inl h => simp [h]
      | inr h => simp [h]
  obtain ⟨hun, hheadEq, hprop⟩ := hhead
  have hsteps : headSteps repo co opts ≠ [] := by
    intro hnil
    refine hdb ?_
    rw [indexRepoUpTo_eq hplan, IndexPlan.take_steps, IndexStep.execAll_write, hheadEq, hnil,
      hprop hnil, List.nil_append, List.take_nil]
    rfl
  unfold headSteps at hsteps hheadEq
  cases hcurrent : co.currentHead with
  | none =>
    rw [hcurrent] at hsteps
    exact absurd rfl hsteps
  | some current =>
    simp only [hcurrent] at hsteps hheadEq
    split at hsteps
    · rename_i hpg
      exact ⟨hpast, hun, hpg, current, rfl, by rw [hheadEq, if_pos hpg]⟩
    · exact absurd rfl hsteps

end Runs

end OdooSemantic
