import OdooSemantic.Indexer.References

/-!
# What depends on the order of indexing

Repos and core symbols are indexed in any order, each of them once and in full. Whether a
reference ends up as an edge is decided when its source is written: if the target is in the
graph by then, the edge is made and stays; if it is not, nothing makes it later
(`linked_iff`). A view that is indexed before its model has no edge to it for that reason
(`view_before_model`), and the same two repos the other way round give it one.
-/

namespace OdooSemantic

open KeyedStore FlaggedEdges

variable {Vec : Type}

/-! ## Full runs -/

section Full

variable (repo : Repo) (co : Checkout) (opts : RunOptions Vec)

theorem readHead_full (hfull : opts.fullReindex = true) (stored : Option String) :
    readHead opts stored = none := by
  simp [readHead, hfull]

/-- A run plans by what it reads of the stored head. -/
theorem planIndexRepo_congr {stored stored' : Option String}
    (h : readHead opts stored = readHead opts stored') :
    planIndexRepo repo co opts stored = planIndexRepo repo co opts stored' := by
  have hlast : lastHead co opts stored = lastHead co opts stored' := by
    unfold lastHead
    rw [h]
  have hbase : diffBase co opts stored = diffBase co opts stored' := by
    unfold diffBase
    rw [hlast]
  have hmodules : modulesByVersion repo co opts stored = modulesByVersion repo co opts stored' := by
    unfold modulesByVersion
    rw [hbase]
  unfold planIndexRepo isUnchanged fullPlan propagateSteps isIncremental
  rw [h, hbase, hmodules, hlast]

end Full

/-! ## Orders -/

/-- What is indexed once: a repo, in full, or the core symbols of a version. -/
inductive IndexUnit (Vec : Type) where
  | repo (repo : Repo) (co : Checkout) (opts : RunOptions Vec)
  | core (symbols : List CoreSymbolInfo)

namespace IndexUnit

/-- `_index_repo(…, full_reindex=True)`, and the first step of `index_core`. -/
def exec (w : World Vec) : IndexUnit Vec → World Vec
  | repo r co opts => (indexRepo r co { opts with fullReindex := true } w).1
  | core symbols => { w with index := { w.index with graph := writeCoreSymbols symbols w.index.graph } }

/-- The statements of a unit: they are the same whenever it is indexed. -/
def stmts : IndexUnit Vec → List Stmt
  | repo r co opts =>
      match planIndexRepo r co { opts with fullReindex := true } none with
      | .error _ => []
      | .ok plan => (plan.writes ++ plan.gc).flatMap WriteStep.stmts
  | core symbols => symbols.map .coreSymbol

theorem graph_exec (u : IndexUnit Vec) (w : World Vec) :
    (u.exec w).index.graph = Stmt.execAll u.stmts w.index.graph := by
  cases u with
  | repo r co opts =>
    have hplan : planIndexRepo r co { opts with fullReindex := true } (w.db.getRepoHeadSha r.id) =
        planIndexRepo r co { opts with fullReindex := true } none :=
      planIndexRepo_congr r co _ (by rw [readHead_full _ rfl, readHead_full _ rfl])
    simp only [exec, stmts, indexRepo, hplan]
    cases planIndexRepo r co { opts with fullReindex := true } none with
    | error e => rfl
    | ok plan =>
      simp only
      rw [plan.index_execAll_steps, WriteStep.graph_execAll]
  | core symbols =>
    rw [stmts, Stmt.execAll, List.foldl_map]
    rfl

end IndexUnit

/-- Index every unit of a list, in order. -/
def indexInOrder (order : List (IndexUnit Vec)) (w : World Vec) : World Vec :=
  order.foldl IndexUnit.exec w

theorem graph_indexInOrder (order : List (IndexUnit Vec)) (w : World Vec) :
    (indexInOrder order w).index.graph =
      Stmt.execAll (order.flatMap IndexUnit.stmts) w.index.graph := by
  induction order generalizing w with
  | nil => rfl
  | cons u order ih =>
    rw [indexInOrder, List.foldl_cons, ← indexInOrder, ih, u.graph_exec, List.flatMap_cons]
    exact List.foldl_append.symm

/-- **Which references are linked.** In every order, for each of the nine kinds of edge: the
    edge is in the graph, not marked unresolved, if and only if its target was there when a
    statement for its source was executed. -/
theorem linked_iff (order : List (IndexUnit Vec)) (db : Db) {e : Edge} (hreal : e.Real) :
    e.In (indexInOrder order { db }).index.graph ↔
      ∃ us s vs, order.flatMap IndexUnit.stmts = us ++ s :: vs ∧ s.Asks e ∧
        e.Ready (Stmt.execAll us {}) := by
  rw [graph_indexInOrder, Stmt.in_execAll Graph.coherent_empty hreal, or_iff_right]
  cases e <;> simp [Edge.In, XmlStore.LinkedTo]

/-! ### A view and its model

`base` has the model, and `web` in another repo a form for it. -/

def modelView (info : ModuleInfo) : ViewInfo where
  xmlid := "web.form"
  name := "form"
  model := "res.partner"
  module := info.name
  odooVersion := info.odooVersion
  viewType := "form"
  mode := "primary"
  inheritXmlid := none

def unitManifest (dir : String) : ManifestFile where
  dir := [dir]
  manifest := some { version := "17.0.1.0.0" }

def unitCheckout (dir : String) (parse : (info : ModuleInfo) → Parsed info) : Checkout where
  head := .completed 0 dir
  ancestry := fun _ => .completed 0 ""
  diff := fun _ => ⟨[], .printed⟩
  files := [[dir, "__manifest__.py"]]
  manifests := [unitManifest dir]
  parse := parse

theorem modelView_named (info : ModuleInfo) :
    ∀ v ∈ [modelView info], v.module = info.name ∧ v.odooVersion = info.odooVersion := by
  simp [modelView]

def parsedView (info : ModuleInfo) : Parsed info :=
  .ofViews info [modelView info] (modelView_named info)

def parsedModel (info : ModuleInfo) : Parsed info := .ofModel info "res.partner"

def viewUnit : IndexUnit Unit := .repo ⟨1, "/srv/web", "17.0"⟩ (unitCheckout "web" parsedView) {}

def modelUnit : IndexUnit Unit := .repo ⟨2, "/srv/odoo", "17.0"⟩ (unitCheckout "base" parsedModel) {}

def formTargets : Edge := .targetsModel "web.form" "17.0" ⟨"res.partner", "base", "17.0"⟩

/-- **Both ends are in the graph, and no edge between them.** -/
theorem view_before_model :
    formTargets.Ready (indexInOrder [viewUnit, modelUnit] {}).index.graph ∧
    ¬ formTargets.In (indexInOrder [viewUnit, modelUnit] {}).index.graph ∧
    formTargets.In (indexInOrder [modelUnit, viewUnit] {}).index.graph := by
  have hnone : (indexInOrder [viewUnit, modelUnit] {}).index.graph.targetsModel = ∅ := by
    decide
  refine ⟨⟨by decide, by decide⟩, fun h => ?_, ⟨1, false, by decide, by decide⟩⟩
  obtain ⟨i, u, -, hi⟩ := h
  rw [hnone] at hi
  exact absurd hi (by simp)

theorem linked_iff_form :
    formTargets.In (indexInOrder [viewUnit, modelUnit] {}).index.graph ↔
      ∃ us s vs, [viewUnit, modelUnit].flatMap IndexUnit.stmts = us ++ s :: vs ∧
        s.Asks formTargets ∧ formTargets.Ready (Stmt.execAll us {}) :=
  linked_iff [viewUnit, modelUnit] {} trivial

end OdooSemantic
